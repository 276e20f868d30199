import KeyScan.Service.Sections

/-! Traffic is a service with the calls in progress on it. A call is numbered when it is made and gets
one reply. What a call has still to do is a task, done in sections; tasks of different calls may take
turns in any order. -/
namespace KeyScan

/-- What is asked of a scan. -/
inductive Action where
  | seek (target : Bytes)
  | advance (mode : Mode)
  | endNow
  /-- end it and reply once it has ended -/
  | endLater
  deriving DecidableEq, Repr

/-- How a call comes to its scan. -/
inductive Route where
  /-- through the roster, which knows live scans only -/
  | roster
  | held
  deriving DecidableEq, Repr

/-- A call to a service. -/
inductive Request where
  | create (options : ScanOptions)
  | scan (route : Route) (id : ScanId) (action : Action)
  /-- end all live scans and reply once they have ended -/
  | close
  deriving DecidableEq

/-- The reply to a call. -/
inductive Reply where
  | created (id : ScanId)
  | ready
  | page (page : Page)
  /-- whether the end that was asked for has released the scan -/
  | ended (flag : Bool)
  | closed
  | failed (failure : Failure)
  deriving DecidableEq

def Reply.ofPage : Except Failure Page → Reply
  | .ok delivered => .page delivered
  | .error failure => .failed failure

/-- How an end is carried out: whether it had to wait for an advance, and the reply that its call
gets when it is over, unless that call was or will be answered otherwise. -/
structure Ending where
  deferred : Bool
  reply : Option Reply
  deriving DecidableEq

/-- The next section of a task. -/
inductive Stage where
  | fetch (mode : Mode)
  | leave (mode : Mode) (outcome : Reply)
  /-- hand a pooled outcome over; `pending` if an end waits for that -/
  | deliver (outcome : Reply) (pending : Bool)
  | release (ending : Ending)
  | withdraw (ending : Ending)
  | conclude (ending : Ending)
  | settle (ending : Ending)
  deriving DecidableEq

/-- What a call has still to do on a scan. -/
structure Task where
  call : Nat
  id : ScanId
  stage : Stage
  deriving DecidableEq

/-- A close in progress: the scans it has still to ask, and the numbers under which it waits for
those it has asked. -/
structure Closing where
  call : Nat
  left : List ScanId
  owed : List Nat
  deriving DecidableEq

/-- What can be seen of traffic. -/
inductive Event where
  | called (call : Nat) (request : Request)
  | begun (call : Nat) (id : ScanId)
  | granted (call : Nat) (id : ScanId) (deferred : Bool)
  /-- an advance is over -/
  | left (call : Nat) (id : ScanId)
  | released (call : Nat) (id : ScanId)
  | withdrawn (call : Nat) (id : ScanId)
  | concluded (call : Nat) (id : ScanId)
  | answered (call : Nat) (reply : Reply)
  deriving DecidableEq

/-- A service, what is still to be done on it, and the number of calls made. -/
structure Traffic (σ ι : Type) where
  service : Service σ ι
  tasks : List Task := []
  closings : List Closing := []
  calls : Nat := 0

namespace Traffic

variable {σ ι : Type}

/-- Whether no call is in progress. -/
def isQuiet (traffic : Traffic σ ι) : Bool := traffic.tasks.isEmpty && traffic.closings.isEmpty

end Traffic
end KeyScan
