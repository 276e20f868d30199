import KeyScan.Engine.Journal
import KeyScan.Traffic.Completion

/-! A session is one service used by callers on several threads. A gate can hold back every call that
an iterator would make to the engine; what needs such a call is then held in flight until the gate is
opened. All other work is done before a command is answered. -/
namespace KeyScan

/-- What a callback does with the scan once it has been handed its page. -/
inductive FollowUp where
  | advance
  | endNow
  deriving DecidableEq, Repr

def FollowUp.action : FollowUp → Action
  | .advance => .advance .waiting
  | .endNow => .endNow

/-- A callback of a pooled advance. -/
structure Callback where
  call : Nat
  id : ScanId
  followUp : Option FollowUp
  /-- what it was handed, and the phase of the scan at that moment -/
  seen : Option (Reply × Phase) := none
  /-- the number of the call that it made in turn -/
  followCall : Option Nat := none

/-- What a callback has seen and done. -/
structure Delivery where
  outcome : Reply
  phase : Phase
  followUp : Option Reply
  deriving DecidableEq

/-- Whether the outcome of an advance can still be had through its ticket. -/
inductive TicketState where
  | valid
  | taken
  | spent
  deriving DecidableEq, Repr

/-- A ticket for the outcome of a pooled advance. -/
structure Ticket where
  call : Nat
  id : ScanId
  state : TicketState := .valid

/-- A ticket for the outcome of an end. -/
structure EndTicket where
  call : Nat
  spent : Bool := false

/-- A service, its gate, and what its callers hold. Tickets, callbacks and threads are numbered by
their places. -/
structure Session (σ ι : Type) where
  traffic : Traffic (Journaled σ) ι
  shut : Bool := false
  /-- replies that nobody has taken yet, by the numbers of their calls -/
  replies : List (Nat × Reply) := []
  callbacks : List Callback := []
  tickets : List Ticket := []
  endTickets : List EndTicket := []
  /-- the advances of callbacks that were held when they were asked for -/
  heldCallbacks : List Nat := []
  /-- the calls of threads that were held when they were made -/
  threads : List Nat := []
  /-- the close that was started last, and whether the gate has been opened since -/
  closing : Option (Nat × Bool) := none
  /-- whether the service itself is gone; held scans remain -/
  dropped : Bool := false

namespace Session

variable {σ ι : Type} [Engine σ ι]

def start (options : ServiceOptions) (engine : σ) : Except Failure (Session σ ι) :=
  (Service.start options (Journaled.start engine)).map fun service => { traffic := { service } }

def service (session : Session σ ι) : Service (Journaled σ) ι := session.traffic.service

/-- The engine calls made since they were last taken. -/
def takeCalls (session : Session σ ι) : List Call × Session σ ι :=
  let service := session.traffic.service
  let (calls, engine) := service.engine.takeCalls
  (calls, { session with traffic := { session.traffic with service := { service with engine } } })

/-- Whether a section would make an engine call for an iterator. Only the reading of a page does. -/
def callsEngine (service : Service (Journaled σ) ι) (task : Task) : Bool :=
  match task.stage with
  | .fetch mode =>
    let after := (service.fetch mode task.id).2
    decide (service.engine.calls.length < after.engine.calls.length)
  | _ => false

def isHeld (session : Session σ ι) (task : Task) : Bool :=
  session.shut && callsEngine session.service task

/-- Whether an advance of a scan is held at the gate. -/
def holds (session : Session σ ι) (id : ScanId) : Bool :=
  session.traffic.tasks.any fun task => decide (task.id = id) && session.isHeld task

def keep (events : List Event) (session : Session σ ι) : Session σ ι :=
  { session with
    replies := session.replies ++ events.filterMap fun
      | .answered call reply => some (call, reply)
      | _ => none }

/-- Hands a reply to a callback, which may make a call in turn. -/
def handOver (callback : Callback) (reply : Reply) (session : Session σ ι) : Session σ ι :=
  let phase := (session.service.phase? callback.id).getD .ended
  let (followCall, events, traffic) :=
    match callback.followUp with
    | none => (none, [], session.traffic)
    | some followUp =>
      let (events, traffic) :=
        session.traffic.start (.scan .held callback.id followUp.action)
      (some session.traffic.calls, events, traffic)
  let called := { callback with seen := some (reply, phase), followCall }
  let callbacks := session.callbacks.map fun (other : Callback) =>
    if other.call = callback.call then called else other
  { session with traffic, callbacks }.keep events

/-- Passes an event on: a reply goes to the callback that waits for it, or is kept. -/
def pass (session : Session σ ι) (event : Event) : Session σ ι :=
  match event with
  | .answered call reply =>
    match session.callbacks.find? fun callback => callback.call == call with
    | some callback => session.handOver callback reply
    | none => session.keep [event]
  | _ => session

/-- A bound on the acts that bring the session to rest. -/
def rank (session : Session σ ι) : Nat :=
  session.traffic.rank +
    8 * (session.callbacks.filter fun callback => callback.seen.isNone).length

/-- Whether a close can take its next step. -/
def canPursue (closing : Closing) : Bool := !closing.left.isEmpty || closing.owed.isEmpty

/-- The next act of what is in progress and neither held nor waiting. -/
def nextAct? (session : Session σ ι) : Option Act :=
  match session.traffic.tasks.findIdx? fun task => !session.isHeld task with
  | some place => some (.run place)
  | none => (session.traffic.closings.findIdx? canPursue).map .pursue

/-- Acts until all that is in progress is held or waits for what is held. -/
def rest : (fuel : Nat) → Session σ ι → Session σ ι
  | 0, session => session
  | fuel + 1, session =>
    match session.nextAct? with
    | none => session
    | some act =>
      let (events, traffic) := session.traffic.act act
      rest fuel (events.foldl pass { session with traffic })

/-- Brings the session to rest. -/
def settle (session : Session σ ι) : Session σ ι := session.rest session.rank

/-- The kept reply to a call, which is kept no longer. -/
def takeReply (call : Nat) (session : Session σ ι) : Option Reply × Session σ ι :=
  (session.replies.lookup call,
    { session with replies := session.replies.filter fun reply => reply.1 != call })

/-- Makes a call. Gives its number, and the failure if it was refused at once. -/
def call (request : Request) (session : Session σ ι) : Nat × Option Failure × Session σ ι :=
  let number := session.traffic.calls
  let (events, traffic) := session.traffic.start request
  let refusal := match Traffic.reply? number events with
    | some (.failed failure) => some failure
    | _ => none
  (number, refusal, events.foldl pass { session with traffic })

/-- Makes a call, brings the session to rest and takes the reply, if there is one by then. -/
def ask (request : Request) (session : Session σ ι) : Nat × Option Reply × Session σ ι :=
  let (number, _, session) := session.call request
  let (reply, session) := session.settle.takeReply number
  (number, reply, session)

end Session
end KeyScan
