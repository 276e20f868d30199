import KeyScan.Traffic.Completion

namespace KeyScan

variable {σ ι : Type} [Engine σ ι]

/-- Why a call got a reply of another kind than it should. -/
def Reply.failure : Reply → Failure
  | .failed failure => failure
  | _ => .undelivered

namespace Service

def openScan (options : ScanOptions) (service : Service σ ι) :
    Except Failure (ScanId × Service σ ι) :=
  match service.perform (.create options) with
  | (.created id, service) => .ok (id, service)
  | (reply, _) => .error reply.failure

def nextPage (mode : Mode) (id : ScanId) (service : Service σ ι) :
    Except Failure (Page × Service σ ι) :=
  match service.perform (.scan .roster id (.advance mode)) with
  | (.page delivered, service) => .ok (delivered, service)
  | (reply, _) => .error reply.failure

def seekTo (target : Bytes) (id : ScanId) (service : Service σ ι) :
    Except Failure (Service σ ι) :=
  match service.perform (.scan .roster id (.seek target)) with
  | (.ready, service) => .ok service
  | (reply, _) => .error reply.failure

def endScan (id : ScanId) (service : Service σ ι) : Except Failure (Service σ ι) :=
  match service.perform (.scan .roster id .endNow) with
  | (.ended _, service) => .ok service
  | (reply, _) => .error reply.failure

def openScans : List ScanOptions → Service σ ι → Except Failure (List ScanId × Service σ ι)
  | [], service => .ok ([], service)
  | options :: rest, service => do
    let (id, service) ← service.openScan options
    let (ids, service) ← openScans rest service
    .ok (id :: ids, service)

def endScans : List ScanId → Service σ ι → Except Failure (Service σ ι)
  | [], service => .ok service
  | id :: rest, service => do endScans rest (← service.endScan id)

/-- More pages than a scan can have: each but the last holds an entry. -/
def enoughPages (service : Service σ ι) : Nat := Engine.reach service.engine + 1

end Service

/-- Reads pages up to the first one that is done. -/
def readPages {m : Type → Type} [Monad m] {τ : Type} (next : τ → m (Page × τ))
    (endless : m (List Page × τ)) : (fuel : Nat) → τ → m (List Page × τ)
  | 0, _ => endless
  | fuel + 1, state => do
    let (page, state) ← next state
    if page.done then return ([page], state)
    else
      let (pages, state) ← readPages next endless fuel state
      return (page :: pages, state)

/-- How workers are scheduled: after the call with a number, they run the next sections of the tasks at
these places. What they run while replies are waited for may be put after the last call. -/
abbrev Schedule := Nat → List Nat

namespace Traffic

/-- Asks the pool for a page of each of several scans, and gives the numbers to wait for. -/
def askPages (schedule : Schedule) :
    List ScanId → Traffic σ ι → Except Failure (List (ScanId × Nat) × List Event × Traffic σ ι)
  | [], traffic => .ok ([], [], traffic)
  | id :: rest, traffic =>
    let call := traffic.calls
    let (asked, traffic) := traffic.start (.scan .roster id (.advance .pooled))
    match reply? call asked with
    | some reply => .error reply.failure
    | none => do
      let (meanwhile, traffic) := traffic.acts ((schedule call).map .run)
      let (tickets, later, traffic) ← askPages schedule rest traffic
      .ok ((id, call) :: tickets, asked ++ meanwhile ++ later, traffic)

/-- Waits for pages in turn, given what could be seen so far. -/
def awaitPages (past : List Event) :
    List (ScanId × Nat) → Traffic σ ι → Except Failure (List (ScanId × Page) × Traffic σ ι)
  | [], traffic => .ok ([], traffic)
  | (id, call) :: rest, traffic =>
    let (events, traffic) := traffic.await call traffic.rank
    match (reply? call (past ++ events)).getD (.failed .undelivered) with
    | .page delivered => do
      let (pages, traffic) ← awaitPages (past ++ events) rest traffic
      .ok ((id, delivered) :: pages, traffic)
    | reply => .error reply.failure

/-- Reads one page of each of several scans, all of them at the same time. -/
def readRound (schedule : Schedule) (ids : List ScanId) (traffic : Traffic σ ι) :
    Except Failure (List (ScanId × Page) × Traffic σ ι) := do
  let (tickets, past, traffic) ← traffic.askPages schedule ids
  traffic.awaitPages past tickets

end Traffic
end KeyScan
