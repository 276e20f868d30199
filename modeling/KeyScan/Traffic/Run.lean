import KeyScan.Traffic.Basic

/-! How traffic moves: a call is made, a task runs one section, or a close takes one step. Nothing is
said of who moves next, so what holds after every list of acts holds under every schedule. -/
namespace KeyScan

variable {σ ι : Type} [Engine σ ι]

/-- Runs the next section of a task: what can be seen of it, what is left of the task, and the
service afterwards. -/
def Task.run (task : Task) (service : Service σ ι) : List Event × Option Task × Service σ ι :=
  let continued (stage : Stage) : Option Task := some { task with stage }
  match task.stage with
  | .fetch mode =>
    let (outcome, service) := service.fetch mode task.id
    ([], continued (.leave mode (.ofPage outcome)), service)
  | .leave mode outcome =>
    let (pending, service) := service.leave task.id
    let left := Event.left task.call task.id
    match mode, pending with
    | .pooled, pending => ([left], continued (.deliver outcome pending), service)
    | .waiting, true => ([left], continued (.release ⟨true, some outcome⟩), service)
    | .waiting, false => ([left, .answered task.call outcome], none, service)
  | .deliver outcome pending =>
    ([.answered task.call outcome],
      if pending then continued (.release ⟨true, none⟩) else none, service)
  | .release ending =>
    ([.released task.call task.id], continued (.withdraw ending), service.release task.id)
  | .withdraw ending =>
    ([.withdrawn task.call task.id], continued (.conclude ending), service.withdraw task.id)
  | .conclude ending =>
    let (told, service) := service.conclude task.id
    (.concluded task.call task.id :: told.map fun call => .answered call (.ended true),
      continued (.settle ending), service)
  | .settle ending =>
    (ending.reply.toList.map (.answered task.call), none, service.count (.ended ending.deferred))

namespace Traffic

def answer (reply : Reply) (call : Nat) (service : Service σ ι) (traffic : Traffic σ ι) :
    List Event × Traffic σ ι :=
  ([.answered call reply], { traffic with service })

def addTask (task : Task) (traffic : Traffic σ ι) : Traffic σ ι :=
  { traffic with tasks := traffic.tasks ++ [task] }

/-- Starts a call on a scan. -/
def startAction (action : Action) (id : ScanId) (call : Nat) (traffic : Traffic σ ι) :
    List Event × Traffic σ ι :=
  match action with
  | .seek target =>
    match traffic.service.seek target id with
    | (.ok (), service) => traffic.answer .ready call service
    | (.error failure, service) => traffic.answer (.failed failure) call service
  | .advance mode =>
    match traffic.service.beginAdvance id with
    | (.ok (), service) =>
      ([.begun call id], { traffic with service }.addTask ⟨call, id, .fetch mode⟩)
    | (.error failure, service) => traffic.answer (.failed failure) call service
  | .endNow =>
    match traffic.service.requestEnd none id with
    | (.now, service) =>
      ([.granted call id false],
        { traffic with service }.addTask ⟨call, id, .release ⟨false, some (.ended true)⟩⟩)
    | (.deferred, service) =>
      ([.granted call id true, .answered call (.ended false)], { traffic with service })
    | (.alreadyEnded, service) => traffic.answer (.ended false) call service
  | .endLater =>
    match traffic.service.requestEnd (some call) id with
    | (.now, service) =>
      ([.granted call id false],
        { traffic with service }.addTask ⟨call, id, .release ⟨false, none⟩⟩)
    | (.deferred, service) => ([.granted call id true], { traffic with service })
    | (.alreadyEnded, service) => traffic.answer (.ended false) call service

/-- The reply to a call on an id that is not live. An end of what has ended is no failure. -/
def turnedAway (action : Action) (failure : Failure) : Reply :=
  match action, failure with
  | .endNow, .ended | .endLater, .ended => .ended false
  | _, failure => .failed failure

/-- Starts a numbered call. -/
def startRequest (request : Request) (call : Nat) (traffic : Traffic σ ι) :
    List Event × Traffic σ ι :=
  match request with
  | .create options =>
    match traffic.service.create options with
    | (.ok id, service) => traffic.answer (.created id) call service
    | (.error failure, service) => traffic.answer (.failed failure) call service
  | .scan .held id action => traffic.startAction action id call
  | .scan .roster id action =>
    match traffic.service.lookUp id with
    | .ok () => traffic.startAction action id call
    | .error failure => traffic.answer (turnedAway action failure) call traffic.service
  | .close =>
    if traffic.service.roster.isEmpty then traffic.answer .closed call traffic.service
    else
      let closing : Closing := ⟨call, traffic.service.roster.live, []⟩
      ([], { traffic with closings := traffic.closings ++ [closing] })

/-- Makes a call under the next number. -/
def start (request : Request) (traffic : Traffic σ ι) : List Event × Traffic σ ι :=
  let call := traffic.calls
  let (events, traffic) := { traffic with calls := call + 1 }.startRequest request call
  (.called call request :: events, traffic)

/-- The numbers of the calls answered by some events. -/
def answeredCalls (events : List Event) : List Nat :=
  events.filterMap fun
    | .answered call _ => some call
    | _ => none

/-- Tells the closes in progress which calls were answered. -/
def hear (events : List Event) (traffic : Traffic σ ι) : Traffic σ ι :=
  { traffic with
    closings := traffic.closings.map fun closing =>
      { closing with owed := closing.owed.filter fun call => !(answeredCalls events).contains call } }

/-- Runs the next section of the task at a place, if there is one. -/
def runTask (place : Nat) (traffic : Traffic σ ι) : List Event × Traffic σ ι :=
  match traffic.tasks[place]? with
  | none => ([], traffic)
  | some task =>
    let (events, rest, service) := task.run traffic.service
    let tasks := match rest with
      | some task => traffic.tasks.set place task
      | none => traffic.tasks.eraseIdx place
    (events, { traffic with service, tasks }.hear events)

/-- Asks for the end of the next scan of a close under a new number. -/
def ask (closing : Closing) (id : ScanId) (traffic : Traffic σ ι) :
    List Event × Closing × Traffic σ ι :=
  let number := traffic.calls
  let traffic := { traffic with calls := number + 1 }
  let waits := { closing with owed := closing.owed ++ [number] }
  match traffic.service.requestOrJoinEnd number id with
  | (.now, _, service) =>
    ([.granted number id false], waits,
      { traffic with service }.addTask ⟨number, id, .release ⟨false, none⟩⟩)
  | (.deferred, _, service) => ([.granted number id true], waits, { traffic with service })
  | (.alreadyEnded, true, service) => ([], waits, { traffic with service })
  | (.alreadyEnded, false, service) =>
    ([.answered number (.ended false)], closing, { traffic with service })

/-- Takes the next step of the close at a place: it asks every scan it found, waits for all it is
owed, and then replies. -/
def pursue (place : Nat) (traffic : Traffic σ ι) : List Event × Traffic σ ι :=
  match traffic.closings[place]? with
  | none => ([], traffic)
  | some closing =>
    match closing.left, closing.owed with
    | id :: left, _ =>
      let (events, closing, traffic) := traffic.ask { closing with left } id
      (events, { traffic with closings := traffic.closings.set place closing })
    | [], [] =>
      ([.answered closing.call .closed],
        { traffic with closings := traffic.closings.eraseIdx place })
    | [], _ :: _ => ([], traffic)

end Traffic

/-- Something that happens in traffic. -/
inductive Act where
  | call (request : Request)
  | run (task : Nat)
  | pursue (closing : Nat)
  deriving DecidableEq

namespace Traffic

/-- What an act brings about. -/
def act (act : Act) (traffic : Traffic σ ι) : List Event × Traffic σ ι :=
  match act with
  | .call request => traffic.start request
  | .run task => traffic.runTask task
  | .pursue closing => traffic.pursue closing

def acts : List Act → Traffic σ ι → List Event × Traffic σ ι
  | [], traffic => ([], traffic)
  | next :: rest, traffic =>
    let (events, traffic) := traffic.act next
    let (more, traffic) := acts rest traffic
    (events ++ more, traffic)

end Traffic
end KeyScan
