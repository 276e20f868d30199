import KeyScan.Session.Basic

namespace KeyScan

/-- What a session is asked to do. A route says whether a scan is reached through the service or by
the one who holds it. -/
inductive Command where
  | put (key value : Bytes)
  | delete (key : Bytes)
  | get (key : Bytes)
  | create (options : ScanOptions)
  | info (route : Route) (id : ScanId)
  | phase (id : ScanId)
  | seek (route : Route) (id : ScanId) (target : Bytes)
  | next (route : Route) (id : ScanId)
  | nextThread (route : Route) (id : ScanId)
  | nextTicket (route : Route) (id : ScanId)
  | nextWait (route : Route) (id : ScanId)
  | nextDrop (route : Route) (id : ScanId)
  | nextCallback (route : Route) (id : ScanId) (followUp : Option FollowUp)
  | wait (ticket : Nat)
  | poll (ticket : Nat)
  | callback (number : Nat)
  | join (thread : Nat)
  | endNow (route : Route) (id : ScanId)
  | endTicket (route : Route) (id : ScanId)
  | endWait (route : Route) (id : ScanId)
  | waitEnd (ticket : Nat)
  | close
  | closeStart
  | closeResult
  | drop
  | tally
  | report
  | resetTally
  | shutGate
  | openGate

/-- How a command is answered. -/
inductive Answer where
  | nothing
  | gone
  /-- the command was not carried out, because it would have to wait for the gate -/
  | wouldBlock
  | absent
  | ready
  | value (value : Option Bytes)
  | created (id : ScanId)
  | info (id : ScanId) (phase : Phase) (keyAsBuffer valueAsBuffer : Bool) (highWaterMark : Nat)
  | phase (phase : Phase)
  | notHeld
  | page (page : Page)
  | flag (value : Bool)
  | failed (failure : Failure)
  | ticket (number : Nat) (inFlight : Bool)
  | inFlight (value : Bool)
  | callback (number : Nat)
  | delivery (delivery : Delivery)
  | thread (number : Nat)
  | endTicket (number : Nat)
  | closing
  | closeStarted (live idle : Nat)
  | tally (tally : Tally)
  | report (text : String)

/-- The answer that passes a reply on. -/
def Answer.ofReply : Reply → Answer
  | .created id => .created id
  | .ready | .closed => .ready
  | .page delivered => .page delivered
  | .ended released => .flag released
  | .failed failure => .failed failure

namespace Session

variable {σ ι : Type} [Engine σ ι] [MemoryBacked σ]

def modifyMemory (change : MemoryEngine → MemoryEngine) (session : Session σ ι) : Session σ ι :=
  let service := session.service
  let engine := MemoryBacked.modify change service.engine
  { session with traffic := { session.traffic with service := { service with engine } } }

def memory (session : Session σ ι) : MemoryEngine :=
  MemoryBacked.memory session.service.engine

/-- How a scan is reached: one that nobody holds has to be asked for by its id. -/
def route (route : Route) (id : ScanId) (session : Session σ ι) : Route :=
  match session.service.scan? id with
  | some _ => route
  | none => .roster

/-- Whether a call that waits for the engine would have to wait for the gate: the gate is shut and the
call would find its scan idle. -/
def wouldBlock (route : Route) (id : ScanId) (session : Session σ ι) : Bool :=
  let found := match route with
    | .held => true
    | .roster => session.service.roster.isLive id
  session.shut && found && decide (session.service.phase? id = some .idle)

def direct (request : Request) (session : Session σ ι) : Answer × Session σ ι :=
  let (_, reply, session) := session.ask request
  (Answer.ofReply (reply.getD (.failed .undelivered)), session)

def issue (call : Nat) (id : ScanId) (session : Session σ ι) : Answer × Session σ ι :=
  (.ticket session.tickets.length (session.holds id),
    { session with tickets := session.tickets ++ [{ call, id }] })

/-- Makes a pooled advance. If it is not refused, what follows depends on the use of its outcome. -/
def pooled (route : Route) (id : ScanId) (session : Session σ ι)
    (use : Nat → Session σ ι → Answer × Session σ ι) : Answer × Session σ ι :=
  match session.call (.scan route id (.advance .pooled)) with
  | (call, some failure, session) => (.failed failure, (session.takeReply call).2)
  | (call, none, session) => use call session

/-- What a callback has seen and done, once it is through. -/
def delivery? (call : Nat) (session : Session σ ι) : Option Delivery := do
  let callback ← session.callbacks.find? fun callback => callback.call == call
  let (outcome, phase) ← callback.seen
  match callback.followCall with
  | none => some { outcome, phase, followUp := none }
  | some follow =>
    let reply ← session.replies.lookup follow
    some { outcome, phase, followUp := some reply }

/-- Takes what a callback has seen and done, once it is through. -/
def takeDelivery (call : Nat) (session : Session σ ι) : Option Delivery × Session σ ι :=
  match session.delivery? call with
  | none => (none, session)
  | some delivery =>
    (some delivery,
      { session with callbacks := session.callbacks.filter fun callback => callback.call != call })

/-- Takes the outcome of an advance through its ticket. -/
def redeem (number : Nat) (after : TicketState) (session : Session σ ι) :
    Option Answer × Session σ ι :=
  match session.tickets[number]? with
  | none => (some .gone, session)
  | some ticket =>
    let marked (session : Session σ ι) : Session σ ι :=
      { session with tickets := session.tickets.set number { ticket with state := after } }
    match ticket.state with
    | .spent => (some .gone, session)
    | .taken => (some (.failed .undelivered), marked session)
    | .valid =>
      match session.takeReply ticket.call with
      | (some reply, session) => (some (.ofReply reply), marked session)
      | (none, _) => (none, session)

/-- Waits for a ticket, which is spent by it. -/
def wait (number : Nat) (session : Session σ ι) : Answer × Session σ ι :=
  let held : Bool := match session.tickets[number]? with
    | some ticket => ticket.state != .spent && session.holds ticket.id
    | none => false
  if held then (.wouldBlock, session)
  else
    let (answer, session) := session.redeem number .spent
    (answer.getD .wouldBlock, session)

/-- Waits for the ticket of an end, which is spent by it. -/
def waitEnd (number : Nat) (session : Session σ ι) : Answer × Session σ ι :=
  match session.endTickets[number]? with
  | none => (.gone, session)
  | some ticket =>
    if ticket.spent then (.gone, session)
    else
      match session.takeReply ticket.call with
      | (none, _) => (.wouldBlock, session)
      | (some reply, session) =>
        (.ofReply reply,
          { session with
            endTickets := session.endTickets.set number { ticket with spent := true } })

/-- Hands out a ticket for an end. -/
def issueEnd (call : Nat) (session : Session σ ι) : Answer × Session σ ι :=
  (.endTicket session.endTickets.length,
    { session with endTickets := session.endTickets ++ [{ call }] })

def describe (id : ScanId) (scan : Scan ι) : Answer :=
  .info id scan.admission.phase scan.keyAsBuffer scan.valueAsBuffer scan.highWaterMark

def openGate (session : Session σ ι) : Session σ ι :=
  let closing := session.closing.map fun started => (started.1, true)
  { session with shut := false, closing }.settle

/-- Starts to close the service from another thread, unless such a close waits for the gate. -/
def closeStart (session : Session σ ι) : Answer × Session σ ι :=
  match session.closing with
  | some (_, false) => (.closing, session)
  | _ =>
    let live := session.service.roster.live
    let idle := live.filter fun id => decide (session.service.phase? id = some .idle)
    let (call, _, session) := session.call .close
    (.closeStarted live.length idle.length,
      { session with closing := some (call, !session.shut) }.settle)

/-- Answers a command on a session whose service is gone: only held scans are left. -/
def answerDropped (command : Command) (session : Session σ ι) : Answer × Session σ ι :=
  let onHeld (id : ScanId) (request : Request) : Answer × Session σ ι :=
    match session.service.scan? id with
    | some _ => session.direct request
    | none => (.gone, session)
  match command with
  | .seek _ id target => onHeld id (.scan .held id (.seek target))
  | .next _ id => onHeld id (.scan .held id (.advance .waiting))
  | .endNow _ id => onHeld id (.scan .held id .endNow)
  | .endWait _ id => onHeld id (.scan .held id .endLater)
  | .info _ id =>
    match session.service.phase? id with
    | some phase => (.phase phase, session)
    | none => (.gone, session)
  | _ => (.gone, session)

/-- Answers a command on a session that has its service. -/
def answerLive (command : Command) (session : Session σ ι) : Answer × Session σ ι :=
  match command with
  | .put key value => (.nothing, session.modifyMemory (·.put key value))
  | .delete key => (.nothing, session.modifyMemory (·.delete key))
  | .get key => (.value (session.memory.get? key), session)
  | .create options => session.direct (.create options)
  | .info via id =>
    match session.route via id, session.service.lookUp id, session.service.scan? id with
    | .roster, .error failure, _ => (.failed failure, session)
    | _, _, some scan => (describe id scan, session)
    | _, _, none => (.failed (.unknownScan id), session)
  | .phase id =>
    match session.service.phase? id with
    | some phase => (.phase phase, session)
    | none => (.notHeld, session)
  | .seek via id target =>
    let route := session.route via id
    if session.wouldBlock route id then (.wouldBlock, session)
    else session.direct (.scan route id (.seek target))
  | .next via id =>
    let route := session.route via id
    if session.wouldBlock route id then (.wouldBlock, session)
    else session.direct (.scan route id (.advance .waiting))
  | .nextThread via id =>
    match session.ask (.scan (session.route via id) id (.advance .waiting)) with
    | (_, some reply, session) => (.ofReply reply, session)
    | (call, none, session) =>
      (.thread session.threads.length, { session with threads := session.threads ++ [call] })
  | .nextTicket via id =>
    session.pooled (session.route via id) id fun call session => session.settle.issue call id
  | .nextWait via id =>
    session.pooled (session.route via id) id fun call session =>
      match session.settle.takeReply call with
      | (some reply, session) => (.ofReply reply, session)
      | (none, session) => session.issue call id
  | .nextDrop via id =>
    session.pooled (session.route via id) id fun call session =>
      let (reply, session) := session.settle.takeReply call
      (.inFlight reply.isNone, session)
  | .nextCallback via id followUp =>
    session.pooled (session.route via id) id fun call session =>
      let callback : Callback := { call, id, followUp }
      let session := { session with callbacks := session.callbacks ++ [callback] }.settle
      match session.takeDelivery call with
      | (some delivery, session) => (.delivery delivery, session)
      | (none, session) =>
        (.callback session.heldCallbacks.length,
          { session with heldCallbacks := session.heldCallbacks ++ [call] })
  | .wait number => session.wait number
  | .poll number =>
    let (answer, session) := session.redeem number .taken
    (answer.getD .nothing, session)
  | .callback number =>
    match session.heldCallbacks[number]? with
    | none => (.absent, session)
    | some call =>
      let (delivery, session) := session.takeDelivery call
      (match delivery with
        | some delivery => .delivery delivery
        | none => .absent, session)
  | .join number =>
    match session.threads[number]? with
    | none => (.absent, session)
    | some call =>
      let (reply, session) := session.takeReply call
      (match reply with
        | some reply => .ofReply reply
        | none => .absent, session)
  | .endNow via id => session.direct (.scan (session.route via id) id .endNow)
  | .endTicket via id =>
    match session.call (.scan (session.route via id) id .endLater) with
    | (call, some failure, session) => (.failed failure, (session.takeReply call).2)
    | (call, none, session) => session.settle.issueEnd call
  | .endWait via id =>
    match session.ask (.scan (session.route via id) id .endLater) with
    | (_, some reply, session) => (.ofReply reply, session)
    | (call, none, session) => session.issueEnd call
  | .waitEnd number => session.waitEnd number
  | .close => if session.shut then (.wouldBlock, session) else session.direct .close
  | .closeStart => session.closeStart
  | .closeResult =>
    match session.closing with
    | some (_, true) => (.ready, session)
    | _ => (.nothing, session)
  | .drop =>
    let (_, session) := session.openGate.direct .close
    (.nothing, { session with dropped := true })
  | .tally => (.tally session.service.tally, session)
  | .report => (.report session.service.tally.report, session)
  | .resetTally =>
    let service := session.service.resetTally
    (.nothing, { session with traffic := { session.traffic with service } })
  | .shutGate => (.nothing, { session with shut := true })
  | .openGate => (.nothing, session.openGate)

def answer (command : Command) (session : Session σ ι) : Answer × Session σ ι :=
  if session.dropped then session.answerDropped command else session.answerLive command

end Session
end KeyScan
