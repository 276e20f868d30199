import KeyScan.Service.Basic

/-! The critical sections of a scan. Each runs as a whole; between two sections of one call others may
come in. A seek is one section; an advance begins, fetches its page and leaves; an end is requested
and, once it may be carried out, releases the reader, withdraws the id, concludes and is counted. -/
namespace KeyScan.Service

variable {σ ι : Type} [Engine σ ι]

/-- Moves the reader of a scan to a target, if no advance is in progress and no end was granted. -/
def seek (target : Bytes) (id : ScanId) (service : Service σ ι) :
    Except Failure Unit × Service σ ι :=
  match service.scan? id with
  | none => (.error (.unknownScan id), service)
  | some scan =>
    match scan.admission.checkSeek with
    | .error failure => (.error failure, service.countRefusal failure)
    | .ok () =>
      let (outcome, reader, engine) := scan.reader.seek target service.engine
      let moved := { service with engine }.update id fun scan => { scan with reader }
      match outcome with
      | .ok parked => (.ok (), moved.count (.sought parked))
      | .error failure => (.error failure, moved.count .failed)

def beginAdvance (id : ScanId) (service : Service σ ι) : Except Failure Unit × Service σ ι :=
  match service.scan? id with
  | none => (.error (.unknownScan id), service)
  | some scan =>
    match scan.admission.begin with
    | .error failure => (.error failure, service.countRefusal failure)
    | .ok admission => (.ok (), service.update id fun scan => { scan with admission })

/-- Reads the page of an advance. -/
def fetch (mode : Mode) (id : ScanId) (service : Service σ ι) :
    Except Failure Page × Service σ ι :=
  match service.scan? id with
  | none => (.error (.unknownScan id), service)
  | some scan =>
    let (outcome, reader, engine) := scan.reader.page scan.highWaterMark service.engine
    let moved := { service with engine }.update id fun scan =>
      { scan with reader := { reader with target := none } }
    match outcome with
    | .ok page =>
      (.ok page,
        moved.count (.advanced mode page.entries.length.toUInt64 page.size.toUInt64))
    | .error failure => (.error failure, moved.count .failed)

/-- Ends the progress of an advance, and tells whether an end waits to be carried out. -/
def leave (id : ScanId) (service : Service σ ι) : Bool × Service σ ι :=
  match service.scan? id with
  | none => (false, service)
  | some scan =>
    let (pending, admission) := scan.admission.finish
    (pending, service.update id fun scan => { scan with admission })

def requestEnd (waiter : Option Nat) (id : ScanId) (service : Service σ ι) :
    Verdict × Service σ ι :=
  match service.scan? id with
  | none => (.alreadyEnded, service)
  | some scan =>
    let (verdict, admission) := scan.admission.requestEnd waiter
    (verdict, service.update id fun scan => { scan with admission })

/-- Asks for the end of a scan or joins an end that is under way; false if it is over. -/
def requestOrJoinEnd (waiter : Nat) (id : ScanId) (service : Service σ ι) :
    Verdict × Bool × Service σ ι :=
  match service.scan? id with
  | none => (.alreadyEnded, false, service)
  | some scan =>
    match scan.admission.requestEnd (some waiter) with
    | (.alreadyEnded, _) =>
      let (joined, admission) := scan.admission.joinEnd waiter
      (.alreadyEnded, joined, service.update id fun scan => { scan with admission })
    | (verdict, admission) =>
      (verdict, true, service.update id fun scan => { scan with admission })

/-- Gives back the iterator and the snapshot of a scan. -/
def release (id : ScanId) (service : Service σ ι) : Service σ ι :=
  match service.scan? id with
  | none => service
  | some scan =>
    let (_, reader, engine) := scan.reader.release service.engine
    { service with engine }.update id fun scan => { scan with reader }

/-- Takes a scan off the roster. -/
def withdraw (id : ScanId) (service : Service σ ι) : Service σ ι :=
  { service with roster := (service.roster.deregister id).2 }

/-- Marks a scan as ended, and gives those who waited for it. -/
def conclude (id : ScanId) (service : Service σ ι) : List Nat × Service σ ι :=
  match service.scan? id with
  | none => ([], service)
  | some scan =>
    let (told, admission) := scan.admission.conclude
    (told, service.update id fun scan => { scan with admission })

end KeyScan.Service
