import KeyScan.Admission.Basic
import KeyScan.Reader
import KeyScan.Roster
import KeyScan.Tally

/-! A service keeps scans over one engine and knows them by id. A scan that has ended stays on record,
so that those who still hold it get a proper answer, but it is no longer on the roster. -/
namespace KeyScan

/-- A scan of a service. -/
structure Scan (ι : Type) where
  admission : Admission := {}
  reader : Reader ι
  highWaterMark : Nat
  keyAsBuffer : Bool
  valueAsBuffer : Bool

/-- An engine, the scans opened over it in the order of their ids, and the counts of what they did. -/
structure Service (σ ι : Type) where
  workers : Nat
  engine : σ
  roster : Roster := .empty
  tally : Tally := {}
  scans : List (ScanId × Scan ι) := []

namespace Service

variable {σ ι : Type}

/-- A service over an engine. It needs a worker for pooled calls. -/
def start (options : ServiceOptions) (engine : σ) : Except Failure (Service σ ι) :=
  if options.workers = 0 then .error .noWorkers else .ok { workers := options.workers, engine }

/-- The scan of an id, live or ended. -/
def scan? (service : Service σ ι) (id : ScanId) : Option (Scan ι) := service.scans.lookup id

def phase? (service : Service σ ι) (id : ScanId) : Option Phase :=
  (service.scan? id).map fun scan => scan.admission.phase

/-- Whether an id can be used: it must be live. An id that was given out and is not live has ended. -/
def lookUp (service : Service σ ι) (id : ScanId) : Except Failure Unit :=
  if service.roster.isLive id then .ok ()
  else if service.roster.wasIssued id then .error .ended
  else .error (.unknownScan id)

def update (id : ScanId) (change : Scan ι → Scan ι) (service : Service σ ι) : Service σ ι :=
  { service with
    scans := service.scans.map fun entry =>
      if entry.1 = id then (entry.1, change entry.2) else entry }

def count (occurrence : Occurrence) (service : Service σ ι) : Service σ ι :=
  { service with tally := service.tally.record occurrence }

/-- Counts a refusal if it is for an advance in progress. -/
def countRefusal (failure : Failure) (service : Service σ ι) : Service σ ι :=
  if failure.report.code = .busy then service.count .refused else service

/-- Forgets all counts. -/
def resetTally (service : Service σ ι) : Service σ ι := { service with tally := {} }

/-- Opens a scan. Options that describe no window cost nothing, not even an id. -/
def create [Engine σ ι] (options : ScanOptions) (service : Service σ ι) :
    Except Failure ScanId × Service σ ι :=
  match Window.ofOptions options with
  | .error failure => (.error failure, service)
  | .ok window =>
    let (id, roster) := service.roster.allocate
    let (reader, engine) := Reader.new window options.fillCache service.engine
    let scan : Scan ι :=
      { reader
        highWaterMark := options.highWaterMark
        keyAsBuffer := options.keyAsBuffer
        valueAsBuffer := options.valueAsBuffer }
    (.ok id,
      { service with engine, roster := roster.register id, scans := service.scans ++ [(id, scan)] }.count
        .created)

end Service
end KeyScan
