namespace KeyScan

/-- The kinds of report. -/
inductive Code where
  | ok
  | notFound
  | corruption
  | invalidArgument
  | ioError
  | busy
  | aborted
  | alreadyEnded
  deriving DecidableEq, Repr

def Code.name : Code → String
  | .ok => "Ok"
  | .notFound => "NotFound"
  | .corruption => "Corruption"
  | .invalidArgument => "InvalidArgument"
  | .ioError => "IOError"
  | .busy => "Busy"
  | .aborted => "Aborted"
  | .alreadyEnded => "AlreadyEnded"

def Code.all : List Code :=
  [.ok, .notFound, .corruption, .invalidArgument, .ioError, .busy, .aborted, .alreadyEnded]

def Code.ofName? (name : String) : Option Code :=
  Code.all.find? fun code => code.name == name

/-- A code with the message that explains it. -/
structure Report where
  code : Code
  message : Option String
  deriving DecidableEq, Repr

namespace Report

/-- The message of every report on a scan that has ended. -/
def endedMessage : String := "iterator has ended"

/-- A report of the given kind: success has no message and an ended scan always the same one. -/
def make (code : Code) (message : String) : Report :=
  match code with
  | .ok => ⟨.ok, none⟩
  | .alreadyEnded => ⟨.alreadyEnded, some endedMessage⟩
  | code => ⟨code, some message⟩

def text (report : Report) : String :=
  match report.message with
  | some message => report.code.name ++ ": " ++ message
  | none => report.code.name

end Report

/-- Why an operation was refused or failed. -/
inductive Failure where
  /-- both a strict and an inclusive upper bound were given -/
  | twoUpperBounds
  /-- both a strict and an inclusive lower bound were given -/
  | twoLowerBounds
  | malformedOptions
  | noWorkers
  | unknownScan (id : UInt32)
  | ended
  | advancing
  | seekWhileAdvancing
  /-- the outcome of an advance was already taken or will never come -/
  | undelivered
  | poolUnavailable (reason : String)
  /-- a report of the underlying engine, passed on unchanged -/
  | engine (report : Report)
  deriving DecidableEq, Repr

namespace Failure

/-- How a failure is worded. -/
def report : Failure → Report
  | .twoUpperBounds => .make .invalidArgument "only one of lt and lte may be given"
  | .twoLowerBounds => .make .invalidArgument "only one of gt and gte may be given"
  | .malformedOptions => .make .invalidArgument "options are not of the required form"
  | .noWorkers => .make .invalidArgument "worker_threads must be positive"
  | .unknownScan id => .make .invalidArgument ("unknown iterator id " ++ toString id.toNat)
  | .ended => .make .alreadyEnded Report.endedMessage
  | .advancing => .make .busy "an advance is already in progress"
  | .seekWhileAdvancing => .make .busy "cannot seek while an advance is in progress"
  | .undelivered => .make .aborted "advance dropped without completing"
  | .poolUnavailable reason => .make .ioError ("failed to build worker pool: " ++ reason)
  | .engine report => report

end Failure
end KeyScan
