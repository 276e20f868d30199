import KeyScan.Report

/-! Admission to one scan. At most one advance is in progress at a time, seeks are only admitted in
between, and an end that is asked for during an advance is put off until the advance is over.

```text
        begin              finish
  idle ───────→ advancing ────────→ idle
   │                │
   │ requestEnd     │ requestEnd
   ↓                ↓
 ending ←───────────┘
   │ conclude
   ↓
 ended
```
-/
namespace KeyScan

/-- What a scan is doing. -/
inductive Phase where
  | idle
  | advancing
  /-- an end is being carried out, or waits for the advance in progress -/
  | ending
  | ended
  deriving DecidableEq, Repr

def Phase.name : Phase → String
  | .idle => "Idle"
  | .advancing => "Advancing"
  | .ending => "EndPending"
  | .ended => "Ended"

/-- What to do about a request to end. -/
inductive Verdict where
  | now
  | deferred
  | alreadyEnded
  deriving DecidableEq, Repr

def Verdict.name : Verdict → String
  | .now => "Now"
  | .deferred => "Deferred"
  | .alreadyEnded => "AlreadyEnded"

/-- The phase of a scan and the numbers of those who wait for its end. -/
structure Admission where
  phase : Phase := .idle
  waiting : List Nat := []
  deriving DecidableEq, Repr

namespace Admission

/-- Whether no further advance or seek is admitted. -/
def isEnding (admission : Admission) : Bool :=
  match admission.phase with
  | .ending | .ended => true
  | .idle | .advancing => false

def begin (admission : Admission) : Except Failure Admission :=
  match admission.phase with
  | .idle => .ok { admission with phase := .advancing }
  | .advancing => .error .advancing
  | .ending | .ended => .error .ended

def checkSeek (admission : Admission) : Except Failure Unit :=
  match admission.phase with
  | .idle => .ok ()
  | .advancing => .error .seekWhileAdvancing
  | .ending | .ended => .error .ended

/-- Takes note that an advance is over, and tells whether an end waits to be carried out. -/
def finish (admission : Admission) : Bool × Admission :=
  match admission.phase with
  | .advancing => (false, { admission with phase := .idle })
  | .ending => (true, admission)
  | .idle | .ended => (false, admission)

/-- Asks to end. A waiter is kept if the end is granted. -/
def requestEnd (waiter : Option Nat) (admission : Admission) : Verdict × Admission :=
  let granted : Admission := ⟨.ending, admission.waiting ++ waiter.toList⟩
  match admission.phase with
  | .idle => (.now, granted)
  | .advancing => (.deferred, granted)
  | .ending | .ended => (.alreadyEnded, admission)

/-- Waits for an end that was granted before. The waiter is refused if none is under way. -/
def joinEnd (waiter : Nat) (admission : Admission) : Bool × Admission :=
  match admission.phase with
  | .ending => (true, { admission with waiting := admission.waiting ++ [waiter] })
  | .idle | .advancing | .ended => (false, admission)

/-- Takes note that the end was carried out, and lets the waiters go. -/
def conclude (admission : Admission) : List Nat × Admission := (admission.waiting, ⟨.ended, []⟩)

end Admission
end KeyScan
