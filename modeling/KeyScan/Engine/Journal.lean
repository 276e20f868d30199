import KeyScan.Engine.Memory

namespace KeyScan

/-- A call to an engine. -/
inductive Call where
  | acquire (sequence : Sequence)
  | release (sequence : Sequence)
  | «open» (fillCache : Bool) (sequence : Sequence) (granted : Bool)
  | move (move : Move)
  | close
  deriving DecidableEq, Repr

/-- An engine with the calls made to it, the latest first. -/
structure Journaled (σ : Type) where
  engine : σ
  calls : List Call

namespace Journaled

variable {σ ι : Type}

def start (engine : σ) : Journaled σ := ⟨engine, []⟩

def note (call : Call) (journal : Journaled σ) : Journaled σ :=
  { journal with calls := call :: journal.calls }

/-- The calls in the order they were made, and the journal without them. -/
def takeCalls (journal : Journaled σ) : List Call × Journaled σ :=
  (journal.calls.reverse, { journal with calls := [] })

instance [Engine σ ι] : Engine (Journaled σ) ι where
  acquire journal :=
    let (sequence, engine) := Engine.acquire journal.engine
    (sequence, { journal with engine }.note (.acquire sequence))
  release sequence journal :=
    { journal with engine := Engine.release sequence journal.engine }.note (.release sequence)
  «open» fillCache sequence journal :=
    let (opened, engine) := Engine.open fillCache sequence journal.engine
    (opened, { journal with engine }.note (.open fillCache sequence opened.toBool))
  move move iterator journal :=
    let (landed, iterator, engine) := Engine.move move iterator journal.engine
    (landed, iterator, { journal with engine }.note (.move move))
  close iterator journal :=
    { journal with engine := Engine.close iterator journal.engine }.note .close
  entry? iterator journal := Engine.entry? iterator journal.engine
  health iterator journal := Engine.health iterator journal.engine
  reach journal := Engine.reach journal.engine

instance [MemoryBacked σ] : MemoryBacked (Journaled σ) where
  memory journal := MemoryBacked.memory journal.engine
  modify change journal := { journal with engine := MemoryBacked.modify change journal.engine }

end Journaled
end KeyScan
