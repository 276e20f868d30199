import KeyScan.Engine.Memory

/-! An engine with scripted behaviour over a fixed list of entries in any order. Positioning calls
can be made to fail by their number, iterators can be refused, and an iterator that reaches a bad
place loses its position and reports an error from then on. Its snapshots are those of a memory
engine. -/
namespace KeyScan

/-- Where a seek leads among the entries. -/
inductive SeekRule where
  /-- to the first entry whose key is at or after the target -/
  | atOrAfter
  /-- to the last entry whose key is at or before the target -/
  | atOrBefore
  | nowhere
  /-- to a fixed place, whatever the target -/
  | always (index : Nat)
  deriving DecidableEq, Repr

/-- How a scripted engine behaves. -/
structure Script where
  entries : Array (Bytes × Bytes) := #[]
  seekRule : SeekRule := .atOrAfter
  /-- the first bad place, if any -/
  good : Option Nat := none
  /-- what an iterator reports once it has met a bad place -/
  failure : Option Report := none
  /-- errors of positioning calls by their number, counted from zero over all iterators -/
  failingCalls : List (Nat × Report) := []
  /-- the error that refuses every iterator -/
  refusal : Option Report := none

structure ScriptedEngine where
  script : Script
  memory : MemoryEngine
  moves : Nat

structure ScriptedIterator where
  index : Option Nat
  failed : Bool
  deriving DecidableEq, Repr

namespace Script

/-- The place of a target. -/
def find (script : Script) (target : Bytes) : Option Nat :=
  match script.seekRule with
  | .atOrAfter => script.entries.findIdx? fun entry => decide (target ≤ entry.1)
  | .atOrBefore =>
    (List.range script.entries.size).reverse.find? fun index =>
      script.entries[index]?.any fun entry => decide (entry.1 ≤ target)
  | .nowhere => none
  | .always index => some index

/-- The place that a move leads to; it may lie outside the entries. -/
def destination (script : Script) (index : Option Nat) : Move → Option Nat
  | .first => some 0
  | .last => if script.entries.size = 0 then none else some (script.entries.size - 1)
  | .seek target => script.find target
  | .next => index.map (· + 1)
  | .prev => index.bind fun index => if index = 0 then none else some (index - 1)

/-- An iterator brought to a place. -/
def land (script : Script) (iterator : ScriptedIterator) (place : Option Nat) : ScriptedIterator :=
  match place with
  | none => { iterator with index := none }
  | some index =>
    if script.good.any fun good => decide (good ≤ index) then { index := none, failed := true }
    else { iterator with index := if index < script.entries.size then some index else none }

end Script

namespace ScriptedEngine

def start (script : Script) : ScriptedEngine := ⟨script, .empty, 0⟩

instance : MemoryBacked ScriptedEngine where
  memory := ScriptedEngine.memory
  modify change engine := { engine with memory := change engine.memory }

instance : Engine ScriptedEngine ScriptedIterator where
  acquire engine :=
    let (sequence, memory) := engine.memory.acquire
    (sequence, { engine with memory })
  release sequence engine := { engine with memory := engine.memory.release sequence }
  «open» _ _ engine :=
    match engine.script.refusal with
    | some report => (.error report, engine)
    | none => (.ok ⟨none, false⟩, engine)
  move move iterator engine :=
    let counted := { engine with moves := engine.moves + 1 }
    match engine.script.failingCalls.lookup engine.moves with
    | some report => (.error report, iterator, counted)
    | none =>
      let iterator :=
        engine.script.land iterator (engine.script.destination iterator.index move)
      (.ok iterator.index.isSome, iterator, counted)
  close _ engine := engine
  entry? iterator engine := iterator.index.bind fun index => engine.script.entries[index]?
  health iterator engine :=
    match engine.script.failure with
    | some report => if iterator.failed then .error report else .ok ()
    | none => .ok ()
  reach engine := engine.script.entries.size

end ScriptedEngine
end KeyScan
