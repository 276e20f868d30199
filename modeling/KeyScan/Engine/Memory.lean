import KeyScan.Engine.Basic
import KeyScan.Snapshots
import KeyScan.Table.Walker

/-! The engine in memory: a version table written under consecutive sequence numbers. A snapshot is
the number of the last write, so later writes stay invisible to it. None of its calls fails. -/
namespace KeyScan

structure MemoryEngine where
  table : VersionTable
  sequence : Sequence
  snapshots : Snapshots

namespace MemoryEngine

def empty : MemoryEngine := ⟨.empty, 0, .empty⟩

/-- Writes a value under the next sequence number. -/
def put (engine : MemoryEngine) (key value : Bytes) : MemoryEngine :=
  let sequence := engine.sequence + 1
  { engine with sequence, table := engine.table.add sequence key value }

def delete (engine : MemoryEngine) (key : Bytes) : MemoryEngine :=
  let sequence := engine.sequence + 1
  { engine with sequence, table := engine.table.delete sequence key }

def get? (engine : MemoryEngine) (key : Bytes) : Option Bytes :=
  (engine.table.get key engine.sequence).2

/-- Takes a snapshot at the number of the last write. -/
def acquire (engine : MemoryEngine) : Sequence × MemoryEngine :=
  (engine.sequence, { engine with snapshots := engine.snapshots.acquire engine.sequence })

/-- Gives a snapshot back; one that is not held is passed over. -/
def release (sequence : Sequence) (engine : MemoryEngine) : MemoryEngine :=
  { engine with snapshots := (engine.snapshots.release sequence).2 }

instance : Engine MemoryEngine TableWalker where
  acquire := acquire
  release := release
  «open» _ sequence engine := (.ok (.start sequence), engine)
  move move walker engine :=
    let (landed, walker) := walker.move engine.table move
    (.ok landed, walker, engine)
  close _ engine := engine
  entry? walker _ := walker.current
  health _ _ := .ok ()
  reach engine := engine.table.size

/-- A write to the engine; no value deletes the key. -/
structure Write where
  key : Bytes
  value : Option Bytes

def apply (engine : MemoryEngine) (write : Write) : MemoryEngine :=
  match write.value with
  | some value => engine.put write.key value
  | none => engine.delete write.key

def ofWrites (writes : List Write) : MemoryEngine := writes.foldl apply .empty

end MemoryEngine

/-- Engines that keep a memory engine, at least for their snapshots. -/
class MemoryBacked (σ : Type) where
  memory : σ → MemoryEngine
  modify : (MemoryEngine → MemoryEngine) → σ → σ

instance : MemoryBacked MemoryEngine := ⟨id, id⟩

end KeyScan
