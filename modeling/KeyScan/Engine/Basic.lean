import KeyScan.Direction
import KeyScan.Report
import KeyScan.Table.Version

/-! What a scan asks of an ordered key-value engine: snapshots, iterators that read at one, and
positioning calls that may fail. Nothing is assumed about the answers; an engine that keeps to the
order of keys has to be told apart by a hypothesis. -/
namespace KeyScan

/-- An engine with states `σ` whose iterators have states `ι`. Calls pass the engine's state on, so
that one may count, log or fail. -/
class Engine (σ : Type) (ι : outParam Type) where
  acquire : σ → Sequence × σ
  release : Sequence → σ → σ
  /-- opens an iterator that reads at a snapshot and stands nowhere yet -/
  «open» : (fillCache : Bool) → Sequence → σ → Except Report ι × σ
  /-- moves an iterator and tells whether it landed on an entry -/
  move : Move → ι → σ → Except Report Bool × ι × σ
  close : ι → σ → σ
  entry? : ι → σ → Option (Bytes × Bytes)
  /-- the error that an iterator has recorded, if any -/
  health : ι → σ → Except Report Unit
  /-- a bound on the entries that lie in one direction from any position -/
  reach : σ → Nat

/-- A course of moves that depends on the keys met on the way. -/
inductive Course (α : Type) where
  | arrive (result : α)
  | go (move : Move) (onward : Option Bytes → Course α)

namespace Course

variable {σ ι α β : Type} [Engine σ ι]

def once (move : Move) (result : α) : Course α := .go move fun _ => .arrive result

/-- Follows a course until it arrives or a move fails. -/
def follow : Course α → ι → σ → Except Report α × ι × σ
  | .arrive result, iterator, engine => (.ok result, iterator, engine)
  | .go move onward, iterator, engine =>
    match Engine.move move iterator engine with
    | (.error report, iterator, engine) => (.error report, iterator, engine)
    | (.ok _, iterator, engine) =>
      (onward ((Engine.entry? iterator engine).map Prod.fst)).follow iterator engine

end Course
end KeyScan
