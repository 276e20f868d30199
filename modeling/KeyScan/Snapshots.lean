import KeyScan.Table.Version

namespace KeyScan

/-- Sequence numbers in ascending order, each with how many snapshots are held at it. -/
structure Snapshots where
  counts : List (Sequence × Nat)
  deriving DecidableEq, Repr

namespace Snapshots

def empty : Snapshots := ⟨[]⟩

/-- Counts one more snapshot at a number. -/
def increase (sequence : Sequence) : List (Sequence × Nat) → List (Sequence × Nat)
  | [] => [(sequence, 1)]
  | (head, count) :: rest =>
    if sequence < head then (sequence, 1) :: (head, count) :: rest
    else if sequence = head then (head, count + 1) :: rest
    else (head, count) :: increase sequence rest

/-- Counts one snapshot less at a number and drops the number with its last snapshot. Gives nothing
if no snapshot is held there. -/
def decrease? (sequence : Sequence) : List (Sequence × Nat) → Option (List (Sequence × Nat))
  | [] => none
  | (head, count) :: rest =>
    if sequence = head then
      if 1 < count then some ((head, count - 1) :: rest) else some rest
    else (decrease? sequence rest).map ((head, count) :: ·)

def acquire (snapshots : Snapshots) (sequence : Sequence) : Snapshots :=
  ⟨increase sequence snapshots.counts⟩

/-- Gives a snapshot back, and tells whether one was held at its number. -/
def release (snapshots : Snapshots) (sequence : Sequence) : Bool × Snapshots :=
  match decrease? sequence snapshots.counts with
  | some counts => (true, ⟨counts⟩)
  | none => (false, snapshots)

def size (snapshots : Snapshots) : Nat :=
  snapshots.counts.foldr (fun entry total => entry.2 + total) 0

def isEmpty (snapshots : Snapshots) : Bool := snapshots.counts.isEmpty

/-- The lowest number that a snapshot is held at. -/
def oldest? (snapshots : Snapshots) : Option Sequence := snapshots.counts.head?.map Prod.fst

end Snapshots
end KeyScan
