/-! The roster of a service: which scan ids were given out and which of them are live. Ids ascend from
one and are not used again, so an id that was given out and is not on the roster has ended. -/
namespace KeyScan

abbrev ScanId := UInt32

/-- Puts an id into its place in an ascending list, once. -/
def ScanId.place (id : ScanId) : List ScanId → List ScanId
  | [] => [id]
  | head :: rest =>
    if id < head then id :: head :: rest
    else if id = head then head :: rest
    else head :: ScanId.place id rest

theorem ScanId.mem_place {id other : ScanId} {ids : List ScanId} :
    other ∈ ScanId.place id ids ↔ other = id ∨ other ∈ ids := by
  induction ids with
  | nil => simp [place]
  | cons head rest ih =>
    simp only [place]
    split
    · simp
    · split
      · rename_i same
        simp [same]
      · simp only [List.mem_cons, ih]
        grind

private theorem ScanId.pairwise_place (id : ScanId) {ids : List ScanId}
    (ascending : ids.Pairwise (· < ·)) : (ScanId.place id ids).Pairwise (· < ·) := by
  induction ids with
  | nil => simp [place]
  | cons head rest ih =>
    have ⟨least, tail⟩ := List.pairwise_cons.mp ascending
    simp only [place]
    split
    · rename_i less
      refine List.pairwise_cons.mpr ⟨fun other member => ?_, ascending⟩
      rcases List.mem_cons.mp member with same | member
      · exact same ▸ less
      · exact UInt32.lt_trans less (least other member)
    · rename_i notLess
      split
      · exact ascending
      · rename_i different
        refine List.pairwise_cons.mpr ⟨fun other member => ?_, ih tail⟩
        rcases mem_place.mp member with same | member
        · exact same ▸ Std.lt_of_le_of_ne (UInt32.not_lt.mp notLess) (Ne.symm different)
        · exact least other member

/-- The last id given out and the live ids in ascending order. -/
structure Roster where
  issued : ScanId := 0
  live : List ScanId := []
  ascending : live.Pairwise (· < ·) := by exact .nil

namespace Roster

def empty : Roster := {}

/-- Gives out the next id. -/
def allocate (roster : Roster) : ScanId × Roster :=
  (roster.issued + 1, { roster with issued := roster.issued + 1 })

def wasIssued (roster : Roster) (id : ScanId) : Bool :=
  decide (id ≠ 0) && decide (id ≤ roster.issued)

/-- Whether an id is live. -/
def isLive (roster : Roster) (id : ScanId) : Bool := roster.live.contains id

def register (id : ScanId) (roster : Roster) : Roster where
  issued := roster.issued
  live := id.place roster.live
  ascending := id.pairwise_place roster.ascending

/-- Takes an id off the roster and tells whether it was there. -/
def deregister (id : ScanId) (roster : Roster) : Bool × Roster :=
  (roster.isLive id,
    { issued := roster.issued
      live := roster.live.filter (· ≠ id)
      ascending := roster.ascending.filter (· ≠ id) })

def size (roster : Roster) : Nat := roster.live.length

def isEmpty (roster : Roster) : Bool := roster.live.isEmpty

end Roster
end KeyScan
