import Mathlib.Order.Bounds.Basic
import KeyScan.Proofs.Engine.Census

namespace KeyScan

inductive SnapshotCall where
  | acquire (sequence : Sequence)
  | release (sequence : Sequence)
  deriving DecidableEq, Repr

namespace Snapshots

/-- Answers a call. Whoever takes a snapshot gets it; giving one back may fail. -/
def answer (call : SnapshotCall) (snapshots : Snapshots) : Bool × Snapshots :=
  match call with
  | .acquire sequence => (true, snapshots.acquire sequence)
  | .release sequence => snapshots.release sequence

/-- Answers calls in turn: each of them with whether it succeeded, and what they leave. -/
def answerAll : List SnapshotCall → Snapshots → List (SnapshotCall × Bool) × Snapshots
  | [], snapshots => ([], snapshots)
  | call :: rest, snapshots =>
    let (succeeded, snapshots) := snapshots.answer call
    let (more, snapshots) := answerAll rest snapshots
    ((call, succeeded) :: more, snapshots)

def taken (log : List (SnapshotCall × Bool)) : List Sequence :=
  log.filterMap fun
    | (.acquire sequence, _) => some sequence
    | (.release _, _) => none

def returned (log : List (SnapshotCall × Bool)) : List Sequence :=
  log.filterMap fun
    | (.release sequence, true) => some sequence
    | _ => none

variable {sequence : Sequence} {counts fewer : List (Sequence × Nat)}

/-- The numbers are kept in ascending order, each once. -/
def Sorted (counts : List (Sequence × Nat)) : Prop := (counts.map Prod.fst).Pairwise (· < ·)

private theorem mem_increase {key : Sequence} :
    key ∈ (increase sequence counts).map Prod.fst ↔ key = sequence ∨ key ∈ counts.map Prod.fst := by
  induction counts with
  | nil => simp [increase]
  | cons entry rest ih =>
    obtain ⟨head, count⟩ := entry
    unfold increase
    split
    · simp
    · split
      · rename_i same
        simp [same]
      · simp only [List.map_cons, List.mem_cons, ih]
        exact or_left_comm

theorem Sorted.increase (sorted : Sorted counts) (sequence : Sequence) :
    Sorted (Snapshots.increase sequence counts) := by
  induction counts with
  | nil => simp [Sorted, Snapshots.increase]
  | cons entry rest ih =>
    obtain ⟨head, count⟩ := entry
    obtain ⟨least, tail⟩ := List.pairwise_cons.mp sorted
    unfold Snapshots.increase
    split
    · rename_i less
      refine List.pairwise_cons.mpr ⟨List.forall_mem_cons.mpr ⟨less, ?_⟩, sorted⟩
      exact fun key member => UInt64.lt_trans less (least key member)
    · rename_i notLess
      split
      · exact sorted
      · rename_i different
        refine List.pairwise_cons.mpr ⟨fun key member => ?_, ih tail⟩
        rcases mem_increase.mp member with same | old
        · exact same ▸ Std.lt_of_le_of_ne (UInt64.not_lt.mp notLess) (Ne.symm different)
        · exact least key old

/-- Counting one less keeps the numbers, but for one that is not in use any more. -/
theorem decrease?_sublist (found : decrease? sequence counts = some fewer) :
    (fewer.map Prod.fst).Sublist (counts.map Prod.fst) := by
  induction counts generalizing fewer with
  | nil => cases found
  | cons entry rest ih =>
    obtain ⟨head, count⟩ := entry
    unfold decrease? at found
    split at found
    · split at found
      · cases found
        exact .refl _
      · cases found
        exact List.sublist_cons_self _ _
    · obtain ⟨less, later, rfl⟩ := Option.map_eq_some_iff.mp found
      exact (ih later).cons_cons head

theorem decrease?_eq_none (occupied : Occupied counts) (absent : sequence ∉ listed counts) :
    decrease? sequence counts = none := by
  induction counts with
  | nil => rfl
  | cons entry rest ih =>
    obtain ⟨head, count⟩ := entry
    obtain ⟨first, others⟩ := List.forall_mem_cons.mp occupied
    rw [listed_cons, List.mem_append, not_or] at absent
    have apart : sequence ≠ head := by
      intro same
      exact absent.1 (List.mem_replicate.mpr ⟨Nat.ne_of_gt first, same⟩)
    unfold decrease?
    rw [if_neg apart, ih others absent.2]
    rfl

theorem mem_listed_iff (occupied : Occupied counts) :
    sequence ∈ listed counts ↔ sequence ∈ counts.map Prod.fst := by
  unfold listed
  rw [List.mem_flatMap, List.mem_map]
  constructor
  · rintro ⟨entry, member, here⟩
    exact ⟨entry, member, (List.eq_of_mem_replicate here).symm⟩
  · rintro ⟨entry, member, rfl⟩
    exact ⟨entry, member, List.mem_replicate.mpr ⟨Nat.ne_of_gt (occupied entry member), rfl⟩⟩

theorem isEmpty_iff_size (snapshots : Snapshots) (occupied : Occupied snapshots.counts) :
    snapshots.isEmpty = true ↔ snapshots.size = 0 := by
  have nothing : snapshots.counts.map Prod.fst = [] ↔ listed snapshots.counts = [] := by
    rw [List.eq_nil_iff_forall_not_mem, List.eq_nil_iff_forall_not_mem]
    exact forall_congr' fun sequence => not_congr (mem_listed_iff occupied).symm
  rw [isEmpty, List.isEmpty_iff, ← length_listed, List.length_eq_zero_iff, ← nothing, List.map_eq_nil_iff]

theorem oldest?_eq_some_iff (snapshots : Snapshots) (occupied : Occupied snapshots.counts)
    (sorted : Sorted snapshots.counts) :
    snapshots.oldest? = some sequence ↔ IsLeast {key | key ∈ listed snapshots.counts} sequence := by
  have same : {key | key ∈ listed snapshots.counts} = {key | key ∈ snapshots.counts.map Prod.fst} :=
    Set.ext fun key => mem_listed_iff occupied
  rw [same, oldest?, ← List.head?_map]
  unfold Sorted at sorted
  generalize snapshots.counts.map Prod.fst = keys at sorted ⊢
  cases keys with
  | nil => simp [IsLeast]
  | cons first rest =>
    have least : IsLeast {key | key ∈ first :: rest} first :=
      ⟨List.mem_cons_self, List.forall_mem_cons.mpr
        ⟨UInt64.le_refl _, fun key member => UInt64.le_of_lt (List.rel_of_pairwise_cons sorted member)⟩⟩
    rw [List.head?_cons, Option.some.injEq]
    constructor
    · rintro rfl
      exact least
    · exact fun other => UInt64.le_antisymm (least.2 other.1) (other.2 least.1)

/-- The snapshots in use, with those that were given back, are those that were taken. -/
structure Settles (log : List (SnapshotCall × Bool)) (snapshots : Snapshots) : Prop where
  occupied : Occupied snapshots.counts
  sorted : Sorted snapshots.counts
  account : (listed snapshots.counts ++ returned log).Perm (taken log)

private theorem settles_empty : empty.Settles [] where
  occupied _ member := absurd member List.not_mem_nil
  sorted := .nil
  account := .nil

variable {log : List (SnapshotCall × Bool)} {snapshots : Snapshots}

theorem Settles.acquire (settles : snapshots.Settles log) (sequence : Sequence) :
    (snapshots.acquire sequence).Settles (log ++ [(.acquire sequence, true)]) where
  occupied := settles.occupied.increase sequence
  sorted := settles.sorted.increase sequence
  account := by
    have more := (increase_listed sequence snapshots.counts).append_right (returned log)
    have entered : taken (log ++ [(.acquire sequence, true)]) = taken log ++ [sequence] := by simp [taken]
    have same : returned (log ++ [(.acquire sequence, true)]) = returned log := by simp [returned]
    rw [entered, same]
    exact (more.trans (settles.account.cons sequence)).trans (List.perm_append_singleton _ _).symm

private theorem release_of_false (refused : (snapshots.release sequence).1 = false) :
    (snapshots.release sequence).2 = snapshots := by
  unfold release at refused ⊢
  cases found : decrease? sequence snapshots.counts with
  | none => rfl
  | some counts =>
    rw [found] at refused
    cases refused

/-- Exactly what is held can be given back. -/
theorem Settles.release_iff_mem (settles : snapshots.Settles log) :
    (snapshots.release sequence).1 = true ↔ sequence ∈ listed snapshots.counts := by
  unfold release
  by_cases member : sequence ∈ listed snapshots.counts
  · obtain ⟨fewer, found, -⟩ := decrease?_listed settles.occupied member
    simp [found, member]
  · simp [decrease?_eq_none settles.occupied member, member]

theorem Settles.release (settles : snapshots.Settles log) (sequence : Sequence) :
    (snapshots.release sequence).2.Settles
      (log ++ [(.release sequence, (snapshots.release sequence).1)]) := by
  have same : taken (log ++ [(.release sequence, (snapshots.release sequence).1)]) = taken log := by
    simp [taken]
  cases succeeded : (snapshots.release sequence).1 with
  | false =>
    rw [succeeded] at same
    rw [release_of_false succeeded]
    refine ⟨settles.occupied, settles.sorted, ?_⟩
    have kept : returned (log ++ [(.release sequence, false)]) = returned log := by simp [returned]
    rw [same, kept]
    exact settles.account
  | true =>
    rw [succeeded] at same
    obtain ⟨fewer, found, occupied, less⟩ :=
      decrease?_listed settles.occupied (settles.release_iff_mem.mp succeeded)
    have left : (snapshots.release sequence).2 = ⟨fewer⟩ := by simp [Snapshots.release, found]
    have entered : returned (log ++ [(.release sequence, true)]) = returned log ++ [sequence] := by
      simp [returned]
    rw [left]
    refine ⟨occupied, settles.sorted.sublist (decrease?_sublist found), ?_⟩
    rw [same, entered]
    have moved : (listed fewer ++ (returned log ++ [sequence])).Perm
        (sequence :: listed fewer ++ returned log) := by
      rw [← List.append_assoc]
      exact List.perm_append_singleton _ _
    exact (moved.trans (less.symm.append_right _)).trans settles.account

theorem Settles.answer (settles : snapshots.Settles log) (call : SnapshotCall) :
    (snapshots.answer call).2.Settles (log ++ [(call, (snapshots.answer call).1)]) := by
  cases call with
  | acquire sequence => exact settles.acquire sequence
  | release sequence => exact settles.release sequence

theorem Settles.answerAll (settles : snapshots.Settles log) (calls : List SnapshotCall) :
    (snapshots.answerAll calls).2.Settles (log ++ (snapshots.answerAll calls).1) := by
  induction calls generalizing snapshots log with
  | nil => simpa [Snapshots.answerAll] using settles
  | cons call rest ih =>
    have later := ih (settles.answer call)
    rwa [List.append_assoc] at later

/-- A snapshot is held at a number exactly if more were taken there than given back. -/
theorem Settles.mem_iff (settles : snapshots.Settles log) :
    sequence ∈ listed snapshots.counts ↔
      (returned log).count sequence < (taken log).count sequence := by
  have account := settles.account.count_eq sequence
  rw [List.count_append] at account
  rw [← List.count_pos_iff]
  omega

/-- After any calls, a snapshot can be given back exactly if more were taken at its number than given
back, and an attempt that fails changes nothing; as many are in use as were taken and not given back;
nothing is kept exactly if none is in use; and the oldest is at the lowest number at which more were taken
than given back, if there is one. -/
theorem answerAll_multiset (calls : List SnapshotCall) :
    let log := (empty.answerAll calls).1
    let snapshots := (empty.answerAll calls).2
    (∀ sequence,
      ((snapshots.release sequence).1 = true ↔
        (returned log).count sequence < (taken log).count sequence) ∧
      ((snapshots.release sequence).1 = false → (snapshots.release sequence).2 = snapshots)) ∧
    snapshots.size + (returned log).length = (taken log).length ∧
    (snapshots.isEmpty = true ↔ snapshots.size = 0) ∧
    (∀ sequence, snapshots.oldest? = some sequence ↔
      IsLeast {key | (returned log).count key < (taken log).count key} sequence) ∧
    (snapshots.oldest? = none ↔
      ∀ sequence, (taken log).count sequence ≤ (returned log).count sequence) := by
  intro log snapshots
  have settles : snapshots.Settles log := settles_empty.answerAll calls
  refine ⟨fun sequence => ⟨?_, release_of_false⟩, ?_,
    snapshots.isEmpty_iff_size settles.occupied, fun sequence => ?_, ?_⟩
  · rw [settles.release_iff_mem, settles.mem_iff]
  · rw [← length_listed, ← List.length_append]
    exact settles.account.length_eq
  · rw [snapshots.oldest?_eq_some_iff settles.occupied settles.sorted]
    simp only [settles.mem_iff]
  · rw [oldest?, ← List.head?_map, List.head?_eq_none_iff, List.eq_nil_iff_forall_not_mem]
    refine forall_congr' fun key => ?_
    rw [← mem_listed_iff settles.occupied, settles.mem_iff, Nat.not_lt]

/-- A number that was never taken and one that was given back already are passed over. -/
example :
    let left := (empty.answerAll
      [.acquire 7, .release 5, .acquire 3, .acquire 7, .release 3, .release 3]).2
    left.size = 2 ∧ left.oldest? = some 7 := by decide

end Snapshots
end KeyScan
