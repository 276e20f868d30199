import KeyScan.Bytes

/-! Versions of keys. The versions of one key are ordered from the newest to the oldest, so the first
one at or after a key and a sequence number is what a reader at that number sees. -/
namespace KeyScan

/-- The number of a write; a reader sees the writes up to its own number. -/
abbrev Sequence := UInt64

/-- What tells versions apart: the user key and the number of the write. -/
structure VersionKey where
  key : Bytes
  sequence : Sequence
  deriving DecidableEq, Repr

namespace VersionKey

/-- Ascending user keys; descending sequence numbers within one key. -/
def Before (a b : VersionKey) : Prop := a.key < b.key ∨ a.key = b.key ∧ b.sequence < a.sequence

instance : LT VersionKey := ⟨Before⟩

theorem lt_iff {a b : VersionKey} :
    a < b ↔ a.key < b.key ∨ a.key = b.key ∧ b.sequence < a.sequence := Iff.rfl

/-- Whether one version key comes before another; the user keys are compared once. -/
def isBefore (a b : VersionKey) : Bool :=
  match a.key.order b.key with
  | .lt => true
  | .eq => decide (b.sequence < a.sequence)
  | .gt => false

private theorem isBefore_iff {a b : VersionKey} : a.isBefore b = true ↔ a < b := by
  rw [lt_iff, ← Bytes.order_eq_lt_iff, ← Bytes.order_eq_eq_iff]
  unfold isBefore
  cases a.key.order b.key <;> simp

instance (a b : VersionKey) : Decidable (a < b) := decidable_of_bool (a.isBefore b) isBefore_iff

theorem lt_irrefl (a : VersionKey) : ¬ a < a := by
  rw [lt_iff]
  rintro (less | ⟨_, less⟩)
  · exact List.lt_irrefl a.key less
  · exact UInt64.lt_irrefl a.sequence less

theorem lt_trans {a b c : VersionKey} (ab : a < b) (bc : b < c) : a < c := by
  rw [lt_iff] at ab bc ⊢
  rcases ab with ab | ⟨sameAB, ab⟩
  · rcases bc with bc | ⟨sameBC, _⟩
    · exact .inl (List.lt_trans ab bc)
    · exact .inl (sameBC ▸ ab)
  · rcases bc with bc | ⟨sameBC, bc⟩
    · exact .inl (sameAB ▸ bc)
    · exact .inr ⟨sameAB.trans sameBC, UInt64.lt_trans bc ab⟩

theorem lt_of_not_lt {a b : VersionKey} (different : a ≠ b) (notLess : ¬ a < b) : b < a := by
  rw [lt_iff] at notLess ⊢
  have keys : ¬ a.key < b.key := fun less => notLess (.inl less)
  by_cases same : a.key = b.key
  · refine .inr ⟨same.symm, Std.lt_of_le_of_ne ?_ ?_⟩
    · exact UInt64.not_lt.mp fun less => notLess (.inr ⟨same, less⟩)
    · intro sequences
      exact different (by cases a; cases b; simp_all)
  · exact .inl (Std.lt_of_le_of_ne (List.not_lt.mp keys) (Ne.symm same))

def order (a b : VersionKey) : Ordering := if a < b then .lt else if a = b then .eq else .gt

/-- A key's version key that comes before all its versions. -/
def firstOf (key : Bytes) : VersionKey := ⟨key, 18446744073709551615⟩

/-- A key's version key that comes after all its versions. -/
def lastOf (key : Bytes) : VersionKey := ⟨key, 0⟩

/-- Version keys in ascending order; equal ones keep their places. -/
def sort (keys : List VersionKey) : List VersionKey := keys.mergeSort fun a b => !decide (b < a)

end VersionKey

/-- A written version; no value marks a deletion. -/
structure Version where
  stamp : VersionKey
  value : Option Bytes
  deriving DecidableEq, Repr

end KeyScan
