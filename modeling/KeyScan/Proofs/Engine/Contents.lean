import Mathlib.Algebra.Group.Nat.Defs
import KeyScan.Engine.Memory
import KeyScan.Proofs.Table.Visibility

/-! The engine in memory is a plain map with a past: at the number of the last write it shows the map
of all writes, and at an earlier number whatever it showed then. -/
namespace KeyScan.MemoryEngine

/-- The pairs of a plain map after a write. -/
def Write.enter (write : Write) (pairs : List (Bytes × Bytes)) : List (Bytes × Bytes) :=
  pairs.filter (fun pair => decide (pair.1 < write.key)) ++
    (write.value.map fun value => (write.key, value)).toList ++
    pairs.filter fun pair => decide (write.key < pair.1)

/-- The pairs of a plain map after some writes, in ascending order of keys. -/
def contents (writes : List Write) : List (Bytes × Bytes) :=
  writes.foldl (fun pairs write => write.enter pairs) []

theorem Write.mem_enter_iff {write : Write} {pairs : List (Bytes × Bytes)} {pair : Bytes × Bytes} :
    pair ∈ write.enter pairs ↔
      if write.key = pair.1 then write.value = some pair.2 else pair ∈ pairs := by
  obtain ⟨key, value⟩ := pair
  simp only [enter, List.mem_append, List.mem_filter, decide_eq_true_eq, Option.mem_toList,
    Option.map_eq_some_iff, Prod.mk.injEq]
  split
  · rename_i same
    subst same
    have irreflexive := List.lt_irrefl write.key
    simp [irreflexive]
  · rename_i different
    constructor
    · rintro ((⟨member, _⟩ | ⟨_, _, same, _⟩) | ⟨member, _⟩)
      · exact member
      · exact absurd same different
      · exact member
    · intro member
      by_cases less : key < write.key
      · exact .inl (.inl ⟨member, less⟩)
      · exact .inr ⟨member, by grind⟩

theorem Write.enter_ascending (write : Write) {pairs : List (Bytes × Bytes)}
    (ascending : Ascending pairs) : Ascending (write.enter pairs) := by
  have middle : ∀ pair ∈ (write.value.map fun value => (write.key, value)).toList,
      pair.1 = write.key := by
    intro pair member
    obtain ⟨value, _, rfl⟩ := Option.map_eq_some_iff.mp (Option.mem_toList.mp member)
    rfl
  refine List.pairwise_append.mpr ⟨List.pairwise_append.mpr ⟨ascending.filter _, ?_, ?_⟩,
    ascending.filter _, ?_⟩
  · cases write.value <;> simp
  · intro a below b own
    have less := of_decide_eq_true (List.mem_filter.mp below).2
    rwa [middle b own]
  · intro a member b above
    have greater := of_decide_eq_true (List.mem_filter.mp above).2
    rcases List.mem_append.mp member with below | own
    · have less := of_decide_eq_true (List.mem_filter.mp below).2
      exact List.lt_trans less greater
    · rwa [middle a own]

theorem contents_concat (writes : List Write) (write : Write) :
    contents (writes ++ [write]) = write.enter (contents writes) := by
  simp [contents]

private theorem Write.length_enter_le (write : Write) (pairs : List (Bytes × Bytes)) :
    (write.enter pairs).length ≤ pairs.length + 1 := by
  have kept : (pairs.filter fun pair => decide (pair.1 < write.key)).length +
      (pairs.filter fun pair => decide (write.key < pair.1)).length ≤ pairs.length := by
    induction pairs with
    | nil => exact Nat.le_refl _
    | cons pair rest ih =>
      have apart : ¬ (pair.1 < write.key ∧ write.key < pair.1) := fun both =>
        List.lt_irrefl _ (List.lt_trans both.1 both.2)
      simp only [List.filter_cons, decide_eq_true_eq, List.length_cons]
      by_cases below : pair.1 < write.key <;> by_cases above : write.key < pair.1 <;>
        simp only [below, above, ↓reduceIte, List.length_cons] <;> first | omega | grind
  have new : (write.value.map fun value => (write.key, value)).toList.length ≤ 1 := by
    cases write.value <;> simp
  simp only [enter, List.length_append]
  omega

theorem length_contents_le (writes : List Write) : (contents writes).length ≤ writes.length := by
  suffices run : ∀ pairs, (writes.foldl (fun pairs write => Write.enter write pairs) pairs).length ≤
      pairs.length + writes.length from Nat.le_trans (run []) (Nat.le_of_eq (Nat.zero_add _))
  induction writes with
  | nil =>
    intro pairs
    exact Nat.le_refl _
  | cons write rest ih =>
    intro pairs
    have bound := write.length_enter_le pairs
    have later := ih (write.enter pairs)
    rw [List.foldl_cons, List.length_cons]
    omega

/-- The pairs of the engine at the number of its last write. -/
def live (engine : MemoryEngine) : List (Bytes × Bytes) := engine.table.live engine.sequence

variable {engine : MemoryEngine} {write : Write}

@[simp] theorem apply_table :
    (engine.apply write).table =
      engine.table.write ⟨⟨write.key, engine.sequence + 1⟩, write.value⟩ := by
  unfold apply
  cases write.value <;> rfl

@[simp] theorem apply_sequence : (engine.apply write).sequence = engine.sequence + 1 := by
  unfold apply
  cases write.value <;> rfl

/-- No version is numbered above the last write. -/
def Numbered (engine : MemoryEngine) : Prop :=
  ∀ version ∈ engine.table.versions, version.stamp.sequence ≤ engine.sequence

theorem toNat_succ {sequence : Sequence} (room : sequence.toNat + 1 < 2 ^ 64) :
    (sequence + 1).toNat = sequence.toNat + 1 := by
  rw [UInt64.toNat_add, UInt64.toNat_one, Nat.mod_eq_of_lt room]

theorem lt_succ {sequence other : Sequence} (room : other.toNat + 1 < 2 ^ 64)
    (bound : sequence ≤ other) : sequence < other + 1 := by
  rw [UInt64.lt_iff_toNat_lt, toNat_succ room]
  exact Nat.lt_succ_of_le (UInt64.le_iff_toNat_le.mp bound)

theorem Numbered.apply (numbered : engine.Numbered) (room : engine.sequence.toNat + 1 < 2 ^ 64) :
    (engine.apply write).Numbered := by
  intro version member
  rw [apply_table, VersionTable.mem_write_iff] at member
  rw [apply_sequence]
  rcases member with rfl | ⟨held, _⟩
  · exact UInt64.le_refl _
  · exact UInt64.le_of_lt (lt_succ room (numbered version held))

/-- What a reader at an earlier number sees does not change with a write. -/
theorem live_apply_of_le {sequence : Sequence} (room : engine.sequence.toNat + 1 < 2 ^ 64)
    (earlier : sequence ≤ engine.sequence) :
    (engine.apply write).table.live sequence = engine.table.live sequence := by
  rw [apply_table]
  exact VersionTable.live_write_of_lt (lt_succ room earlier)

/-- At its own number a write takes effect as in a plain map. -/
theorem live_apply (numbered : engine.Numbered) (room : engine.sequence.toNat + 1 < 2 ^ 64) :
    (engine.apply write).live = write.enter engine.live := by
  refine (VersionTable.live_ascending _ _).ext
    (write.enter_ascending (VersionTable.live_ascending _ _)) ?_
  intro pair
  have value := VersionTable.valueAt?_write_newest
    ⟨⟨write.key, engine.sequence + 1⟩, write.value⟩ pair.1 numbered
    (lt_succ room (UInt64.le_refl _))
  rw [Write.mem_enter_iff, live, VersionTable.mem_live_iff, apply_table, apply_sequence, value]
  split
  · rfl
  · exact VersionTable.mem_live_iff.symm

/-- The same versions under the same numbers; the snapshots in use may differ. -/
structure Agrees (before after : MemoryEngine) : Prop where
  table : after.table = before.table
  sequence : after.sequence = before.sequence

theorem Agrees.refl (engine : MemoryEngine) : engine.Agrees engine := ⟨rfl, rfl⟩

theorem Agrees.trans {first second third : MemoryEngine} (one : first.Agrees second)
    (two : second.Agrees third) : first.Agrees third :=
  ⟨two.table.trans one.table, two.sequence.trans one.sequence⟩

theorem Agrees.of_eq {before after : MemoryEngine} (same : after = before) : before.Agrees after :=
  same ▸ .refl before

theorem acquire_agrees (engine : MemoryEngine) : engine.Agrees engine.acquire.2 := ⟨rfl, rfl⟩

/-- An engine that shows, at every number up to that of the last write of another, what the other
shows. -/
structure Extends (before after : MemoryEngine) : Prop where
  reaches : before.sequence ≤ after.sequence
  pairs : ∀ sequence ≤ before.sequence, after.table.live sequence = before.table.live sequence

theorem Agrees.extends {before after : MemoryEngine} (agrees : before.Agrees after) :
    before.Extends after where
  reaches := agrees.sequence ▸ UInt64.le_refl _
  pairs sequence _ := congrArg (fun table => table.live sequence) agrees.table

theorem extends_apply (write : Write) (room : engine.sequence.toNat + 1 < 2 ^ 64) :
    engine.Extends (engine.apply write) where
  reaches := apply_sequence ▸ UInt64.le_of_lt (lt_succ room (UInt64.le_refl _))
  pairs _ earlier := live_apply_of_le room earlier

/-- An engine that has taken exactly some writes, fewer than there are sequence numbers. -/
structure Holds (engine : MemoryEngine) (writes : List Write) : Prop where
  numbered : engine.Numbered
  counted : engine.sequence.toNat = writes.length
  shown : engine.live = contents writes

theorem holds_empty : empty.Holds [] where
  numbered _ member := absurd member List.not_mem_nil
  counted := rfl
  shown := rfl

theorem Holds.agrees {writes : List Write} {after : MemoryEngine} (holds : engine.Holds writes)
    (agrees : engine.Agrees after) : after.Holds writes := by
  obtain ⟨numbered, counted, shown⟩ := holds
  unfold Numbered at numbered
  unfold live at shown
  refine ⟨?_, ?_, ?_⟩
  · rwa [Numbered, agrees.table, agrees.sequence]
  · rwa [agrees.sequence]
  · rwa [live, agrees.table, agrees.sequence]

theorem Holds.apply {writes : List Write} (holds : engine.Holds writes)
    (room : writes.length + 1 < 2 ^ 64) : (engine.apply write).Holds (writes ++ [write]) := by
  have space : engine.sequence.toNat + 1 < 2 ^ 64 := holds.counted ▸ room
  refine ⟨holds.numbered.apply space, ?_, ?_⟩
  · rw [apply_sequence, toNat_succ space, holds.counted, List.length_append, List.length_singleton]
  · rw [live_apply holds.numbered space, holds.shown, contents_concat]

theorem holds_ofWrites {writes : List Write} (bounded : writes.length < 2 ^ 64) :
    (ofWrites writes).Holds writes := by
  suffices run : ∀ (rest before : List Write) (engine : MemoryEngine), engine.Holds before →
      (before ++ rest).length < 2 ^ 64 → (rest.foldl MemoryEngine.apply engine).Holds (before ++ rest) from
    run writes [] empty holds_empty bounded
  intro rest
  induction rest with
  | nil =>
    intro before engine holds _
    rwa [List.append_nil]
  | cons write rest ih =>
    intro before engine holds bounded
    have assoc : before ++ write :: rest = (before ++ [write]) ++ rest := by simp
    rw [assoc] at bounded ⊢
    refine ih (before ++ [write]) (engine.apply write) (holds.apply ?_) bounded
    rw [List.length_append, List.length_append, List.length_singleton] at bounded
    omega

end KeyScan.MemoryEngine
