import KeyScan.Proofs.Benchmark.Dividing
import KeyScan.Proofs.Benchmark.Draining

namespace KeyScan.Benchmark

/-- The numbers that the generator chooses after a state. -/
def targets (keys : UInt64) : (count : Nat) → (state : UInt64) → List Nat
  | 0, _ => []
  | count + 1, state => (advance state % keys).toNat :: targets keys count (advance state)

def onlyPage (valueSize number : Nat) : Page := ⟨[entryOf valueSize number], false⟩

variable {valueSize count : Nat} {keys : UInt64}

private theorem length_targets (keys : UInt64) (count : Nat) (state : UInt64) :
    (targets keys count state).length = count := by
  induction count generalizing state with
  | zero => rfl
  | succ count ih => rw [targets, List.length_cons, ih]

private theorem mod_lt (some : keys ≠ 0) (state : UInt64) : (state % keys).toNat < keys.toNat := by
  have positive : 0 < keys.toNat := by
    apply Nat.pos_of_ne_zero
    intro zero
    exact some (UInt64.toNat_inj.mp zero)
  rw [UInt64.toNat_mod]
  exact Nat.mod_lt _ positive

theorem targets_lt (some : keys ≠ 0) {state : UInt64} {number : Nat}
    (chosen : number ∈ targets keys count state) : number < keys.toNat := by
  induction count generalizing state with
  | zero => cases chosen
  | succ count ih =>
    rcases List.mem_cons.mp chosen with first | later
    · rw [first]
      exact mod_lt some (advance state)
    · exact ih later

def whole : Window := ⟨.forward, none, none, none, none, -1, true, true⟩

private theorem filter_range_le {number : Nat} (inside : number < count) :
    ∃ rest, (List.range count).filter (fun other => decide (number ≤ other)) = number :: rest := by
  obtain ⟨more, rfl⟩ := Nat.exists_eq_add_of_lt inside
  have below : (List.range number).filter (fun other => decide (number ≤ other)) = [] := by
    apply List.filter_eq_nil_iff.mpr
    intro other member
    have less := List.mem_range.mp member
    simp only [decide_eq_true_eq]
    omega
  have here : decide (number ≤ number) = true := decide_eq_true (Nat.le_refl number)
  rw [Nat.add_assoc, Nat.add_comm more 1, ← Nat.add_assoc, List.range_add, List.range_succ,
    List.filter_append, List.filter_append, below, List.nil_append, List.filter_singleton, here]
  exact ⟨_, rfl⟩

/-- From the key with a number on, the next pair is the one with that number. -/
theorem since_keyOf (valueSize : Nat) {number : Nat} (few : count ≤ 10 ^ 8) (inside : number < count) :
    ∃ rest, Direction.forward.since (pairs valueSize count) (keyOf number) =
      pairOf valueSize number :: rest := by
  obtain ⟨rest, found⟩ := filter_range_le inside
  have since : Direction.forward.since (pairs valueSize count) (keyOf number) =
      ((List.range count).filter fun other => decide (number ≤ other)).map (pairOf valueSize) := by
    rw [Direction.since, Direction.ahead, Direction.arrange, pairs, List.filter_map]
    refine congrArg (List.map _) (List.filter_congr ?_)
    intro other member
    have less := List.mem_range.mp member
    have before : Direction.forward.before (keyOf other) (keyOf number) ↔ other < number :=
      keyOf_lt_iff (by omega) (by omega)
    rw [Function.comp_apply, pairOf, ← decide_not, decide_eq_decide, before, Nat.not_lt]
  rw [since, found]
  exact ⟨rest.map (pairOf valueSize), rfl⟩

private theorem page_of_seek {outlook : Outlook} {number : Nat} (window : outlook.window = whole)
    (shown : outlook.pairs = pairs valueSize count) (few : count ≤ 10 ^ 8) (inside : number < count) :
    ((outlook.seek (keyOf number)).2.page 0).1 = onlyPage valueSize number := by
  obtain ⟨rest, since⟩ := since_keyOf valueSize few inside
  have within : whole.outOfRange (keyOf number) = false := rfl
  have ahead : (outlook.seek (keyOf number)).2.ahead = pairOf valueSize number :: rest := by
    unfold Outlook.seek
    rw [window, shown, within]
    exact since
  have admitted (count : UInt64) : whole.test (keyOf number) count = (true, count) := rfl
  have larger : 0 < 0 + (entryOf valueSize number).size := by
    rw [size_entryOf (by omega)]
    omega
  have same : (outlook.seek (keyOf number)).2.window = whole := window
  unfold Outlook.page
  rw [ahead, same, Outlook.fill]
  simp only [pairOf, admitted, if_true]
  exact congrArg Prod.fst (if_pos larger)

/-- A seek lands on its target and the page after it is cut behind the first entry, wherever the scan was
before; and so on for every target that the generator chooses. -/
theorem seekPages_ok {bench : Bench} {writes : List MemoryEngine.Write} {created : Nat} {id : ScanId}
    {outlook : Outlook} {scans : List (ScanId × Outlook)} (count : Nat) (state : UInt64)
    (attends : bench.Attends writes created 0 ((id, outlook) :: scans))
    (window : outlook.window = whole) (shown : outlook.pairs = pairs valueSize keys.toNat)
    (few : keys.toNat ≤ 10 ^ 8) (some : keys ≠ 0) :
    ∃ rest after, (seekPages keys id count state bench : Except Breakdown _) =
        .ok ((targets keys count state).map (onlyPage valueSize), after) ∧
      after.Attends writes created 0 ((id, rest) :: scans) := by
  -- Of the outlook before a seek only the window and the pairs matter, and these no seek or page changes.
  induction count generalizing bench outlook state with
  | zero => exact ⟨outlook, bench, rfl, attends⟩
  | succ count ih =>
    have inside : (advance state % keys).toNat < keys.toNat := mod_lt some (advance state)
    have only := page_of_seek window shown few inside
    obtain ⟨sought, seeks, next⟩ := seekTo_ok attends (keyOf (advance state % keys).toNat)
    obtain ⟨read, reads, later⟩ := nextPage_ok next .waiting
    rw [only] at reads
    obtain ⟨rest, after, pages, left⟩ := ih (advance state) later window shown
    refine ⟨rest, after, ?_, left⟩
    have page : (do
        let bench ← Meter.take fun _ => unrefused (bench.seekTo (keyOf (advance state % keys).toNat) id)
        Meter.take fun _ => unrefused (bench.nextPage .waiting id) : Except Breakdown _) =
          .ok (onlyPage valueSize (advance state % keys).toNat, read) :=
      (bind_ok _ (congrArg unrefused seeks)).trans (congrArg unrefused reads)
    rw [seekPages]
    refine (if_neg some).trans ((bind_ok _ page).trans ?_)
    exact bind_ok _ pages

theorem ofBatches_targets (valueSize count : Nat) (state : UInt64) (few : keys.toNat ≤ 10 ^ 8)
    (some : keys ≠ 0) :
    Measured.ofBatches (singly ((targets keys count state).map (onlyPage valueSize))) =
      ⟨count, count * (11 + valueSize), count⟩ := by
  have small : ∀ number ∈ targets keys count state, number < 10 ^ 8 := fun number chosen =>
    Nat.lt_of_lt_of_le (targets_lt some chosen) few
  have read : (singly ((targets keys count state).map (onlyPage valueSize))).flatten.flatMap
      Page.entries = (targets keys count state).map (entryOf valueSize) := by
    rw [flatten_singly, List.flatMap_map]
    exact List.map_eq_flatMap.symm
  rw [ofBatches_of_perm small (.of_eq read), length_singly, List.length_map, length_targets]

end KeyScan.Benchmark
