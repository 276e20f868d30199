import Mathlib.Data.List.Basic
import KeyScan.Proofs.Benchmark.Filling
import KeyScan.Proofs.Reader.Cutting

namespace KeyScan.Benchmark

def entryOf (valueSize number : Nat) : Entry :=
  ⟨some (pairOf valueSize number).1, some (pairOf valueSize number).2⟩

variable {valueSize : Nat} {config : Config}

/-- Numbers fall into consecutive ranges, each into one. -/
theorem ranges_perm (step : Nat) (numbers : List Nat) (parts : Nat) :
    ((List.range parts).flatMap fun part =>
        numbers.filter fun number => decide (part * step ≤ number ∧ number < (part + 1) * step)).Perm
      (numbers.filter fun number => decide (number < parts * step)) := by
  induction parts with
  | zero => simp
  | succ parts ih =>
    -- What is below the next edge is what is below this one, and the range between them.
    have below : (numbers.filter fun number => decide (number < (parts + 1) * step)).filter
        (fun number => decide (number < parts * step)) =
          numbers.filter fun number => decide (number < parts * step) := by
      rw [List.filter_filter]
      apply List.filter_congr
      intro number _
      have grows : parts * step ≤ (parts + 1) * step := Nat.mul_le_mul_right step (Nat.le_succ parts)
      rw [← Bool.decide_and, decide_eq_decide]
      omega
    have above : (numbers.filter fun number => decide (number < (parts + 1) * step)).filter
        (fun number => !decide (number < parts * step)) =
          numbers.filter fun number => decide (parts * step ≤ number ∧ number < (parts + 1) * step) := by
      rw [List.filter_filter]
      apply List.filter_congr
      intro number _
      rw [← decide_not, ← Bool.decide_and, decide_eq_decide, Nat.not_lt]
    rw [List.range_succ, List.flatMap_append, List.flatMap_singleton, ← above]
    have joined := List.filter_append_perm (fun number => decide (number < parts * step))
      (numbers.filter fun number => decide (number < (parts + 1) * step))
    rw [below] at joined
    exact (ih.append_right _).trans joined

theorem keys_le_parts_mul_step (some : 1 ≤ config.workers) : config.keys ≤ config.parts * config.step := by
  have positive : 0 < config.parts := by
    unfold Config.parts
    omega
  have bound := Nat.lt_mul_div_succ (config.keys + config.parts - 1) positive
  rw [Nat.mul_succ] at bound
  unfold Config.step
  omega

theorem keys_le (some : 1 ≤ config.workers) (edges : config.parts * config.step < 10 ^ 8) :
    config.keys ≤ 10 ^ 8 :=
  Nat.le_of_lt (Nat.lt_of_le_of_lt (keys_le_parts_mul_step some) edges)

private theorem nonempty_keyOf {number : Nat} (small : number < 10 ^ 8) :
    Window.nonempty (some (keyOf number)) = some (keyOf number) := by
  have length := length_keyOf small
  cases key : keyOf number with
  | nil =>
    rw [key] at length
    cases length
  | cons first rest => rfl

theorem ofOptions_accepted {options : ScanOptions} (lte : options.lte = none) (gt : options.gt = none) :
    ∃ window, Window.ofOptions options = .ok window := by
  have upper : ∃ given, Window.edge options.lt none .twoUpperBounds = .ok given := by
    unfold Window.edge
    cases Window.nonempty options.lt with
    | none => exact ⟨_, rfl⟩
    | some key => exact ⟨_, rfl⟩
  have lower : ∃ given, Window.edge none options.gte .twoLowerBounds = .ok given := by
    unfold Window.edge
    cases Window.nonempty options.gte with
    | none => exact ⟨_, rfl⟩
    | some key => exact ⟨_, rfl⟩
  obtain ⟨upper, above⟩ := upper
  obtain ⟨lower, below⟩ := lower
  unfold Window.ofOptions
  rw [lte, gt, above, below]
  exact ⟨_, rfl⟩

private theorem present_pairs {options : ScanOptions} (numbers : List Nat)
    (whole : options.limit = -1 ∧ options.keys = true ∧ options.values = true) :
    options.present 0 (numbers.map (pairOf valueSize)) =
      (if options.reverse then numbers.reverse else numbers).map (entryOf valueSize) := by
  obtain ⟨limit, keys, values⟩ := whole
  unfold ScanOptions.present
  rw [limit, keys, values]
  cases options.reverse with
  | true => simp [entryOf]
  | false => simp [entryOf]

theorem whole_selection (reverse : Bool) (mark count : Nat) :
    ({ reverse, highWaterMark := mark } : ScanOptions).selection (pairs valueSize count) =
      (if reverse then (List.range count).reverse else List.range count).map (entryOf valueSize) := by
  have all : (pairs valueSize count).filter
      (fun pair => ({ reverse, highWaterMark := mark } : ScanOptions).selects pair.1) =
        pairs valueSize count := by
    apply List.filter_eq_self.mpr
    intro pair _
    cases reverse <;> rfl
  rw [ScanOptions.selection, all]
  exact present_pairs _ ⟨rfl, rfl, rfl⟩

section Range

variable {part : Nat} (edges : config.parts * config.step < 10 ^ 8) (inside : part < config.parts)

include edges inside

private theorem edge_small : part * config.step < 10 ^ 8 ∧ (part + 1) * config.step < 10 ^ 8 := by
  have upper : (part + 1) * config.step ≤ config.parts * config.step := Nat.mul_le_mul_right _ inside
  have lower : part * config.step ≤ (part + 1) * config.step := Nat.mul_le_mul_right _ (Nat.le_succ part)
  omega

/-- A range selects the entries whose numbers are in it. -/
theorem range_selection (few : config.keys ≤ 10 ^ 8) :
    (config.range part).selection (pairs valueSize config.keys) =
      ((List.range config.keys).filter fun number =>
        decide (part * config.step ≤ number ∧ number < (part + 1) * config.step)).map
          (entryOf valueSize) := by
  obtain ⟨lower, upper⟩ := edge_small edges inside
  have selects (number : Nat) (small : number < 10 ^ 8) : (config.range part).selects (keyOf number) =
      decide (part * config.step ≤ number ∧ number < (part + 1) * config.step) := by
    have none : Window.nonempty none = none := rfl
    rw [Bool.eq_iff_iff, decide_eq_true_eq, ← keyOf_lt_iff small upper, ← keyOf_le_iff lower small]
    simp only [ScanOptions.selects, Config.range, nonempty_keyOf lower, nonempty_keyOf upper, none,
      Option.all_some, Option.all_none, Option.isSome_some, Bool.and_true, Bool.or_true,
      Bool.true_or, Bool.false_eq_true, if_false, Bool.and_eq_true, decide_eq_true_eq]
    exact and_comm
  have chosen : (pairs valueSize config.keys).filter (fun pair => (config.range part).selects pair.1) =
      ((List.range config.keys).filter fun number =>
        decide (part * config.step ≤ number ∧ number < (part + 1) * config.step)).map
          (pairOf valueSize) := by
    rw [pairs, List.filter_map]
    refine congrArg (List.map _) (List.filter_congr ?_)
    intro number member
    have small : number < 10 ^ 8 := Nat.lt_of_lt_of_le (List.mem_range.mp member) few
    rw [Function.comp_apply, pairOf, selects number small]
  rw [ScanOptions.selection, chosen]
  exact present_pairs _ ⟨rfl, rfl, rfl⟩

end Range

theorem divide_ok (some : 1 ≤ config.workers) (fits : config.parts < 2 ^ 64)
    (edges : config.parts * config.step < 2 ^ 64) :
    divide config = .ok ((List.range config.parts).map config.range) := by
  have parts : product config.workers 2 = .ok config.parts := product_eq_ok_iff.mpr ⟨fits, rfl⟩
  have last : product config.parts config.step = .ok (config.parts * config.step) :=
    product_eq_ok_iff.mpr ⟨edges, rfl⟩
  have positive : config.parts ≠ 0 := by
    unfold Config.parts
    omega
  unfold divide
  rw [parts]
  refine (if_neg positive).trans ?_
  change (product config.parts config.step).bind _ = _
  rw [last]
  rfl

/-- Where the keys can be divided, these are the ranges. -/
theorem divide_eq_ok {list : List ScanOptions} (divided : divide config = .ok list) :
    (List.range config.parts).map config.range = list := by
  unfold divide at divided
  cases parts : product config.workers 2 with
  | error breakdown =>
    rw [parts] at divided
    cases divided
  | ok count =>
    obtain ⟨-, rfl⟩ := product_eq_ok_iff.mp parts
    rw [parts] at divided
    change (if config.parts = 0 then _ else (product config.parts config.step).bind _) = _ at divided
    split at divided
    · cases divided
    · cases last : product config.parts config.step with
      | error breakdown =>
        rw [last] at divided
        cases divided
      | ok edge =>
        rw [last] at divided
        exact Except.ok.inj divided

/-- The ranges together select every entry once. -/
theorem ranges_selection (some : 1 ≤ config.workers) (edges : config.parts * config.step < 10 ^ 8) :
    (((List.range config.parts).map config.range).flatMap
        (·.selection (pairs valueSize config.keys))).Perm
      ((List.range config.keys).map (entryOf valueSize)) := by
  have covered := keys_le_parts_mul_step some
  have selections : ((List.range config.parts).map config.range).flatMap
      (·.selection (pairs valueSize config.keys)) =
        ((List.range config.parts).flatMap fun part => (List.range config.keys).filter fun number =>
          decide (part * config.step ≤ number ∧ number < (part + 1) * config.step)).map
            (entryOf valueSize) := by
    rw [List.flatMap_map, List.map_flatMap]
    apply List.flatMap_congr
    intro part member
    exact range_selection edges (List.mem_range.mp member) (keys_le some edges)
  have all : (List.range config.keys).filter (fun number => decide (number < config.parts * config.step)) =
      List.range config.keys := by
    apply List.filter_eq_self.mpr
    intro number member
    exact decide_eq_true (Nat.lt_of_lt_of_le (List.mem_range.mp member) covered)
  have parted := ranges_perm config.step (List.range config.keys) config.parts
  rw [all] at parted
  rw [selections]
  exact parted.map _

/-! What is measured of pages. -/

private theorem ofBatches_eq (batches : List (List Page)) :
    Measured.ofBatches batches =
      ⟨(batches.flatten.flatMap Page.entries).length,
        Entry.total (batches.flatten.flatMap Page.entries), batches.length⟩ := by
  unfold Measured.ofBatches
  generalize batches.flatten = pages
  induction pages with
  | nil => rfl
  | cons page rest ih =>
    obtain ⟨operations, bytes, -⟩ := Measured.mk.inj ih
    rw [List.foldr_cons, List.foldr_cons, operations, bytes, List.flatMap_cons, List.length_append,
      Entry.total_append, Page.size_eq]

theorem size_entryOf {number : Nat} (small : number < 10 ^ 8) :
    (entryOf valueSize number).size = 11 + valueSize := by
  have length : (valueOf valueSize number.toUInt64).length = valueSize := length_valueOf _ _
  simp [entryOf, pairOf, Entry.size, length_keyOf small, length]

private theorem total_entries {numbers : List Nat} (small : ∀ number ∈ numbers, number < 10 ^ 8) :
    Entry.total (numbers.map (entryOf valueSize)) = numbers.length * (11 + valueSize) := by
  induction numbers with
  | nil => simp
  | cons number rest ih =>
    obtain ⟨first, others⟩ := List.forall_mem_cons.mp small
    rw [List.map_cons, Entry.total_cons, size_entryOf first, ih others, List.length_cons, Nat.succ_mul,
      Nat.add_comm]

/-- Batches that hold the entries with some numbers, in whatever order, amount to these. -/
theorem ofBatches_of_perm {batches : List (List Page)} {numbers : List Nat}
    (small : ∀ number ∈ numbers, number < 10 ^ 8)
    (read : (batches.flatten.flatMap Page.entries).Perm (numbers.map (entryOf valueSize))) :
    Measured.ofBatches batches =
      ⟨numbers.length, numbers.length * (11 + valueSize), batches.length⟩ := by
  have total : Entry.total (batches.flatten.flatMap Page.entries) =
      Entry.total (numbers.map (entryOf valueSize)) := (read.map Entry.size).sum_nat
  rw [ofBatches_eq, read.length_eq, List.length_map, total, total_entries small]

end KeyScan.Benchmark
