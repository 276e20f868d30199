import KeyScan.Benchmark.Workload
import KeyScan.Proofs.Benchmark.Keys
import KeyScan.Proofs.Engine.Contents

namespace KeyScan.Benchmark

def pairOf (valueSize number : Nat) : Bytes × Bytes := (keyOf number, valueOf valueSize number.toUInt64)

def pairs (valueSize count : Nat) : List (Bytes × Bytes) := (List.range count).map (pairOf valueSize)

def writes (valueSize : Nat) (numbers : List Nat) : List MemoryEngine.Write :=
  numbers.map fun number => ⟨(pairOf valueSize number).1, some (pairOf valueSize number).2⟩

variable {valueSize count : Nat}

/-- A plain map that has taken these writes has these pairs. -/
theorem contents_writes (few : count ≤ 10 ^ 8) :
    MemoryEngine.contents (writes valueSize (List.range count)) = pairs valueSize count := by
  induction count with
  | zero => rfl
  | succ count ih =>
    have all : (pairs valueSize count).filter (fun pair => decide (pair.1 < keyOf count)) =
        pairs valueSize count := by
      apply List.filter_eq_self.mpr
      intro pair member
      obtain ⟨number, below, rfl⟩ := List.mem_map.mp member
      have less := List.mem_range.mp below
      exact decide_eq_true ((keyOf_lt_iff (by omega) (by omega)).mpr less)
    have none : (pairs valueSize count).filter (fun pair => decide (keyOf count < pair.1)) = [] := by
      apply List.filter_eq_nil_iff.mpr
      intro pair member above
      obtain ⟨number, below, rfl⟩ := List.mem_map.mp member
      have less := List.mem_range.mp below
      have greater := (keyOf_lt_iff (by omega) (by omega)).mp (of_decide_eq_true above)
      omega
    rw [writes, List.range_succ, List.map_append, ← writes, List.map_singleton,
      MemoryEngine.contents_concat, ih (Nat.le_of_succ_le few), MemoryEngine.Write.enter, pairOf, all, none,
      List.append_nil, pairs, pairs, List.range_succ, List.map_append]
    rfl

private theorem fill_numbers (held : valueSize ≤ longest) (numbers : List Nat) (engine : MemoryEngine) :
    numbers.foldlM (fun engine number => do
        return engine.put (keyOf number) (← makeValue valueSize number.toUInt64)) engine =
      (.ok ((writes valueSize numbers).foldl .apply engine) : Except Breakdown MemoryEngine) := by
  induction numbers generalizing engine with
  | nil => rfl
  | cons number rest ih =>
    have made : makeValue valueSize number.toUInt64 = .ok (valueOf valueSize number.toUInt64) := if_pos held
    rw [List.foldlM_cons, made]
    exact ih (engine.put (keyOf number) (valueOf valueSize number.toUInt64))

/-- An engine can be filled exactly if its values can be held. -/
theorem fillEngine_eq_ok_iff {after : MemoryEngine} (some : 1 ≤ count) :
    fillEngine valueSize count .empty = .ok after ↔
      valueSize ≤ longest ∧ .ofWrites (writes valueSize (List.range count)) = after := by
  by_cases held : valueSize ≤ longest
  · have filled : fillEngine valueSize count .empty = .ok (.ofWrites (writes valueSize (List.range count))) :=
      fill_numbers held (List.range count) .empty
    rw [filled, Except.ok.injEq, and_iff_right held]
  · have broken : fillEngine valueSize count .empty = .error .tooLong := by
      have first : makeValue valueSize (Nat.toUInt64 0) = .error .tooLong := if_neg held
      obtain ⟨rest, rfl⟩ := Nat.exists_eq_add_of_le' some
      rw [fillEngine, List.range_succ_eq_map, List.foldlM_cons, first]
      rfl
    rw [broken]
    exact ⟨nofun, fun both => absurd both.1 held⟩

theorem Progress.display_ok {progress : Progress} (some : 1 ≤ progress.total)
    (within : progress.current ≤ progress.total) (fits : 40 * progress.total < 2 ^ 64) :
    ∃ line, progress.display = .ok line := by
  have small : cells * progress.current < UInt64.size := by
    have forty : cells = 40 := rfl
    have words : UInt64.size = 2 ^ 64 := rfl
    rw [forty, words]
    omega
  have scaled := product_eq_ok_iff.mpr ⟨small, rfl⟩
  have parted : cells * progress.current / progress.total ≤ cells := by
    apply Nat.div_le_of_le_mul
    rw [Nat.mul_comm]
    exact Nat.mul_le_mul_right cells within
  have filled : progress.filled = .ok (cells * progress.current / progress.total) := by
    have total : progress.total ≠ 0 := by omega
    rw [Progress.filled, scaled]
    exact if_neg total
  rw [Progress.display, filled]
  exact ⟨_, if_neg (Nat.not_lt.mpr parted)⟩

theorem Progress.displayFinished_ok {total : Nat} (some : 1 ≤ total) (fits : 40 * total < 2 ^ 64) :
    ∃ line, Progress.displayFinished { total } = .ok line := by
  have shows : ∃ line, (finish { total }).display = .ok line :=
    display_ok some (Nat.le_refl total) fits
  obtain ⟨line, shown⟩ := shows
  exact ⟨line ++ "\n", by rw [Progress.displayFinished, shown]; rfl⟩

namespace Workload

/-- A fresh service can be filled exactly if the values can be held, and is left with the engine filled. -/
theorem run_fill {config : Config} (workers : Nat) (some : 1 ≤ config.keys) (few : config.keys ≤ 10 ^ 8) :
    (config.valueSize ≤ longest →
      ∃ outcome bench, Workload.fill.run config { workers, engine := .empty } = .ok (outcome, bench)) ∧
    ∀ outcome bench, Workload.fill.run config { workers, engine := .empty } = .ok (outcome, bench) →
      bench = { workers, engine := .ofWrites (writes config.valueSize (List.range config.keys)) } := by
  obtain ⟨line, shown⟩ := Progress.displayFinished_ok some (by omega : 40 * config.keys < 2 ^ 64)
  have carried (engine : MemoryEngine)
      (filled : fillEngine config.valueSize config.keys .empty = .ok engine) :
      (Workload.fill.carryOut config (fun _ => []) { workers, engine := .empty } : Except Breakdown _) =
        .ok (⟨line, none⟩, { workers, engine }) := by
    unfold carryOut
    exact (bind_ok _ filled).trans (bind_ok _ shown)
  constructor
  · intro held
    exact ⟨_, _, run_ok (carried _ ((fillEngine_eq_ok_iff some).mpr ⟨held, rfl⟩))⟩
  · intro outcome bench ran
    cases filled : fillEngine config.valueSize config.keys .empty with
    | error breakdown =>
      have broken : (Workload.fill.carryOut config (fun _ => []) { workers, engine := .empty } :
          Except Breakdown _) = .error breakdown := by
        unfold carryOut
        exact bind_error _ filled
      cases (run_error broken).symm.trans ran
    | ok engine =>
      obtain ⟨-, rfl⟩ := (fillEngine_eq_ok_iff some).mp filled
      cases (run_ok (carried _ filled)).symm.trans ran
      rfl

end Workload

end KeyScan.Benchmark
