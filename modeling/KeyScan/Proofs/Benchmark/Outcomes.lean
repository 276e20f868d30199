import KeyScan.Proofs.Benchmark.Runs

namespace KeyScan.Benchmark

variable {config : Config}

private theorem parts_lt (keyed : 1 ≤ config.keys) (manned : 1 ≤ config.workers)
    (edges : config.parts * config.step < 10 ^ 8) : config.parts < 10 ^ 8 := by
  have covered := keys_le_parts_mul_step manned
  have positive : 0 < config.step := by
    apply Nat.pos_of_ne_zero
    intro none
    rw [none, Nat.mul_zero] at covered
    omega
  exact Nat.lt_of_le_of_lt (Nat.le_mul_of_pos_right _ positive) edges

/-- Every scan of a filled engine, in either direction or in ranges, reads every key once and has one page
that is done. -/
theorem Workload.completes_reading {bench : Bench} {created : Nat} (schedule : Schedule)
    (keyed : 1 ≤ config.keys) (manned : 1 ≤ config.workers)
    (edges : config.parts * config.step < 10 ^ 8) (rests : Rests config created bench)
    (room : created + 10 ^ 8 ≤ 2 ^ 32) {workload : Workload}
    (reads : workload ∈ [Workload.readForward, .readBackward, .readParallel]) :
    ∃ batches after, Completes config schedule workload bench batches after ∧
      (batches.flatten.flatMap Page.entries).Perm
        ((List.range config.keys).map (entryOf config.valueSize)) ∧
      batches.flatten.countP Page.done = workload.scans config ∧
      Rests config (created + workload.scans config) after := by
  have few := keys_le manned edges
  have slim := parts_lt keyed manned edges
  cases workload with
  | fill => simp at reads
  | readForward =>
    obtain ⟨pages, after, completes, entries, done, left⟩ :=
      through_completes schedule rests (by omega) few false
    exact ⟨singly pages, after, completes, by rwa [flatten_singly], by rwa [flatten_singly], left⟩
  | readBackward =>
    obtain ⟨pages, after, completes, entries, done, left⟩ :=
      through_completes schedule rests (by omega) few true
    exact ⟨singly pages, after, completes, by rwa [flatten_singly], by rwa [flatten_singly], left⟩
  | seekRandom => simp at reads
  | readParallel =>
    have divided := divide_ok manned (by omega) (by omega)
    obtain ⟨rounds, after, completes, entries, done, left⟩ :=
      readParallel_completes schedule rests divided (by omega)
    rw [contents_writes few] at entries
    exact ⟨rounds, after, completes, entries.trans (ranges_selection manned edges), done, left⟩

/-- The scans of a filled engine read every key once, in either direction and in ranges, however the workers
are scheduled: the workloads run to their ends, each of their scans up to its one page that is done, measure
as many operations as there are keys and the bytes of all entries, and leave no scan and no snapshot
behind. -/
theorem Workload.reads_every_key (keyed : 1 ≤ config.keys) (manned : 1 ≤ config.workers)
    (edges : config.parts * config.step < 10 ^ 8) (workers : Nat) :
    (config.valueSize ≤ longest → ∃ outcome bench,
      Workload.fill.run config { workers, engine := .empty } = .ok (outcome, bench)) ∧
    ∀ created bench, Prepared config workers created bench → created + 10 ^ 8 ≤ 2 ^ 32 →
      ∀ workload ∈ [Workload.readForward, .readBackward, .readParallel], ∀ schedule : Schedule,
        ∃ outcome after batches, workload.run config bench schedule = .ok (outcome, after) ∧
          outcome.batches = some batches ∧
          (batches.flatten.flatMap Page.entries).Perm
            ((List.range config.keys).map (entryOf config.valueSize)) ∧
          batches.flatten.countP Page.done = workload.scans config ∧
          outcome.measured =
            some ⟨config.keys, config.keys * (11 + config.valueSize), batches.length⟩ ∧
          after.roster.live = [] ∧ after.engine.snapshots.size = 0 := by
  have few := keys_le manned edges
  refine ⟨(run_fill workers keyed few).1, ?_⟩
  intro created bench prepared room workload reads schedule
  have rests := prepared.rests keyed few (by omega)
  obtain ⟨batches, after, ⟨text, ran⟩, entries, done, left⟩ :=
    completes_reading schedule keyed manned edges rests room reads
  have small : ∀ number ∈ List.range config.keys, number < 10 ^ 8 := fun number member =>
    Nat.lt_of_lt_of_le (List.mem_range.mp member) few
  have measured := ofBatches_of_perm small entries
  rw [List.length_range] at measured
  exact ⟨_, after, batches, ran, rfl, entries, done, congrArg some measured, left.nothing⟩

/-- A benchmark whose third range is cut short and whose fourth is empty. -/
def Config.small : Config where
  keys := 5
  valueSize := 2
  workers := 2
  seeks := 7

/-- After each call in the ranges, workers run the newest task and then the oldest one. -/
theorem Workload.reads_every_key_small :
    ∃ bench outcome middle, Prepared .small 3 0 bench ∧
      Workload.readBackward.run .small bench = .ok (outcome, middle) ∧
      ∃ outcome after batches,
        Workload.readParallel.run .small middle (fun call => [call, 0]) = .ok (outcome, after) ∧
        outcome.batches = some batches ∧ batches.flatten.countP Page.done = 4 ∧
        outcome.measured = some ⟨5, 65, batches.length⟩ ∧
        after.roster.live = [] ∧ after.engine.snapshots.size = 0 := by
  obtain ⟨fills, reads⟩ :=
    Workload.reads_every_key (by decide : 1 ≤ Config.small.keys) (by decide) (by decide) 3
  obtain ⟨filled, bench, ran⟩ := fills (by decide)
  have prepared := Prepared.filled ran
  obtain ⟨outcome, middle, -, first, -⟩ :=
    reads 0 bench prepared (by decide) .readBackward (by decide) fun _ => []
  obtain ⟨next, after, batches, second, read, -, done, measured, left⟩ :=
    reads 1 middle (prepared.more (by decide : Workload.readBackward ≠ .fill) first) (by decide)
      .readParallel (by decide) fun call => [call, 0]
  exact ⟨bench, outcome, middle, prepared, first, next, after, batches, second, read, done, measured,
    left⟩

/-- Random seeks over a filled engine find what they seek: the workload runs to its end, each page holds the
entry of its target and nothing else, the progress is shown wherever it stands, and no scan and no snapshot
is left behind. -/
theorem Workload.seeks_find_targets (keys : 1 ≤ config.keys ∧ config.keys ≤ 10 ^ 8)
    (seeks : 1 ≤ config.seeks) (cells : 40 * config.seeks < 2 ^ 64) (workers : Nat) :
    (config.valueSize ≤ longest → ∃ outcome bench,
      Workload.fill.run config { workers, engine := .empty } = .ok (outcome, bench)) ∧
    ∀ created bench, Prepared config workers created bench → created + 1 < 2 ^ 32 →
      ∀ schedule : Schedule,
        ∃ outcome after, Workload.seekRandom.run config bench schedule = .ok (outcome, after) ∧
          outcome.batches = some (singly ((targets config.keys.toUInt64 config.seeks firstState).map
            (onlyPage config.valueSize))) ∧
          (∀ number ∈ targets config.keys.toUInt64 config.seeks firstState, number < config.keys) ∧
          outcome.measured =
            some ⟨config.seeks, config.seeks * (11 + config.valueSize), config.seeks⟩ ∧
          (∀ current ≤ config.seeks, ∃ line,
            Progress.display { total := config.seeks, current } = .ok line) ∧
          after.roster.live = [] ∧ after.engine.snapshots.size = 0 := by
  obtain ⟨keyed, few⟩ := keys
  refine ⟨(run_fill workers keyed few).1, ?_⟩
  intro created bench prepared room schedule
  have rests := prepared.rests keyed few (by omega)
  obtain ⟨after, ran, left⟩ := seekRandom_eq schedule rests room keyed few
  obtain ⟨line, shown⟩ := Progress.displayFinished_ok seeks cells
  rw [shown] at ran
  have small : config.keys.toUInt64.toNat ≤ 10 ^ 8 := by
    rw [toNat_keys few]
    exact few
  have measured := ofBatches_targets config.valueSize config.seeks firstState small (keys_ne_zero keyed few)
  refine ⟨_, after, ran, rfl, ?_, congrArg some measured, ?_, left.nothing⟩
  · intro number chosen
    have bound := targets_lt (keys_ne_zero keyed few) chosen
    rwa [toNat_keys few] at bound
  · exact fun current within => Progress.display_ok seeks within cells

theorem Workload.seeks_find_targets_small :
    ∃ bench outcome after, Prepared .small 3 0 bench ∧
      Workload.seekRandom.run .small bench = .ok (outcome, after) ∧
      outcome.batches = some (singly ([0, 2, 2, 4, 3, 2, 2].map (onlyPage 2))) ∧
      outcome.measured = some ⟨7, 91, 7⟩ := by
  obtain ⟨fills, seeks⟩ :=
    Workload.seeks_find_targets (by decide : 1 ≤ Config.small.keys ∧ Config.small.keys ≤ 10 ^ 8)
      (by decide) (by decide) 3
  obtain ⟨filled, bench, ran⟩ := fills (by decide)
  obtain ⟨outcome, after, sought, read, -, measured, -⟩ :=
    seeks 0 bench (.filled ran) (by decide) fun _ => []
  have chosen : targets Config.small.keys.toUInt64 Config.small.seeks firstState = [0, 2, 2, 4, 3, 2, 2] := by
    decide
  rw [chosen] at read
  exact ⟨bench, outcome, after, .filled ran, sought, read, measured⟩

end KeyScan.Benchmark
