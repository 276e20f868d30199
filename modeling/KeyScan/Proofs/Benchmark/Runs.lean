import KeyScan.Proofs.Benchmark.Targets

/-! Runs of the workloads. Each takes a service that attends to no scan to one that attends to none, with
so many scans more created; so whatever workloads have run after an engine was filled, the next one finds
the service as the first one did. -/
namespace KeyScan.Benchmark

variable {config : Config} {bench after : Bench} {created : Nat} {workload : Workload}
  {outcome : Outcome} {schedule : Schedule}

/-- The service attends to no scan, over an engine with so many keys. -/
abbrev Rests (config : Config) (created : Nat) (bench : Bench) : Prop :=
  bench.Attends (writes config.valueSize (List.range config.keys)) created 0 []

namespace Workload

def scans (config : Config) : Workload → Nat
  | .fill => 0
  | .readForward => 1
  | .readBackward => 1
  | .seekRandom => 1
  | .readParallel => config.parts

/-- A workload runs to its end with these batches of pages, and leaves this service. -/
def Completes (config : Config) (schedule : Schedule) (workload : Workload) (bench : Bench)
    (batches : List (List Page)) (after : Bench) : Prop :=
  ∃ text, workload.run config bench schedule = .ok (⟨text, some batches⟩, after)

theorem Completes.leaves {batches : List (List Page)} {next : Bench}
    (completes : Completes config schedule workload bench batches next)
    (ran : workload.run config bench schedule = .ok (outcome, after)) : next = after := by
  obtain ⟨text, same⟩ := completes
  cases same.symm.trans ran
  rfl

def through (reverse : Bool) : Workload := if reverse then .readBackward else .readForward

theorem through_completes (schedule : Schedule) (rests : Rests config created bench)
    (room : created + 1 < 2 ^ 32) (few : config.keys ≤ 10 ^ 8) (reverse : Bool) :
    ∃ pages after, Completes config schedule (through reverse) bench (singly pages) after ∧
      (pages.flatMap Page.entries).Perm ((List.range config.keys).map (entryOf config.valueSize)) ∧
      pages.countP Page.done = 1 ∧ Rests config (created + 1) after := by
  have accepted : ∃ window, Window.ofOptions { reverse, highWaterMark := config.highWaterMark } = .ok window :=
    ofOptions_accepted rfl rfl
  obtain ⟨window, accepted⟩ := accepted
  obtain ⟨pages, after, reads, entries, last, left⟩ :=
    readThrough_ok (rests.remark config.highWaterMark) room accepted rfl
  rw [contents_writes few, whole_selection] at entries
  have carried : ((through reverse).carryOut config schedule bench : Except Breakdown _) =
      .ok (⟨"", some (singly pages)⟩, after) := by
    cases reverse
    all_goals
      unfold carryOut
      exact bind_ok _ reads
  refine ⟨pages, after, ⟨_, run_ok carried⟩, ?_, last, left.remark 0⟩
  rw [entries]
  cases reverse with
  | false => exact .refl _
  | true => exact (List.reverse_perm _).map _

theorem readParallel_completes {list : List ScanOptions} (schedule : Schedule)
    (rests : Rests config created bench) (divided : divide config = .ok list)
    (room : created + config.parts < 2 ^ 32) :
    ∃ rounds after, Completes config schedule .readParallel bench rounds after ∧
      (rounds.flatten.flatMap Page.entries).Perm (list.flatMap
        (·.selection (MemoryEngine.contents (writes config.valueSize (List.range config.keys))))) ∧
      rounds.flatten.countP Page.done = config.parts ∧ Rests config (created + config.parts) after := by
  have ranges := divide_eq_ok divided
  have parts : list.length = config.parts := by
    rw [← ranges, List.length_map, List.length_range]
  have accepted : ∀ options ∈ list, ∃ window, Window.ofOptions options = .ok window := by
    rw [← ranges]
    intro options member
    obtain ⟨part, -, rfl⟩ := List.mem_map.mp member
    exact ofOptions_accepted rfl rfl
  have marked : ∀ options ∈ list, options.highWaterMark = config.highWaterMark := by
    rw [← ranges]
    intro options member
    obtain ⟨part, -, rfl⟩ := List.mem_map.mp member
    rfl
  rw [← parts] at room ⊢
  obtain ⟨ids, opened, rounds, read, after, opens, reads, ends, entries, done, left⟩ :=
    readParts_ok schedule (rests.remark config.highWaterMark) room accepted marked
  have carried : (Workload.readParallel.carryOut config schedule bench : Except Breakdown _) =
      .ok (⟨"", some rounds⟩, after) := by
    unfold carryOut
    refine (bind_ok _ divided).trans ?_
    refine (bind_ok _ ((bind_ok _ (congrArg unrefused opens)).trans (bind_ok _ reads))).trans ?_
    exact bind_ok _ (congrArg unrefused ends)
  exact ⟨rounds, after, ⟨_, run_ok carried⟩, entries, done, left.remark 0⟩

theorem toNat_keys (few : config.keys ≤ 10 ^ 8) : config.keys.toUInt64.toNat = config.keys := by
  have words : UInt64.size = 2 ^ 64 := rfl
  exact UInt64.toNat_ofNat_of_lt (by omega)

theorem keys_ne_zero (keyed : 1 ≤ config.keys) (few : config.keys ≤ 10 ^ 8) :
    config.keys.toUInt64 ≠ 0 := by
  intro zero
  have none := congrArg UInt64.toNat zero
  rw [toNat_keys few, UInt64.toNat_zero] at none
  omega

/-- The batches of random seeks: each is the page with the entry of a target. -/
def sights (config : Config) : List (List Page) :=
  singly ((targets config.keys.toUInt64 config.seeks firstState).map (onlyPage config.valueSize))

/-- Random seeks: one scan is opened, and each page holds the entry of its target. Only the display of the
progress can fail. -/
theorem seekRandom_eq (schedule : Schedule) (rests : Rests config created bench)
    (room : created + 1 < 2 ^ 32) (keyed : 1 ≤ config.keys) (few : config.keys ≤ 10 ^ 8) :
    ∃ after,
      Workload.seekRandom.run config bench schedule =
        (Progress.displayFinished { total := config.seeks }).map (fun line =>
          (⟨"\n" ++ Workload.seekRandom.heading config ++ "\n" ++ line, some (sights config)⟩, after)) ∧
      Rests config (created + 1) after := by
  have accepted : Window.ofOptions { highWaterMark := 0 } = .ok whole := rfl
  obtain ⟨id, opened, opens, attended⟩ := openScan_ok rests room accepted rfl
  have shown : (Outlook.start whole (MemoryEngine.contents
      (writes config.valueSize (List.range config.keys)))).pairs =
        pairs config.valueSize config.keys.toUInt64.toNat := by
    rw [toNat_keys few]
    exact contents_writes few
  have small : config.keys.toUInt64.toNat ≤ 10 ^ 8 := by
    rw [toNat_keys few]
    exact few
  obtain ⟨rest, sought, seeks, left⟩ :=
    seekPages_ok config.seeks firstState attended rfl shown small (keys_ne_zero keyed few)
  obtain ⟨after, ends, done⟩ := endScan_ok left
  refine ⟨after, ?_, done⟩
  cases shows : Progress.displayFinished { total := config.seeks } with
  | error breakdown =>
    have broken : (Workload.seekRandom.carryOut config schedule bench : Except Breakdown _) =
        .error breakdown := by
      unfold carryOut
      refine (bind_ok _ (congrArg unrefused opens)).trans ?_
      exact bind_error _ ((bind_ok _ seeks).trans (bind_error _ shows))
    exact run_error broken
  | ok line =>
    have carried : (Workload.seekRandom.carryOut config schedule bench : Except Breakdown _) =
        .ok (⟨line, some (sights config)⟩, after) := by
      unfold carryOut
      refine (bind_ok _ (congrArg unrefused opens)).trans ?_
      refine (bind_ok _ ((bind_ok _ seeks).trans (bind_ok _ shows))).trans ?_
      exact bind_ok _ (congrArg unrefused ends)
    exact run_ok carried

end Workload

/-- Whatever has been run after a fresh service was filled, with so many scans created in it. -/
inductive Prepared (config : Config) (workers : Nat) : (created : Nat) → Bench → Prop
  | filled {outcome : Outcome} {bench : Bench}
      (ran : Workload.fill.run config { workers, engine := .empty } = .ok (outcome, bench)) :
      Prepared config workers 0 bench
  | more {created : Nat} {workload : Workload} {schedule : Schedule} {outcome : Outcome}
      {bench after : Bench} (before : Prepared config workers created bench)
      (other : workload ≠ .fill)
      (ran : workload.run config bench schedule = .ok (outcome, after)) :
      Prepared config workers (created + workload.scans config) after

/-- A workload that runs, with whatever outcome, leaves the service at rest. -/
theorem Rests.run (rests : Rests config created bench) (keyed : 1 ≤ config.keys)
    (few : config.keys ≤ 10 ^ 8) (room : created + workload.scans config < 2 ^ 32)
    (other : workload ≠ .fill)
    (ran : workload.run config bench schedule = .ok (outcome, after)) :
    Rests config (created + workload.scans config) after := by
  cases workload with
  | fill => exact absurd rfl other
  | readForward =>
    obtain ⟨pages, next, completes, -, -, left⟩ :=
      Workload.through_completes schedule rests room few false
    rw [← completes.leaves ran]
    exact left
  | readBackward =>
    obtain ⟨pages, next, completes, -, -, left⟩ :=
      Workload.through_completes schedule rests room few true
    rw [← completes.leaves ran]
    exact left
  | seekRandom =>
    obtain ⟨next, same, left⟩ := Workload.seekRandom_eq schedule rests room keyed few
    rw [same] at ran
    cases shown : Progress.displayFinished { total := config.seeks } with
    | error breakdown =>
      rw [shown] at ran
      cases ran
    | ok line =>
      rw [shown] at ran
      cases ran
      exact left
  | readParallel =>
    cases divided : divide config with
    | error breakdown =>
      have broken : (Workload.readParallel.carryOut config schedule bench : Except Breakdown _) =
          .error breakdown := by
        unfold Workload.carryOut
        exact bind_error _ divided
      cases (Workload.run_error broken).symm.trans ran
    | ok list =>
      obtain ⟨rounds, next, completes, -, -, left⟩ :=
        Workload.readParallel_completes schedule rests divided room
      rw [← completes.leaves ran]
      exact left

theorem Prepared.rests {workers : Nat} (prepared : Prepared config workers created bench)
    (keyed : 1 ≤ config.keys) (few : config.keys ≤ 10 ^ 8) (room : created < 2 ^ 32) :
    Rests config created bench := by
  induction prepared with
  | filled ran =>
    obtain ⟨-, filled⟩ := Workload.run_fill workers keyed few
    rw [filled _ _ ran]
    have few : (writes config.valueSize (List.range config.keys)).length < 2 ^ 64 := by
      rw [writes, List.length_map, List.length_range]
      omega
    exact Service.attends_fresh workers 0 few
  | more before other ran ih => exact (ih (by omega)).run keyed few room other ran

end KeyScan.Benchmark
