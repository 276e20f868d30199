import KeyScan.Benchmark.Data
import KeyScan.Benchmark.Progress
import KeyScan.Engine.Memory
import KeyScan.Traffic.Caller

namespace KeyScan.Benchmark

/-- A service over the engine in memory. -/
abbrev Bench := Service MemoryEngine TableWalker

/-- Where a benchmark takes its steps, and what times are taken of them. -/
class Meter (m : Type → Type) extends Monad m where
  take {α : Type} (step : Unit → Except Breakdown α) : m α
  /-- takes the latency of a page, a seek or a round of pages -/
  lap {α : Type} (run : m α) : m α
  whole {α : Type} (run : m α) : m α

/-- Steps by themselves, with no times taken. -/
instance : Meter (Except Breakdown) where
  take step := step ()
  lap run := run
  whole run := run

section Except

variable {α β : Type} {step : Except Breakdown α} (next : α → Except Breakdown β)

theorem bind_ok {result : α} (done : step = .ok result) : step.bind next = next result := by
  rw [done]
  rfl

theorem bind_error {breakdown : Breakdown} (broken : step = .error breakdown) :
    step.bind next = .error breakdown := by
  rw [broken]
  rfl

end Except

/-- A refusal breaks a benchmark down. -/
def unrefused {α : Type} (called : Except Failure α) : Except Breakdown α := called.mapError .refused

def fillEngine (valueSize : Nat) (count : Nat) (engine : MemoryEngine) :
    Except Breakdown MemoryEngine :=
  (List.range count).foldlM
    (fun engine number => do
      return engine.put (keyOf number) (← makeValue valueSize number.toUInt64)) engine

/-- The first state of the generator that chooses seek targets. -/
def firstState : UInt64 := 123456789

section Reading

variable {m : Type → Type} [Meter m]

/-- Reads a scan up to a page that is done. -/
def drainPages (id : ScanId) (bench : Bench) : m (List Page × Bench) :=
  readPages (fun bench => Meter.lap (Meter.take fun _ => unrefused (bench.nextPage .waiting id)))
    (Meter.take fun _ => .error .endless) bench.enoughPages bench

/-- Opens a scan, reads it through and ends it. -/
def readThrough (options : ScanOptions) (bench : Bench) : m (List Page × Bench) :=
  Meter.whole do
    let (id, bench) ← Meter.take fun _ => unrefused (bench.openScan options)
    let (pages, bench) ← drainPages id bench
    let bench ← Meter.take fun _ => unrefused (bench.endScan id)
    return (pages, bench)

/-- Seeks to keys that the generator chooses and reads one page after each. -/
def seekPages (keys : UInt64) (id : ScanId) :
    (count : Nat) → (state : UInt64) → Bench → m (List Page × Bench)
  | 0, _, bench => return ([], bench)
  | count + 1, state, bench => do
    let state := advance state
    if keys = 0 then Meter.take fun _ => .error .noKeys
    else
      let number := (state % keys).toNat
      let (page, bench) ← Meter.lap do
        let bench ← Meter.take fun _ => unrefused (bench.seekTo (keyOf number) id)
        Meter.take fun _ => unrefused (bench.nextPage .waiting id)
      if page.entries.length ≠ 1 then Meter.take fun _ => .error (.missing (keyName number))
      else
        let (pages, bench) ← seekPages keys id count state bench
        return (page :: pages, bench)

/-- Reads round after round, each with the scans that are not done. -/
def readRounds (schedule : Schedule) :
    (fuel : Nat) → List ScanId → Traffic MemoryEngine TableWalker →
      m (List (List Page) × Traffic MemoryEngine TableWalker)
  | _, [], traffic => return ([], traffic)
  | 0, _ :: _, _ => Meter.take fun _ => .error .endless
  | fuel + 1, ids, traffic => do
    let (pages, traffic) ←
      Meter.lap (Meter.take fun _ => unrefused (traffic.readRound schedule ids))
    let left := pages.filterMap fun (id, page) => if page.done then none else some id
    let (rounds, traffic) ← readRounds schedule fuel left traffic
    return (pages.map Prod.snd :: rounds, traffic)

end Reading

/-- How many ranges the keys are divided into: twice as many as workers. -/
def Config.parts (config : Config) : Nat := config.workers * 2

def Config.step (config : Config) : Nat := (config.keys + config.parts - 1) / config.parts

/-- The half-open range of a part. -/
def Config.range (config : Config) (part : Nat) : ScanOptions where
  gte := some (keyOf (part * config.step))
  lt := some (keyOf ((part + 1) * config.step))
  highWaterMark := config.highWaterMark

/-- The ranges that divide the keys. All edges, of which the last is the greatest, must fit in a word. -/
def divide (config : Config) : Except Breakdown (List ScanOptions) := do
  let parts ← product config.workers 2
  if parts = 0 then .error .noParts
  else
    let _ ← product parts config.step
    .ok ((List.range parts).map config.range)

/-- What a benchmark does. -/
inductive Workload where
  | fill
  | readForward
  | readBackward
  | seekRandom
  | readParallel
  deriving DecidableEq, Repr

/-- What a workload measured, times apart. -/
structure Measured where
  operations : Nat
  bytes : Nat
  batches : Nat
  deriving DecidableEq

def singly (pages : List Page) : List (List Page) := pages.map fun page => [page]

@[simp] theorem length_singly (pages : List Page) : (singly pages).length = pages.length :=
  List.length_map _

@[simp] theorem flatten_singly (pages : List Page) : (singly pages).flatten = pages := by
  rw [singly, ← List.flatMap_def, List.flatMap_singleton']

/-- What pages that were read in batches amount to. -/
def Measured.ofBatches (batches : List (List Page)) : Measured where
  operations := batches.flatten.foldr (fun page total => page.entries.length + total) 0
  bytes := batches.flatten.foldr (fun page total => page.size + total) 0
  batches := batches.length

/-- What is printed in a workload, and the pages that it read in each batch. -/
structure Outcome where
  text : String
  batches : Option (List (List Page))
  deriving DecidableEq

/-- What is measured in a workload that reads. -/
def Outcome.measured (outcome : Outcome) : Option Measured := outcome.batches.map .ofBatches

namespace Workload

def heading (config : Config) : Workload → String
  | .fill => "🗂️  Filling store with " ++ Text.grouped config.keys ++ " keys..."
  | .readForward => "📚 Running forward scan benchmark..."
  | .readBackward => "📚 Running reverse scan benchmark..."
  | .seekRandom => "🎯 Running random seek benchmark..."
  | .readParallel =>
    "⚡ Running parallel range benchmark (" ++ Nat.repr config.workers ++ " workers)..."

/-- Carries a workload out. What is printed is its progress, of which only the last display is kept. -/
def carryOut {m : Type → Type} [Meter m] (config : Config) (schedule : Schedule)
    (workload : Workload) (bench : Bench) : m (Outcome × Bench) :=
  match workload with
  | .fill => do
    let engine ← Meter.take fun _ => fillEngine config.valueSize config.keys bench.engine
    let progress ← Meter.take fun _ => Progress.displayFinished { total := config.keys }
    return (⟨progress, none⟩, { bench with engine })
  | .readForward => do
    let (pages, bench) ← readThrough { highWaterMark := config.highWaterMark } bench
    return (⟨"", some (singly pages)⟩, bench)
  | .readBackward => do
    let (pages, bench) ←
      readThrough { reverse := true, highWaterMark := config.highWaterMark } bench
    return (⟨"", some (singly pages)⟩, bench)
  | .seekRandom => do
    let (id, bench) ← Meter.take fun _ => unrefused (bench.openScan { highWaterMark := 0 })
    let (pages, progress, bench) ← Meter.whole do
      let (pages, bench) ← seekPages config.keys.toUInt64 id config.seeks firstState bench
      let progress ← Meter.take fun _ => Progress.displayFinished { total := config.seeks }
      return (pages, progress, bench)
    let bench ← Meter.take fun _ => unrefused (bench.endScan id)
    return (⟨progress, some (singly pages)⟩, bench)
  | .readParallel => do
    let ranges ← Meter.take fun _ => divide config
    let (ids, rounds, bench) ← Meter.whole do
      let (ids, bench) ← Meter.take fun _ => unrefused (bench.openScans ranges)
      let (rounds, traffic) ← readRounds schedule bench.enoughPages ids { service := bench }
      -- the workers finish what is left before anything else is asked
      return (ids, rounds, (traffic.complete traffic.rank).2.service)
    let bench ← Meter.take fun _ => unrefused (bench.endScans ids)
    return (⟨"", some rounds⟩, bench)

/-- Runs a workload, with what announces it before its progress. Unless the workers are scheduled
otherwise, they leave it to the caller to wait for each page. -/
def run (config : Config) (workload : Workload) (bench : Bench)
    (schedule : Schedule := fun _ => []) : Except Breakdown (Outcome × Bench) := do
  let (outcome, bench) ← workload.carryOut config schedule bench
  .ok ({ outcome with text := "\n" ++ workload.heading config ++ "\n" ++ outcome.text }, bench)

section Run

variable {config : Config} {schedule : Schedule} {workload : Workload} {bench after : Bench}

theorem run_ok {outcome : Outcome} (carried : (workload.carryOut config schedule bench :
    Except Breakdown _) = .ok (outcome, after)) :
    workload.run config bench schedule =
      .ok (⟨"\n" ++ workload.heading config ++ "\n" ++ outcome.text, outcome.batches⟩, after) :=
  bind_ok _ carried

theorem run_error {breakdown : Breakdown} (broken : (workload.carryOut config schedule bench :
    Except Breakdown (Outcome × Bench)) = .error breakdown) :
    workload.run config bench schedule = .error breakdown := bind_error _ broken

end Run

end Workload
end KeyScan.Benchmark
