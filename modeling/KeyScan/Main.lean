import KeyScan.Benchmark.Summary
import KeyScan.Benchmark.Workload
import KeyScan.Demonstration

namespace KeyScan.Benchmark

structure Times where
  duration : Nat := 0
  latencies : Array Nat := #[]

/-- Steps on the clock. -/
abbrev Timed := StateT Times IO

/-- Takes the nanoseconds that a run took. -/
def clocked {α : Type} (run : Timed α) : Timed (α × Nat) := do
  let begun ← IO.monoNanosNow
  let result ← run
  return (result, (← IO.monoNanosNow) - begun)

/-- A breakdown ends the program. -/
instance : Meter Timed where
  take step := do
    match ← IO.lazyPure step with
    | .error _ => throw (IO.userError "the benchmark broke down")
    | .ok result => return result
  lap run := do
    let (result, time) ← clocked run
    modify fun times => { times with latencies := times.latencies.push time }
    return result
  whole run := do
    let (result, time) ← clocked run
    modify fun times => { times with duration := time }
    return result

/-- How a workload is called in its summary. -/
def Workload.title : Workload → String
  | .fill => "Fill"
  | .readForward => "Forward Scan (readseq)"
  | .readBackward => "Reverse Scan (readreverse)"
  | .seekRandom => "Random Seek (seekrandom)"
  | .readParallel => "Parallel Bounded Scans (readparallel)"

def Workload.print (config : Config) (workload : Workload) (bench : Bench) : IO Bench := do
  IO.println ("\n" ++ workload.heading config)
  let run : Timed (Outcome × Bench) := workload.carryOut config (fun _ => []) bench
  let ((outcome, bench), times) ← run.run {}
  IO.print outcome.text
  if let some measured := outcome.measured then
    let summary : Summary :=
      { duration := times.duration
        operations := measured.operations
        bytes := measured.bytes
        latencies := times.latencies.toList }
    IO.print (summary.text workload.title)
  return bench

def runAll (config : Config) : IO Unit := do
  IO.println "\n🚀 rucksiter Benchmark Tool"
  IO.println (String.ofList (List.replicate 58 '━') ++ "\n")
  IO.println "Configuration:"
  IO.println ("  Keys:           " ++ Text.grouped config.keys)
  IO.println ("  Value size:     " ++ Nat.repr config.valueSize ++ " bytes")
  IO.println ("  Batch size:     " ++ Nat.repr config.highWaterMark ++ " bytes")
  IO.println ("  Workers:        " ++ Nat.repr config.workers)
  match Service.start ⟨config.workers⟩ MemoryEngine.empty with
  | .error failure => throw (IO.userError failure.report.text)
  | .ok (bench : Bench) =>
    let mut bench ← Workload.fill.print config bench
    let megabytes := Text.nearest bench.engine.table.memory / (1024 * 1024)
    IO.println ("  Memory usage:   " ++ Text.fixed 2 megabytes ++ " MB")
    for workload in [Workload.readForward, .readBackward, .seekRandom, .readParallel] do
      bench ← workload.print config bench
    IO.println "\n📈 Iterator Statistics:"
    for line in bench.tally.report.splitOn "\n" do
      IO.println ("    " ++ line)
    let closed := (bench.perform .close).2
    IO.println ("\n  Live snapshots after close: " ++ Nat.repr closed.engine.snapshots.size)
    IO.println "\n✅ Benchmark completed!"

end KeyScan.Benchmark

/-- Runs the demonstration, or the benchmark with the given number of keys. -/
def main (arguments : List String) : IO UInt32 := do
  match arguments with
  | ["demo"] =>
    match KeyScan.Demonstration.lines with
    | .error failure =>
      IO.eprintln failure.report.text
      return 1
    | .ok lines =>
      for line in lines do
        IO.println line
      return 0
  | [keys] =>
    match keys.toNat? with
    | none =>
      IO.eprintln "expected a number of keys, or demo"
      return 1
    | some keys =>
      KeyScan.Benchmark.runAll { keys }
      return 0
  | _ =>
    KeyScan.Benchmark.runAll {}
    return 0
