import KeyScan.Text.Grouped
import KeyScan.Text.Places

namespace KeyScan.Benchmark

structure Summary where
  duration : Nat := 0
  operations : Nat := 0
  bytes : Nat := 0
  latencies : List Nat := []
  deriving DecidableEq

namespace Summary

/-- Nanoseconds in seconds: the whole seconds and the rest are converted apart. -/
def seconds (nanoseconds : Nat) : Float :=
  Text.nearest (nanoseconds / 1000000000) + Text.nearest (nanoseconds % 1000000000) / 1e9

def microseconds (nanoseconds : Nat) : Nat := nanoseconds / 1000

def operationsPerSecond (summary : Summary) : Float :=
  Text.nearest summary.operations / seconds summary.duration

def megabytesPerSecond (summary : Summary) : Float :=
  Text.nearest summary.bytes / (1024 * 1024) / seconds summary.duration

/-- The mean latency in microseconds, zero if there is none. -/
def meanLatency (summary : Summary) : Float :=
  if summary.latencies.isEmpty then 0
  else
    let total := summary.latencies.foldr (fun latency total => microseconds latency + total) 0
    Text.nearest total / Text.nearest summary.latencies.length

def sortLatencies (summary : Summary) : Summary :=
  { summary with latencies := summary.latencies.mergeSort }

/-- The latency in microseconds that a part of a hundred of all latencies does not reach, zero if
there is none. -/
def percentile (summary : Summary) (percent : Float) : Float :=
  let sorted := summary.sortLatencies.latencies
  let place := (Text.nearest sorted.length * percent / 100).toUInt64.toNat
  match sorted[min place (sorted.length - 1)]? with
  | some latency => Text.nearest (microseconds latency)
  | none => 0

def column (places : Nat) (x : Float) : String := Text.padLeft ' ' 12 (Text.fixed places x)

def rule : String := String.ofList (List.replicate 60 '=')

def text (name : String) (summary : Summary) : String :=
  let lines :=
    ["", rule, "Benchmark: " ++ name, rule,
      "Operations:     " ++ Text.padLeft ' ' 12 (Text.grouped summary.operations),
      "Duration:       " ++ column 2 (seconds summary.duration) ++ " sec",
      "Throughput:     " ++ column 0 summary.operationsPerSecond ++ " ops/sec",
      "Throughput:     " ++ column 2 summary.megabytesPerSecond ++ " MB/sec",
      "",
      "Latency per batch/seek (microseconds):",
      "  Average:      " ++ column 2 summary.meanLatency,
      "  P50:          " ++ column 2 (summary.percentile 50),
      "  P95:          " ++ column 2 (summary.percentile 95),
      "  P99:          " ++ column 2 (summary.percentile 99),
      rule]
  String.join (lines.map (· ++ "\n"))

end Summary
end KeyScan.Benchmark
