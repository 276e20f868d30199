import KeyScan.Benchmark.Breakdown
import KeyScan.Text.Grouped
import KeyScan.Text.Places

namespace KeyScan.Benchmark

structure Progress where
  total : Nat
  current : Nat := 0
  deriving DecidableEq

namespace Progress

def cells : Nat := 40

/-- The part of a hundred, cut to a whole number. -/
def percent (progress : Progress) : Nat :=
  (Text.nearest progress.current / Text.nearest progress.total * 100).toUInt64.toNat

/-- How many cells to fill: all cells times the part that is done, which must fit in a word, divided
by the total. -/
def filled (progress : Progress) : Except Breakdown Nat := do
  let scaled ← product cells progress.current
  if progress.total = 0 then .error .noTotal else .ok (scaled / progress.total)

/-- The line that shows the progress, written over the line before. -/
def display (progress : Progress) : Except Breakdown String := do
  let filled ← progress.filled
  if cells < filled then .error .overfilled
  else
    let bar := List.replicate filled '=' ++ List.replicate (cells - filled) ' '
    .ok ("\r[" ++ String.ofList bar ++ "] " ++
      Text.padLeft ' ' 3 (Nat.repr progress.percent) ++ "% (" ++ Text.grouped progress.current ++
      "/" ++ Text.grouped progress.total ++ ")")

def finish (progress : Progress) : Progress := { progress with current := progress.total }

def displayFinished (progress : Progress) : Except Breakdown String :=
  progress.finish.display.map fun line => line ++ "\n"

def displayUpdates (progress : Progress) : List Nat → Except Breakdown (String × Progress)
  | [] => .ok ("", progress)
  | current :: rest => do
    let line ← { progress with current }.display
    let (lines, progress) ← { progress with current }.displayUpdates rest
    .ok (line ++ "\n" ++ lines, progress)

end Progress
end KeyScan.Benchmark
