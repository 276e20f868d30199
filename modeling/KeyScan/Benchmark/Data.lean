import KeyScan.Benchmark.Breakdown
import KeyScan.Bytes
import KeyScan.Text.Places

namespace KeyScan.Benchmark

/-- The size of a benchmark. -/
structure Config where
  keys : Nat := 100000
  valueSize : Nat := 100
  highWaterMark : Nat := 16384
  workers : Nat := 4
  seeks : Nat := 10000
  deriving DecidableEq

/-- The name of the key with a number: at least eight digits, so that up to a hundred million of them
sort by their numbers. -/
def keyName (number : Nat) : String := "key" ++ Text.padLeft '0' 8 (Nat.repr number)

def keyOf (number : Nat) : Bytes := .ofString (keyName number)

/-- A step of the linear congruential generator, modulo `2 ^ 64`. -/
def advance (x : UInt64) : UInt64 := x * 1103515245 + 12345

/-- A value of a given size: the third byte of each state of the generator from a seed on. -/
def valueOf : (size : Nat) → (seed : UInt64) → Bytes
  | 0, _ => []
  | size + 1, seed => (advance seed >>> 16).toUInt8 :: valueOf size (advance seed)

theorem length_valueOf (size : Nat) (seed : UInt64) : (valueOf size seed).length = size := by
  induction size generalizing seed with
  | zero => rfl
  | succ size ih => simp [valueOf, ih]

/-- The length of the longest byte string that can be held. -/
def longest : Nat := Int64.maxValue.toInt.toNat

/-- A value of a given size, if that can be held. -/
def makeValue (size : Nat) (seed : UInt64) : Except Breakdown Bytes :=
  if size ≤ longest then .ok (valueOf size seed) else .error .tooLong

end KeyScan.Benchmark
