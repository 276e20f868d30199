import KeyScan.Report

namespace KeyScan.Benchmark

/-- Why a benchmark breaks down. -/
inductive Breakdown where
  | overflow
  /-- a value would be longer than any byte string can be -/
  | tooLong
  | noTotal
  /-- more than all cells of a progress bar were to be filled -/
  | overfilled
  | noKeys
  | noParts
  /-- a seek was not followed by exactly one entry -/
  | missing (key : String)
  /-- a scan went on without a page that is done -/
  | endless
  | refused (failure : Failure)
  deriving DecidableEq

/-- A product of two numbers, which must fit in a word. -/
def product (a b : Nat) : Except Breakdown Nat :=
  if a * b < UInt64.size then .ok (a * b) else .error .overflow

theorem product_eq_ok_iff {a b c : Nat} : product a b = .ok c ↔ a * b < UInt64.size ∧ a * b = c := by
  unfold product
  by_cases fits : a * b < UInt64.size
  · rw [if_pos fits, Except.ok.injEq, and_iff_right fits]
  · rw [if_neg fits]
    exact ⟨nofun, fun both => absurd both.1 fits⟩

end KeyScan.Benchmark
