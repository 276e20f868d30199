import Mathlib.Algebra.Group.Nat.Defs
import KeyScan.Benchmark.Data

namespace KeyScan.Benchmark

/-- The last decimal digits of a number, so many of them. -/
def lastDigits : (width : Nat) → Nat → List Char
  | 0, _ => []
  | width + 1, n => lastDigits width (n / 10) ++ [Nat.digitChar (n % 10)]

private theorem length_lastDigits (width n : Nat) : (lastDigits width n).length = width := by
  induction width generalizing n with
  | zero => rfl
  | succ width ih => rw [lastDigits, List.length_append, ih, List.length_singleton]

private theorem lastDigits_zero (width : Nat) : lastDigits width 0 = List.replicate width '0' := by
  induction width with
  | zero => rfl
  | succ width ih =>
    rw [lastDigits, Nat.zero_div, ih, List.replicate_succ']
    rfl

/-- The digits of a number that has no more of them, after as many zeros as are missing. -/
theorem replicate_append_toDigits {width n : Nat} (small : n < 10 ^ (width + 1)) :
    List.replicate (width + 1 - (Nat.toDigits 10 n).length) '0' ++ Nat.toDigits 10 n =
      lastDigits (width + 1) n := by
  induction width generalizing n with
  | zero =>
    have single : n < 10 := small
    rw [Nat.toDigits_of_lt_base single, lastDigits, Nat.mod_eq_of_lt single]
    rfl
  | succ width ih =>
    by_cases single : n < 10
    · rw [Nat.toDigits_of_lt_base single, lastDigits, Nat.div_eq_of_lt single, Nat.mod_eq_of_lt single,
        lastDigits_zero]
      rfl
    · have front : n / 10 < 10 ^ (width + 1) := by
        rw [Nat.pow_succ] at small
        omega
      have parted : Nat.toDigits 10 n = Nat.toDigits 10 (n / 10) ++ [Nat.digitChar (n % 10)] := by
        have last : n % 10 < 10 := Nat.mod_lt n (by decide)
        have joined := Nat.toDigits_append_toDigits (by decide : 1 < 10) (by omega : 0 < n / 10) last
        rw [Nat.toDigits_of_lt_base last, Nat.div_add_mod] at joined
        exact joined.symm
      rw [parted, List.length_append, List.length_singleton, Nat.add_sub_add_right, ← List.append_assoc,
        ih front]
      rfl

private theorem flatMap_utf8EncodeChar {cs : List Char} (ascii : ∀ c ∈ cs, c.toNat < 128) :
    cs.flatMap String.utf8EncodeChar = cs.map Char.toUInt8 := by
  induction cs with
  | nil => rfl
  | cons c rest ih =>
    obtain ⟨first, others⟩ := List.forall_mem_cons.mp ascii
    have single : c.utf8Size = 1 := by
      rw [Char.utf8Size_eq_one_iff, UInt32.le_iff_toNat_le]
      exact Nat.le_of_lt_succ first
    rw [List.flatMap_cons, String.utf8EncodeChar_eq_singleton single, ih others]
    rfl

private theorem ofString_eq {text : String} (ascii : ∀ c ∈ text.toList, c.toNat < 128) :
    Bytes.ofString text = text.toList.map Char.toUInt8 := by
  have bytes : Bytes.ofString (String.ofList text.toList) = text.toList.flatMap String.utf8EncodeChar := by
    simp [Bytes.ofString, String.toByteArray_ofList, List.utf8Encode, - String.ofList_toList]
  rwa [String.ofList_toList, flatMap_utf8EncodeChar ascii] at bytes

private theorem mem_lastDigits {width n : Nat} {c : Char} (member : c ∈ lastDigits width n) :
    ∃ d < 10, c = Nat.digitChar d := by
  induction width generalizing n with
  | zero => cases member
  | succ width ih =>
    rcases List.mem_append.mp member with front | last
    · exact ih front
    · exact ⟨n % 10, Nat.mod_lt n (by decide), List.mem_singleton.mp last⟩

/-- The bytes of the key with a number: three letters and eight digits. -/
theorem keyOf_eq {number : Nat} (small : number < 10 ^ 8) :
    keyOf number = [107, 101, 121] ++ (lastDigits 8 number).map Char.toUInt8 := by
  have name : (keyName number).toList = ['k', 'e', 'y'] ++ lastDigits 8 number := by
    have padded : List.replicate (8 - (Nat.toDigits 10 number).length) '0' ++ Nat.toDigits 10 number =
        lastDigits 8 number := replicate_append_toDigits small
    rw [keyName, String.toList_append, Text.padLeft, String.toList_append, String.toList_ofList,
      Nat.repr_eq_ofList_toDigits, String.length_ofList, String.toList_ofList, String.toList_ofList]
    exact congrArg (['k', 'e', 'y'] ++ ·) padded
  have ascii : ∀ c ∈ (keyName number).toList, c.toNat < 128 := by
    intro c member
    rw [name] at member
    rcases List.mem_append.mp member with letter | digit
    · simp only [List.mem_cons, List.not_mem_nil, or_false] at letter
      rcases letter with rfl | rfl | rfl <;> decide
    · obtain ⟨d, small, rfl⟩ := mem_lastDigits digit
      rw [Nat.toNat_digitChar_of_lt_ten small]
      omega
  rw [keyOf, ofString_eq ascii, name, List.map_append]
  rfl

theorem length_keyOf {number : Nat} (small : number < 10 ^ 8) : (keyOf number).length = 11 := by
  rw [keyOf_eq small, List.length_append, List.length_map, length_lastDigits]
  rfl

private theorem concat_lt_concat_iff {xs ys : List UInt8} {x y : UInt8} (same : xs.length = ys.length) :
    xs ++ [x] < ys ++ [y] ↔ xs < ys ∨ xs = ys ∧ x < y := by
  induction xs generalizing ys with
  | nil =>
    rw [List.length_eq_zero_iff.mp same.symm]
    simp [List.cons_lt_cons_iff]
  | cons first xs ih =>
    cases ys with
    | nil => cases same
    | cons other ys =>
      rw [List.cons_append, List.cons_append, List.cons_lt_cons_iff, ih (Nat.succ.inj same),
        List.cons_lt_cons_iff, List.cons.injEq]
      constructor
      · rintro (less | ⟨rfl, less | ⟨rfl, less⟩⟩)
        · exact .inl (.inl less)
        · exact .inl (.inr ⟨rfl, less⟩)
        · exact .inr ⟨⟨rfl, rfl⟩, less⟩
      · rintro ((less | ⟨rfl, less⟩) | ⟨⟨rfl, rfl⟩, less⟩)
        · exact .inl less
        · exact .inr ⟨rfl, .inl less⟩
        · exact .inr ⟨rfl, .inr ⟨rfl, less⟩⟩

private theorem digit_lt_digit_iff {d e : Nat} (small : d < 10) (small' : e < 10) :
    (Nat.digitChar d).toUInt8 < (Nat.digitChar e).toUInt8 ↔ d < e := by
  have byte {k : Nat} (small : k < 10) : (Nat.digitChar k).toUInt8.toNat = 48 + k := by
    have value : (Nat.digitChar k).val.toNat = 48 + k := Nat.toNat_digitChar_of_lt_ten small
    rw [Char.toUInt8, UInt32.toNat_toUInt8, value, Nat.mod_eq_of_lt (by omega)]
  rw [UInt8.lt_iff_toNat_lt, byte small, byte small', Nat.add_lt_add_iff_left]

/-- Numbers written with the same count of digits compare as their texts. -/
theorem lastDigits_lt_iff {width a b : Nat} (small : a < 10 ^ width) (small' : b < 10 ^ width) :
    (lastDigits width a).map Char.toUInt8 < (lastDigits width b).map Char.toUInt8 ↔ a < b := by
  induction width generalizing a b with
  | zero =>
    have none : ¬ a < b := by omega
    simp [lastDigits, none]
  | succ width ih =>
    rw [Nat.pow_succ] at small small'
    have front : a / 10 < 10 ^ width := by omega
    have front' : b / 10 < 10 ^ width := by omega
    have lengths : ((lastDigits width (a / 10)).map Char.toUInt8).length =
        ((lastDigits width (b / 10)).map Char.toUInt8).length := by
      rw [List.length_map, List.length_map, length_lastDigits, length_lastDigits]
    have last : a % 10 < 10 := Nat.mod_lt a (by decide)
    have last' : b % 10 < 10 := Nat.mod_lt b (by decide)
    rw [lastDigits, lastDigits, List.map_append, List.map_append, List.map_singleton, List.map_singleton,
      concat_lt_concat_iff lengths, ih front front', digit_lt_digit_iff last last']
    constructor
    · rintro (less | ⟨same, less⟩)
      · omega
      · -- texts that are the same do not compare, so neither do the numbers before the last digits
        have notLess : ¬ a / 10 < b / 10 := fun less =>
          List.lt_irrefl _ (same ▸ (ih front front').mpr less)
        have notGreater : ¬ b / 10 < a / 10 := fun less =>
          List.lt_irrefl _ (same ▸ (ih front' front).mpr less)
        omega
    · intro less
      by_cases same : a / 10 = b / 10
      · exact .inr ⟨by rw [same], by omega⟩
      · exact .inl (by omega)

theorem keyOf_lt_iff {a b : Nat} (small : a < 10 ^ 8) (small' : b < 10 ^ 8) :
    keyOf a < keyOf b ↔ a < b := by
  rw [keyOf_eq small, keyOf_eq small', ← lastDigits_lt_iff small small']
  simp

theorem keyOf_le_iff {a b : Nat} (small : a < 10 ^ 8) (small' : b < 10 ^ 8) :
    keyOf a ≤ keyOf b ↔ a ≤ b := by
  rw [← List.not_lt, keyOf_lt_iff small' small, Nat.not_lt]

end KeyScan.Benchmark
