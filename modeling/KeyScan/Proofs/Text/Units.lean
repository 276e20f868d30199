import Mathlib.Algebra.Group.Nat.Defs
import KeyScan.Text.Units

namespace KeyScan.Text

private theorem toNat_toUInt16 {n : Nat} (small : n < 0x10000) : n.toUInt16.toNat = n := by
  rw [Nat.toUInt16_eq, UInt16.toNat_ofNat', Nat.mod_eq_of_lt small]

theorem isHighSurrogate_iff {unit : UInt16} :
    isHighSurrogate unit = true ↔ 0xD800 ≤ unit.toNat ∧ unit.toNat < 0xDC00 := by
  simp [isHighSurrogate, UInt16.le_iff_toNat_le, UInt16.lt_iff_toNat_lt]

theorem isLowSurrogate_iff {unit : UInt16} :
    isLowSurrogate unit = true ↔ 0xDC00 ≤ unit.toNat ∧ unit.toNat < 0xE000 := by
  simp [isLowSurrogate, UInt16.le_iff_toNat_le, UInt16.lt_iff_toNat_lt]

private theorem scalar (c : Char) : c.toNat < 0xD800 ∨ 0xE000 ≤ c.toNat ∧ c.toNat < 0x110000 := by
  rcases c.valid with low | ⟨above, high⟩
  · exact .inl low
  · exact .inr ⟨above, high⟩

theorem toNat_ofNat {n : Nat} (valid : n.isValidChar) : (Char.ofNat n).toNat = n := by
  unfold Char.ofNat
  rw [dif_pos valid]
  rfl

/-- The characters of units that start with those of a character. -/
theorem charsOfUnits?_unitsOf_append (c : Char) (units : List UInt16) :
    charsOfUnits? (unitsOf c ++ units) = (charsOfUnits? units).map (c :: ·) := by
  have scalar := scalar c
  unfold unitsOf
  split
  · rename_i small
    have value := toNat_toUInt16 small
    have high : isHighSurrogate c.toNat.toUInt16 = false := by
      rw [← Bool.not_eq_true, isHighSurrogate_iff]
      omega
    have low : isLowSurrogate c.toNat.toUInt16 = false := by
      rw [← Bool.not_eq_true, isLowSurrogate_iff]
      omega
    cases units with
    | nil => simp [charsOfUnits?, high, low, value, Char.ofNat_toNat]
    | cons next rest => simp [charsOfUnits?, high, low, value, Char.ofNat_toNat]
  · rename_i large
    have first : (0xD800 + (c.toNat - 0x10000) / 0x400).toUInt16.toNat =
        0xD800 + (c.toNat - 0x10000) / 0x400 := toNat_toUInt16 (by omega)
    have second : (0xDC00 + (c.toNat - 0x10000) % 0x400).toUInt16.toNat =
        0xDC00 + (c.toNat - 0x10000) % 0x400 := toNat_toUInt16 (by omega)
    have high : isHighSurrogate (0xD800 + (c.toNat - 0x10000) / 0x400).toUInt16 = true := by
      rw [isHighSurrogate_iff, first]
      omega
    have low : isLowSurrogate (0xDC00 + (c.toNat - 0x10000) % 0x400).toUInt16 = true := by
      rw [isLowSurrogate_iff, second]
      omega
    have same : 0x10000 + (0xD800 + (c.toNat - 0x10000) / 0x400 - 0xD800) * 0x400 +
        (0xDC00 + (c.toNat - 0x10000) % 0x400 - 0xDC00) = c.toNat := by omega
    simp only [List.cons_append, List.nil_append, charsOfUnits?, high, low, first, second, same,
      Char.ofNat_toNat, if_true]

private theorem charsOfUnits?_units (chars : List Char) :
    charsOfUnits? (chars.flatMap unitsOf) = some chars := by
  induction chars with
  | nil => rfl
  | cons c rest ih => rw [List.flatMap_cons, charsOfUnits?_unitsOf_append, ih, Option.map_some]

theorem unitsOf_ofNat {unit : UInt16} (notHigh : isHighSurrogate unit = false)
    (notLow : isLowSurrogate unit = false) : unitsOf (Char.ofNat unit.toNat) = [unit] := by
  rw [← Bool.not_eq_true, isHighSurrogate_iff] at notHigh
  rw [← Bool.not_eq_true, isLowSurrogate_iff] at notLow
  have small := unit.toNat_lt
  have valid : unit.toNat.isValidChar := by
    unfold Nat.isValidChar
    omega
  unfold unitsOf
  rw [toNat_ofNat valid, if_pos small]
  simp [Nat.toUInt16_eq]

private theorem unitsOf_pair {high low : UInt16} (isHigh : isHighSurrogate high = true)
    (isLow : isLowSurrogate low = true) :
    unitsOf (Char.ofNat (0x10000 + (high.toNat - 0xD800) * 0x400 + (low.toNat - 0xDC00))) =
      [high, low] := by
  rw [isHighSurrogate_iff] at isHigh
  rw [isLowSurrogate_iff] at isLow
  have valid : (0x10000 + (high.toNat - 0xD800) * 0x400 + (low.toNat - 0xDC00)).isValidChar := by
    unfold Nat.isValidChar
    omega
  unfold unitsOf
  rw [toNat_ofNat valid, if_neg (by omega)]
  have first : 0xD800 + (0x10000 + (high.toNat - 0xD800) * 0x400 + (low.toNat - 0xDC00) - 0x10000) / 0x400 =
      high.toNat := by omega
  have second : 0xDC00 + (0x10000 + (high.toNat - 0xD800) * 0x400 + (low.toNat - 0xDC00) - 0x10000) % 0x400 =
      low.toNat := by omega
  rw [first, second]
  simp [Nat.toUInt16_eq]

private theorem units_of_charsOfUnits? {units : List UInt16} {chars : List Char}
    (read : charsOfUnits? units = some chars) : chars.flatMap unitsOf = units := by
  fun_induction charsOfUnits? units generalizing chars with
  | case1 =>
    cases read
    rfl
  | case2 => cases read
  | case3 unit single =>
    cases read
    rw [Bool.or_eq_true, not_or, Bool.not_eq_true, Bool.not_eq_true] at single
    simp [unitsOf_ofNat single.1 single.2]
  | case4 high low rest isHigh isLow ih =>
    obtain ⟨later, known, rfl⟩ := Option.map_eq_some_iff.mp read
    rw [List.flatMap_cons, ih known, unitsOf_pair isHigh isLow]
    rfl
  | case5 => cases read
  | case6 => cases read
  | case7 unit next rest notHigh notLow ih =>
    obtain ⟨later, known, rfl⟩ := Option.map_eq_some_iff.mp read
    rw [Bool.not_eq_true] at notHigh notLow
    rw [List.flatMap_cons, ih known, unitsOf_ofNat notHigh notLow]
    rfl

/-- Units stand for a text exactly if they are its units. -/
theorem ofUnits?_eq_some_iff {unitList : List UInt16} {text : String} :
    ofUnits? unitList = some text ↔ unitList = units text := by
  unfold ofUnits? units
  rw [Option.map_eq_some_iff]
  constructor
  · rintro ⟨chars, read, rfl⟩
    rw [String.toList_ofList, units_of_charsOfUnits? read]
  · rintro rfl
    exact ⟨text.toList, charsOfUnits?_units _, String.ofList_toList⟩

end KeyScan.Text
