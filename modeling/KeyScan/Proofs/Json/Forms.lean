import Mathlib.Algebra.Group.Int.Defs
import Mathlib.Algebra.Group.Nat.Defs
import KeyScan.Options.Written
import KeyScan.Proofs.Text.Units

namespace KeyScan

/-- An integer has one numeral. -/
theorem Numeral.integer?_eq_some_iff {numeral : Numeral} {n : Int} :
    numeral.integer? = some n ↔ numeral = Numeral.ofInt n := by
  constructor
  · intro read
    obtain ⟨negative, whole, fraction, exponent⟩ := numeral
    unfold Numeral.integer? at read
    split at read
    · cases read
    · rename_i plain
      rw [not_or, Decidable.not_not, Decidable.not_not] at plain
      obtain ⟨rfl, rfl⟩ : fraction = [] ∧ exponent = none := plain
      split at read
      · rename_i minus
        obtain rfl : negative = true := minus
        split at read
        · cases read
        · rename_i nonzero
          obtain rfl : -(whole : Int) = n := Option.some.inj read
          have positive : 0 < whole := Nat.pos_of_ne_zero nonzero
          simp [Numeral.ofInt, positive]
      · rename_i plus
        obtain rfl : negative = false := (Bool.not_eq_true negative).mp plus
        obtain rfl : (whole : Int) = n := Option.some.inj read
        simp [Numeral.ofInt]
  · rintro rfl
    exact Numeral.integer?_ofInt n

namespace Json

/-- A value that writes a bound: null for none, a text for its UTF-8 encoding, or the bytes one by one. -/
inductive WritesBound : Option Bytes → Json → Prop where
  | absent : WritesBound none .null
  | text (text : String) : WritesBound (some (Bytes.ofString text)) (.ofString text)
  | bytes (bytes : Bytes) : WritesBound (some bytes) (.array (bytes.map fun byte => .ofInt byte.toNat))

def WritesFlag (flag : Bool) (value : Json) : Prop := value = .bool flag

def WritesSigned (n : Int) (value : Json) : Prop := (-2 ^ 63 ≤ n ∧ n < 2 ^ 63) ∧ value = .ofInt n

def WritesCount (n : Nat) (value : Json) : Prop := n < 2 ^ 64 ∧ value = .ofInt n

private theorem intWithin?_eq_some_iff {low high n : Int} {value : Json} :
    value.intWithin? low high = some n ↔ (low ≤ n ∧ n ≤ high) ∧ value = .ofInt n := by
  cases value with
  | number numeral =>
    rw [intWithin?, Option.filter_eq_some_iff, Numeral.integer?_eq_some_iff, decide_eq_true_eq, ofInt,
      Json.number.injEq]
    exact and_comm
  | null => simp [intWithin?, ofInt]
  | bool => simp [intWithin?, ofInt]
  | string => simp [intWithin?, ofInt]
  | array => simp [intWithin?, ofInt]
  | object => simp [intWithin?, ofInt]

theorem signed?_eq_some_iff {n : Int} {value : Json} : value.signed? = some n ↔ WritesSigned n value := by
  have least : Int64.minValue.toInt = -2 ^ 63 := rfl
  have most : Int64.maxValue.toInt = 2 ^ 63 - 1 := rfl
  rw [signed?, intWithin?_eq_some_iff, WritesSigned, least, most, Int.le_sub_one_iff]

theorem count?_eq_some_iff {n : Nat} {value : Json} : value.count? = some n ↔ WritesCount n value := by
  have most : ((UInt64.size - 1 : Nat) : Int) = 2 ^ 64 - 1 := rfl
  rw [count?, Option.map_eq_some_iff, WritesCount, most]
  constructor
  · rintro ⟨k, read, rfl⟩
    obtain ⟨⟨least, within⟩, rfl⟩ := intWithin?_eq_some_iff.mp read
    exact ⟨by omega, by rw [Int.toNat_of_nonneg least]⟩
  · rintro ⟨small, rfl⟩
    exact ⟨n, intWithin?_eq_some_iff.mpr ⟨⟨by omega, by omega⟩, rfl⟩, Int.toNat_natCast n⟩

theorem flag?_eq_some_iff {flag : Bool} {value : Json} : value.flag? = some flag ↔ WritesFlag flag value := by
  cases value <;> simp [flag?, WritesFlag]

private theorem byte?_eq_some_iff {byte : UInt8} {value : Json} :
    value.byte? = some byte ↔ value = .ofInt byte.toNat := by
  rw [byte?, Option.map_eq_some_iff]
  constructor
  · rintro ⟨n, read, rfl⟩
    obtain ⟨⟨least, most⟩, rfl⟩ := intWithin?_eq_some_iff.mp read
    have small : n.toNat < 256 := by omega
    have kept : n.toNat.toUInt8.toNat = n.toNat := by
      rw [Nat.toUInt8_eq, UInt8.toNat_ofNat', Nat.mod_eq_of_lt small]
    rw [kept, Int.toNat_of_nonneg least]
  · rintro rfl
    have small := byte.toNat_lt
    refine ⟨byte.toNat, intWithin?_eq_some_iff.mpr ⟨⟨by omega, by omega⟩, rfl⟩, ?_⟩
    rw [Int.toNat_natCast, Nat.toUInt8_eq, UInt8.ofNat_toNat]

private theorem mapM_byte?_eq_some_iff {items : List Json} {bytes : Bytes} :
    items.mapM byte? = some bytes ↔ items = bytes.map fun byte => .ofInt byte.toNat := by
  induction items generalizing bytes with
  | nil =>
    rw [List.mapM_nil, eq_comm (b := bytes.map _), List.map_eq_nil_iff]
    exact ⟨fun same => (Option.some.inj same).symm, fun none => none ▸ rfl⟩
  | cons item rest ih =>
    rw [List.mapM_cons]
    constructor
    · intro read
      obtain ⟨byte, first, read⟩ := Option.bind_eq_some_iff.mp read
      obtain ⟨later, known, same⟩ := Option.bind_eq_some_iff.mp read
      obtain rfl : byte :: later = bytes := Option.some.inj same
      rw [List.map_cons, byte?_eq_some_iff.mp first, ih.mp known]
    · intro same
      cases bytes with
      | nil => cases same
      | cons byte later =>
        obtain ⟨first, others⟩ := List.cons.inj same
        rw [byte?_eq_some_iff.mpr first, ih.mpr others]
        rfl

theorem bound?_eq_some_iff {bound : Option Bytes} {value : Json} :
    value.bound? = some bound ↔ WritesBound bound value := by
  constructor
  · intro read
    cases value with
    | null =>
      obtain rfl : none = bound := Option.some.inj read
      exact .absent
    | string units =>
      obtain ⟨bytes, known, rfl⟩ := Option.map_eq_some_iff.mp read
      obtain ⟨text, isText, rfl⟩ := Option.map_eq_some_iff.mp known
      rw [Text.ofUnits?_eq_some_iff.mp isText]
      exact .text text
    | array items =>
      obtain ⟨bytes, known, rfl⟩ := Option.map_eq_some_iff.mp read
      rw [mapM_byte?_eq_some_iff.mp known]
      exact .bytes bytes
    | bool => cases read
    | number => cases read
    | object => cases read
  · intro writes
    cases writes with
    | absent => rfl
    | text text =>
      have isText : Text.ofUnits? (Text.units text) = some text := Text.ofUnits?_eq_some_iff.mpr rfl
      rw [ofString, bound?, bytes?, isText]
      · rfl
      · exact fun same => Json.noConfusion same
    | bytes bytes =>
      have known := mapM_byte?_eq_some_iff.mpr (rfl : bytes.map (fun byte => ofInt byte.toNat) = _)
      rw [bound?, bytes?, known]
      · rfl
      · exact fun same => Json.noConfusion same

end Json
end KeyScan
