import Mathlib.Algebra.Group.Nat.Defs
import KeyScan.Json.Writer
import KeyScan.Proofs.Json.Spelling
import KeyScan.Proofs.Text.Units

namespace KeyScan.Json

private theorem writeNumeral_spells (numeral : Numeral) : SpellsNumeral numeral (writeNumeral numeral) := by
  obtain ⟨negative, whole, fraction, exponent⟩ := numeral
  have point : SpellsFraction fraction (if fraction = [] then []
      else '.' :: fraction.map fun digit => Nat.digitChar digit.val) := by
    split
    · rename_i none
      exact none ▸ .absent
    · rename_i some
      exact .present some
  refine .parts negative point ?_
  cases exponent with
  | none => exact .absent
  | some e =>
    by_cases below : e < 0
    · have same : -(e.natAbs : Int) = e := by omega
      have spelled := SpellsExponent.minus (.inl rfl : 'e' = 'e' ∨ 'e' = 'E') 0 e.natAbs
      rw [same] at spelled
      change SpellsExponent (some e) ('e' :: ((if e < 0 then ['-'] else []) ++ writeDigits e.natAbs))
      rw [if_pos below]
      exact spelled
    · have same : (e.natAbs : Int) = e := by omega
      have spelled := SpellsExponent.unsigned (.inl rfl : 'e' = 'e' ∨ 'e' = 'E') 0 e.natAbs
      rw [same] at spelled
      change SpellsExponent (some e) ('e' :: ((if e < 0 then ['-'] else []) ++ writeDigits e.natAbs))
      rw [if_neg below]
      exact spelled

private theorem isPlain_iff {unit : UInt16} :
    isPlain unit = true ↔ 0x20 ≤ unit.toNat ∧ unit.toNat < 0x7F ∧ unit ≠ 0x22 ∧ unit ≠ 0x5C := by
  simp [isPlain, UInt16.le_iff_toNat_le, UInt16.lt_iff_toNat_lt, and_assoc]

private theorem writeUnits_spell (units : List UInt16) : SpellsUnits units (units.flatMap writeUnit) := by
  induction units with
  | nil => exact .none
  | cons unit rest ih =>
    rw [List.flatMap_cons, writeUnit]
    split
    · rename_i plain
      obtain ⟨printable, ascii, noQuote, noBackslash⟩ := isPlain_iff.mp plain
      have value : (Char.ofNat unit.toNat).toNat = unit.toNat :=
        Text.toNat_ofNat (.inl (by omega))
      have own : Text.unitsOf (Char.ofNat unit.toNat) = [unit] := by
        refine Text.unitsOf_ofNat ?_ ?_
        · rw [← Bool.not_eq_true, Text.isHighSurrogate_iff]
          omega
        · rw [← Bool.not_eq_true, Text.isLowSurrogate_iff]
          omega
      have spelled : SpellsUnits (Text.unitsOf (Char.ofNat unit.toNat) ++ rest)
          (Char.ofNat unit.toNat :: rest.flatMap writeUnit) := by
        refine .plain (value.symm ▸ printable) ?_ ?_ ih
        · intro same
          rw [same] at value
          exact noQuote (UInt16.toNat_inj.mp value.symm)
        · intro same
          rw [same] at value
          exact noBackslash (UInt16.toNat_inj.mp value.symm)
      rwa [own] at spelled
    · have small := unit.toNat_lt
      have spelled := SpellsUnits.numbered (.lower (by omega : unit.toNat / 4096 < 16))
        (.lower (by omega : unit.toNat / 256 % 16 < 16)) (.lower (by omega : unit.toNat / 16 % 16 < 16))
        (.lower (by omega : unit.toNat % 16 < 16)) ih
      have same : ((unit.toNat / 4096 * 16 + unit.toNat / 256 % 16) * 16 + unit.toNat / 16 % 16) * 16 +
          unit.toNat % 16 = unit.toNat := by omega
      rw [same] at spelled
      rwa [Nat.toUInt16_eq, UInt16.ofNat_toNat] at spelled

private theorem blank_nil : Blank [] := fun _ member => absurd member List.not_mem_nil

mutual

theorem write_spells : (value : Json) → Spells (.value value) (write value)
  | .null => .null
  | .bool true => .yes
  | .bool false => .no
  | .number numeral => .number (writeNumeral_spells numeral)
  | .string units => .string (writeUnits_spell units)
  | .array [] => .emptyArray blank_nil
  | .array (item :: rest) => .array (writeItems_spell (item :: rest) (List.cons_ne_nil item rest))
  | .object [] => .emptyObject blank_nil
  | .object (member :: rest) => .object (writeMembers_spell (member :: rest) (List.cons_ne_nil member rest))

theorem writeItems_spell : (items : List Json) → items ≠ [] → Spells (.items items) (writeItems items)
  | [], notEmpty => absurd rfl notEmpty
  | [item], _ => by
    have spelled := Spells.lastItem blank_nil (write_spells item) blank_nil
    simpa [writeItems] using spelled
  | item :: next :: rest, _ => by
    have later := writeItems_spell (next :: rest) (List.cons_ne_nil next rest)
    have spelled := Spells.nextItem blank_nil (write_spells item) blank_nil later
    simpa [writeItems] using spelled

theorem writeMembers_spell : (members : List (List UInt16 × Json)) → members ≠ [] →
    Spells (.members members) (writeMembers members)
  | [], notEmpty => absurd rfl notEmpty
  | [member], _ => by
    have spelled := Spells.lastMember (writeMember_spells member) blank_nil
    simpa [writeMembers] using spelled
  | member :: next :: rest, _ => by
    have later := writeMembers_spell (next :: rest) (List.cons_ne_nil next rest)
    have spelled := Spells.nextMember (writeMember_spells member) blank_nil later
    simpa [writeMembers] using spelled

theorem writeMember_spells : (member : List UInt16 × Json) →
    Spells (.member member) (writeMember member)
  | (name, value) => by
    have spelled := Spells.member blank_nil (writeUnits_spell name) blank_nil blank_nil (write_spells value)
    simpa [writeMember, writeString] using spelled

end

theorem text_spelled (value : Json) : Spelled value.text value :=
  ⟨[], write value, [], blank_nil, write_spells value, blank_nil, by simp [text]⟩

end KeyScan.Json
