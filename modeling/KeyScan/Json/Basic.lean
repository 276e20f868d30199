import KeyScan.Text.Units

/-! Values of the JSON data format. Strings are lists of UTF-16 units, since an escape may name half
of a surrogate pair; numbers keep the distinction between integers and other numerals; objects keep
the order and the repetition of their members. -/
namespace KeyScan

/-- A number by its parts. An absent fraction has no digits; blanks, the letter case and leading
zeros of an exponent carry no meaning and are not kept. -/
structure Numeral where
  negative : Bool
  whole : Nat
  fraction : List (Fin 10)
  exponent : Option Int
  deriving DecidableEq, Repr

/-- The integer that a numeral denotes: it has no fraction, no exponent, and is not minus zero. -/
def Numeral.integer? (numeral : Numeral) : Option Int :=
  if numeral.fraction ≠ [] ∨ numeral.exponent ≠ none then none
  else if numeral.negative then
    if numeral.whole = 0 then none else some (-(numeral.whole : Int))
  else some (numeral.whole : Int)

def Numeral.ofInt (n : Int) : Numeral := ⟨decide (n < 0), n.natAbs, [], none⟩

theorem Numeral.integer?_ofInt (n : Int) : (Numeral.ofInt n).integer? = some n := by
  unfold integer? ofInt
  by_cases below : n < 0
  · have positive : n.natAbs ≠ 0 := by omega
    have magnitude : -(n.natAbs : Int) = n := by omega
    simp only [ne_eq, not_true_eq_false, or_self, below, decide_true, positive, magnitude, if_true,
      if_false]
  · have magnitude : (n.natAbs : Int) = n := by omega
    simp only [ne_eq, not_true_eq_false, or_self, below, decide_false, Bool.false_eq_true, magnitude,
      if_false]

inductive Json where
  | null
  | bool (value : Bool)
  | number (numeral : Numeral)
  | string (units : List UInt16)
  | array (items : List Json)
  | object (members : List (List UInt16 × Json))

namespace Json

def ofString (text : String) : Json := .string (Text.units text)

def ofInt (n : Int) : Json := .number (Numeral.ofInt n)

end Json
end KeyScan
