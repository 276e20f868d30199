import KeyScan.Text.Unicode

/-! Keys and values are byte strings. Their order is lexicographic on unsigned bytes, so the empty
string comes first and a string comes before its extensions. -/
namespace KeyScan

/-- A key or a value. -/
abbrev Bytes := List UInt8

namespace Bytes

def ofString (text : String) : Bytes := text.toUTF8.data.toList

/-- The text that these bytes encode, if they are UTF-8. -/
def text? (bytes : Bytes) : Option String := Text.strict? bytes

/-- The text of these bytes, with a replacement character for every malformed stretch. -/
def lossyText (bytes : Bytes) : String := Text.lossy bytes

/-- How two byte strings compare, found in one pass. -/
def order : Bytes → Bytes → Ordering
  | [], [] => .eq
  | [], _ :: _ => .lt
  | _ :: _, [] => .gt
  | a :: as, b :: bs => if a < b then .lt else if a = b then order as bs else .gt

theorem order_eq_lt_iff {a b : Bytes} : order a b = .lt ↔ a < b := by
  fun_induction order a b with
  | case1 => simp
  | case2 => simp
  | case3 => simp
  | case4 a as b bs less => simp [List.cons_lt_cons_iff, less]
  | case5 as b bs notLess ih => simp [ih]
  | case6 a as b bs notLess different => simp [List.cons_lt_cons_iff, notLess, different]

theorem order_eq_eq_iff {a b : Bytes} : order a b = .eq ↔ a = b := by
  fun_induction order a b with
  | case1 => simp
  | case2 => simp
  | case3 => simp
  | case4 a as b bs less =>
    simp only [reduceCtorEq, List.cons.injEq, not_and, false_iff]
    intro same
    exact absurd (same ▸ less) (UInt8.lt_irrefl b)
  | case5 as b bs notLess ih => simp [ih]
  | case6 a as b bs notLess different => simp [different]

/-- The numbers of the bytes between brackets. -/
def listed (bytes : Bytes) : String :=
  "[" ++ ", ".intercalate (bytes.map fun byte => toString byte.toNat) ++ "]"

/-- Text where there is one, else the listed bytes. -/
def display (bytes : Bytes) : String :=
  match bytes.text? with
  | some text => text
  | none => bytes.listed

/-- The display form between marks that tell text from listed bytes; the text is not escaped. -/
def debug (bytes : Bytes) : String :=
  match bytes.text? with
  | some text => "Slice(\"" ++ text ++ "\")"
  | none => "Slice(" ++ bytes.listed ++ ")"

def hex (bytes : Bytes) : String :=
  String.ofList (bytes.flatMap fun byte =>
    [Nat.digitChar (byte.toNat / 16), Nat.digitChar (byte.toNat % 16)])

end Bytes
end KeyScan
