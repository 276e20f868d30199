import KeyScan.Json.Basic

/-! The grammar of JSON texts: which texts spell a value. A value has many spellings, since
blanks may stand between tokens, characters may be escaped, and exponents may be written in several
ways. -/
namespace KeyScan.Json

def Blank (cs : List Char) : Prop := ∀ c ∈ cs, c = ' ' ∨ c = '\t' ∨ c = '\n' ∨ c = '\r'

inductive HexDigit : Char → Nat → Prop where
  | lower {n : Nat} (small : n < 16) : HexDigit (Nat.digitChar n) n
  | upper {n : Nat} (small : n < 16) : HexDigit (Nat.digitChar n).toUpper n

/-- A letter that makes an escape with a backslash, and the unit that this stands for. -/
inductive ShortEscape : Char → UInt16 → Prop where
  | quote : ShortEscape '"' 0x22
  | backslash : ShortEscape '\\' 0x5C
  | slash : ShortEscape '/' 0x2F
  | backspace : ShortEscape 'b' 0x08
  | formFeed : ShortEscape 'f' 0x0C
  | lineFeed : ShortEscape 'n' 0x0A
  | carriageReturn : ShortEscape 'r' 0x0D
  | tab : ShortEscape 't' 0x09

/-- What may stand between quotes for some units. -/
inductive SpellsUnits : List UInt16 → List Char → Prop where
  | none : SpellsUnits [] []
  | plain {c : Char} {units : List UInt16} {cs : List Char} (printable : 0x20 ≤ c.toNat)
    (noQuote : c ≠ '"') (noBackslash : c ≠ '\\') (rest : SpellsUnits units cs) :
    SpellsUnits (Text.unitsOf c ++ units) (c :: cs)
  | short {letter : Char} {unit : UInt16} {units : List UInt16} {cs : List Char}
    (escape : ShortEscape letter unit) (rest : SpellsUnits units cs) :
    SpellsUnits (unit :: units) ('\\' :: letter :: cs)
  | numbered {a b c d : Char} {i j k l : Nat} {units : List UInt16} {cs : List Char}
    (first : HexDigit a i) (second : HexDigit b j) (third : HexDigit c k) (fourth : HexDigit d l)
    (rest : SpellsUnits units cs) :
    SpellsUnits ((((i * 16 + j) * 16 + k) * 16 + l).toUInt16 :: units) ('\\' :: 'u' :: a :: b :: c :: d :: cs)

/-- The digits after the point, if there is one; then there is at least one digit. -/
inductive SpellsFraction : List (Fin 10) → List Char → Prop where
  | absent : SpellsFraction [] []
  | present {digits : List (Fin 10)} (some : digits ≠ []) :
    SpellsFraction digits ('.' :: digits.map fun digit => Nat.digitChar digit.val)

/-- An exponent with its mark, its sign and any zeros before it, if there is one. -/
inductive SpellsExponent : Option Int → List Char → Prop where
  | absent : SpellsExponent none []
  | unsigned {mark : Char} (isMark : mark = 'e' ∨ mark = 'E') (zeros n : Nat) :
    SpellsExponent (some n) (mark :: (List.replicate zeros '0' ++ Nat.toDigits 10 n))
  | plus {mark : Char} (isMark : mark = 'e' ∨ mark = 'E') (zeros n : Nat) :
    SpellsExponent (some n) (mark :: '+' :: (List.replicate zeros '0' ++ Nat.toDigits 10 n))
  | minus {mark : Char} (isMark : mark = 'e' ∨ mark = 'E') (zeros n : Nat) :
    SpellsExponent (some (-n)) (mark :: '-' :: (List.replicate zeros '0' ++ Nat.toDigits 10 n))

/-- A number: a minus sign if it has one, its whole part without leading zeros, its fraction and its
exponent. -/
inductive SpellsNumeral : Numeral → List Char → Prop where
  | parts {whole : Nat} {fraction : List (Fin 10)} {exponent : Option Int} {after mark : List Char}
    (negative : Bool) (point : SpellsFraction fraction after) (power : SpellsExponent exponent mark) :
    SpellsNumeral ⟨negative, whole, fraction, exponent⟩
      ((if negative then ['-'] else []) ++ Nat.toDigits 10 whole ++ after ++ mark)

/-- What may be spelled: a value, the items between brackets, the members between braces, or one
member. -/
inductive Phrase where
  | value (value : Json)
  | items (items : List Json)
  | members (members : List (List UInt16 × Json))
  | member (member : List UInt16 × Json)

/-- The texts that spell a phrase. Those of a value begin and end with a token; those of the others may
have blanks around them. -/
inductive Spells : Phrase → List Char → Prop where
  | null : Spells (.value .null) ['n', 'u', 'l', 'l']
  | yes : Spells (.value (.bool true)) ['t', 'r', 'u', 'e']
  | no : Spells (.value (.bool false)) ['f', 'a', 'l', 's', 'e']
  | number {numeral : Numeral} {cs : List Char} (spelled : SpellsNumeral numeral cs) :
    Spells (.value (.number numeral)) cs
  | string {units : List UInt16} {cs : List Char} (spelled : SpellsUnits units cs) :
    Spells (.value (.string units)) ('"' :: (cs ++ ['"']))
  | emptyArray {blanks : List Char} (blank : Blank blanks) :
    Spells (.value (.array [])) ('[' :: (blanks ++ [']']))
  | array {items : List Json} {cs : List Char} (spelled : Spells (.items items) cs) :
    Spells (.value (.array items)) ('[' :: (cs ++ [']']))
  | emptyObject {blanks : List Char} (blank : Blank blanks) :
    Spells (.value (.object [])) ('\x7b' :: (blanks ++ ['\x7d']))
  | object {members : List (List UInt16 × Json)} {cs : List Char}
    (spelled : Spells (.members members) cs) :
    Spells (.value (.object members)) ('\x7b' :: (cs ++ ['\x7d']))
  | lastItem {item : Json} {before cs after : List Char} (blank : Blank before)
    (spelled : Spells (.value item) cs) (blank' : Blank after) :
    Spells (.items [item]) (before ++ cs ++ after)
  | nextItem {item : Json} {items : List Json} {before cs after more : List Char} (blank : Blank before)
    (spelled : Spells (.value item) cs) (blank' : Blank after) (rest : Spells (.items items) more) :
    Spells (.items (item :: items)) (before ++ cs ++ after ++ ',' :: more)
  | lastMember {member : List UInt16 × Json} {cs after : List Char}
    (spelled : Spells (.member member) cs) (blank : Blank after) :
    Spells (.members [member]) (cs ++ after)
  | nextMember {member : List UInt16 × Json} {members : List (List UInt16 × Json)}
    {cs after more : List Char} (spelled : Spells (.member member) cs) (blank : Blank after)
    (rest : Spells (.members members) more) :
    Spells (.members (member :: members)) (cs ++ after ++ ',' :: more)
  | member {name : List UInt16} {value : Json} {before quoted between gap cs : List Char}
    (blank : Blank before) (named : SpellsUnits name quoted) (blank' : Blank between) (blank'' : Blank gap)
    (spelled : Spells (.value value) cs) :
    Spells (.member (name, value)) (before ++ '"' :: (quoted ++ '"' :: (between ++ ':' :: (gap ++ cs))))

/-- A whole text that spells a value, with blanks around it or not. -/
def Spelled (text : String) (value : Json) : Prop :=
  ∃ before cs after, Blank before ∧ Spells (.value value) cs ∧ Blank after ∧
    text.toList = before ++ cs ++ after

end KeyScan.Json
