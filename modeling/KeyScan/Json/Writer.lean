import KeyScan.Json.Basic

namespace KeyScan.Json

def hexDigits (unit : UInt16) : List Char :=
  [Nat.digitChar (unit.toNat / 4096), Nat.digitChar (unit.toNat / 256 % 16),
    Nat.digitChar (unit.toNat / 16 % 16), Nat.digitChar (unit.toNat % 16)]

/-- The units that stand for themselves: printable ASCII but for the quote and the backslash. -/
def isPlain (unit : UInt16) : Bool := 0x20 ≤ unit && unit < 0x7F && unit != 0x22 && unit != 0x5C

def writeUnit (unit : UInt16) : List Char :=
  if isPlain unit then [Char.ofNat unit.toNat] else '\\' :: 'u' :: hexDigits unit

def writeString (units : List UInt16) : List Char := '"' :: (units.flatMap writeUnit ++ ['"'])

def writeDigits (n : Nat) : List Char := Nat.toDigits 10 n

def writeNumeral (numeral : Numeral) : List Char :=
  (if numeral.negative then ['-'] else []) ++ writeDigits numeral.whole ++
    (if numeral.fraction = [] then []
      else '.' :: numeral.fraction.map fun digit => Nat.digitChar digit.val) ++
    match numeral.exponent with
    | none => []
    | some e => 'e' :: ((if e < 0 then ['-'] else []) ++ writeDigits e.natAbs)

mutual

def write : Json → List Char
  | .null => ['n', 'u', 'l', 'l']
  | .bool true => ['t', 'r', 'u', 'e']
  | .bool false => ['f', 'a', 'l', 's', 'e']
  | .number numeral => writeNumeral numeral
  | .string units => writeString units
  | .array items => '[' :: (writeItems items ++ [']'])
  | .object members => '\x7b' :: (writeMembers members ++ ['\x7d'])

def writeItems : List Json → List Char
  | [] => []
  | [item] => write item
  | item :: next :: rest => write item ++ ',' :: writeItems (next :: rest)

def writeMembers : List (List UInt16 × Json) → List Char
  | [] => []
  | [member] => writeMember member
  | member :: next :: rest => writeMember member ++ ',' :: writeMembers (next :: rest)

def writeMember : List UInt16 × Json → List Char
  | (name, value) => writeString name ++ ':' :: write value

end

def text (value : Json) : String := String.ofList value.write

end KeyScan.Json
