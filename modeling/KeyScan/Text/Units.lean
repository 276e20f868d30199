namespace KeyScan.Text

/-- The units of one character: one, or a high and a low surrogate. -/
def unitsOf (c : Char) : List UInt16 :=
  if c.toNat < 0x10000 then [c.toNat.toUInt16]
  else
    [(0xD800 + (c.toNat - 0x10000) / 0x400).toUInt16,
      (0xDC00 + (c.toNat - 0x10000) % 0x400).toUInt16]

def isHighSurrogate (unit : UInt16) : Bool := 0xD800 ≤ unit && unit < 0xDC00

def isLowSurrogate (unit : UInt16) : Bool := 0xDC00 ≤ unit && unit < 0xE000

/-- The characters of a unit list, unless it holds a surrogate without its partner. -/
def charsOfUnits? : List UInt16 → Option (List Char)
  | [] => some []
  | [unit] =>
    if isHighSurrogate unit || isLowSurrogate unit then none else some [Char.ofNat unit.toNat]
  | unit :: next :: rest =>
    if isHighSurrogate unit then
      if isLowSurrogate next then
        (charsOfUnits? rest).map fun chars =>
          Char.ofNat (0x10000 + (unit.toNat - 0xD800) * 0x400 + (next.toNat - 0xDC00)) :: chars
      else none
    else if isLowSurrogate unit then none
    else (charsOfUnits? (next :: rest)).map fun chars => Char.ofNat unit.toNat :: chars

def units (text : String) : List UInt16 := text.toList.flatMap unitsOf

/-- The text of a unit list whose surrogates are paired. -/
def ofUnits? (unitList : List UInt16) : Option String := (charsOfUnits? unitList).map String.ofList

end KeyScan.Text
