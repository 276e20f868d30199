/-! UTF-8 read one character at a time. A malformed stretch is the longest start of a character
that the bytes still allow, or one byte that can start none; the strict reading refuses it and the
lossy reading puts one replacement character in its place. -/
namespace KeyScan.Text

abbrev ByteSpan := UInt8 × UInt8

/-- The bytes that may continue a character when nothing narrower is required. -/
def continuation : ByteSpan := (0x80, 0xBF)

/-- The payload of a first byte and the spans of the bytes that must follow it. The narrower spans
exclude overlong forms, surrogates and values above the last scalar value. -/
def lead? (byte : UInt8) : Option (Nat × List ByteSpan) :=
  if byte < 0x80 then some (byte.toNat, [])
  else if byte < 0xC2 then none
  else if byte < 0xE0 then some (byte.toNat - 0xC0, [continuation])
  else if byte = 0xE0 then some (0, [(0xA0, 0xBF), continuation])
  else if byte = 0xED then some (0xD, [(0x80, 0x9F), continuation])
  else if byte < 0xF0 then some (byte.toNat - 0xE0, [continuation, continuation])
  else if byte = 0xF0 then some (0, [(0x90, 0xBF), continuation, continuation])
  else if byte < 0xF4 then some (byte.toNat - 0xF0, [continuation, continuation, continuation])
  else if byte = 0xF4 then some (4, [(0x80, 0x8F), continuation, continuation])
  else none

/-- Reads the bytes still owed to a character. The rest starts at the first byte that does not
belong to it. -/
def complete (value : Nat) : List ByteSpan → List UInt8 → Option Char × List UInt8
  | [], rest => (some (Char.ofNat value), rest)
  | _ :: _, [] => (none, [])
  | (low, high) :: spans, byte :: rest =>
    if low ≤ byte ∧ byte ≤ high then complete (value * 64 + byte.toNat % 64) spans rest
    else (none, byte :: rest)

private theorem complete_length_le (value : Nat) (spans : List ByteSpan) (bytes : List UInt8) :
    (complete value spans bytes).2.length ≤ bytes.length := by
  induction spans generalizing value bytes with
  | nil => simp [complete]
  | cons span spans ih =>
    cases bytes with
    | nil => simp [complete]
    | cons byte rest =>
      simp only [complete]
      split
      · exact Nat.le_succ_of_le (ih _ rest)
      · exact Nat.le_refl _

/-- The characters of a byte string in order, `none` for each malformed stretch. -/
def characters : List UInt8 → List (Option Char)
  | [] => []
  | byte :: rest =>
    match lead? byte with
    | none => none :: characters rest
    | some (value, spans) =>
      (complete value spans rest).1 :: characters (complete value spans rest).2
termination_by bytes => bytes.length
decreasing_by
  all_goals simp only [List.length_cons]
  · omega
  · have := complete_length_le value spans rest; omega

/-- The text of well-formed UTF-8. -/
def strict? (bytes : List UInt8) : Option String :=
  ((characters bytes).mapM id).map String.ofList

/-- The text of any bytes, a replacement character standing for each malformed stretch. -/
def lossy (bytes : List UInt8) : String :=
  String.ofList ((characters bytes).map fun c => c.getD '\uFFFD')

end KeyScan.Text
