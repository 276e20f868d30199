/-! Numbers printed with a fixed count of decimal places. A double stands for an exact binary
fraction; that fraction is rounded once, to the nearest decimal with the wanted places, and a tie
goes to the even neighbour. -/
namespace KeyScan.Text

/-- The quotient rounded to the nearest integer, a half going to the even neighbour. -/
def roundDiv (num den : Nat) : Nat :=
  let quotient := num / den
  let twice := 2 * (num % den)
  if twice < den then quotient
  else if den < twice then quotient + 1
  else if quotient % 2 = 0 then quotient else quotient + 1

/-- A text filled up with a character on the left to a least width in characters. -/
def padLeft (fill : Char) (width : Nat) (text : String) : String :=
  String.ofList (List.replicate (width - text.length) fill) ++ text

/-- The decimal text of `scaled / 10 ^ places`. -/
def withPoint (places scaled : Nat) : String :=
  if places = 0 then Nat.repr scaled
  else Nat.repr (scaled / Nat.pow 10 places) ++ "." ++
    padLeft '0' places (Nat.repr (scaled % Nat.pow 10 places))

/-- What the bits of a double stand for. -/
inductive Double where
  | nan
  | infinite (negative : Bool)
  | finite (negative : Bool) (significand : Nat) (exponent : Int)

/-- Splits the bits of a double into sign, significand and binary exponent. -/
def Double.ofBits (bits : UInt64) : Double :=
  let n := bits.toNat
  let negative := decide (Nat.pow 2 63 ≤ n)
  let exponent : Nat := n / Nat.pow 2 52 % Nat.pow 2 11
  let fraction : Nat := n % Nat.pow 2 52
  if exponent = Nat.pow 2 11 - 1 then
    if fraction = 0 then .infinite negative else .nan
  else if exponent = 0 then .finite negative fraction (-1074)
  else .finite negative (Nat.pow 2 52 + fraction) ((exponent : Int) - 1075)

/-- The nearest integer to the magnitude times `10 ^ places`. -/
def scaledMagnitude (places significand : Nat) (exponent : Int) : Nat :=
  match exponent with
  | .ofNat e => significand * Nat.pow 2 e * Nat.pow 10 places
  | .negSucc e => roundDiv (significand * Nat.pow 10 places) (Nat.pow 2 (e + 1))

/-- A double with a fixed count of decimal places. -/
def fixed (places : Nat) (x : Float) : String :=
  match Double.ofBits x.toBits with
  | .nan => "NaN"
  | .infinite negative => if negative then "-inf" else "inf"
  | .finite negative significand exponent =>
    let magnitude := withPoint places (scaledMagnitude places significand exponent)
    if negative then "-" ++ magnitude else magnitude

/-- The double nearest to a natural number, a tie going to the even significand. -/
def nearest (n : Nat) : Float := Float.ofScientific n false 0

end KeyScan.Text
