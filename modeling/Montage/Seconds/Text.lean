import Montage.Seconds.Digits

/-!
# Seconds as text

`Seconds.plain` writes a number with its shortest digits and never with an exponent, and leaves out
an empty fraction; the arguments of the encoder use this form.  `Seconds.detailed` always shows a
fraction or an exponent; inspection texts use it.  `Seconds.ofText?` reads a decimal number, with
one correct rounding.
-/

namespace Montage.Seconds

/-! ### Writing -/

/-- The minus sign of a negative number. -/
def signText (negative : Bool) : String := if negative then "-" else ""

/-- A run of zeros. -/
def zeros (n : Nat) : String := String.ofList (List.replicate n '0')

/-- A decimal in positional notation; `whole` follows a number without a fraction. -/
def Decimal.positional (d : Decimal) (whole : String) : String :=
  let digits := Nat.toDigits 10 d.digits
  let point : Int := digits.length + d.exponent
  if point ≤ 0 then "0." ++ zeros (-point).toNat ++ String.ofList digits
  else if digits.length ≤ point.toNat then
    String.ofList digits ++ zeros (point.toNat - digits.length) ++ whole
  else
    String.ofList (digits.take point.toNat) ++ "." ++ String.ofList (digits.drop point.toNat)

/-- A decimal in scientific notation. -/
def Decimal.scientific (d : Decimal) : String :=
  let digits := Nat.toDigits 10 d.digits
  let exponent : Int := digits.length + d.exponent - 1
  let fraction := match digits.drop 1 with
    | [] => ""
    | rest => "." ++ String.ofList rest
  String.ofList (digits.take 1) ++ fraction ++ "e" ++ toString exponent

/-- The shortest text that reads back to the number, without exponent and without empty fraction. -/
def plain : Seconds → String
  | .undefined => "NaN"
  | .infinite negative => signText negative ++ "inf"
  | .finite negative 0 => signText negative ++ "0"
  | .finite negative ticks => signText negative ++ (shortest ticks).positional ""

/-- A number is detailed with an exponent from `10 ^ 16` up and below `10 ^ -4`. -/
def needsExponent (ticks : Nat) : Bool :=
  decide (Nat.pow 10 16 * ticksPerSecond ≤ ticks) ||
    decide (ticks < nearestTicks ticksPerSecond (Nat.pow 10 4))

/-- The shortest text that reads back to the number and shows that it may have a fraction. -/
def detailed : Seconds → String
  | .undefined => "NaN"
  | .infinite negative => signText negative ++ "inf"
  | .finite negative 0 => signText negative ++ "0.0"
  | .finite negative ticks =>
    signText negative ++
      (if needsExponent ticks then (shortest ticks).scientific
       else (shortest ticks).positional ".0")

/-! ### Reading -/

/-- The binary64 number nearest to `n * 10 ^ exponent` seconds.  Powers of ten far outside the range
of binary64 are not computed. -/
def ofDecimal (negative : Bool) (n : Nat) (exponent : Int) : Seconds :=
  let size : Int := Decimal.length n + exponent
  if n = 0 then .finite negative 0
  else if 310 < size then .infinite negative
  else if size < -330 then .finite negative 0
  else if 0 ≤ exponent then ofTicks negative (n * Nat.pow 10 exponent.toNat * ticksPerSecond) 1
  else ofTicks negative (n * ticksPerSecond) (Nat.pow 10 (-exponent).toNat)

/-- An optional sign, and the rest. -/
def readSign : List Char → Bool × List Char
  | '-' :: cs => (true, cs)
  | '+' :: cs => (false, cs)
  | cs => (false, cs)

/-- The exponent that ends a number: nothing, or a letter `e` and a signed number. -/
def readExponent? : List Char → Option Int
  | [] => some 0
  | c :: cs =>
    let (negative, digits) := readSign cs
    if c.toLower = 'e' && !digits.isEmpty && digits.all Char.isDigit then
      let n : Int := Nat.ofDigitChars 10 digits 0
      some (if negative then -n else n)
    else none

/-- An unsigned decimal number: digits, of which some may follow a point, and an exponent. -/
def readUnsigned? (negative : Bool) (cs : List Char) : Option Seconds :=
  let whole := cs.takeWhile Char.isDigit
  let rest := cs.dropWhile Char.isDigit
  let (fraction, tail) := match rest with
    | '.' :: after => (after.takeWhile Char.isDigit, after.dropWhile Char.isDigit)
    | _ => ([], rest)
  if whole.isEmpty && fraction.isEmpty then none
  else (readExponent? tail).map fun exponent =>
    ofDecimal negative (Nat.ofDigitChars 10 (whole ++ fraction) 0) (exponent - fraction.length)

/-- The number that a text stands for: a decimal number, or a name of an infinite or undefined one
in any letter case, after an optional sign. -/
def ofText? (cs : List Char) : Option Seconds :=
  let (negative, body) := readSign cs
  let name := String.ofList (body.map Char.toLower)
  if name = "inf" ∨ name = "infinity" then some (.infinite negative)
  else if name = "nan" then some .undefined
  else readUnsigned? negative body

end Montage.Seconds
