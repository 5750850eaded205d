import Montage.Seconds.Basic

/-!
# Shortest digits

A finite positive number of seconds is written with the fewest decimal digits that read back to it.
The decimals that read back form an interval around the number, which reaches half way to its
neighbours and has its ends exactly when the number's significand is even.  On the grid of the
decimals with `k` digits only the two neighbours of the number need to be tried: if any point of a
grid lies in the interval, one of those two does.  `shortest` takes the coarsest grid that has a
hit, and of two hits the nearer one, the upper one in case of a tie.
-/

namespace Montage.Seconds

/-- A decimal number `digits * 10 ^ exponent`. -/
structure Decimal where
  digits : Nat
  exponent : Int
  deriving DecidableEq, Repr

namespace Decimal

/-- The number of decimal digits of a natural number. -/
def length (n : Nat) : Nat := (Nat.toDigits 10 n).length

/-- The same number without trailing zeros in its digits; `fuel` bounds how many are dropped. -/
def dropZeros : Nat → Decimal → Decimal
  | 0, d => d
  | fuel + 1, d =>
    if d.digits % 10 = 0 then dropZeros fuel ⟨d.digits / 10, d.exponent + 1⟩ else d

/-- The number without trailing zeros in its digits. -/
def normalize (d : Decimal) : Decimal := dropZeros (length d.digits) d

end Decimal

/-- The exponent of the leading decimal digit of a positive number of ticks. -/
def magnitude (ticks : Nat) : Int :=
  (Decimal.length (ticks * Nat.pow 10 400 / ticksPerSecond) : Int) - 401

/-- One unit in the last of 53 bits, in ticks. -/
def lastPlace (ticks : Nat) : Nat := Nat.pow 2 (ticks.log2 - 52)

/-- Both sides of a comparison of `n * 10 ^ exponent` seconds with quarter ticks, cleared of
fractions: the factor of `n`, and the factor of the quarter ticks. -/
def gridFactors (exponent : Int) : Nat × Nat :=
  if 0 ≤ exponent then (Nat.pow 10 exponent.toNat * (4 * ticksPerSecond), 1)
  else (4 * ticksPerSecond, Nat.pow 10 (-exponent).toNat)

/-- A decimal with `k` digits that reads back to the number of ticks, if there is one. -/
def onGrid? (ticks k : Nat) : Option Decimal :=
  let exponent := magnitude ticks + 1 - k
  let (a, b) := gridFactors exponent
  let place := lastPlace ticks
  let significand := ticks / place
  let value := 4 * ticks * b
  let below := if significand = Nat.pow 2 52 ∧ 1 < place then place else 2 * place
  let low := (4 * ticks - below) * b
  let high := (4 * ticks + 2 * place) * b
  let inside (x : Nat) : Bool :=
    if significand % 2 = 0 then decide (low ≤ x) && decide (x ≤ high)
    else decide (low < x) && decide (x < high)
  let down := value / a
  let up := down + 1
  match inside (down * a), inside (up * a) with
  | true, true =>
    some (if value - down * a < up * a - value then ⟨down, exponent⟩ else ⟨up, exponent⟩)
  | true, false => some ⟨down, exponent⟩
  | false, true => some ⟨up, exponent⟩
  | false, false => none

/-- The shortest decimal that reads back to a positive number of ticks.  Seventeen digits always
suffice. -/
def shortest (ticks : Nat) : Decimal :=
  (((List.range 17).findSome? fun k => onGrid? ticks (k + 1)).getD ⟨0, 0⟩).normalize

end Montage.Seconds
