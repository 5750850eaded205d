/-!
# Seconds

Lengths and positions in time are measured in seconds with the precision of IEEE binary64.  A
finite value is kept exactly, as a sign and a whole number of *ticks* of `2 ^ -1074` seconds, the
smallest positive binary64 number.  So exact arithmetic is arithmetic on natural numbers, and
binary64 arithmetic is that followed by one rounding step, `nearestTicks`.

Main definitions: `Seconds.ofNat`, `Seconds.add`, `Seconds.sub`, `Seconds.lt`, `Seconds.le`,
`Seconds.min`, `Seconds.max` and `Seconds.sum`.
-/

namespace Montage

/-- A binary64 number of seconds. -/
inductive Seconds where
  /-- A finite number: its sign, and its size in ticks of `2 ^ -1074` seconds. -/
  | finite (negative : Bool) (ticks : Nat)
  /-- An infinite number, by its sign. -/
  | infinite (negative : Bool)
  /-- The result of an operation without a value. -/
  | undefined
  deriving DecidableEq, Repr

namespace Seconds

/-- The number of ticks in a second. -/
def ticksPerSecond : Nat := Nat.pow 2 1074

/-- The least number of ticks that no finite binary64 number has: `2 ^ 1024` seconds. -/
def tickLimit : Nat := Nat.pow 2 2098

/-- The quotient `p / q`, rounded to the nearest natural number; a half goes to the even one. -/
def roundHalfEven (p q : Nat) : Nat :=
  let quotient := p / q
  let twice := 2 * (p % q)
  if twice < q then quotient
  else if twice = q ∧ quotient % 2 = 0 then quotient
  else quotient + 1

/-- The number of ticks with at most 53 significant bits that is nearest to `p / q` ticks. -/
def nearestTicks (p q : Nat) : Nat :=
  let spare := (p / q).log2 - 52
  roundHalfEven p (q * Nat.pow 2 spare) * Nat.pow 2 spare

/-- The binary64 number nearest to `p / q` ticks, with the given sign. -/
def ofTicks (negative : Bool) (p q : Nat) : Seconds :=
  let ticks := nearestTicks p q
  if ticks < tickLimit then .finite negative ticks else .infinite negative

/-- The binary64 number nearest to a whole number of seconds. -/
def ofNat (n : Nat) : Seconds := ofTicks false (n * ticksPerSecond) 1

/-- Zero. -/
def zero : Seconds := .finite false 0

/-! ### Arithmetic -/

/-- The signed number of ticks of a finite number. -/
def signedTicks (negative : Bool) (ticks : Nat) : Int := if negative then -ticks else ticks

/-- The number with the other sign. -/
def neg : Seconds → Seconds
  | .finite negative ticks => .finite (!negative) ticks
  | .infinite negative => .infinite (!negative)
  | .undefined => .undefined

/-- The rounded sum.  An exact zero is positive unless both terms are negative. -/
def add : Seconds → Seconds → Seconds
  | .undefined, _ => .undefined
  | _, .undefined => .undefined
  | .infinite a, .infinite b => if a = b then .infinite a else .undefined
  | .infinite a, .finite .. => .infinite a
  | .finite .., .infinite b => .infinite b
  | .finite a m, .finite b n =>
    let total := signedTicks a m + signedTicks b n
    if total = 0 then .finite (a && b) 0 else ofTicks (decide (total < 0)) total.natAbs 1

/-- The rounded difference. -/
def sub (a b : Seconds) : Seconds := a.add b.neg

/-- The sum of a list, from the left.  The sum of no numbers is negative zero. -/
def sum (xs : List Seconds) : Seconds := xs.foldl add (.finite true 0)

/-! ### Order -/

/-- The strict order; nothing is less or greater than an undefined number. -/
def lt : Seconds → Seconds → Bool
  | .undefined, _ => false
  | _, .undefined => false
  | .infinite a, .infinite b => a && !b
  | .infinite a, .finite .. => a
  | .finite .., .infinite b => !b
  | .finite a m, .finite b n => decide (signedTicks a m < signedTicks b n)

/-- Less or equal; it holds of no undefined number. -/
def le : Seconds → Seconds → Bool
  | .undefined, _ => false
  | _, .undefined => false
  | a, b => !b.lt a

/-- The larger number.  An undefined one gives way to the other, and of two equal numbers the second
is taken. -/
def max (a b : Seconds) : Seconds :=
  if b = .undefined then a else if b.lt a then a else b

/-- The smaller number.  An undefined one gives way to the other, and of two equal numbers the first
is taken. -/
def min (a b : Seconds) : Seconds :=
  if a = .undefined then b else if b.lt a then b else a

/-- The number when it is positive, and zero otherwise. -/
def clampZero (a : Seconds) : Seconds := if zero.lt a then a else zero

/-- The largest number of a list, if there is one. -/
def maximum? : List Seconds → Option Seconds
  | [] => none
  | x :: xs => some (xs.foldl max x)

/-- A number is a possible length when it is finite and not below zero. -/
def isLength : Seconds → Bool
  | .finite negative ticks => !negative || ticks == 0
  | _ => false

end Seconds

/-- The sum of lengths, known only when each of them is known. -/
def Seconds.sumKnown (xs : List (Option Seconds)) : Option Seconds :=
  (xs.mapM id).map Seconds.sum

/-- The largest of lengths, known only when each of them is known and there is one. -/
def Seconds.maximumKnown (xs : List (Option Seconds)) : Option Seconds :=
  (xs.mapM id).bind Seconds.maximum?

end Montage
