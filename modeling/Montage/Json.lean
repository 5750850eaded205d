/-!
# JSON values

`Json τ` is a JSON value whose strings are held as `τ`: as bytes when they come from a file, as
strings when the library writes them.  A number keeps its literal, so that `1`, `1.0` and `1e0` are
told apart.  Records are read elsewhere: those of a step through `Json.record?`, those of a probe
through `Probe.fields?`.
-/

namespace Montage

/-- A JSON value with strings of type `τ`. -/
inductive Json (τ : Type) where
  | null
  | bool (b : Bool)
  /-- A number, by its literal. -/
  | number (literal : String)
  | string (s : τ)
  | array (items : List (Json τ))
  | object (fields : List (τ × Json τ))

namespace Json

variable {τ σ : Type}

/-- A natural number. -/
def nat (n : Nat) : Json τ := .number (toString n)

/-- The natural number that a literal without sign, fraction and exponent stands for. -/
def nat? : Json τ → Option Nat
  | .number literal =>
    if literal.toList ≠ [] ∧ literal.toList.all Char.isDigit then
      some (Nat.ofDigitChars 10 literal.toList 0)
    else none
  | _ => none

/-- A natural number below a limit. -/
def natBelow? (limit : Nat) (j : Json τ) : Option Nat := j.nat?.filter fun n => n < limit

/-- A natural number is read back. -/
theorem nat?_nat (n : Nat) : (nat n : Json τ).nat? = some n := by
  have digits : ∀ c ∈ Nat.toDigits 10 n, c.isDigit = true := fun c hc =>
    Nat.isDigit_of_mem_toDigits (by decide) (by decide) hc
  have nonempty : (toString n).toList = Nat.toDigits 10 n := by
    rw [Nat.toString_eq_ofList_toDigits, String.toList_ofList]
  simp only [nat, nat?, nonempty]
  rw [if_pos ⟨Nat.toDigits_ne_nil, List.all_eq_true.2 digits⟩]
  simp

/-- The truth value. -/
def bool? : Json τ → Option Bool
  | .bool b => some b
  | _ => none

/-- The string. -/
def string? : Json τ → Option τ
  | .string s => some s
  | _ => none

/-- The items of an array. -/
def items? : Json τ → Option (List (Json τ))
  | .array items => some items
  | _ => none

/-- An optional value, with `null` for none. -/
def optional (item : σ → Json τ) : Option σ → Json τ
  | none => .null
  | some a => item a

/-- An optional value that is present or `null`. -/
def optional? (item : Json τ → Option σ) : Json τ → Option (Option σ)
  | .null => some none
  | j => (item j).map some

/-! ### Changing strings -/

mutual

/-- The value with each of its strings changed, if all of them can be. -/
def mapStrings? (f : τ → Option σ) : Json τ → Option (Json σ)
  | .null => some .null
  | .bool b => some (.bool b)
  | .number literal => some (.number literal)
  | .string s => (f s).map .string
  | .array items => (mapItems? f items).map .array
  | .object fields => (mapFields? f fields).map .object

/-- The items of an array, with their strings changed. -/
def mapItems? (f : τ → Option σ) : List (Json τ) → Option (List (Json σ))
  | [] => some []
  | j :: js => do return (← mapStrings? f j) :: (← mapItems? f js)

/-- The fields of an object, with their strings changed. -/
def mapFields? (f : τ → Option σ) : List (τ × Json τ) → Option (List (σ × Json σ))
  | [] => some []
  | (k, j) :: fields => do return (← f k, ← mapStrings? f j) :: (← mapFields? f fields)

end

end Json

end Montage
