import Montage.Proofs.Json.Grammar
import Montage.Proofs.Text.Cutting

/-!
# Reading numbers

The literal of a number is read to its end, if what follows does not go on with it
(`number?_append`), and what is read as a number is a literal (`literal_of_number?`).  The lemmas go
part by part: digits, whole part, sign, fraction and exponent.
-/

namespace Montage.Json

/-! ### What follows -/

/-- What stands here does not go on with digits. -/
def EndsDigits (bytes : Bytes) : Prop := ∀ b ∈ bytes.head?, isDigit b = false

/-- What stands here does not go on with a number: no digit, no point and no exponent. -/
def EndsNumber (bytes : Bytes) : Prop :=
  ∀ b ∈ bytes.head?, isDigit b = false ∧ b ≠ 0x2E ∧ b ≠ 0x65 ∧ b ≠ 0x45

/-- What does not go on with a number does not go on with digits. -/
lemma EndsNumber.endsDigits {bytes : Bytes} (h : EndsNumber bytes) : EndsDigits bytes :=
  fun b hb => (h b hb).1

/-! ### Parts of a number -/

/-- Digits begin with a digit. -/
lemma Digits.exists_cons {ds : Bytes} (h : Digits ds) :
    ∃ d more, ds = d :: more ∧ isDigit d = true := by
  obtain ⟨hne, hds⟩ := h
  obtain ⟨d, more, rfl⟩ := List.exists_cons_of_ne_nil hne
  exact ⟨d, more, rfl, hds d List.mem_cons_self⟩

/-- What begins with digits begins with none of the bytes that are no digits. -/
lemma Digits.not_mem_of_head? {ds rest others : Bytes} (h : Digits ds)
    (hothers : ∀ b ∈ others, isDigit b = false) : ∀ b ∈ (ds ++ rest).head?, b ∉ others := by
  obtain ⟨d, more, rfl, hd⟩ := h.exists_cons
  intro b hb hmem
  cases hb
  rw [hothers d hmem] at hd
  cases hd

/-- Zero is a digit. -/
lemma Whole.toDigits {ds : Bytes} (h : Whole ds) : Digits ds := by
  cases h with
  | zero => exact ⟨by simp, by simp [isDigit]⟩
  | digits hds _ => exact hds

/-- Digits are read to the last of them. -/
lemma digits?_append {ds : Bytes} (h : Digits ds) {rest : Bytes} (hends : EndsDigits rest) :
    digits? (ds ++ rest) = some (ds, rest) := by
  obtain ⟨hne, hds⟩ := h
  obtain ⟨htake, hdrop⟩ := Text.span_append hds hends
  rw [digits?, htake, hdrop, if_neg hne]

/-- What is read as digits are digits. -/
lemma digits_of_digits? {bytes : Bytes} {r : Bytes × Bytes} (h : digits? bytes = some r) :
    Digits r.1 := by
  rw [digits?] at h
  split at h
  · cases h
  · rename_i hne
    cases h
    exact ⟨hne, List.all_eq_true.1 List.all_takeWhile⟩

/-- A whole part is read to its end. -/
lemma whole?_append {ds : Bytes} (h : Whole ds) {rest : Bytes} (hends : EndsDigits rest) :
    whole? (ds ++ rest) = some (ds, rest) := by
  cases h with
  | zero => rfl
  | digits hds hfirst =>
    obtain ⟨d, more, rfl, -⟩ := hds.exists_cons
    have hd : d ≠ 0x30 := fun heq => hfirst (congrArg some heq)
    rw [List.cons_append, whole?, if_neg hd, ← List.cons_append, digits?_append hds hends]

/-- What is read as a whole part is one. -/
lemma whole_of_whole? {bytes : Bytes} {r : Bytes × Bytes} (h : whole? bytes = some r) :
    Whole r.1 := by
  cases bytes with
  | nil => cases h
  | cons b bytes =>
    rw [whole?] at h
    split at h
    · rename_i hzero
      cases h
      rw [hzero]
      exact .zero
    · rename_i hzero
      obtain ⟨happend, hne⟩ := append_of_digits? h
      refine .digits (digits_of_digits? h) fun hhead => hzero ?_
      obtain ⟨d, more, hcons⟩ := List.exists_cons_of_ne_nil hne
      rw [hcons] at happend hhead
      cases happend
      exact Option.some.inj hhead

/-- A sign is read, if there is one. -/
lemma sign_append {allowed sign rest : Bytes} (hsign : sign = [] ∨ ∃ b ∈ allowed, sign = [b])
    (hrest : ∀ b ∈ rest.head?, b ∉ allowed) : Json.sign allowed (sign ++ rest) = (sign, rest) := by
  rcases hsign with rfl | ⟨b, hb, rfl⟩
  · cases rest with
    | nil => rfl
    | cons b rest =>
      rw [List.nil_append, Json.sign, if_neg]
      simpa using hrest b rfl
  · rw [List.cons_append, List.nil_append, Json.sign, if_pos (by simpa using hb)]

/-- What is read as a sign is an allowed one, if it is not missing. -/
lemma sign_eq (allowed bytes : Bytes) :
    (sign allowed bytes).1 = [] ∨ ∃ b ∈ allowed, (sign allowed bytes).1 = [b] := by
  cases bytes with
  | nil => exact .inl rfl
  | cons b bytes =>
    rw [sign]
    split
    · rename_i hb
      exact .inr ⟨b, by simpa using hb, rfl⟩
    · exact .inl rfl

/-- A fraction is read to its end. -/
lemma fraction?_append {f : Bytes} (h : Fraction f) {rest : Bytes} (hends : EndsDigits rest)
    (hpoint : rest.head? ≠ some 0x2E) : fraction? (f ++ rest) = some (f, rest) := by
  cases h with
  | missing =>
    cases rest with
    | nil => rfl
    | cons b rest =>
      have hb : b ≠ 0x2E := fun heq => hpoint (congrArg some heq)
      rw [List.nil_append, fraction?, if_neg hb]
  | digits hds =>
    rw [List.cons_append, fraction?, if_pos rfl, digits?_append hds hends]
    rfl

/-- What is read as a fraction is one. -/
lemma fraction_of_fraction? {bytes : Bytes} {r : Bytes × Bytes} (h : fraction? bytes = some r) :
    Fraction r.1 := by
  cases bytes with
  | nil =>
    cases h
    exact .missing
  | cons b bytes =>
    rw [fraction?] at h
    split at h
    · rename_i hpoint
      obtain ⟨q, hq, rfl⟩ := Option.map_eq_some_iff.1 h
      rw [hpoint]
      exact .digits (digits_of_digits? hq)
    · cases h
      exact .missing

/-- An exponent is read to its end. -/
lemma exponent?_append {e : Bytes} (h : Exponent e) {rest : Bytes} (hends : EndsNumber rest) :
    exponent? (e ++ rest) = some (e, rest) := by
  cases h with
  | missing =>
    cases rest with
    | nil => rfl
    | cons b rest =>
      obtain ⟨-, -, hsmall, hcapital⟩ := hends b rfl
      rw [List.nil_append, exponent?, if_neg (not_or.2 ⟨hsmall, hcapital⟩)]
  | @digits letter sign ds hletter hsign hds =>
    have hsigned : Json.sign [0x2B, 0x2D] (sign ++ (ds ++ rest)) = (sign, ds ++ rest) :=
      sign_append (by simpa using hsign) (hds.not_mem_of_head? (by simp [isDigit]))
    rw [List.cons_append, exponent?, if_pos hletter, List.append_assoc, hsigned]
    dsimp only
    rw [digits?_append hds hends.endsDigits]
    rfl

/-- What is read as an exponent is one. -/
lemma exponent_of_exponent? {bytes : Bytes} {r : Bytes × Bytes} (h : exponent? bytes = some r) :
    Exponent r.1 := by
  cases bytes with
  | nil =>
    cases h
    exact .missing
  | cons b bytes =>
    rw [exponent?] at h
    split at h
    · rename_i hletter
      obtain ⟨q, hq, rfl⟩ := Option.map_eq_some_iff.1 h
      exact .digits hletter (by simpa using sign_eq [0x2B, 0x2D] bytes) (digits_of_digits? hq)
    · cases h
      exact .missing

/-! ### Numbers -/

/-- What an exponent or the end of a number stands before goes on with no digits and no point. -/
lemma Exponent.head?_append {e rest : Bytes} (h : Exponent e) (hends : EndsNumber rest) :
    ∀ b ∈ (e ++ rest).head?, isDigit b = false ∧ b ≠ 0x2E := by
  intro b hb
  cases h with
  | missing => exact ⟨(hends b hb).1, (hends b hb).2.1⟩
  | digits hletter =>
    cases hb
    rcases hletter with rfl | rfl
    · decide
    · decide

/-- What a fraction stands before does not go on with digits. -/
lemma Fraction.endsDigits_append {f rest : Bytes} (h : Fraction f) (hends : EndsDigits rest) :
    EndsDigits (f ++ rest) := by
  cases h with
  | missing => exact hends
  | digits =>
    intro b hb
    cases hb
    rfl

/-- The literal of a number is read to its end. -/
lemma number?_append {t : Bytes} (h : Literal t) {rest : Bytes} (hends : EndsNumber rest) :
    number? (t ++ rest) = some (t, rest) := by
  obtain ⟨hminus, hwhole, hfraction, hexponent⟩ := h
  rename_i minus whole fraction exponent
  have hafter := hexponent.head?_append hends
  have hdigits : EndsDigits (exponent ++ rest) := fun b hb => (hafter b hb).1
  have hsigned : sign [0x2D] (minus ++ (whole ++ (fraction ++ (exponent ++ rest)))) =
      (minus, whole ++ (fraction ++ (exponent ++ rest))) :=
    sign_append (by simpa using hminus) (hwhole.toDigits.not_mem_of_head? (by simp [isDigit]))
  have hpoint : (exponent ++ rest).head? ≠ some 0x2E := fun heq => (hafter _ heq).2 rfl
  simp only [number?, List.append_assoc, hsigned, Option.bind_some,
    whole?_append hwhole (hfraction.endsDigits_append hdigits),
    fraction?_append hfraction hdigits hpoint, exponent?_append hexponent hends, Option.map_some]

/-- What is read as a number is the literal of one. -/
lemma literal_of_number? {bytes : Bytes} {r : Bytes × Bytes} (h : number? bytes = some r) :
    Literal r.1 := by
  obtain ⟨whole, hwhole, h⟩ := Option.bind_eq_some_iff.1 h
  obtain ⟨fraction, hfraction, h⟩ := Option.bind_eq_some_iff.1 h
  obtain ⟨exponent, hexponent, rfl⟩ := Option.map_eq_some_iff.1 h
  exact .parts (by simpa using sign_eq [0x2D] bytes) (whole_of_whole? hwhole)
    (fraction_of_fraction? hfraction) (exponent_of_exponent? hexponent)

/-- A number may begin with the byte: it is a digit or a minus sign. -/
def BeginsNumber (b : UInt8) : Prop := isDigit b = true ∨ b = 0x2D

/-- Whether a number may begin with a byte can be computed. -/
instance : DecidablePred BeginsNumber := fun b =>
  inferInstanceAs (Decidable (isDigit b = true ∨ b = 0x2D))

/-- What a number may begin with is none of the bytes that it cannot begin with. -/
lemma BeginsNumber.ne {b c : UInt8} (h : BeginsNumber b) (hc : ¬ BeginsNumber c) : b ≠ c := by
  rintro rfl
  exact hc h

/-- The literal of a number begins as a number may. -/
lemma Literal.exists_cons {t : Bytes} (h : Literal t) :
    ∃ b more, t = b :: more ∧ BeginsNumber b := by
  cases h with
  | @parts minus whole fraction exponent hminus hwhole _ _ =>
    obtain ⟨d, more, rfl, hd⟩ := hwhole.toDigits.exists_cons
    obtain rfl | rfl : minus = [] ∨ minus = [0x2D] := by simpa using hminus
    · exact ⟨d, _, rfl, .inl hd⟩
    · exact ⟨0x2D, _, rfl, .inr rfl⟩

end Montage.Json
