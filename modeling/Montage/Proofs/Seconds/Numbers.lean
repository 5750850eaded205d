import Mathlib.Data.List.TakeWhile
import Mathlib.Tactic.Lemma
import Montage.Proofs.Text.Cutting
import Montage.Seconds.Text

/-!
# Numbers of seconds in texts

Which texts stand for a number of seconds, said without regard to how they are read: a decimal
number is a sign, digits of which some may follow a point, and an exponent; an infinite or
undefined number has a name (`Seconds.Stands`).  `Seconds.ofText?_eq_some_iff` says that exactly
these texts are read, with these values.
-/

namespace Montage.Seconds

/-! ### The grammar -/

/-- A sign, which may be missing, and whether it makes a number negative. -/
inductive SignText : Bool → List Char → Prop where
  | missing : SignText false []
  | plus : SignText false ['+']
  | minus : SignText true ['-']

/-- Decimal digits; there may be none. -/
def AllDigits (ds : List Char) : Prop := ∀ c ∈ ds, c.isDigit = true

/-- The digits after the point, and the text that they are in; the point may be missing. -/
inductive FractionText : List Char → List Char → Prop where
  | missing : FractionText [] []
  | point {ds : List Char} : AllDigits ds → FractionText ds ('.' :: ds)

/-- An exponent, which may be missing. -/
inductive ExponentText : Int → List Char → Prop where
  | missing : ExponentText 0 []
  | digits {letter : Char} {negative : Bool} {sign ds : List Char} :
      letter = 'e' ∨ letter = 'E' → SignText negative sign → ds ≠ [] → AllDigits ds →
      ExponentText
        (if negative then -(Nat.ofDigitChars 10 ds 0 : Int) else Nat.ofDigitChars 10 ds 0)
        (letter :: (sign ++ ds))

/-- A decimal number after its sign: digits, of which some may follow a point, and an exponent.  It
stands for the nearest number. -/
inductive UnsignedText (negative : Bool) : List Char → Seconds → Prop where
  | parts {exponent : Int} {whole fraction part tail : List Char} :
      AllDigits whole → FractionText fraction part → whole ++ fraction ≠ [] →
      ExponentText exponent tail →
      UnsignedText negative (whole ++ (part ++ tail))
        (ofDecimal negative (Nat.ofDigitChars 10 (whole ++ fraction) 0)
          (exponent - fraction.length))

/-- The text stands for the number. -/
inductive Stands : List Char → Seconds → Prop where
  /-- A decimal number. -/
  | decimal {negative : Bool} {sign body : List Char} {x : Seconds} :
      SignText negative sign → UnsignedText negative body x → Stands (sign ++ body) x
  /-- The names of an infinite number, in any letter case. -/
  | infinite {negative : Bool} {sign name : List Char} :
      SignText negative sign →
      name.map Char.toLower = "inf".toList ∨ name.map Char.toLower = "infinity".toList →
      Stands (sign ++ name) (.infinite negative)
  /-- The name of an undefined number, in any letter case. -/
  | undefined {negative : Bool} {sign name : List Char} :
      SignText negative sign → name.map Char.toLower = "nan".toList →
      Stands (sign ++ name) .undefined

/-! ### Signs -/

/-- What is read as a sign is one. -/
lemma exists_sign (cs : List Char) :
    ∃ sign, SignText (readSign cs).1 sign ∧ cs = sign ++ (readSign cs).2 := by
  unfold readSign
  split
  · exact ⟨['-'], .minus, rfl⟩
  · exact ⟨['+'], .plus, rfl⟩
  · exact ⟨[], .missing, rfl⟩

/-- A sign is read, if there is one. -/
lemma readSign_append {negative : Bool} {sign body : List Char} (h : SignText negative sign)
    (hbody : ∀ c ∈ body.head?, c ≠ '-' ∧ c ≠ '+') : readSign (sign ++ body) = (negative, body) := by
  cases h with
  | minus => rfl
  | plus => rfl
  | missing =>
    rw [List.nil_append]
    refine readSign.eq_3 body (fun cs heq => ?_) (fun cs heq => ?_)
    · rw [heq] at hbody
      exact (hbody '-' rfl).1 rfl
    · rw [heq] at hbody
      exact (hbody '+' rfl).2 rfl

/-- What begins with a digit begins with no sign. -/
lemma not_sign_of_isDigit {c : Char} (h : c.isDigit = true) : c ≠ '-' ∧ c ≠ '+' := by
  constructor
  · rintro rfl
    cases h
  · rintro rfl
    cases h

/-! ### Exponents -/

/-- A decimal digit has no letter case. -/
lemma toLower_of_isDigit {c : Char} (h : c.isDigit = true) : c.toLower = c := by
  have hrange := Text.toNat_of_isDigit h
  unfold Char.toLower
  rw [dif_neg]
  rintro ⟨hA, -⟩
  have hcapital : 0x41 ≤ c.toNat := hA
  omega

/-- The letter of an exponent is found in either case. -/
lemma toLower_eq_e {c : Char} : c.toLower = 'e' ↔ c = 'e' ∨ c = 'E' := by
  constructor
  · intro h
    unfold Char.toLower at h
    split at h
    · rename_i hcapital
      have hval : c.val + ('a'.val - 'A'.val) = 'e'.val := congrArg Char.val h
      have hletter : c.val = 'E'.val := by
        rw [← UInt32.add_left_inj ('a'.val - 'A'.val), hval]
        rfl
      exact .inr (Char.ext hletter)
    · exact .inl h
  · rintro (rfl | rfl) <;> rfl

/-- An exponent is read exactly from its texts. -/
lemma readExponent?_eq_some_iff {tail : List Char} {exponent : Int} :
    readExponent? tail = some exponent ↔ ExponentText exponent tail := by
  constructor
  · intro h
    cases tail with
    | nil =>
      cases h
      exact .missing
    | cons letter cs =>
      obtain ⟨sign, hsign, hcs⟩ := exists_sign cs
      rw [readExponent?] at h
      dsimp only at h
      split at h
      · rename_i hform
        simp only [Bool.and_eq_true, decide_eq_true_eq, Bool.not_eq_true',
          List.isEmpty_eq_false_iff, List.all_eq_true] at hform
        obtain ⟨⟨hletter, hne⟩, hdigits⟩ := hform
        cases h
        have hread := ExponentText.digits (toLower_eq_e.1 hletter) hsign hne hdigits
        rwa [← hcs] at hread
      · cases h
  · intro h
    cases h with
    | missing => rfl
    | @digits letter negative sign ds hletter hsign hne hdigits =>
      have hhead : ∀ c ∈ ds.head?, c ≠ '-' ∧ c ≠ '+' := fun c hc =>
        not_sign_of_isDigit (hdigits c (List.mem_of_mem_head? hc))
      have hform :
          (decide (letter.toLower = 'e') && !ds.isEmpty && ds.all Char.isDigit) = true := by
        simp [toLower_eq_e.2 hletter, hne, List.all_eq_true.2 hdigits]
      rw [readExponent?, readSign_append hsign hhead]
      dsimp only
      rw [if_pos hform]

/-! ### Decimal numbers -/

/-- What the text of an exponent begins with is no digit and no point. -/
lemma ExponentText.head {exponent : Int} {tail : List Char} (h : ExponentText exponent tail) :
    ∀ c ∈ tail.head?, c.isDigit = false ∧ c ≠ '.' := by
  intro c hc
  cases h with
  | missing => cases hc
  | digits hletter =>
    cases hc
    rcases hletter with rfl | rfl
    · decide
    · decide

/-- The digits at the beginning of a text, and the rest. -/
lemma exists_digits (cs : List Char) :
    AllDigits (cs.takeWhile Char.isDigit) ∧
      cs = cs.takeWhile Char.isDigit ++ cs.dropWhile Char.isDigit :=
  ⟨fun _ hc => List.mem_takeWhile_imp hc, List.takeWhile_append_dropWhile.symm⟩

/-- Where a text is cut when it is read as an unsigned decimal number. -/
structure Cut (body whole fraction part tail : List Char) : Prop where
  text : body = whole ++ (part ++ tail)
  whole : AllDigits whole
  fraction : FractionText fraction part
  digits : ∀ c ∈ tail.head?, c.isDigit = false
  point : part = [] → tail.head? ≠ some '.'

/-- Every text is cut. -/
lemma exists_cut (body : List Char) :
    ∃ whole fraction part tail, Cut body whole fraction part tail := by
  obtain ⟨hwhole, hbody⟩ := exists_digits body
  have hrest := Text.head?_dropWhile Char.isDigit body
  by_cases hpoint : ∃ after, body.dropWhile Char.isDigit = '.' :: after
  · obtain ⟨after, hafter⟩ := hpoint
    obtain ⟨hfraction, hcut⟩ := exists_digits after
    refine ⟨_, _, _, _, ?_, hwhole, .point hfraction, Text.head?_dropWhile Char.isDigit after,
      fun h => ?_⟩
    · rw [List.cons_append, ← hcut, ← hafter, ← hbody]
    · cases h
  · refine ⟨_, [], [], _, hbody, hwhole, .missing, hrest, fun _ hhead => hpoint ?_⟩
    obtain ⟨after, hafter⟩ := List.head?_eq_some_iff.1 hhead
    exact ⟨after, hafter⟩

/-- What is read from a text that is cut. -/
lemma Cut.readUnsigned?_eq {body whole fraction part tail : List Char}
    (h : Cut body whole fraction part tail) (negative : Bool) :
    readUnsigned? negative body =
      if whole ++ fraction = [] then none
      else (readExponent? tail).map fun exponent =>
        ofDecimal negative (Nat.ofDigitChars 10 (whole ++ fraction) 0)
          (exponent - fraction.length) := by
  obtain ⟨rfl, hwhole, hfraction, hdigits, hpoint⟩ := h
  have hempty : (whole.isEmpty && fraction.isEmpty) = true ↔ whole ++ fraction = [] := by simp
  cases hfraction with
  | missing =>
    obtain ⟨htake, hdrop⟩ := Text.span_append hwhole hdigits
    have hmatch := hpoint rfl
    rw [readUnsigned?, List.nil_append]
    simp only [htake, hdrop]
    split
    · exact absurd rfl hmatch
    · simp only [hempty]
  | point hds =>
    have hstop : ∀ c ∈ ('.' :: (fraction ++ tail)).head?, c.isDigit = false := by
      intro c hc
      cases hc
      rfl
    obtain ⟨htake, hdrop⟩ := Text.span_append hwhole hstop
    obtain ⟨htake', hdrop'⟩ := Text.span_append hds hdigits
    rw [List.cons_append, readUnsigned?]
    simp only [htake, hdrop, htake', hdrop', hempty]

/-- An unsigned decimal number is read exactly from its texts. -/
lemma readUnsigned?_eq_some_iff {negative : Bool} {body : List Char} {x : Seconds} :
    readUnsigned? negative body = some x ↔ UnsignedText negative body x := by
  constructor
  · intro h
    obtain ⟨whole, fraction, part, tail, hcut⟩ := exists_cut body
    rw [hcut.readUnsigned?_eq negative] at h
    split at h
    · cases h
    · rename_i hne
      obtain ⟨exponent, htail, rfl⟩ := Option.map_eq_some_iff.1 h
      rw [hcut.text]
      exact .parts hcut.whole hcut.fraction hne (readExponent?_eq_some_iff.1 htail)
  · rintro ⟨hwhole, hfraction, hne, htail⟩
    rename_i exponent whole fraction part tail
    have hcut : Cut (whole ++ (part ++ tail)) whole fraction part tail :=
      ⟨rfl, hwhole, hfraction, fun c hc => (htail.head c hc).1,
        fun _ hpoint => (htail.head '.' hpoint).2 rfl⟩
    rw [hcut.readUnsigned?_eq negative, if_neg hne, readExponent?_eq_some_iff.2 htail]
    rfl

/-! ### Numbers -/

/-- What an unsigned decimal number begins with is a digit or a point. -/
lemma UnsignedText.head {negative : Bool} {body : List Char} {x : Seconds}
    (h : UnsignedText negative body x) : ∀ c ∈ body.head?, c.isDigit = true ∨ c = '.' := by
  obtain ⟨hwhole, hfraction, hne, -⟩ := h
  rename_i exponent whole fraction part tail
  intro c hc
  cases whole with
  | cons d whole =>
    cases hc
    exact .inl (hwhole c List.mem_cons_self)
  | nil =>
    cases hfraction with
    | missing => exact absurd rfl hne
    | point =>
      cases hc
      exact .inr rfl

/-- A name is compared letter by letter. -/
lemma ofList_toLower_eq {body : List Char} {name : String} :
    String.ofList (body.map Char.toLower) = name ↔ body.map Char.toLower = name.toList := by
  rw [← String.toList_inj, String.toList_ofList]

/-- The first character of a name is the first letter of it in one of its cases. -/
lemma head_of_map_toLower {body letters : List Char} {letter : Char}
    (h : body.map Char.toLower = letter :: letters) : ∀ c ∈ body.head?, c.toLower = letter := by
  obtain ⟨c, rest, rfl, hletter, -⟩ := List.map_eq_cons_iff.1 h
  intro c' hc'
  cases hc'
  exact hletter

/-- No name begins with a sign. -/
lemma not_sign_of_toLower {c : Char} (h : c.toLower = 'i' ∨ c.toLower = 'n') :
    c ≠ '-' ∧ c ≠ '+' := by
  constructor
  · rintro rfl
    revert h
    decide
  · rintro rfl
    revert h
    decide

/-- A decimal number has no name. -/
lemma UnsignedText.no_name {negative : Bool} {body letters : List Char} {letter : Char}
    {x : Seconds} (h : UnsignedText negative body x) (hletter : letter = 'i' ∨ letter = 'n') :
    body.map Char.toLower ≠ letter :: letters := by
  intro hname
  obtain ⟨c, rest, rfl, hc, -⟩ := List.map_eq_cons_iff.1 hname
  rcases h.head c rfl with hdigit | rfl
  · have hlower : c.toLower = c := toLower_of_isDigit hdigit
    rw [hlower] at hc
    subst hc
    rcases hletter with rfl | rfl
    · cases hdigit
    · cases hdigit
  · rcases hletter with rfl | rfl
    · revert hc
      decide
    · revert hc
      decide

/-- A text that is read stands for what it is read as. -/
lemma stands_of_ofText? {cs : List Char} {x : Seconds} (h : ofText? cs = some x) :
    Stands cs x := by
  obtain ⟨sign, hsign, hcs⟩ := exists_sign cs
  rw [hcs]
  unfold ofText? at h
  dsimp only at h
  simp only [ofList_toLower_eq] at h
  split at h
  · rename_i hname
    cases h
    exact .infinite hsign hname
  · split at h
    · rename_i hname
      cases h
      exact .undefined hsign hname
    · exact .decimal hsign (readUnsigned?_eq_some_iff.1 h)

/-- Behind the sign stands a name, in any letter case, or else an unsigned decimal number. -/
lemma ofText?_append {negative : Bool} {sign body : List Char} (hsign : SignText negative sign)
    (hbody : ∀ c ∈ body.head?, c ≠ '-' ∧ c ≠ '+') :
    ofText? (sign ++ body) =
      if body.map Char.toLower = "inf".toList ∨ body.map Char.toLower = "infinity".toList then
        some (.infinite negative)
      else if body.map Char.toLower = "nan".toList then some .undefined
      else readUnsigned? negative body := by
  unfold ofText?
  rw [readSign_append hsign hbody]
  dsimp only
  simp only [ofList_toLower_eq]

/-- A text that stands for a number is read as this number. -/
lemma ofText?_of_stands {cs : List Char} {x : Seconds} (h : Stands cs x) :
    ofText? cs = some x := by
  cases h with
  | @decimal negative sign body x hsign hbody =>
    have hhead : ∀ c ∈ body.head?, c ≠ '-' ∧ c ≠ '+' := by
      intro c hc
      rcases hbody.head c hc with hdigit | rfl
      · exact not_sign_of_isDigit hdigit
      · decide
    have hinf : body.map Char.toLower ≠ "inf".toList := hbody.no_name (.inl rfl)
    have hinfinity : body.map Char.toLower ≠ "infinity".toList := hbody.no_name (.inl rfl)
    have hnan : body.map Char.toLower ≠ "nan".toList := hbody.no_name (.inr rfl)
    rw [ofText?_append hsign hhead, if_neg (not_or.2 ⟨hinf, hinfinity⟩), if_neg hnan]
    exact readUnsigned?_eq_some_iff.2 hbody
  | @infinite negative sign name hsign hname =>
    have hhead : ∀ c ∈ name.head?, c ≠ '-' ∧ c ≠ '+' := by
      intro c hc
      rcases hname with hname | hname
      · exact not_sign_of_toLower (.inl (head_of_map_toLower hname c hc))
      · exact not_sign_of_toLower (.inl (head_of_map_toLower hname c hc))
    rw [ofText?_append hsign hhead, if_pos hname]
  | @undefined negative sign name hsign hname =>
    have hhead : ∀ c ∈ name.head?, c ≠ '-' ∧ c ≠ '+' := fun c hc =>
      not_sign_of_toLower (.inr (head_of_map_toLower hname c hc))
    have hinf : name.map Char.toLower ≠ "inf".toList := by
      rw [hname]
      decide
    have hinfinity : name.map Char.toLower ≠ "infinity".toList := by
      rw [hname]
      decide
    rw [ofText?_append hsign hhead, if_neg (not_or.2 ⟨hinf, hinfinity⟩), if_pos hname]

/-- Exactly the texts of the grammar are read, with the numbers they stand for. -/
theorem ofText?_eq_some_iff {cs : List Char} {x : Seconds} : ofText? cs = some x ↔ Stands cs x :=
  ⟨stands_of_ofText?, ofText?_of_stands⟩

end Montage.Seconds
