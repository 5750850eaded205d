import Montage.Proofs.Text.Cutting
import Montage.Script.Attribute

/-!
# The grammar of assignments

The lines that assign a value to a key can be described in two ways.

* As a pattern, `Attribute.Matches`: blanks, a word, blanks, an equals sign, blanks, words of value
  characters with blanks between them, blanks.
* By cutting, `Attribute.Splits`: there is one equals sign; the part before it, without the blanks
  around it, is a word, and the part after it, without the blanks around it, consists of value
  characters and blanks.

Both describe the same lines, with the same key and the same value, and these are the lines that
`Attribute.split?` takes apart (`ofLine_of_text`).
-/

namespace Montage.Attribute

open Text

/-! ### Words of value characters -/

/-- Words of value characters with blanks between them. -/
inductive ValueWords : List Char → Prop
  | word {w : List Char} (hne : w ≠ []) (hw : ∀ c ∈ w, isValueChar c = true) : ValueWords w
  | more {w gap rest : List Char} (hne : w ≠ []) (hw : ∀ c ∈ w, isValueChar c = true)
      (hgap : gap ≠ []) (hblank : Blanks gap) (hrest : ValueWords rest) :
      ValueWords (w ++ gap ++ rest)

namespace ValueWords

variable {cs : List Char}

/-- Words of value characters consist of value characters and blanks, and there is a value character
at each end. -/
lemma ends (h : ValueWords cs) : cs ≠ [] ∧ (∀ c ∈ cs, isValueChar c = true ∨ isBlank c = true) ∧
    (∀ c ∈ cs.head?, isValueChar c = true) ∧ ∀ c ∈ cs.getLast?, isValueChar c = true := by
  induction h with
  | word hne hw =>
    exact ⟨hne, fun c hc => .inl (hw c hc), fun c hc => hw c (List.mem_of_mem_head? hc),
      fun c hc => hw c (List.mem_of_mem_getLast? hc)⟩
  | @more w gap rest hne hw hgap hblank hrest ih =>
    obtain ⟨hrestNe, hrestMade, -, hrestLast⟩ := ih
    refine ⟨by simp [hne], fun c hc => ?_, fun c hc => ?_, fun c hc => ?_⟩
    · rcases List.mem_append.1 hc with hc | hc
      · rcases List.mem_append.1 hc with hc | hc
        · exact .inl (hw c hc)
        · exact .inr (hblank c hc)
      · exact hrestMade c hc
    · rw [List.append_assoc, List.head?_append_of_ne_nil _ hne] at hc
      exact hw c (List.mem_of_mem_head? hc)
    · rw [List.getLast?_append_of_ne_nil _ hrestNe] at hc
      exact hrestLast c hc

/-- A value character before words of value characters makes the first word longer. -/
lemma cons {c : Char} (hc : isValueChar c = true) (h : ValueWords cs) : ValueWords (c :: cs) := by
  cases h with
  | word hne hw => exact .word (by simp) (List.forall_mem_cons.2 ⟨hc, hw⟩)
  | more hne hw hgap hblank hrest =>
    exact .more (w := c :: _) (by simp) (List.forall_mem_cons.2 ⟨hc, hw⟩) hgap hblank hrest

/-- A text of value characters and blanks that ends with a value character consists of blanks and
words of value characters after them. -/
lemma exists_of_made (hne : cs ≠ []) (hmade : ∀ c ∈ cs, isValueChar c = true ∨ isBlank c = true)
    (hlast : ∀ c ∈ cs.getLast?, isValueChar c = true) :
    ∃ gap rest, Blanks gap ∧ ValueWords rest ∧ cs = gap ++ rest := by
  induction cs with
  | nil => exact absurd rfl hne
  | cons c cs ih =>
    obtain ⟨hc, hcs⟩ := List.forall_mem_cons.1 hmade
    by_cases hnil : cs = []
    · subst hnil
      have hvalue : isValueChar c = true := hlast c rfl
      exact ⟨[], [c], by decide, .word (by simp) (by simpa using hvalue), rfl⟩
    · have hrestLast : ∀ d ∈ cs.getLast?, isValueChar d = true := by
        intro d hd
        refine hlast d ?_
        rwa [← List.singleton_append, List.getLast?_append_of_ne_nil _ hnil]
      obtain ⟨gap, rest, hgap, hrest, rfl⟩ := ih hnil hcs hrestLast
      rcases hc with hvalue | hblank
      · -- the character ends a word of its own when blanks follow it
        by_cases hempty : gap = []
        · subst hempty
          exact ⟨[], c :: rest, by decide, hrest.cons hvalue, rfl⟩
        · exact ⟨[], [c] ++ gap ++ rest, by decide,
            .more (by simp) (by simpa using hvalue) hempty hgap hrest, by simp⟩
      · exact ⟨c :: gap, rest, List.forall_mem_cons.2 ⟨hblank, hgap⟩, hrest, rfl⟩

/-- A text of value characters and blanks with no blank at its ends consists of words of value
characters. -/
lemma of_made (hne : cs ≠ []) (hmade : ∀ c ∈ cs, isValueChar c = true ∨ isBlank c = true)
    (hfirst : ∀ c ∈ cs.head?, isBlank c = false) (hlast : ∀ c ∈ cs.getLast?, isBlank c = false) :
    ValueWords cs := by
  have hend : ∀ c ∈ cs.getLast?, isValueChar c = true := by
    intro c hc
    rcases hmade c (List.mem_of_mem_getLast? hc) with hvalue | hblank
    · exact hvalue
    · rw [hlast c hc] at hblank
      cases hblank
  obtain ⟨gap, rest, hgap, hrest, rfl⟩ := exists_of_made hne hmade hend
  cases gap with
  | nil => exact hrest
  | cons d gap =>
    have hblank : isBlank d = true := hgap d List.mem_cons_self
    rw [hfirst d rfl] at hblank
    cases hblank

end ValueWords

/-! ### Two descriptions -/

/-- The text is of the pattern of assignments, with the key and the value at their places in it. -/
inductive Matches : List Char → List Char → List Char → Prop
  | pattern {before key gap gap' raw after : List Char} (hbefore : Blanks before) (hkey : key ≠ [])
      (hword : ∀ c ∈ key, isWord c = true) (hgap : Blanks gap) (hgap' : Blanks gap')
      (hraw : ValueWords raw) (hafter : Blanks after) :
      Matches (before ++ key ++ gap ++ '=' :: (gap' ++ raw ++ after)) key raw

/-- Cutting the text at its only equals sign and trimming both parts gives a word, which is the key,
and a text of value characters and blanks, which is the value. -/
structure Splits (cs key raw : List Char) : Prop where
  once : cs.count '=' = 1
  parts : ∃ left right, cs = left ++ '=' :: right ∧ trim left = key ∧ trim right = raw
  key_ne : key ≠ []
  key_made : ∀ c ∈ key, isWord c = true
  raw_ne : raw ≠ []
  raw_made : ∀ c ∈ raw, isValueChar c = true ∨ isBlank c = true

variable {cs key raw : List Char}

/-- A text of value characters and blanks, with blanks around it, has no equals sign. -/
lemma count_equals_surrounded {before core after : List Char} (hbefore : Blanks before)
    (hafter : Blanks after) (hcore : ∀ c ∈ core, isValueChar c = true ∨ isBlank c = true) :
    (before ++ core ++ after).count '=' = 0 := by
  have hequals : ¬ (isValueChar '=' = true ∨ isBlank '=' = true) := by decide +kernel
  refine List.count_eq_zero.2 fun hmem => hequals ?_
  rcases List.mem_append.1 hmem with hmem | hmem
  · rcases List.mem_append.1 hmem with hmem | hmem
    · exact .inr (hbefore _ hmem)
    · exact hcore _ hmem
  · exact .inr (hafter _ hmem)

/-- Where blanks and an equals sign follow, no word goes on. -/
lemma notWord_of_gap {gap : List Char} (hgap : Blanks gap) (rest : List Char) :
    ∀ c ∈ (gap ++ '=' :: rest).head?, isWord c = false := by
  intro c hc
  cases gap with
  | nil =>
    cases hc
    decide +kernel
  | cons d gap =>
    cases hc
    by_contra hword
    have hblank := hgap c List.mem_cons_self
    rw [isBlank_of_isWord (by simpa using hword)] at hblank
    cases hblank

/-- A text of the pattern is split into the key and the value. -/
lemma Matches.split? (h : Matches cs key raw) : split? cs = some (key, raw) := by
  obtain @⟨before, key, gap, gap', raw, after, hbefore, hkey, hword, hgap, hgap', hraw, hafter⟩ := h
  obtain ⟨hne, hmade, hfirst, hlast⟩ := hraw.ends
  have hstart : trimStart (before ++ key ++ gap ++ '=' :: (gap' ++ raw ++ after)) =
      key ++ (gap ++ '=' :: (gap' ++ raw ++ after)) := by
    rw [List.append_assoc, List.append_assoc, trimStart_append hbefore]
    refine trimStart_eq_self fun c hc => ?_
    rw [List.head?_append_of_ne_nil _ hkey] at hc
    exact isBlank_of_isWord (hword c (List.mem_of_mem_head? hc))
  obtain ⟨htake, hdrop⟩ := span_append hword (notWord_of_gap hgap (gap' ++ raw ++ after))
  have hequals :
      trimStart (gap ++ '=' :: (gap' ++ raw ++ after)) = '=' :: (gap' ++ raw ++ after) := by
    rw [trimStart_append hgap]
    exact trimStart_cons_of_not_isBlank (by decide) _
  have htrim : trim (gap' ++ raw ++ after) = raw :=
    trim_surrounded hgap' hafter hne (fun c hc => isBlank_of_isValueChar (hfirst c hc))
      fun c hc => isBlank_of_isValueChar (hlast c hc)
  have hall : raw.all (fun c => isValueChar c || isBlank c) = true := by simpa using hmade
  unfold Attribute.split?
  dsimp only
  rw [hstart, htake, hdrop, hequals]
  change (if key ≠ [] ∧ trim (gap' ++ raw ++ after) ≠ [] ∧
    (trim (gap' ++ raw ++ after)).all (fun c => isValueChar c || isBlank c) then
      some (key, trim (gap' ++ raw ++ after)) else none) = some (key, raw)
  rw [htrim, if_pos ⟨hkey, hne, hall⟩]

/-- A text that is split has one equals sign, and its parts are the key and the value. -/
lemma splits_of_split? (h : split? cs = some (key, raw)) : Splits cs key raw := by
  unfold split? at h
  dsimp only at h
  split at h
  · rename_i right hright
    split at h
    · rename_i hall
      obtain ⟨hkey, hraw, hmade⟩ := hall
      cases h
      set key := (trimStart cs).takeWhile isWord with hkeyEq
      have hword : ∀ c ∈ key, isWord c = true := fun c hc => List.mem_takeWhile_imp hc
      have hmade' : ∀ c ∈ trim right, isValueChar c = true ∨ isBlank c = true := by
        simpa using hmade
      obtain ⟨before, hbefore, hstart⟩ := exists_trimStart cs
      obtain ⟨gap, hgap, hgapEq⟩ := exists_trimStart ((trimStart cs).dropWhile isWord)
      have hcs : cs = before ++ key ++ gap ++ '=' :: right := by
        rw [hright] at hgapEq
        rw [List.append_assoc, ← hgapEq, hkeyEq, List.append_assoc,
          List.takeWhile_append_dropWhile, ← hstart]
      have hleft : (before ++ key ++ gap).count '=' = 0 :=
        count_equals_surrounded hbefore hgap fun c hc => .inl (isValueChar_of_isWord (hword c hc))
      have hafter : right.count '=' = 0 := by
        obtain ⟨gap', after, hgap', hafter, heq⟩ := exists_trim right
        rw [heq]
        exact count_equals_surrounded hgap' hafter hmade'
      have htrim : trim (before ++ key ++ gap) = key :=
        trim_surrounded hbefore hgap hkey
          (fun c hc => isBlank_of_isWord (hword c (List.mem_of_mem_head? hc)))
          fun c hc => isBlank_of_isWord (hword c (List.mem_of_mem_getLast? hc))
      refine ⟨?_, ⟨before ++ key ++ gap, right, hcs, htrim, rfl⟩, hkey, hword, hraw, hmade'⟩
      rw [hcs, List.count_append, List.count_cons_self, hleft, hafter]
    · cases h
  · cases h

/-- A text of two parts with an equals sign between them is of the pattern. -/
lemma Splits.matches (h : Splits cs key raw) : Matches cs key raw := by
  obtain ⟨-, ⟨left, right, rfl, rfl, rfl⟩, hkey, hword, hraw, hmade⟩ := h
  obtain ⟨before, gap, hbefore, hgap, hleft⟩ := exists_trim left
  obtain ⟨gap', after, hgap', hafter, hright⟩ := exists_trim right
  obtain ⟨hfirst, hlast⟩ := ends_trim right
  have hpattern := Matches.pattern hbefore hkey hword hgap hgap'
    (ValueWords.of_made hraw hmade hfirst hlast) hafter
  rwa [← hleft, ← hright] at hpattern

/-- The texts that are split are those that can be cut at one equals sign. -/
theorem split?_eq_some_iff : split? cs = some (key, raw) ↔ Splits cs key raw :=
  ⟨splits_of_split?, fun h => h.matches.split?⟩

/-- The pattern of assignments describes the texts that can be cut at one equals sign. -/
theorem matches_iff_splits : Matches cs key raw ↔ Splits cs key raw :=
  ⟨fun h => splits_of_split? h.split?, Splits.matches⟩

/-! ### Lines -/

/-- A line assigns what its text says: the key and the value are found in it exactly when it has one
equals sign between a word and a text of value characters and blanks, up to blanks around both, and
then they are these two parts.  This is also what the pattern of assignments says.  The attribute of
the line is the value that the key gets, or its fault at the number of the line; any other text is
the fault. -/
theorem ofLine_of_text (l : Line) :
    (∀ key raw, split? l.text.toList = some (key, raw) ↔ Splits l.text.toList key raw) ∧
      (∀ key raw, Matches l.text.toList key raw ↔ Splits l.text.toList key raw) ∧
      (∀ key raw, Splits l.text.toList key raw →
        (∀ value, readValue (String.ofList key) (String.ofList raw) = .ok value →
          ofLine l = .ok ⟨String.ofList key, value, l.number⟩) ∧
        ∀ fault, readValue (String.ofList key) (String.ofList raw) = .error fault →
          ofLine l = .error (.badLine l.number fault)) ∧
      ((∀ key raw, ¬ Splits l.text.toList key raw) →
        ofLine l = .error (.badLine l.number (.notAssignment (Text.trimmed l.text)))) := by
  refine ⟨fun key raw => split?_eq_some_iff, fun key raw => matches_iff_splits,
    fun key raw h => ⟨fun value hvalue => ?_, fun fault hfault => ?_⟩, fun h => ?_⟩
  · unfold ofLine
    rw [split?_eq_some_iff.2 h]
    dsimp only
    rw [hvalue]
  · unfold ofLine
    rw [split?_eq_some_iff.2 h]
    dsimp only
    rw [hfault]
  · have hnone : split? l.text.toList = none := by
      cases hsplit : split? l.text.toList with
      | none => rfl
      | some parts => exact absurd (split?_eq_some_iff.1 hsplit) (h parts.1 parts.2)
    unfold ofLine
    rw [hnone]

/-- A line break counts as a blank around the key, and blanks inside the value stay. -/
theorem ofLine_of_text_clips :
    Splits " clips\n=\tintro  body ".toList "clips".toList "intro  body".toList ∧
      ofLine ⟨7, " clips\n=\tintro  body "⟩ = .ok ⟨"clips", .text "intro  body", 7⟩ := by
  have hline := ofLine_of_text ⟨7, " clips\n=\tintro  body "⟩
  have hsplits := (hline.1 "clips".toList "intro  body".toList).1 (by decide +kernel)
  exact ⟨hsplits, (hline.2.2.1 _ _ hsplits).1 _ (by decide +kernel)⟩

end Montage.Attribute
