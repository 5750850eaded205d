import Mathlib.Data.List.Basic
import Mathlib.Data.List.TakeWhile
import Mathlib.Tactic.Lemma
import Montage.Text.Blank
import Montage.Text.Lines
import Montage.Text.Word

/-!
# Cutting what was joined

Lines that are each ended by a line feed are the lines of their text (`lines_flatMap`), pieces
joined by a separator are found again by cutting at the separator (`splitAll_intercalate`,
`words_intercalate`), and trimming leaves what stands between the blanks at the ends of a text
(`trim_surrounded`, `exists_trim`).  All this rests on which classes of characters exclude each
other.
-/

namespace Montage.Text

/-! ### Classes of characters -/

/-- Classes whose ranges do not meet have no character in common. -/
lemma inRanges_of_disjoint {rs ts : Ranges} {c : Char}
    (hdisjoint : ∀ r ∈ rs, ∀ t ∈ ts, r.2 < t.1 ∨ t.2 < r.1) (hc : inRanges rs c = true) :
    inRanges ts c = false := by
  simp only [inRanges, List.any_eq_true, List.any_eq_false, Bool.and_eq_true,
    decide_eq_true_eq] at hc ⊢
  obtain ⟨r, hr, hlow, hhigh⟩ := hc
  intro t ht
  have hapart := hdisjoint r hr t ht
  omega

/-- A word character is no blank. -/
lemma isBlank_of_isWord {c : Char} (h : isWord c = true) : isBlank c = false :=
  inRanges_of_disjoint (by decide +kernel) h

/-- A value character is no blank. -/
lemma isBlank_of_isValueChar {c : Char} (h : isValueChar c = true) : isBlank c = false := by
  simp only [isValueChar, Bool.or_eq_true, decide_eq_true_eq] at h
  rcases h with ((h | rfl) | rfl) | rfl
  · exact isBlank_of_isWord h
  · decide
  · decide
  · decide

/-- The range of the decimal digits of ASCII. -/
lemma toNat_of_isDigit {c : Char} (h : c.isDigit = true) : 0x30 ≤ c.toNat ∧ c.toNat ≤ 0x39 := by
  simpa [Char.isDigit, UInt32.le_iff_toNat_le] using h

/-- A decimal digit is a word character. -/
lemma isWord_of_isDigit {c : Char} (h : c.isDigit = true) : isWord c = true := by
  have hrange := toNat_of_isDigit h
  have hdigits : (0x30, 0x39) ∈ wordRanges := List.Mem.head _
  exact List.any_eq_true.2 ⟨_, hdigits, by simpa using hrange⟩

/-- A word character is a value character. -/
lemma isValueChar_of_isWord {c : Char} (h : isWord c = true) : isValueChar c = true := by
  simp [isValueChar, h]

/-- A decimal digit is a value character. -/
lemma isValueChar_of_isDigit {c : Char} (h : c.isDigit = true) : isValueChar c = true :=
  isValueChar_of_isWord (isWord_of_isDigit h)

/-! ### Runs -/

section Runs

variable {α : Type} {p : α → Bool} {as rest : List α}

/-- A run of characters of a class is cut off from what does not go on with the class. -/
lemma span_append (has : ∀ a ∈ as, p a = true) (hrest : ∀ a ∈ rest.head?, p a = false) :
    (as ++ rest).takeWhile p = as ∧ (as ++ rest).dropWhile p = rest := by
  rw [List.takeWhile_append_of_pos has, List.dropWhile_append_of_pos has]
  cases rest with
  | nil => simp
  | cons a rest => simp [hrest a rfl]

/-- What follows a run of characters of a class does not go on with the class. -/
lemma head?_dropWhile (p : α → Bool) (as : List α) :
    ∀ a ∈ (as.dropWhile p).head?, p a = false := by
  intro a ha
  have hhead := List.head?_dropWhile_not p as
  rw [Option.mem_def.1 ha] at hhead
  simpa using hhead

end Runs

/-! ### Lines -/

/-- The text can stand on a line: it has no line feed, and no carriage return at its end that would
belong to the end of the line. -/
def Fits (l : List Char) : Prop := '\n' ∉ l ∧ l.getLast? ≠ some '\r'

instance : DecidablePred Fits := fun l =>
  inferInstanceAs (Decidable ('\n' ∉ l ∧ l.getLast? ≠ some '\r'))

/-- The text can stand on a line with one more character before it only if it can itself. -/
lemma Fits.tail {c : Char} {l : List Char} (h : Fits (c :: l)) : Fits l := by
  obtain ⟨hfeed, hreturn⟩ := h
  refine ⟨fun hmem => hfeed (List.mem_cons_of_mem c hmem), fun hlast => hreturn ?_⟩
  rw [List.getLast?_cons, hlast, Option.getD_some]

/-- A line that is ended by a line feed is the first line of its text. -/
lemma lines_append_cons {l : List Char} (hl : Fits l) (rest : List Char) :
    lines (l ++ '\n' :: rest) = l :: lines rest := by
  induction l with
  | nil => rw [List.nil_append, lines]
  | cons c l ih =>
    have htail := ih hl.tail
    obtain ⟨hfeed, hreturn⟩ := hl
    rw [List.mem_cons, not_or] at hfeed
    have hend : ∀ cs, c = '\r' → l ++ '\n' :: rest = '\n' :: cs → False := by
      rintro cs rfl heq
      cases l with
      | nil => simp at hreturn
      | cons d l =>
        obtain ⟨rfl, -⟩ := List.cons.inj heq
        exact hfeed.2 List.mem_cons_self
    rw [List.cons_append, lines.eq_4 c _ hend (fun hc => hfeed.1 hc.symm), htail]

/-- Lines that are each ended by a line feed are the lines of their text. -/
theorem lines_flatMap {ls : List (List Char)} (h : ∀ l ∈ ls, Fits l) :
    lines (ls.flatMap fun l => l ++ ['\n']) = ls := by
  induction ls with
  | nil => rfl
  | cons l ls ih =>
    obtain ⟨hl, hls⟩ := List.forall_mem_cons.1 h
    rw [List.flatMap_cons, List.append_assoc, List.singleton_append, lines_append_cons hl, ih hls]

/-! ### Trimming -/

/-- A character that is no blank stays at the beginning. -/
lemma trimStart_cons_of_not_isBlank {c : Char} (h : isBlank c = false) (cs : List Char) :
    trimStart (c :: cs) = c :: cs :=
  List.dropWhile_cons_of_neg (by simp [h])

/-- Nothing is trimmed from a text that begins with no blank. -/
lemma trimStart_eq_self {cs : List Char} (h : ∀ c ∈ cs.head?, isBlank c = false) :
    trimStart cs = cs := by
  cases cs with
  | nil => rfl
  | cons c cs => exact trimStart_cons_of_not_isBlank (h c rfl) cs

/-- A text that consists of blanks. -/
def Blanks (cs : List Char) : Prop := ∀ c ∈ cs, isBlank c = true

/-- Whether a text consists of blanks can be computed. -/
instance : DecidablePred Blanks := fun cs =>
  decidable_of_iff (cs.all isBlank = true) List.all_eq_true

/-- All blanks at the beginning are trimmed. -/
lemma trimStart_append {before : List Char} (h : Blanks before) (cs : List Char) :
    trimStart (before ++ cs) = trimStart cs :=
  List.dropWhile_append_of_pos h

/-- A text that has no blanks at its ends is what is left when the blanks around it are trimmed. -/
lemma trim_surrounded {before core after : List Char} (hbefore : Blanks before)
    (hafter : Blanks after) (hcore : core ≠ []) (hfirst : ∀ c ∈ core.head?, isBlank c = false)
    (hlast : ∀ c ∈ core.getLast?, isBlank c = false) :
    trim (before ++ core ++ after) = core := by
  have hstart : trimStart (before ++ core ++ after) = core ++ after := by
    rw [List.append_assoc, trimStart_append hbefore]
    refine trimStart_eq_self ?_
    rwa [List.head?_append_of_ne_nil _ hcore]
  have hreverse : Blanks after.reverse := fun c hc => hafter c (List.mem_reverse.1 hc)
  have hend : trimStart (core ++ after).reverse = core.reverse := by
    rw [List.reverse_append, trimStart_append hreverse]
    refine trimStart_eq_self ?_
    rwa [List.head?_reverse]
  unfold trim trimEnd
  rw [hstart]
  exact List.reverse_eq_iff.2 hend

/-- A text begins with the blanks that are trimmed from its beginning. -/
lemma exists_trimStart (cs : List Char) : ∃ before, Blanks before ∧ cs = before ++ trimStart cs :=
  ⟨cs.takeWhile isBlank, fun _ hc => List.mem_takeWhile_imp hc,
    List.takeWhile_append_dropWhile.symm⟩

/-- What is left of a text begins with no blank, when its beginning is trimmed. -/
lemma head?_trimStart (cs : List Char) : ∀ c ∈ (trimStart cs).head?, isBlank c = false :=
  head?_dropWhile isBlank cs

/-- A text is what is left of it when it is trimmed, with blanks around it. -/
lemma exists_trim (cs : List Char) :
    ∃ before after, Blanks before ∧ Blanks after ∧ cs = before ++ trim cs ++ after := by
  obtain ⟨before, hbefore, hstart⟩ := exists_trimStart cs
  obtain ⟨after, hafter, hend⟩ := exists_trimStart (trimStart cs).reverse
  have hsplit : trimStart cs = trim cs ++ after.reverse := by
    rw [← List.reverse_reverse (trimStart cs), hend, List.reverse_append]
    rfl
  refine ⟨before, after.reverse, hbefore, fun c hc => hafter c (List.mem_reverse.1 hc), ?_⟩
  rw [List.append_assoc, ← hsplit, ← hstart]

/-- What is left of a text begins and ends with no blank, when it is trimmed. -/
lemma ends_trim (cs : List Char) : (∀ c ∈ (trim cs).head?, isBlank c = false) ∧
    ∀ c ∈ (trim cs).getLast?, isBlank c = false := by
  have hlast : ∀ c ∈ (trim cs).getLast?, isBlank c = false := by
    unfold trim trimEnd
    rw [List.getLast?_reverse]
    exact head?_trimStart (trimStart cs).reverse
  refine ⟨fun c hc => ?_, hlast⟩
  have hprefix : trim cs <+: trimStart cs := by
    rw [← List.reverse_suffix]
    unfold trim trimEnd
    rw [List.reverse_reverse]
    exact List.dropWhile_suffix isBlank
  obtain ⟨after, hafter⟩ := hprefix
  have hne : trim cs ≠ [] := by
    intro hnil
    rw [hnil] at hc
    cases hc
  refine head?_trimStart cs c ?_
  rwa [← hafter, List.head?_append_of_ne_nil _ hne]

/-! ### Pieces -/

section Pieces

variable {α : Type} {p : α → Bool} {w : List α}

/-- A text without separators is one piece. -/
lemma splitAll_eq_singleton (hw : ∀ a ∈ w, p a = false) : splitAll p w = [w] := by
  induction w with
  | nil => rfl
  | cons a w ih =>
    obtain ⟨ha, hw⟩ := List.forall_mem_cons.1 hw
    rw [splitAll, ih hw, if_neg (by simp [ha])]

/-- What stands before the first separator is the first piece. -/
lemma splitAll_append_cons (hw : ∀ a ∈ w, p a = false) {a : α} (ha : p a = true) (rest : List α) :
    splitAll p (w ++ a :: rest) = w :: splitAll p rest := by
  induction w with
  | nil => rw [List.nil_append, splitAll, if_pos ha]
  | cons b w ih =>
    obtain ⟨hb, hw⟩ := List.forall_mem_cons.1 hw
    rw [List.cons_append, splitAll, ih hw, if_neg (by simp [hb])]

/-- The pieces of a text have no separators in them. -/
lemma separator_notMem (p : α → Bool) (as : List α) :
    ∀ w ∈ splitAll p as, ∀ a ∈ w, p a = false := by
  induction as with
  | nil => simp [splitAll]
  | cons a as ih =>
    obtain ⟨piece, pieces, hpieces⟩ := List.exists_cons_of_ne_nil (splitAll_ne_nil p as)
    rw [hpieces, List.forall_mem_cons] at ih
    by_cases ha : p a = true
    · rw [splitAll, if_pos ha, hpieces]
      exact List.forall_mem_cons.2 ⟨by simp, List.forall_mem_cons.2 ih⟩
    · rw [splitAll, if_neg ha, hpieces]
      exact List.forall_mem_cons.2
        ⟨List.forall_mem_cons.2 ⟨Bool.eq_false_iff.2 ha, ih.1⟩, ih.2⟩

/-- The pieces of a text have no other characters than the text. -/
lemma mem_of_mem_splitAll {a : α} (haw : a ∈ w) {as : List α} (hw : w ∈ splitAll p as) :
    a ∈ as := by
  induction as generalizing w with
  | nil =>
    rw [List.mem_singleton.1 hw] at haw
    cases haw
  | cons b as ih =>
    obtain ⟨piece, pieces, hpieces⟩ := List.exists_cons_of_ne_nil (splitAll_ne_nil p as)
    rw [splitAll, hpieces] at hw
    rw [hpieces] at ih
    split at hw
    · rcases List.mem_cons.1 hw with rfl | hw
      · cases haw
      · exact List.mem_cons_of_mem b (ih haw hw)
    · rcases List.mem_cons.1 hw with rfl | hw
      · rcases List.mem_cons.1 haw with rfl | haw
        · exact List.mem_cons_self
        · exact List.mem_cons_of_mem b (ih haw List.mem_cons_self)
      · exact List.mem_cons_of_mem b (ih haw (List.mem_cons_of_mem piece hw))

/-- Pieces that are joined by a separator are the pieces of their text. -/
theorem splitAll_intercalate {s : α} (hs : p s = true) {ws : List (List α)} (hne : ws ≠ [])
    (hws : ∀ w ∈ ws, ∀ a ∈ w, p a = false) : splitAll p ([s].intercalate ws) = ws := by
  induction ws with
  | nil => exact absurd rfl hne
  | cons w ws ih =>
    obtain ⟨hw, hws⟩ := List.forall_mem_cons.1 hws
    cases ws with
    | nil => rw [List.intercalate_singleton, splitAll_eq_singleton hw]
    | cons w' ws =>
      rw [List.intercalate_cons_cons, List.append_assoc, List.singleton_append,
        splitAll_append_cons hw hs, ih (List.cons_ne_nil w' ws) hws]

/-- The pieces between the occurrences of a separator, joined by it, are the text. -/
lemma intercalate_splitAll [DecidableEq α] (s : α) (as : List α) :
    [s].intercalate (splitAll (fun a => a = s) as) = as := by
  induction as with
  | nil => rfl
  | cons a as ih =>
    obtain ⟨piece, pieces, hpieces⟩ :=
      List.exists_cons_of_ne_nil (splitAll_ne_nil (fun a => decide (a = s)) as)
    rw [hpieces] at ih
    by_cases ha : a = s
    · rw [splitAll, if_pos (decide_eq_true ha), hpieces, List.intercalate_cons_cons, ih, ha]
      rfl
    · rw [splitAll, if_neg (by simpa using ha), hpieces]
      dsimp only
      rw [← ih]
      cases pieces with
      | nil => simp
      | cons piece' pieces =>
        rw [List.intercalate_cons_cons, List.intercalate_cons_cons]
        simp

end Pieces

/-- Words that are joined by spaces are the words of their text. -/
theorem words_intercalate {ws : List (List Char)}
    (h : ∀ w ∈ ws, w ≠ [] ∧ ∀ c ∈ w, isBlank c = false) :
    words ([' '].intercalate ws) = ws := by
  by_cases hne : ws = []
  · rw [hne]
    rfl
  · unfold words
    rw [splitAll_intercalate (by decide) hne fun w hw => (h w hw).2]
    exact List.filter_eq_self.2 fun w hw => by simpa using (h w hw).1

end Montage.Text
