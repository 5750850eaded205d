import Mathlib.Data.List.Basic
import Mathlib.Tactic.Lemma
import Montage.Filtergraph

/-!
# The characters of a graph

Numbers, lengths, colours, filters and labels are written with letters and digits of ASCII and a few
signs (`Spelled`).  The text of a graph has no other characters, apart from the brackets around its
labels and the semicolons between its chains (`Filtergraph.notMem_text`).
-/

namespace Montage

/-- The characters that filters and labels are written with. -/
def isSpelling (c : Char) : Bool := c.isAlphanum || "=:+-.,@_".toList.contains c

/-- The text has only characters that filters and labels are written with. -/
def Spelled (s : String) : Prop := ∀ c ∈ s.toList, isSpelling c = true

/-- Whether a text is spelled can be computed. -/
instance : DecidablePred Spelled := fun s =>
  decidable_of_iff (s.toList.all isSpelling = true) List.all_eq_true

variable {s t : String} {c : Char}

/-- Another character stands in no text that is spelled. -/
lemma Spelled.notMem (h : Spelled s) (hc : isSpelling c = false) : c ∉ s.toList := fun hmem =>
  Bool.false_ne_true (hc.symm.trans (h c hmem))

/-- Two texts, one after the other, are spelled when both are. -/
lemma spelled_append : Spelled (s ++ t) ↔ Spelled s ∧ Spelled t := by
  unfold Spelled
  rw [String.toList_append, List.forall_mem_append]

/-- Two spelled texts, one after the other. -/
lemma Spelled.append (hs : Spelled s) (ht : Spelled t) : Spelled (s ++ t) :=
  spelled_append.2 ⟨hs, ht⟩

/-- Characters that texts are spelled with make a text that is spelled. -/
lemma spelled_ofList {cs : List Char} (h : ∀ c ∈ cs, isSpelling c = true) :
    Spelled (String.ofList cs) := by
  unfold Spelled
  rwa [String.toList_ofList]

/-! ### Numbers and colours -/

/-- The digits of numbers are spelled. -/
lemma isSpelling_of_mem_toDigits (n : Nat) : ∀ c ∈ Nat.toDigits 10 n, isSpelling c = true := by
  intro c hc
  have hdigit : c.isDigit = true := Nat.isDigit_of_mem_toDigits (by decide) (by decide) hc
  simp [isSpelling, Char.isAlphanum, hdigit]

/-- Numbers are spelled. -/
lemma spelled_toString (n : Nat) : Spelled (toString n) := by
  rw [Nat.toString_eq_ofList_toDigits]
  exact spelled_ofList (isSpelling_of_mem_toDigits n)

/-- Numbers of 32 bits are spelled. -/
lemma spelled_toString_uInt32 (n : UInt32) : Spelled (toString n) := spelled_toString n.toNat

namespace Seconds

/-- A sign is spelled. -/
lemma spelled_signText (negative : Bool) : Spelled (signText negative) := by
  cases negative <;> decide

/-- Decimals are spelled. -/
lemma spelled_positional (d : Decimal) : Spelled (d.positional "") := by
  have hdigits := isSpelling_of_mem_toDigits d.digits
  have hzeros (n : Nat) : Spelled (zeros n) :=
    spelled_ofList fun c hc => by rw [List.eq_of_mem_replicate hc]; decide
  unfold Decimal.positional
  dsimp only
  split
  · exact .append (.append (by decide) (hzeros _)) (spelled_ofList hdigits)
  · split
    · exact .append (.append (spelled_ofList hdigits) (hzeros _)) (by decide)
    · refine .append (.append (spelled_ofList ?_) (by decide)) (spelled_ofList ?_)
      · exact fun c hc => hdigits c (List.mem_of_mem_take hc)
      · exact fun c hc => hdigits c (List.mem_of_mem_drop hc)

/-- Lengths are spelled. -/
lemma spelled_plain (s : Seconds) : Spelled s.plain := by
  unfold plain
  split
  · decide
  · exact (spelled_signText _).append (by decide)
  · exact (spelled_signText _).append (by decide)
  · exact (spelled_signText _).append (spelled_positional _)

end Seconds

/-- Colours are spelled. -/
lemma Color.spelled_text (c : Color) : Spelled c.text := by
  have hdigit : ∀ k < 16, isSpelling (Nat.digitChar k).toUpper = true := by decide
  have hchannel (n : UInt8) : Spelled (channelText n) := by
    have hn : n.toNat < 256 := n.toNat_lt
    refine spelled_ofList fun c hc => ?_
    rcases List.mem_pair.1 hc with rfl | rfl
    · exact hdigit (n.toNat / 16) (by omega)
    · exact hdigit (n.toNat % 16) (by omega)
  unfold text
  exact .append (.append (.append (by decide) (hchannel _)) (hchannel _)) (hchannel _)

namespace Filtergraph

/-! ### Filters and labels -/

namespace Filter

/-- Sides are spelled. -/
lemma spelled_sideText (side : Option UInt32) : Spelled (sideText side) := by
  cases side with
  | none => decide
  | some n => exact spelled_toString_uInt32 n

/-- Ranges are spelled. -/
lemma spelled_rangeText (start : Seconds) (stop : Option Seconds) :
    Spelled (rangeText start stop) := by
  cases stop with
  | none => exact .append (by decide) start.spelled_plain
  | some stop =>
    exact .append (.append (.append (by decide) start.spelled_plain) (by decide))
      stop.spelled_plain

/-- Filters are spelled. -/
lemma spelled_text (f : Filter) : Spelled f.text := by
  unfold text
  -- What is left of each case are the words of the filter, which are closed terms.
  cases f with
  | scale width height =>
    simp only [spelled_append, spelled_sideText, and_true]
    decide
  | pad margin color opacity =>
    have htwice := spelled_toString (2 * margin.toNat)
    have honce := spelled_toString_uInt32 margin
    have hopacity := spelled_toString (min opacity.toNat 1)
    simp only [spelled_append, htwice, honce, hopacity, color.spelled_text, and_true]
    decide
  | concat count stream =>
    cases stream <;> simp only [spelled_append, spelled_toString, and_true] <;> decide
  | black size duration =>
    simp only [spelled_append, spelled_toString_uInt32, duration.spelled_plain, and_true]
    decide
  | overlay offset =>
    simp only [spelled_append, spelled_toString_uInt32, and_true]
    decide
  | silence duration =>
    simp only [spelled_append, duration.spelled_plain, and_true]
    decide
  | mix count =>
    simp only [spelled_append, spelled_toString, and_true]
    decide
  | limit duration =>
    simp only [spelled_append, duration.spelled_plain, and_true]
    decide
  | trim stream start stop =>
    cases stream <;> simp only [spelled_append, spelled_rangeText, and_true] <;> decide
  | copy stream => cases stream <;> decide

end Filter

/-- Labels are spelled. -/
lemma Label.spelled_text (l : Label) : Spelled l.text := by
  have hletter (stream : Stream) : Spelled stream.letter := by cases stream <;> decide
  cases l with
  | pad i stream =>
    exact .append (.append (.append (spelled_toString i) (by decide)) (hletter stream)) (by decide)
  | link stream n => exact (hletter stream).append (spelled_toString n)
  | final stream => exact (hletter stream).append (by decide)

/-! ### Chains and graphs -/

/-- A character that is no bracket, and that nothing is spelled with, stands in no label in
brackets. -/
lemma Label.notMem_bracketed (l : Label) (hc : isSpelling c = false) (hopen : c ≠ '[')
    (hclose : c ≠ ']') : c ∉ l.bracketed.toList := by
  have htext := l.spelled_text.notMem hc
  simp [bracketed, htext, hopen, hclose]

/-- A character that is no bracket, and that nothing is spelled with, stands in no chain. -/
lemma Chain.notMem_text (ch : Chain) (hc : isSpelling c = false) (hopen : c ≠ '[')
    (hclose : c ≠ ']') : c ∉ ch.text.toList := by
  have hinputs (ls : List Label) : c ∉ (String.join (ls.map Label.bracketed)).toList := by
    induction ls with
    | nil => simp
    | cons l ls ih =>
      rw [List.map_cons, String.join_cons, String.toList_append, List.mem_append, not_or]
      exact ⟨l.notMem_bracketed hc hopen hclose, ih⟩
  simp only [text, String.toList_append, List.mem_append, not_or]
  exact ⟨⟨hinputs ch.inputs, ch.filter.spelled_text.notMem hc⟩,
    ch.output.notMem_bracketed hc hopen hclose⟩

end Filtergraph

/-- A character that is neither bracket nor semicolon, and that nothing is spelled with, stands in
no text of a graph. -/
theorem Filtergraph.notMem_text (g : Filtergraph) (hc : isSpelling c = false)
    (hmarks : c ∉ ['[', ']', ';']) : c ∉ g.text.toList := by
  obtain ⟨hopen, hclose, hsemicolon⟩ : c ≠ '[' ∧ c ≠ ']' ∧ c ≠ ';' := by simpa using hmarks
  have hchains (cs : List Chain) : c ∉ (";".intercalate (cs.map Chain.text)).toList := by
    induction cs with
    | nil => simp
    | cons ch cs ih =>
      have hchain := ch.notMem_text hc hopen hclose
      by_cases hnil : cs = []
      · simpa [hnil] using hchain
      · rw [List.map_cons, String.intercalate_cons_of_ne_nil (by simpa using hnil),
          String.toList_append, String.toList_append, List.mem_append, List.mem_append]
        simp [hchain, hsemicolon, ih, -String.toList_intercalate]
  exact hchains g.chains

end Montage
