import Montage.Proofs.Script.Grammar
import Montage.Proofs.Script.Printer

/-!
# Reading what a line assigns

A line that assigns a written value to a key is split into both (`split?_assignment`), and the value
is read back (`readValue_written`), provided that the key has values of its type.  Numbers and
timestamps are made of digits and colons, so that they can be written whatever their value is;
`ofLine_assignmentLine` puts this together for every value whose text can be assigned.
-/

namespace Montage

/-! ### Texts that can be written -/

namespace Text

variable {s : String}

/-- A text that a line can assign has characters. -/
lemma Assignable.toList_ne_nil (h : Assignable s) : s.toList ≠ [] := fun hnil =>
  h.nonempty (String.toList_eq_nil_iff.1 hnil)

/-- A word of a list has characters. -/
lemma Listable.toList_ne_nil (h : Listable s) : s.toList ≠ [] := fun hnil =>
  h.nonempty (String.toList_eq_nil_iff.1 hnil)

/-- A word of a list can also stand alone. -/
lemma Listable.assignable (h : Listable s) : Assignable s where
  nonempty := h.nonempty
  oneLine := fun hmem => absurd (isBlank_of_isValueChar (h.made _ hmem)) (by decide)
  made := fun c hc => .inl (h.made c hc)
  first := fun c hc => h.made c (List.mem_of_mem_head? hc)
  last := fun c hc => h.made c (List.mem_of_mem_getLast? hc)

/-- Words that are joined by spaces begin and end with a value character, and have no other blanks
than the spaces. -/
lemma made_intercalate {ws : List (List Char)} (hne : ws ≠ [])
    (h : ∀ w ∈ ws, w ≠ [] ∧ ∀ c ∈ w, isValueChar c = true) :
    [' '].intercalate ws ≠ [] ∧
      (∀ c ∈ [' '].intercalate ws, isValueChar c = true ∨ c = ' ') ∧
      (∀ c ∈ ([' '].intercalate ws).head?, isValueChar c = true) ∧
      ∀ c ∈ ([' '].intercalate ws).getLast?, isValueChar c = true := by
  induction ws with
  | nil => exact absurd rfl hne
  | cons w ws ih =>
    obtain ⟨⟨hw, hmade⟩, hws⟩ := List.forall_mem_cons.1 h
    cases ws with
    | nil =>
      rw [List.intercalate_singleton]
      exact ⟨hw, fun c hc => .inl (hmade c hc), fun c hc => hmade c (List.mem_of_mem_head? hc),
        fun c hc => hmade c (List.mem_of_mem_getLast? hc)⟩
    | cons w' ws =>
      obtain ⟨hrest, hrestMade, -, hrestLast⟩ := ih (by simp) hws
      rw [List.intercalate_cons_cons]
      refine ⟨by simp [hw], fun c hc => ?_, fun c hc => ?_, fun c hc => ?_⟩
      · rcases List.mem_append.1 hc with hc | hc
        · rcases List.mem_append.1 hc with hc | hc
          · exact .inl (hmade c hc)
          · exact .inr (List.mem_singleton.1 hc)
        · exact hrestMade c hc
      · rw [List.append_assoc, List.head?_append_of_ne_nil _ hw] at hc
        exact hmade c (List.mem_of_mem_head? hc)
      · rw [List.getLast?_append_of_ne_nil _ hrest] at hc
        exact hrestLast c hc

/-- Words that are joined by spaces can be written. -/
lemma assignable_intercalate {ws : List String} (hne : ws ≠ []) (h : ∀ w ∈ ws, Listable w) :
    Assignable (" ".intercalate ws) := by
  have hwords : ∀ w ∈ ws.map String.toList, w ≠ [] ∧ ∀ c ∈ w, isValueChar c = true := by
    intro w hw
    obtain ⟨s, hs, rfl⟩ := List.mem_map.1 hw
    exact ⟨(h s hs).toList_ne_nil, (h s hs).made⟩
  have hlist : (" ".intercalate ws).toList = [' '].intercalate (ws.map String.toList) :=
    String.toList_intercalate
  obtain ⟨hnil, hmade, hfirst, hlast⟩ := made_intercalate (by simpa using hne) hwords
  rw [← hlist] at hnil hmade hfirst hlast
  refine ⟨fun heq => hnil (String.toList_eq_nil_iff.2 heq), fun hmem => ?_, fun c hc => ?_, hfirst,
    hlast⟩
  · rcases hmade _ hmem with hvalue | heq
    · exact absurd (isBlank_of_isValueChar hvalue) (by decide)
    · cases heq
  · rcases hmade c hc with hvalue | rfl
    · exact .inl hvalue
    · exact .inr (by decide)

/-- Words that are joined by spaces are found again. -/
lemma words_of_intercalate {ws : List String} (h : ∀ w ∈ ws, Listable w) :
    (words (" ".intercalate ws).toList).map String.ofList = ws := by
  have hlist : (" ".intercalate ws).toList = [' '].intercalate (ws.map String.toList) :=
    String.toList_intercalate
  rw [hlist, words_intercalate, List.map_map]
  · simp [Function.comp_def, String.ofList_toList]
  · intro w hw
    obtain ⟨s, hs, rfl⟩ := List.mem_map.1 hw
    exact ⟨(h s hs).toList_ne_nil, fun c hc => isBlank_of_isValueChar ((h s hs).made c hc)⟩

end Text

/-! ### Numbers and timestamps -/

/-- The text of a number consists of its decimal digits. -/
lemma toList_toString (n : Nat) : (toString n).toList = Nat.toDigits 10 n := by
  rw [Nat.toString_eq_repr, Nat.toList_repr]

/-- The decimal digits of a number are digits. -/
lemma isDigit_of_mem_toDigits {n : Nat} {c : Char} (hc : c ∈ Nat.toDigits 10 n) :
    c.isDigit = true :=
  Nat.isDigit_of_mem_toDigits (by decide) (by decide) hc

/-- A number with at least two digits is written with digits, in which its value is read. -/
lemma toList_twoDigits (n : Nat) :
    (Timestamp.twoDigits n).toList ≠ [] ∧
      (∀ c ∈ (Timestamp.twoDigits n).toList, c.isDigit = true) ∧
      Nat.ofDigitChars 10 (Timestamp.twoDigits n).toList 0 = n := by
  unfold Timestamp.twoDigits
  split
  · have hlist : ("0" ++ toString n).toList = '0' :: Nat.toDigits 10 n := by
      rw [String.toList_append, toList_toString]
      rfl
    rw [hlist]
    refine ⟨by simp, List.forall_mem_cons.2 ⟨by decide, fun c hc => isDigit_of_mem_toDigits hc⟩, ?_⟩
    rw [Nat.ofDigitChars_cons]
    exact Nat.ofDigitChars_ten_toDigits
  · rw [toList_toString]
    exact ⟨Nat.toDigits_ne_nil, fun c hc => isDigit_of_mem_toDigits hc,
      Nat.ofDigitChars_ten_toDigits⟩

namespace Attribute

/-- Digits are read as the number whose value they have. -/
lemma readCount?_of_digits {raw : List Char} {n : UInt64} (hne : raw ≠ [])
    (hdigits : ∀ c ∈ raw, c.isDigit = true) (hvalue : Nat.ofDigitChars 10 raw 0 = n.toNat) :
    readCount? raw = some n := by
  unfold readCount?
  rw [hvalue]
  dsimp only
  rw [if_pos ⟨hne, by simpa using hdigits, UInt64.toNat_lt_size n⟩, UInt64.ofNat_toNat]

/-- A number is read back from its decimal digits. -/
lemma readCount?_toString (n : UInt64) : readCount? (toString n.toNat).toList = some n := by
  rw [toList_toString]
  exact readCount?_of_digits Nat.toDigits_ne_nil (fun c hc => isDigit_of_mem_toDigits hc)
    Nat.ofDigitChars_ten_toDigits

/-- A number is read back from its digits when there are at least two of them. -/
lemma readCount?_twoDigits (n : UInt64) :
    readCount? (Timestamp.twoDigits n.toNat).toList = some n := by
  obtain ⟨hne, hdigits, hvalue⟩ := toList_twoDigits n.toNat
  exact readCount?_of_digits hne hdigits hvalue

/-- A timestamp is written as three numbers that are separated by colons. -/
lemma toList_text (t : Timestamp) : t.text.toList =
    (Timestamp.twoDigits t.hours.toNat).toList ++ ':' ::
      ((Timestamp.twoDigits t.minutes.toNat).toList ++ ':' ::
        (Timestamp.twoDigits t.seconds.toNat).toList) := by
  simp [Timestamp.text, String.toList_append]

/-- A timestamp is read back from its text. -/
lemma readTime?_text (t : Timestamp) : readTime? t.text.toList = some t := by
  have hplain (n : Nat) : ∀ c ∈ (Timestamp.twoDigits n).toList, decide (c = ':') = false := by
    intro c hc
    have hdigit := (toList_twoDigits n).2.1 c hc
    by_contra hcolon
    simp only [Bool.not_eq_false, decide_eq_true_eq] at hcolon
    rw [hcolon] at hdigit
    revert hdigit
    decide
  unfold readTime?
  rw [toList_text, Text.splitAll_append_cons (hplain _) (by decide),
    Text.splitAll_append_cons (hplain _) (by decide), Text.splitAll_eq_singleton (hplain _)]
  simp [readCount?_twoDigits]

/-- A value is read back from what is written, under a key with values of its type. -/
theorem readValue_written {key : String} {v : Value} (h : valueType key = v.type) :
    readValue key v.written = .ok v := by
  unfold readValue
  rw [h]
  cases v with
  | flag b => cases b <;> rfl
  | count n =>
    simp only [Value.type, Value.written]
    rw [readCount?_toString]
  | time t =>
    simp only [Value.type, Value.written]
    rw [readTime?_text]
  | text s => rfl

end Attribute

/-! ### Lines -/

/-- What is written of a value can be assigned; of a text, when it can be assigned itself. -/
lemma Value.assignable_written {v : Value} (h : ∀ s, v = .text s → Text.Assignable s) :
    Text.Assignable v.written := by
  cases v with
  | flag b =>
    refine Text.Listable.assignable ?_
    cases b
    · decide +kernel
    · decide +kernel
  | count n =>
    refine Text.Listable.assignable ⟨fun hnil => ?_, fun c hc => ?_⟩
    · have hlist := String.toList_eq_nil_iff.2 hnil
      rw [written, toList_toString] at hlist
      exact Nat.toDigits_ne_nil hlist
    · rw [written, toList_toString] at hc
      exact Text.isValueChar_of_isDigit (isDigit_of_mem_toDigits hc)
  | time t =>
    have hparts (n : Nat) : ∀ c ∈ (Timestamp.twoDigits n).toList, Text.isValueChar c = true :=
      fun c hc => Text.isValueChar_of_isDigit ((toList_twoDigits n).2.1 c hc)
    have hcolon : Text.isValueChar ':' = true := by decide +kernel
    refine Text.Listable.assignable ⟨fun hnil => ?_, fun c hc => ?_⟩
    · have hlist := String.toList_eq_nil_iff.2 hnil
      rw [written, Attribute.toList_text] at hlist
      simp at hlist
    · rw [written, Attribute.toList_text] at hc
      simp only [List.mem_append, List.mem_cons] at hc
      rcases hc with hc | rfl | hc | rfl | hc
      · exact hparts _ c hc
      · exact hcolon
      · exact hparts _ c hc
      · exact hcolon
      · exact hparts _ c hc
  | text s => exact h s rfl

namespace Attribute

/-- The characters of a line that assigns a text to a key. -/
lemma toList_assignment (key raw : String) :
    (key ++ " = " ++ raw).toList = key.toList ++ ' ' :: '=' :: ' ' :: raw.toList := by
  simp [String.toList_append]

/-- A line that assigns a text to a key is split into the two. -/
lemma split?_assignment {key raw : String} (hkey : key ≠ "")
    (hword : ∀ c ∈ key.toList, Text.isWord c = true) (hraw : Text.Assignable raw) :
    split? (key ++ " = " ++ raw).toList = some (key.toList, raw.toList) := by
  have hne : key.toList ≠ [] := fun hnil => hkey (String.toList_eq_nil_iff.1 hnil)
  have hnil : Text.Blanks [] := by decide
  have hspace : Text.Blanks [' '] := by decide
  have hwords : ValueWords raw.toList :=
    .of_made hraw.toList_ne_nil hraw.made
      (fun c hc => Text.isBlank_of_isValueChar (hraw.first c hc))
      fun c hc => Text.isBlank_of_isValueChar (hraw.last c hc)
  have hmatches : Matches ([] ++ key.toList ++ [' '] ++ '=' :: ([' '] ++ raw.toList ++ []))
      key.toList raw.toList := .pattern hnil hne hword hspace hspace hwords hnil
  have hlist : [] ++ key.toList ++ [' '] ++ '=' :: ([' '] ++ raw.toList ++ []) =
      key.toList ++ ' ' :: '=' :: ' ' :: raw.toList := by simp
  rw [toList_assignment, ← hlist]
  exact hmatches.split?

/-- The word can stand before the equals sign, and what it is assigned is of the given type. -/
def IsKey (key : String) (type : ValueType) : Prop :=
  key ≠ "" ∧ key.toList.all Text.isWord = true ∧ valueType key = type

/-- Whether a word is a key of a type can be computed. -/
instance (key : String) (type : ValueType) : Decidable (IsKey key type) :=
  inferInstanceAs (Decidable (_ ∧ _ ∧ _))

/-- A line can assign the value to the key. -/
structure Writable (a : String × Value) : Prop where
  key : IsKey a.1 a.2.type
  text : Text.Assignable a.2.written

/-- A line that assigns a value to a key is read as this assignment. -/
theorem ofLine_assignmentLine {a : String × Value} (h : Writable a) (number : Nat) :
    ofLine ⟨number, Operation.assignmentLine a⟩ = .ok ⟨a.1, a.2, number⟩ := by
  obtain ⟨⟨hkey, hword, htype⟩, htext⟩ := h
  unfold ofLine Operation.assignmentLine
  rw [split?_assignment hkey (List.all_eq_true.1 hword) htext]
  dsimp only
  rw [String.ofList_toList, String.ofList_toList, readValue_written htype]

/-! ### The fields of operations -/

section Fields

variable {key : String}

/-- A text that can be assigned can be assigned to each key of texts. -/
lemma writable_text {s : String} (hkey : IsKey key .text) (hs : Text.Assignable s) :
    ∀ v ∈ some (Value.text s), Writable (key, v) := by
  rintro v ⟨⟩
  exact ⟨hkey, hs⟩

/-- A text that may be lacking can be assigned to each key of texts. -/
lemma writable_text? {s : Option String} (hkey : IsKey key .text)
    (hs : ∀ t ∈ s, Text.Assignable t) : ∀ v ∈ s.map Value.text, Writable (key, v) := by
  cases s with
  | none => simp
  | some t => exact writable_text hkey (hs t rfl)

/-- A list of words that is not empty can be assigned to each key of texts. -/
lemma writable_words {ws : List String} (hkey : IsKey key .text) (hne : ws ≠ [])
    (hws : ∀ w ∈ ws, Text.Listable w) : ∀ v ∈ some (Value.ofWords ws), Writable (key, v) :=
  writable_text hkey (Text.assignable_intercalate hne hws)

/-- Every value that is not a text can be assigned to each key of its type. -/
lemma writable_of_type {v : Value} (hkey : IsKey key v.type) (htype : v.type ≠ .text) :
    Writable (key, v) :=
  ⟨hkey, Value.assignable_written fun _ heq => absurd (congrArg Value.type heq) htype⟩

/-- A truth value can be assigned to each key of truth values. -/
lemma writable_flag (b : Bool) (hkey : IsKey key .flag) :
    ∀ v ∈ some (Value.flag b), Writable (key, v) := by
  rintro v ⟨⟩
  exact writable_of_type hkey (by simp [Value.type])

/-- A number that may be lacking can be assigned to each key of numbers. -/
lemma writable_count {α : Type} (n : Option α) {f : α → UInt64} (hkey : IsKey key .count) :
    ∀ v ∈ n.map fun a => Value.count (f a), Writable (key, v) := by
  intro v hv
  obtain ⟨a, -, rfl⟩ := Option.map_eq_some_iff.1 hv
  exact writable_of_type hkey (by simp [Value.type])

/-- A timestamp that may be lacking can be assigned to each key of timestamps. -/
lemma writable_time (t : Option Timestamp) (hkey : IsKey key .time) :
    ∀ v ∈ t.map Value.time, Writable (key, v) := by
  intro v hv
  obtain ⟨a, -, rfl⟩ := Option.map_eq_some_iff.1 hv
  exact writable_of_type hkey (by simp [Value.type])

end Fields

end Attribute

open Attribute

/-- The word of a medium can be assigned. -/
lemma Medium.assignable_token (m : Medium) : Text.Assignable m.token := by
  cases m <;> decide +kernel

/-- The fields of an effect can be assigned. -/
lemma Effect.writable_of_mem_table (e : Effect) : ∀ f ∈ e.table, ∀ v ∈ f.2, Writable (f.1, v) := by
  cases e with
  | margin m =>
    simp only [table, List.forall_mem_cons]
    exact ⟨writable_count m.size (by decide +kernel), writable_count m.opacity (by decide +kernel),
      writable_count m.red (by decide +kernel), writable_count m.green (by decide +kernel),
      writable_count m.blue (by decide +kernel), by simp⟩
  | position x y =>
    simp only [table, List.forall_mem_cons]
    exact ⟨writable_count x (by decide +kernel), writable_count y (by decide +kernel), by simp⟩
  | resize height width =>
    simp only [table, List.forall_mem_cons]
    exact ⟨writable_count height (by decide +kernel), writable_count width (by decide +kernel),
      by simp⟩

/-- The fields of a combination with texts that can be written can be assigned. -/
lemma Mix.writable_of_mem_table {m : Mix} (h : m.Expressible) :
    ∀ f ∈ m.table, ∀ v ∈ f.2, Writable (f.1, v) := by
  cases m with
  | concatenate clips =>
    simp only [table, List.forall_mem_cons]
    exact ⟨writable_words (by decide +kernel) h.1 h.2, by simp⟩
  | composite clips size =>
    simp only [table, List.forall_mem_cons]
    exact ⟨writable_words (by decide +kernel) h.1 h.2, writable_count size (by decide +kernel),
      writable_count size (by decide +kernel), by simp⟩
  | setAudio picture sound =>
    simp only [table, List.forall_mem_cons]
    exact ⟨writable_text (by decide +kernel) h.1, writable_text (by decide +kernel) h.2, by simp⟩

namespace Operation

/-- The fields of an operation with texts that can be written can be assigned. -/
lemma writable_of_mem_table {op : Operation} (h : op.Expressible) :
    ∀ f ∈ op.table, ∀ v ∈ f.2, Writable (f.1, v) := by
  cases op with
  | define d =>
    obtain ⟨hname, hsource, hfrom⟩ := h
    simp only [table, List.forall_mem_cons]
    exact ⟨writable_text (by decide +kernel) hname,
      writable_text (by decide +kernel) d.medium.assignable_token,
      writable_text (by decide +kernel) hsource, writable_flag d.hasAudio (by decide +kernel),
      writable_count d.duration (by decide +kernel), writable_text? (by decide +kernel) hfrom,
      by simp⟩
  | effect input output e =>
    obtain ⟨hinput, houtput⟩ := h
    simp only [table, List.forall_mem_cons]
    exact ⟨writable_text (by decide +kernel) hinput, writable_text (by decide +kernel) houtput,
      e.writable_of_mem_table⟩
  | mix output m =>
    obtain ⟨houtput, hm⟩ := h
    simp only [table, List.forall_mem_cons]
    exact ⟨writable_text (by decide +kernel) houtput, Mix.writable_of_mem_table hm⟩
  | subclip s =>
    obtain ⟨hinput, houtput⟩ := h
    simp only [table, List.forall_mem_cons]
    exact ⟨writable_text (by decide +kernel) hinput,
      writable_time (some s.start) (by decide +kernel), writable_time s.stop (by decide +kernel),
      writable_text (by decide +kernel) houtput, by simp⟩
  | deliver d =>
    obtain ⟨hinput, hdestination, hcodec, hpreset, hparams⟩ := h
    simp only [table, List.forall_mem_cons]
    refine ⟨writable_text (by decide +kernel) hinput,
      writable_text (by decide +kernel) hdestination,
      writable_count (some d.fps) (by decide +kernel), writable_text (by decide +kernel) hcodec,
      writable_text (by decide +kernel) hpreset, writable_count d.threads (by decide +kernel), ?_,
      by simp⟩
    split_ifs with hnone
    · simp
    · exact writable_words (by decide +kernel) hnone hparams

/-- What a block assigns for an operation with texts that can be written can be assigned. -/
theorem writable_of_mem_assignments {op : Operation} (h : op.Expressible) :
    ∀ a ∈ op.assignments, Writable a := by
  intro a ha
  obtain ⟨f, hf, hvalue⟩ := List.mem_filterMap.1 ha
  obtain ⟨v, hv, rfl⟩ := Option.map_eq_some_iff.1 hvalue
  exact writable_of_mem_table h f hf v hv

end Operation

end Montage
