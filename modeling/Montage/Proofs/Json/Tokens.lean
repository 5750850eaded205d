import Mathlib.Data.List.Chain
import Montage.Proofs.Json.Numbers
import Montage.Proofs.Json.Strings

/-!
# Reading tokens

Each spelling of a token is read as that token, whatever follows it (`token?_lexeme`), and a
sequence of tokens with white space around them is read as the sequence (`tokens?_of_spaced`).  The
one token whose end is not in its own bytes is a number: what follows it must not go on with it.
So no number may stand right before another one; `Apart` is the condition that keeps them apart,
and the tokens of a value meet it (`isChain_tokens`).
-/

namespace Montage.Json

/-! ### Atoms -/

/-- No word begins as a number may. -/
lemma word?_eq_none {b : UInt8} (h : BeginsNumber b) (bytes : Bytes) :
    word? (b :: bytes) words = none := by
  have hwords : ∀ w ∈ words, ∃ letter more, w.1 = letter :: more ∧ ¬ BeginsNumber letter := by
    simp only [words, List.forall_mem_cons]
    exact ⟨⟨0x6E, _, rfl, by decide⟩, ⟨0x74, _, rfl, by decide⟩, ⟨0x66, _, rfl, by decide⟩,
      fun w hw => absurd hw List.not_mem_nil⟩
  generalize words = ws at hwords
  induction ws with
  | nil => rfl
  | cons w ws ih =>
    obtain ⟨word, j⟩ := w
    obtain ⟨⟨letter, more, hletter, hno⟩, hws⟩ := List.forall_mem_cons.1 hwords
    have hprefix : word.isPrefixOf (b :: bytes) = false := by
      rw [show word = letter :: more from hletter, List.isPrefixOf,
        beq_eq_false_iff_ne.2 (h.ne hno).symm, Bool.false_and]
    rw [word?, stripWord?, hprefix]
    exact ih hws

/-- The literal of a number is read as that number. -/
lemma atom?_append {t : Bytes} (h : Literal t) {rest : Bytes} (hends : EndsNumber rest) :
    atom? (t ++ rest) = some (.number (asciiText t), rest) := by
  have hnumber := number?_append h hends
  obtain ⟨b, more, rfl, hb⟩ := h.exists_cons
  rw [List.cons_append] at hnumber
  rw [List.cons_append, atom?, word?_eq_none hb]
  simp only [hnumber, Option.map_some]

/-- What is read as a word is one of the words. -/
lemma mem_of_word? {bytes rest : Bytes} {ws : List (Bytes × Json Bytes)} {j : Json Bytes}
    (h : word? bytes ws = some (j, rest)) : ∃ word, (word, j) ∈ ws ∧ word ++ rest = bytes := by
  induction ws with
  | nil => cases h
  | cons w ws ih =>
    rw [word?] at h
    split at h
    · rename_i hstrip
      cases h
      exact ⟨w.1, List.mem_cons_self, append_of_stripWord? hstrip⟩
    · obtain ⟨word, hmem, happend⟩ := ih h
      exact ⟨word, List.mem_cons_of_mem _ hmem, happend⟩

/-- Every word spells its value. -/
lemma lexeme_of_mem_words {word : Bytes} {j : Json Bytes} (h : (word, j) ∈ words) :
    Lexeme (.atom j) word := by
  simp only [words, List.mem_cons, List.not_mem_nil, or_false, Prod.mk.injEq] at h
  obtain ⟨rfl, rfl⟩ | ⟨rfl, rfl⟩ | ⟨rfl, rfl⟩ := h
  · exact .null
  · exact .bool true
  · exact .bool false

/-- What is read as an atom spells it. -/
lemma lexeme_of_atom? {bytes rest : Bytes} {j : Json Bytes} (h : atom? bytes = some (j, rest)) :
    ∃ lexeme, Lexeme (.atom j) lexeme ∧ lexeme ++ rest = bytes := by
  rw [atom?] at h
  split at h
  · rename_i hword
    cases h
    obtain ⟨word, hmem, happend⟩ := mem_of_word? hword
    exact ⟨word, lexeme_of_mem_words hmem, happend⟩
  · obtain ⟨q, hq, heq⟩ := Option.map_eq_some_iff.1 h
    cases heq
    exact ⟨q.1, .number (literal_of_number? hq), (append_of_number? hq).1⟩

/-! ### Tokens -/

/-- What a number may begin with is no mark, no quote and no white space. -/
lemma BeginsNumber.not_mark {b : UInt8} (h : BeginsNumber b) :
    mark? b = none ∧ b ≠ 0x22 ∧ isSpace b = false := by
  have hne : ∀ c ∈ [0x5B, 0x5D, 0x7B, 0x7D, 0x2C, 0x3A, 0x22, 0x20, 0x09, 0x0A, 0x0D], b ≠ c :=
    have hno : ∀ c ∈ [0x5B, 0x5D, 0x7B, 0x7D, 0x2C, 0x3A, 0x22, 0x20, 0x09, 0x0A, 0x0D],
      ¬ BeginsNumber c := by decide +kernel
    fun c hc => h.ne (hno c hc)
  simp only [List.forall_mem_cons] at hne
  simp [mark?, isSpace, hne]

/-- A spelling of a token is read as that token, unless what follows goes on with a number. -/
theorem token?_lexeme {t : Token} {lexeme : Bytes} (h : Lexeme t lexeme) {rest : Bytes}
    (hends : ∀ j, t = .atom j → EndsNumber rest) : token? (lexeme ++ rest) = some (t, rest) := by
  cases h with
  | openArray => rfl
  | closeArray => rfl
  | openObject => rfl
  | closeObject => rfl
  | comma => rfl
  | colon => rfl
  | null => rfl
  | bool b =>
    cases b with
    | true => rfl
    | false => rfl
  | number hliteral =>
    have hatom := atom?_append hliteral (hends _ rfl)
    obtain ⟨b, more, rfl, hb⟩ := hliteral.exists_cons
    obtain ⟨hmark, hquote, -⟩ := hb.not_mark
    rw [List.cons_append] at hatom
    simp only [List.cons_append, token?, hmark, if_neg hquote, hatom, Option.map_some]
  | @string s t hspells =>
    obtain ⟨ps, hpieces, hjoin⟩ := exists_pieces?_iff.2 ⟨t, rfl (a := t ++ 0x22 :: rest), hspells⟩
    have hmark : mark? 0x22 = none := rfl
    simp only [List.cons_append, List.append_assoc, List.nil_append, token?, hmark, if_pos, hpieces,
      Option.map_some, hjoin]

/-- A mark spells its token. -/
lemma lexeme_of_mark? {b : UInt8} {t : Token} (h : mark? b = some t) : Lexeme t [b] := by
  unfold mark? at h
  split_ifs at h with hb hb hb hb hb hb
  all_goals
    cases h
    rw [hb]
    constructor

/-- What is read as a token spells it. -/
theorem lexeme_of_token? {bytes rest : Bytes} {t : Token} (h : token? bytes = some (t, rest)) :
    ∃ lexeme, Lexeme t lexeme ∧ lexeme ++ rest = bytes := by
  cases bytes with
  | nil => cases h
  | cons b bytes =>
    rw [token?] at h
    split at h
    · rename_i hmark
      cases h
      exact ⟨[b], lexeme_of_mark? hmark, rfl⟩
    · split at h
      · rename_i hquote
        obtain ⟨⟨ps, more⟩, hpieces, heq⟩ := Option.map_eq_some_iff.1 h
        cases heq
        obtain ⟨t, hbytes, hspells⟩ := exists_pieces?_iff.1 ⟨ps, hpieces, rfl⟩
        refine ⟨_, .string hspells, ?_⟩
        rw [hquote, hbytes]
        simp
      · obtain ⟨q, hq, heq⟩ := Option.map_eq_some_iff.1 h
        cases heq
        exact lexeme_of_atom? hq

/-- No spelling of a token begins with white space. -/
lemma Lexeme.exists_cons {t : Token} {lexeme : Bytes} (h : Lexeme t lexeme) :
    ∃ b more, lexeme = b :: more ∧ isSpace b = false := by
  cases h with
  | number hliteral =>
    obtain ⟨b, more, rfl, hb⟩ := hliteral.exists_cons
    exact ⟨b, more, rfl, hb.not_mark.2.2⟩
  | bool b =>
    cases b with
    | true => exact ⟨_, _, rfl, rfl⟩
    | false => exact ⟨_, _, rfl, rfl⟩
  | _ => exact ⟨_, _, rfl, rfl⟩

/-- A token that is no atom ends the number before it. -/
lemma Lexeme.endsNumber {t : Token} {lexeme : Bytes} (h : Lexeme t lexeme)
    (hatom : ∀ j, t ≠ .atom j) (rest : Bytes) : EndsNumber (lexeme ++ rest) := by
  intro b hb
  cases h with
  | null => exact absurd rfl (hatom _)
  | bool => exact absurd rfl (hatom _)
  | number => exact absurd rfl (hatom _)
  | _ =>
    cases hb
    decide

/-! ### Sequences of tokens -/

/-- White space at the beginning is skipped. -/
lemma skipSpace_append {ws : Bytes} (h : Spaces ws) (rest : Bytes) :
    skipSpace (ws ++ rest) = skipSpace rest :=
  List.dropWhile_append_of_pos h

/-- White space has no tokens. -/
lemma tokens?_of_spaces {ws : Bytes} (h : Spaces ws) : tokens? ws = some [] := by
  have hskip : skipSpace ws = [] := by
    rw [← List.append_nil ws, skipSpace_append h]
    rfl
  rw [tokens?, if_pos hskip]

/-- The first token stands before those of the rest. -/
lemma tokens?_cons {ws bytes rest : Bytes} {t : Token} (hws : Spaces ws)
    (hskip : skipSpace bytes = bytes) (htoken : token? bytes = some (t, rest)) :
    tokens? (ws ++ bytes) = (tokens? rest).map (t :: ·) := by
  have hstart : skipSpace (ws ++ bytes) = bytes := by rw [skipSpace_append hws, hskip]
  have hne : bytes ≠ [] := by
    rintro rfl
    cases htoken
  rw [tokens?, if_neg (by rwa [hstart])]
  split
  · rename_i hfound
    rw [hstart, htoken] at hfound
    cases hfound
  · rename_i hfound
    rw [hstart, htoken] at hfound
    cases hfound
    rfl

/-- Two tokens that are not both atoms. -/
def Apart (t t' : Token) : Prop := ∀ j j', t = .atom j → t' ≠ .atom j'

/-- White space ends the number before it. -/
lemma Spaces.endsNumber_append {ws rest : Bytes} (h : Spaces ws) (hrest : EndsNumber rest) :
    EndsNumber (ws ++ rest) := by
  cases ws with
  | nil => exact hrest
  | cons b ws =>
    have hb := h b List.mem_cons_self
    simp only [isSpace, Bool.or_eq_true, decide_eq_true_eq] at hb
    rintro c hc
    cases hc
    rcases hb with ((rfl | rfl) | rfl) | rfl <;> decide

/-- A sequence of tokens ends the number before it, if it does not begin with an atom. -/
lemma Spaced.endsNumber {ts : List Token} {text : Bytes} (h : Spaced ts text)
    (hfirst : ∀ t ∈ ts.head?, ∀ j, t ≠ .atom j) : EndsNumber text := by
  cases h with
  | nil hws =>
    rw [← List.append_nil text]
    exact hws.endsNumber_append fun b hb => by cases hb
  | cons hws hlexeme _ => exact hws.endsNumber_append (hlexeme.endsNumber (hfirst _ rfl) _)

/-- The tokens of a sequence are read in order, when no atoms stand side by side. -/
theorem tokens?_of_spaced {ts : List Token} {text : Bytes} (h : Spaced ts text)
    (hapart : ts.IsChain Apart) : tokens? text = some ts := by
  induction h with
  | nil hws => exact tokens?_of_spaces hws
  | @cons ws lexeme rest t ts hws hlexeme hspaced ih =>
    obtain ⟨hnext, htail⟩ := List.isChain_cons.1 hapart
    have htoken : token? (lexeme ++ rest) = some (t, rest) :=
      token?_lexeme hlexeme fun j hj =>
        hspaced.endsNumber fun t' ht' j' => hnext t' ht' j j' hj
    have hskip : skipSpace (lexeme ++ rest) = lexeme ++ rest := by
      obtain ⟨b, more, rfl, hb⟩ := hlexeme.exists_cons
      exact List.dropWhile_cons_of_neg (by simp [hb])
    rw [tokens?_cons hws hskip htoken, ih htail, Option.map_some]

/-- A text begins with the white space that is skipped. -/
lemma exists_spaces (text : Bytes) : ∃ ws, Spaces ws ∧ text = ws ++ skipSpace text :=
  ⟨text.takeWhile isSpace, List.all_eq_true.1 List.all_takeWhile,
    List.takeWhile_append_dropWhile.symm⟩

/-- What is read as a sequence of tokens spells it. -/
theorem spaced_of_tokens? {text : Bytes} {ts : List Token} (h : tokens? text = some ts) :
    Spaced ts text := by
  fun_induction tokens? text generalizing ts with
  | case1 text hskip =>
    obtain ⟨ws, hws, htext⟩ := exists_spaces text
    cases h
    rw [htext, hskip, List.append_nil]
    exact .nil hws
  | case2 => cases h
  | case3 text hskip t rest htoken hlength ih =>
    obtain ⟨ws, hws, htext⟩ := exists_spaces text
    obtain ⟨ts', hts', rfl⟩ := Option.map_eq_some_iff.1 h
    obtain ⟨lexeme, hlexeme, happend⟩ := lexeme_of_token? htoken
    rw [htext, ← happend]
    exact .cons hws hlexeme (ih hts')

/-! ### Tokens of values -/

section Chains

variable {t : Token} {ts ts' : List Token}

/-- A token that is no atom may stand before any tokens. -/
lemma isChain_cons_of_not_atom (ht : ∀ j, t ≠ .atom j) (hts : ts.IsChain Apart) :
    (t :: ts).IsChain Apart :=
  hts.cons fun _ _ j _ heq => absurd heq (ht j)

/-- A token that is no atom may stand after any tokens. -/
lemma isChain_append_of_not_atom (hts : ts.IsChain Apart) (hts' : ts'.IsChain Apart)
    (hfirst : ∀ t ∈ ts'.head?, ∀ j, t ≠ .atom j) : (ts ++ ts').IsChain Apart :=
  hts.append hts' fun _ _ t ht _ j' _ => hfirst t ht j'

/-- A name and a colon may stand before the tokens of a value. -/
lemma isChain_field (key : Bytes) (hts : ts.IsChain Apart) :
    (.string key :: .colon :: ts).IsChain Apart :=
  isChain_cons_of_not_atom (by simp) (isChain_cons_of_not_atom (by simp) hts)

/-- The tokens after an item go on with a comma or a closing bracket, and so on. -/
lemma isChain_moreItems {js : List (Json Bytes)} (h : ∀ j ∈ js, (tokens j).IsChain Apart) :
    (moreItems js).IsChain Apart ∧ ∀ t ∈ (moreItems js).head?, ∀ j, t ≠ .atom j := by
  induction js with
  | nil => simp [moreItems]
  | cons j js ih =>
    obtain ⟨hj, hjs⟩ := List.forall_mem_cons.1 h
    obtain ⟨hmore, hfirst⟩ := ih hjs
    rw [moreItems]
    exact ⟨isChain_cons_of_not_atom (by simp) (isChain_append_of_not_atom hj hmore hfirst), by simp⟩

/-- The tokens after a field go on with a comma or a closing bracket, and so on. -/
lemma isChain_moreFields {fields : List (Bytes × Json Bytes)}
    (h : ∀ f ∈ fields, (tokens f.2).IsChain Apart) :
    (moreFields fields).IsChain Apart ∧ ∀ t ∈ (moreFields fields).head?, ∀ j, t ≠ .atom j := by
  induction fields with
  | nil => simp [moreFields]
  | cons f fields ih =>
    obtain ⟨hf, hfields⟩ := List.forall_mem_cons.1 h
    obtain ⟨hmore, hfirst⟩ := ih hfields
    have hfield := isChain_field f.1 (isChain_append_of_not_atom hf hmore hfirst)
    rw [moreFields]
    exact ⟨isChain_cons_of_not_atom (by simp) hfield, by simp⟩

/-- No atoms of a value stand side by side. -/
theorem isChain_tokens (j : Json Bytes) : (tokens j).IsChain Apart := by
  induction j using Json.inductionOn with
  | null => exact .singleton _
  | bool => exact .singleton _
  | number => exact .singleton _
  | string => exact .singleton _
  | array items ih =>
    cases items with
    | nil => exact isChain_cons_of_not_atom (by simp) (.singleton _)
    | cons j js =>
      obtain ⟨hj, hjs⟩ := List.forall_mem_cons.1 ih
      obtain ⟨hmore, hfirst⟩ := isChain_moreItems hjs
      rw [tokens]
      exact isChain_cons_of_not_atom (by simp) (isChain_append_of_not_atom hj hmore hfirst)
  | object fields ih =>
    cases fields with
    | nil => exact isChain_cons_of_not_atom (by simp) (.singleton _)
    | cons f fields =>
      obtain ⟨hf, hfields⟩ := List.forall_mem_cons.1 ih
      obtain ⟨hmore, hfirst⟩ := isChain_moreFields hfields
      have hfield := isChain_field f.1 (isChain_append_of_not_atom hf hmore hfirst)
      rw [tokens]
      exact isChain_cons_of_not_atom (by simp) hfield

end Chains

end Montage.Json
