import Montage.Proofs.Filtergraph.Wiring

/-!
# Labels

The encoder refuses a graph in which a label is defined twice, read twice or read before it is
defined.  `Disciplined` says of a graph, in the words that the encoder reads, that none of this
happens, and `disciplined_ofClip` that it holds of the graph of every clip.

The invariant behind it is `Ledger`: of the labels that a wiring has dealt with, each is read or
waits exactly once.  Since labels with the same text are equal (`Label.text_injective`), what holds
of labels holds of their texts.
-/

namespace Montage.Filtergraph

/-- The digits of a number end where a character follows that is none. -/
lemma takeWhile_digits (n : Nat) {c : Char} (hc : c.isDigit = false) (rest : List Char) :
    (Nat.toDigits 10 n ++ c :: rest).takeWhile Char.isDigit = Nat.toDigits 10 n := by
  rw [List.takeWhile_append_of_pos
    fun _ hd => Nat.isDigit_of_mem_toDigits (by decide) (by decide) hd]
  simp [hc]

/-- Numbers with the same digits are equal. -/
lemma toDigits_injective : Function.Injective (Nat.toDigits 10) := by
  intro m n h
  rw [← Nat.ofDigitChars_ten_toDigits (n := m), h, Nat.ofDigitChars_ten_toDigits]

/-- Streams with the same letter are the same stream. -/
lemma letter_injective {s s' : Stream} (h : s.letter.toList = s'.letter.toList) : s = s' := by
  cases s <;> cases s' <;> simp_all [Stream.letter]

/-- The digits of a number are not those three letters. -/
lemma toDigits_ne_out (n : Nat) : Nat.toDigits 10 n ≠ ['o', 'u', 't'] := by
  intro h
  have ho : 'o'.isDigit = true :=
    Nat.isDigit_of_mem_toDigits (b := 10) (n := n) (by decide) (by decide) (by simp [h])
  exact absurd ho (by decide)

namespace Label

/-- The text of a pad is a number, a colon and a letter, and the number of the stream. -/
lemma toList_text_pad (i : Nat) (stream : Stream) :
    (pad i stream).text.toList =
      Nat.toDigits 10 i ++ ':' :: (stream.letter.toList ++ [':', '0']) := by
  simp [text]

/-- The text of a link is a letter and a number. -/
lemma toList_text_link (stream : Stream) (n : Nat) :
    (link stream n).text.toList = stream.letter.toList ++ Nat.toDigits 10 n := by
  simp [text]

/-- The text of a label that leaves the graph is a letter and the word `out`. -/
lemma toList_text_final (stream : Stream) :
    (final stream).text.toList = stream.letter.toList ++ ['o', 'u', 't'] := by
  simp [text]

/-- The leading digits of the text of a pad are the number of its input. -/
lemma takeWhile_text_pad (i : Nat) (stream : Stream) :
    (pad i stream).text.toList.takeWhile Char.isDigit = Nat.toDigits 10 i := by
  rw [toList_text_pad]
  exact takeWhile_digits i (by decide) _

/-- The text of a label inside the graph begins with a letter. -/
lemma takeWhile_text_link (stream : Stream) (n : Nat) :
    (link stream n).text.toList.takeWhile Char.isDigit = [] := by
  rw [toList_text_link]
  cases stream <;> rfl

/-- The text of a label that leaves the graph begins with a letter. -/
lemma takeWhile_text_final (stream : Stream) :
    (final stream).text.toList.takeWhile Char.isDigit = [] := by
  rw [toList_text_final]
  cases stream <;> rfl

/-- Labels with the same text are the same label. -/
theorem text_injective : Function.Injective text := by
  intro l l' h
  have hchars : l.text.toList = l'.text.toList := congrArg String.toList h
  have hdigits := congrArg (List.takeWhile Char.isDigit) hchars
  have hletters (s s' : Stream) : s.letter.toList.length = s'.letter.toList.length := by
    cases s <;> cases s' <;> simp [Stream.letter]
  cases l with
  | pad i s =>
    cases l' with
    | pad j s' =>
      rw [takeWhile_text_pad, takeWhile_text_pad] at hdigits
      obtain rfl := toDigits_injective hdigits
      rw [toList_text_pad, toList_text_pad] at hchars
      have htail := List.tail_eq_of_cons_eq (List.append_cancel_left hchars)
      exact congrArg (pad i) (letter_injective (List.append_cancel_right htail))
    | link s' m =>
      rw [takeWhile_text_pad, takeWhile_text_link] at hdigits
      exact absurd hdigits Nat.toDigits_ne_nil
    | final s' =>
      rw [takeWhile_text_pad, takeWhile_text_final] at hdigits
      exact absurd hdigits Nat.toDigits_ne_nil
  | link s n =>
    cases l' with
    | pad j s' =>
      rw [takeWhile_text_link, takeWhile_text_pad] at hdigits
      exact absurd hdigits.symm Nat.toDigits_ne_nil
    | link s' m =>
      rw [toList_text_link, toList_text_link] at hchars
      obtain ⟨hs, hn⟩ := List.append_inj hchars (hletters s s')
      rw [letter_injective hs, toDigits_injective hn]
    | final s' =>
      rw [toList_text_link, toList_text_final] at hchars
      exact absurd (List.append_inj hchars (hletters s s')).2 (toDigits_ne_out n)
  | final s =>
    cases l' with
    | pad j s' =>
      rw [takeWhile_text_final, takeWhile_text_pad] at hdigits
      exact absurd hdigits.symm Nat.toDigits_ne_nil
    | link s' m =>
      rw [toList_text_final, toList_text_link] at hchars
      exact absurd (List.append_inj hchars (hletters s s')).2.symm (toDigits_ne_out m)
    | final s' =>
      rw [toList_text_final, toList_text_final] at hchars
      exact congrArg final (letter_injective (List.append_inj hchars (hletters s s')).1)

end Label

/-! ### The labels of a wiring -/

/-- A label is the pad of one of the first inputs. -/
def Label.IsPadBelow (l : Label) (n : Nat) : Prop := ∃ i stream, l = .pad i stream ∧ i < n

/-- The pads of the first inputs are among those of more inputs. -/
lemma Label.IsPadBelow.mono {l : Label} {m n : Nat} (h : l.IsPadBelow m) (hmn : m ≤ n) :
    l.IsPadBelow n := by
  obtain ⟨i, stream, rfl, hi⟩ := h
  exact ⟨i, stream, rfl, Nat.lt_of_lt_of_le hi hmn⟩

/-- The labels that chains read, in order. -/
def readLabels (cs : List Chain) : List Label := cs.flatMap Chain.inputs

/-- What holds of a wiring that starts from nothing: with its chains, the cursor at its end and the
labels that wait there. -/
structure Ledger (cs : List Chain) (t : Cursor) (q : List Label) : Prop where
  /-- The outputs are links with numbers that have been issued. -/
  issued : ∀ ch ∈ cs, ∃ stream n, ch.output = .link stream n ∧ n < t.labels
  /-- No two chains have the same output. -/
  distinct : (cs.map Chain.output).Nodup
  /-- No label is read twice, or read and still waiting. -/
  once : (readLabels cs ++ q).Nodup
  /-- A label that is read or waits is the pad of an input or the output of a chain. -/
  known : ∀ l ∈ readLabels cs ++ q, l.IsPadBelow t.inputs ∨ l ∈ cs.map Chain.output
  /-- Every output is read or waits. -/
  used : ∀ ch ∈ cs, ch.output ∈ readLabels cs ++ q
  /-- A chain reads pads and outputs of the chains before it. -/
  ordered : ∀ before ch after, cs = before ++ ch :: after →
    ∀ l ∈ ch.inputs, l.IsPadBelow t.inputs ∨ l ∈ before.map Chain.output

namespace Ledger

variable {cs : List Chain} {t : Cursor} {q : List Label}

/-- Nothing has been dealt with yet. -/
lemma nil (t : Cursor) : Ledger [] t [] where
  issued := by simp
  distinct := List.nodup_nil
  once := List.nodup_nil
  known := by simp [readLabels]
  used := by simp
  ordered := by simp

/-- Pads of a new input were not known before. -/
lemma input (h : Ledger cs t q) {pads : List Label}
    (hpads : pads.Sublist [.pad t.inputs .picture, .pad t.inputs .sound]) :
    Ledger cs ⟨t.inputs + 1, t.labels⟩ (q ++ pads) := by
  have hnew : ∀ l ∈ pads, ∃ stream, l = .pad t.inputs stream := by
    intro l hl
    rcases List.mem_pair.1 (hpads.subset hl) with rfl | rfl
    · exact ⟨.picture, rfl⟩
    · exact ⟨.sound, rfl⟩
  have hfresh : ∀ l ∈ readLabels cs ++ q, l ∉ pads := by
    intro l hl hpad
    obtain ⟨stream, rfl⟩ := hnew l hpad
    rcases h.known _ hl with ⟨i, s, heq, hi⟩ | hout
    · cases heq
      exact Nat.lt_irrefl _ hi
    · obtain ⟨ch, hch, heq⟩ := List.mem_map.1 hout
      obtain ⟨s, n, hlink, -⟩ := h.issued ch hch
      cases heq.symm.trans hlink
  constructor
  · exact h.issued
  · exact h.distinct
  · rw [← List.append_assoc]
    refine List.Nodup.append h.once (hpads.nodup (by simp)) ?_
    exact List.disjoint_left.2 hfresh
  · intro l hl
    rw [← List.append_assoc] at hl
    rcases List.mem_append.1 hl with hl | hl
    · exact (h.known l hl).imp_left fun hpad => hpad.mono (Nat.le_succ _)
    · obtain ⟨stream, rfl⟩ := hnew l hl
      exact .inl ⟨t.inputs, stream, rfl, Nat.lt_succ_self _⟩
  · intro ch hch
    rw [← List.append_assoc]
    exact List.mem_append_left _ (h.used ch hch)
  · intro before ch after hcs l hl
    exact (h.ordered before ch after hcs l hl).imp_left fun hpad => hpad.mono (Nat.le_succ _)

/-- The output of a new chain was not known before. -/
lemma chain {reads rest : List Label} (h : Ledger cs t (reads ++ rest)) (filter : Filter)
    (stream : Stream) :
    Ledger (cs ++ [⟨reads, filter, .link stream t.labels⟩]) ⟨t.inputs, t.labels + 1⟩
      (.link stream t.labels :: rest) := by
  have hreads : readLabels (cs ++ [⟨reads, filter, .link stream t.labels⟩]) =
      readLabels cs ++ reads := by simp [readLabels]
  have hall : (readLabels (cs ++ [⟨reads, filter, .link stream t.labels⟩]) ++
      .link stream t.labels :: rest).Perm
      (.link stream t.labels :: (readLabels cs ++ (reads ++ rest))) := by
    rw [hreads, ← List.append_assoc]
    exact List.perm_middle
  have hunissued : Label.link stream t.labels ∉ cs.map Chain.output := by
    intro hout
    obtain ⟨ch, hch, heq⟩ := List.mem_map.1 hout
    obtain ⟨s, n, hlink, hn⟩ := h.issued ch hch
    cases heq.symm.trans hlink
    exact Nat.lt_irrefl _ hn
  have hfresh : Label.link stream t.labels ∉ readLabels cs ++ (reads ++ rest) := by
    intro hl
    rcases h.known _ hl with ⟨i, s, heq, -⟩ | hout
    · cases heq
    · exact hunissued hout
  constructor
  · intro ch hch
    rcases List.mem_append.1 hch with hch | hch
    · obtain ⟨s, n, hlink, hn⟩ := h.issued ch hch
      exact ⟨s, n, hlink, Nat.lt_succ_of_lt hn⟩
    · rw [List.mem_singleton.1 hch]
      exact ⟨stream, t.labels, rfl, Nat.lt_succ_self _⟩
  · rw [List.map_append]
    refine List.Nodup.append h.distinct (List.nodup_singleton _) ?_
    exact List.disjoint_singleton.2 hunissued
  · exact hall.nodup_iff.2 (List.nodup_cons.2 ⟨hfresh, h.once⟩)
  · intro l hl
    rw [List.map_append]
    rcases List.mem_cons.1 (hall.mem_iff.1 hl) with rfl | hl
    · exact .inr (List.mem_append_right _ (List.mem_singleton_self _))
    · exact (h.known l hl).imp_right (List.mem_append_left _)
  · intro ch hch
    refine hall.mem_iff.2 ?_
    rcases List.mem_append.1 hch with hch | hch
    · exact List.mem_cons_of_mem _ (h.used ch hch)
    · rw [List.mem_singleton.1 hch]
      exact List.mem_cons_self
  · intro before ch after hcs l hl
    rcases List.eq_nil_or_concat after with rfl | ⟨after, last, rfl⟩
    · obtain ⟨rfl, hch⟩ := List.append_inj' hcs rfl
      cases hch
      refine h.known l (List.mem_append_right _ (List.mem_append_left _ hl))
    · rw [List.concat_eq_append, ← List.cons_append, ← List.append_assoc] at hcs
      exact h.ordered before ch after (List.append_inj' hcs rfl).1 l hl

/-- The order of the labels that wait is of no account. -/
lemma perm (h : Ledger cs t q) {q' : List Label} (hq : q.Perm q') : Ledger cs t q' := by
  have hall : (readLabels cs ++ q).Perm (readLabels cs ++ q') := hq.append_left _
  exact {
    issued := h.issued
    distinct := h.distinct
    once := hall.nodup_iff.1 h.once
    known := fun l hl => h.known l (hall.mem_iff.2 hl)
    used := fun ch hch => hall.mem_iff.1 (h.used ch hch)
    ordered := h.ordered }

end Ledger

/-- The invariant holds of every wiring that starts from nothing. -/
theorem ledger_of_wiring {cs : List Chain} {t : Cursor} {q : List Label}
    (h : Wiring ⟨0, 0⟩ [] cs t q) : Ledger cs t q := by
  induction h with
  | refl => exact .nil _
  | input _ hpads ih => exact ih.input hpads
  | chain filter stream _ ih => exact ih.chain filter stream
  | perm _ hq ih => exact ih.perm hq

/-! ### The labels of a whole graph -/

/-- The labels of a graph are in order: each is defined once, and read once after that. -/
structure Linear (g : Filtergraph) : Prop where
  /-- No two chains have the same output. -/
  distinct : (g.chains.map Chain.output).Nodup
  /-- No chain has a pad as its output. -/
  noPad : ∀ ch ∈ g.chains, ∀ i stream, ch.output ≠ .pad i stream
  /-- No label is read twice. -/
  once : (readLabels g.chains).Nodup
  /-- A chain reads pads of inputs and outputs of the chains before it. -/
  ordered : ∀ before ch after, g.chains = before ++ ch :: after →
    ∀ l ∈ ch.inputs, l.IsPadBelow g.inputs.length ∨ l ∈ before.map Chain.output
  /-- Every output leaves the graph or is read. -/
  used : ∀ ch ∈ g.chains, (∃ stream, ch.output = .final stream) ∨ ch.output ∈ readLabels g.chains
  /-- No label that leaves the graph is read. -/
  unread : ∀ stream, .final stream ∉ readLabels g.chains

/-- What the exits of a fragment read is what waits there. -/
lemma readLabels_exits (f : Fragment) : readLabels f.exits = f.waiting := by
  unfold readLabels Fragment.exits Fragment.waiting
  cases f.picture <;> cases f.sound <;> rfl

/-- The exits of a fragment give labels that leave the graph, and different ones. -/
lemma output_exits (f : Fragment) :
    (f.exits.map Chain.output).Sublist [.final .picture, .final .sound] := by
  unfold Fragment.exits
  cases f.picture <;> cases f.sound <;> simp [exit]

/-- An exit gives a label that leaves the graph. -/
lemma output_of_mem_exits {f : Fragment} {ch : Chain} (h : ch ∈ f.exits) :
    ∃ stream, ch.output = .final stream := by
  rcases List.mem_pair.1 ((output_exits f).subset (List.mem_map_of_mem h)) with heq | heq
  · exact ⟨.picture, heq⟩
  · exact ⟨.sound, heq⟩

/-- A chain of a graph is the output of a wiring or an exit, and then the whole wiring is before
it. -/
lemma eq_append_of_exits {cs exits before after : List Chain} {ch : Chain}
    (h : cs ++ exits = before ++ ch :: after) :
    (∃ rest, cs = before ++ ch :: rest) ∨ (∃ rest, before = cs ++ rest) ∧ ch ∈ exits := by
  rcases List.append_eq_append_iff.1 h with ⟨rest, rfl, rfl⟩ | ⟨rest, rfl, hrest⟩
  · exact .inr ⟨⟨rest, rfl⟩, by simp⟩
  · cases rest with
    | nil =>
      have hmem : ch ∈ [] ++ exits := hrest ▸ List.mem_cons_self
      exact .inr ⟨⟨[], by simp⟩, hmem⟩
    | cons first rest =>
      cases hrest
      exact .inl ⟨rest, rfl⟩

namespace Ledger

variable {f : Fragment} {t : Cursor}

/-- A label that leaves the graph is neither read nor waits. -/
lemma final_notMem (h : Ledger f.chains t f.waiting) (stream : Stream) :
    Label.final stream ∉ readLabels f.chains ++ f.waiting := by
  intro hl
  rcases h.known _ hl with ⟨i, s, heq, -⟩ | hout
  · cases heq
  · obtain ⟨ch, hch, heq⟩ := List.mem_map.1 hout
    obtain ⟨s, n, hlink, -⟩ := h.issued ch hch
    cases heq.symm.trans hlink

/-- With the exits, no two chains have the same output. -/
lemma nodup_outputs (h : Ledger f.chains t f.waiting) :
    ((f.chains ++ f.exits).map Chain.output).Nodup := by
  rw [List.map_append]
  refine List.Nodup.append h.distinct ((output_exits f).nodup (by simp)) ?_
  refine List.disjoint_left.2 fun l hl hexit => ?_
  obtain ⟨ch, hch, rfl⟩ := List.mem_map.1 hl
  obtain ⟨s, n, hlink, -⟩ := h.issued ch hch
  rcases List.mem_pair.1 ((output_exits f).subset hexit) with heq | heq
  · cases hlink.symm.trans heq
  · cases hlink.symm.trans heq

/-- With the exits, a chain reads pads and outputs of the chains before it. -/
lemma ordered_exits (h : Ledger f.chains t f.waiting) {before after : List Chain} {ch : Chain}
    (hcs : f.chains ++ f.exits = before ++ ch :: after) {l : Label} (hl : l ∈ ch.inputs) :
    l.IsPadBelow t.inputs ∨ l ∈ before.map Chain.output := by
  rcases eq_append_of_exits hcs with ⟨rest, hrest⟩ | ⟨⟨rest, rfl⟩, hexit⟩
  · exact h.ordered before ch rest hrest l hl
  · have hwaits : l ∈ f.waiting := by
      rw [← readLabels_exits]
      exact List.mem_flatMap.2 ⟨ch, hexit, hl⟩
    rw [List.map_append]
    exact (h.known l (List.mem_append_right _ hwaits)).imp_right (List.mem_append_left _)

end Ledger

/-- The labels of the graph of every clip are in order. -/
theorem linear_ofClip {c : Clip} {g : Filtergraph} (h : ofClip c = .ok g) : Linear g := by
  obtain ⟨f, hf, rfl⟩ := ofClip_eq_ok.1 h
  have hledger : Ledger f.chains (f.after ⟨0, 0⟩) f.waiting := ledger_of_wiring (wired_assemble hf)
  have hinputs : (f.after ⟨0, 0⟩).inputs = f.inputs.length := Nat.zero_add _
  have hreads : readLabels (f.chains ++ f.exits) = readLabels f.chains ++ f.waiting := by
    rw [← readLabels_exits]
    exact List.flatMap_append
  constructor
  · exact hledger.nodup_outputs
  · intro ch hch i stream heq
    rcases List.mem_append.1 hch with hch | hch
    · obtain ⟨s, n, hlink, -⟩ := hledger.issued ch hch
      cases hlink.symm.trans heq
    · obtain ⟨s, hfinal⟩ := output_of_mem_exits hch
      cases hfinal.symm.trans heq
  · exact hreads ▸ hledger.once
  · intro before ch after hcs l hl
    exact hinputs ▸ hledger.ordered_exits hcs hl
  · intro ch hch
    rcases List.mem_append.1 hch with hch | hch
    · exact .inr (hreads ▸ hledger.used ch hch)
    · exact .inl (output_of_mem_exits hch)
  · intro stream
    exact hreads ▸ hledger.final_notMem stream

/-! ### The texts of the labels -/

/-- The texts of the labels that the chains of a graph read, in order. -/
def readTexts (g : Filtergraph) : List String := (readLabels g.chains).map Label.text

/-- The labels of a graph are in order, as the encoder reads them. -/
structure Disciplined (g : Filtergraph) : Prop where
  /-- No two chains define the same label. -/
  distinct : (g.chains.map fun ch => ch.output.text).Nodup
  /-- A chain reads pads of inputs that there are, and labels that chains before it define. -/
  defined : ∀ before ch after, g.chains = before ++ ch :: after → ∀ l ∈ ch.inputs,
    (∃ i < g.inputs.length, l.text = toString i ++ ":v:0" ∨ l.text = toString i ++ ":a:0") ∨
      ∃ earlier ∈ before, earlier.output.text = l.text
  /-- No pad is read twice. -/
  padsOnce : ∀ i : Nat, (readTexts g).count (toString i ++ ":v:0") ≤ 1 ∧
    (readTexts g).count (toString i ++ ":a:0") ≤ 1
  /-- A label that a chain defines is read once, unless it leaves the graph. -/
  linksOnce : ∀ ch ∈ g.chains, ch.output.text ≠ "vout" → ch.output.text ≠ "aout" →
    (readTexts g).count ch.output.text = 1
  /-- A label that leaves the graph is not read. -/
  finalsUnread : "vout" ∉ readTexts g ∧ "aout" ∉ readTexts g

/-- The text of the pad of an input. -/
lemma text_pad (i : Nat) (stream : Stream) :
    (Label.pad i stream).text = toString i ++ ":v:0" ∨
      (Label.pad i stream).text = toString i ++ ":a:0" := by
  cases stream with
  | picture => exact .inl (by simp [Label.text, Stream.letter, String.append_assoc])
  | sound => exact .inr (by simp [Label.text, Stream.letter, String.append_assoc])

/-- The labels in the graph of every clip are in order, as the encoder reads them. -/
theorem disciplined_ofClip {c : Clip} {g : Filtergraph} (h : ofClip c = .ok g) :
    Disciplined g := by
  have hlinear : Linear g := linear_ofClip h
  have honce : (readTexts g).Nodup := hlinear.once.map Label.text_injective
  have hmem (l : Label) : l.text ∈ readTexts g ↔ l ∈ readLabels g.chains :=
    List.mem_map_of_injective Label.text_injective
  constructor
  · have htexts : (g.chains.map fun ch => ch.output.text) =
        (g.chains.map Chain.output).map Label.text := by
      rw [List.map_map]
      rfl
    rw [htexts]
    exact hlinear.distinct.map Label.text_injective
  · intro before ch after hcs l hl
    rcases hlinear.ordered before ch after hcs l hl with ⟨i, stream, rfl, hi⟩ | hout
    · exact .inl ⟨i, hi, text_pad i stream⟩
    · obtain ⟨earlier, hearlier, rfl⟩ := List.mem_map.1 hout
      exact .inr ⟨earlier, hearlier, rfl⟩
  · intro i
    exact ⟨List.nodup_iff_count_le_one.1 honce _, List.nodup_iff_count_le_one.1 honce _⟩
  · intro ch hch hvideo haudio
    rcases hlinear.used ch hch with ⟨stream, hfinal⟩ | hread
    · cases stream with
      | picture => exact absurd (congrArg Label.text hfinal) hvideo
      | sound => exact absurd (congrArg Label.text hfinal) haudio
    · exact List.count_eq_one_of_mem honce ((hmem _).2 hread)
  · exact ⟨fun hread => hlinear.unread .picture ((hmem (.final .picture)).1 hread),
      fun hread => hlinear.unread .sound ((hmem (.final .sound)).1 hread)⟩

/-- A video file that plays to its end. -/
def talk : Clip :=
  .source ⟨true, true, some .zero, some ⟨4, 3⟩, .origin⟩ .video ⟨"talk.mp4"⟩ none

/-- A still picture. -/
def card : Clip :=
  .source ⟨true, false, some .zero, some ⟨4, 3⟩, .origin⟩ .image ⟨"card.png"⟩ (some .zero)

/-- The video file and then the picture. -/
def lecture : Clip := .joined ⟨true, true, some .zero, some ⟨4, 3⟩, .origin⟩ [talk, card]

/-- A composition of a sequence with one of its own parts. -/
def encore : Clip := .layered ⟨true, true, some .zero, some ⟨4, 3⟩, .origin⟩ [lecture, talk] ⟨4, 3⟩

/-- The labels are in order where one clip is used twice, and a still picture is given silence. -/
theorem disciplined_encore : ∃ g, ofClip encore = .ok g ∧ Disciplined g :=
  ⟨_, rfl, disciplined_ofClip (c := encore) rfl⟩

end Montage.Filtergraph
