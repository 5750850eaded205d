import Montage.Proofs.Filtergraph.Labels
import Montage.Proofs.Filtergraph.Spelling
import Montage.Proofs.Text.Cutting

/-!
# Brackets

Labels stand in brackets in the text of a graph, and nothing else does: what stands between an
opening bracket and the next closing one is the text of a label (`exists_label_of_infix`).  Filters
are spelled without brackets.

So nothing is lost in the text: the text of a chain determines what it reads, the text of its filter
and what it makes (`Chain.text_eq_iff`), and the text of a graph determines this for each of its
chains (`text_eq_iff`).  What is said of the chains of a graph is said of its text.
-/

namespace Montage

namespace Filtergraph

/-! ### Brackets in a text -/

/-- The texts that stand in brackets: after each opening bracket, up to the next closing one. -/
def inBrackets : List Char → List (List Char)
  | [] => []
  | c :: cs => if c = '[' then cs.takeWhile (· != ']') :: inBrackets cs else inBrackets cs

/-- A text without brackets has nothing in brackets. -/
lemma inBrackets_append {cs : List Char} (h : '[' ∉ cs) (rest : List Char) :
    inBrackets (cs ++ rest) = inBrackets rest := by
  induction cs with
  | nil => rfl
  | cons c cs ih =>
    obtain ⟨hc, hcs⟩ := not_or.1 (mt List.mem_cons.2 h)
    rw [List.cons_append, inBrackets, if_neg (Ne.symm hc), ih hcs]

/-- A text is followed by the next closing bracket. -/
lemma takeWhile_closing {w : List Char} (hw : ']' ∉ w) (rest : List Char) :
    ((w ++ [']']) ++ rest).takeWhile (· != ']') = w := by
  rw [List.append_assoc, List.takeWhile_append_of_pos]
  · simp
  · intro c hc
    rw [bne_iff_ne]
    rintro rfl
    exact hw hc

/-- What stands in brackets somewhere in a text is found there. -/
lemma mem_inBrackets_of_infix {w cs : List Char} (hw : ']' ∉ w) (h : '[' :: (w ++ [']']) <:+: cs) :
    w ∈ inBrackets cs := by
  obtain ⟨before, after, rfl⟩ := h
  induction before with
  | nil =>
    rw [List.nil_append, List.cons_append, inBrackets, if_pos rfl,
      takeWhile_closing hw]
    exact List.mem_cons_self
  | cons c before ih =>
    rw [List.cons_append, List.cons_append, inBrackets]
    split
    · exact List.mem_cons_of_mem _ ih
    · exact ih

namespace Label

/-- A label in brackets is found, whatever follows it. -/
lemma inBrackets_bracketed (l : Label) (rest : List Char) :
    inBrackets (l.bracketed.toList ++ rest) = l.text.toList :: inBrackets rest := by
  have hopen : '[' ∉ l.text.toList ++ [']'] := by
    have htext : '[' ∉ l.text.toList := l.spelled_text.notMem (by decide)
    simp [htext]
  have hclose : ']' ∉ l.text.toList := l.spelled_text.notMem (by decide)
  have hlist : l.bracketed.toList ++ rest = '[' :: ((l.text.toList ++ [']']) ++ rest) := by
    simp [bracketed]
  rw [hlist, inBrackets, if_pos rfl, takeWhile_closing hclose, inBrackets_append hopen]

end Label

/-- The labels of a chain, in the order of its text. -/
def Chain.labels (ch : Chain) : List Label := ch.inputs ++ [ch.output]

/-- The labels of a chain are found, whatever follows it. -/
lemma Chain.inBrackets_text (ch : Chain) (rest : List Char) :
    inBrackets (ch.text.toList ++ rest) =
      ch.labels.map (fun l => l.text.toList) ++ inBrackets rest := by
  have hinputs (ls : List Label) (rest : List Char) :
      inBrackets ((String.join (ls.map Label.bracketed)).toList ++ rest) =
        ls.map (fun l => l.text.toList) ++ inBrackets rest := by
    induction ls with
    | nil => rfl
    | cons l ls ih =>
      rw [List.map_cons, String.join_cons, String.toList_append, List.append_assoc,
        l.inBrackets_bracketed, ih]
      rfl
  have hlist : ch.text.toList ++ rest = (String.join (ch.inputs.map Label.bracketed)).toList ++
      (ch.filter.text.toList ++ (ch.output.bracketed.toList ++ rest)) := by
    simp [text]
  rw [hlist, hinputs, inBrackets_append (ch.filter.spelled_text.notMem (by decide)),
    ch.output.inBrackets_bracketed, labels, List.map_append, List.append_assoc]
  rfl

/-- The labels of a chain are found in its text. -/
lemma Chain.inBrackets_alone (ch : Chain) :
    inBrackets ch.text.toList = ch.labels.map fun l => l.text.toList := by
  have halone := ch.inBrackets_text []
  rwa [List.append_nil, inBrackets, List.append_nil] at halone

/-- The text of a graph is the texts of its chains with semicolons between them. -/
lemma toList_text (g : Filtergraph) :
    g.text.toList = [';'].intercalate (g.chains.map fun ch => ch.text.toList) := by
  unfold Filtergraph.text
  rw [String.toList_intercalate, List.map_map]
  rfl

/-- What stands in brackets in the text of a graph are the labels of its chains, in order. -/
theorem inBrackets_text (g : Filtergraph) :
    inBrackets g.text.toList = (g.chains.flatMap Chain.labels).map fun l => l.text.toList := by
  have hchains (cs : List Chain) :
      inBrackets ([';'].intercalate (cs.map fun ch => ch.text.toList)) =
        (cs.flatMap Chain.labels).map fun l => l.text.toList := by
    induction cs with
    | nil => rfl
    | cons ch cs ih =>
      cases cs with
      | nil =>
        simpa using ch.inBrackets_alone
      | cons ch' cs =>
        rw [List.map_cons] at ih
        rw [List.map_cons, List.map_cons, List.intercalate_cons_cons, List.append_assoc,
          ch.inBrackets_text, inBrackets_append (by decide), ih]
        exact List.map_append.symm
  rw [toList_text, hchains]

/-- What stands in brackets somewhere in the text of a graph is the text of a label. -/
theorem exists_label_of_infix {g : Filtergraph} {w : String} (hw : ']' ∉ w.toList)
    (h : ("[" ++ w ++ "]").toList <:+: g.text.toList) :
    ∃ ch ∈ g.chains, ∃ l ∈ ch.labels, l.text = w := by
  have hinfix : '[' :: (w.toList ++ [']']) <:+: g.text.toList := by
    simpa [String.toList_append] using h
  have hmem := mem_inBrackets_of_infix hw hinfix
  rw [inBrackets_text] at hmem
  obtain ⟨l, hl, htext⟩ := List.mem_map.1 hmem
  obtain ⟨ch, hch, hl⟩ := List.mem_flatMap.1 hl
  exact ⟨ch, hch, l, hl, String.toList_inj.1 htext⟩

/-! ### What a text determines -/

/-- Labels are the same when the same texts stand in brackets. -/
lemma labels_injective : Function.Injective (List.map fun l : Label => l.text.toList) :=
  List.map_injective_iff.2 fun _ _ h => Label.text_injective (String.toList_inj.1 h)

/-- What a chain reads, the text of its filter, and what it makes. -/
def Chain.parts (ch : Chain) : List Label × String × Label :=
  (ch.inputs, ch.filter.text, ch.output)

/-- Chains have the same text exactly when they have the same parts. -/
theorem Chain.text_eq_iff {ch ch' : Chain} : ch.text = ch'.text ↔ ch.parts = ch'.parts := by
  obtain ⟨inputs, filter, output⟩ := ch
  obtain ⟨inputs', filter', output'⟩ := ch'
  unfold parts
  constructor
  · intro h
    have hlabels : inputs ++ [output] = inputs' ++ [output'] := by
      have hfound := congrArg (fun s => inBrackets s.toList) h
      rw [inBrackets_alone, inBrackets_alone] at hfound
      exact labels_injective hfound
    obtain ⟨rfl, houtput⟩ := List.append_inj' hlabels rfl
    obtain rfl := List.singleton_inj.1 houtput
    -- the same labels stand before and after the filter, so what is between them is the same
    have hfilter : filter.text = filter'.text :=
      (String.append_right_inj _).1 ((String.append_left_inj _).1 h)
    rw [hfilter]
  · intro h
    obtain ⟨rfl, hrest⟩ := Prod.mk.inj h
    obtain ⟨hfilter, rfl⟩ := Prod.mk.inj hrest
    unfold text
    rw [hfilter]

/-- The chains of a graph are found between the semicolons of its text. -/
lemma splitAll_text {g : Filtergraph} (h : g.chains ≠ []) :
    Text.splitAll (· == ';') g.text.toList = g.chains.map fun ch => ch.text.toList := by
  rw [toList_text]
  refine Text.splitAll_intercalate (p := (· == ';')) (beq_self_eq_true ';')
    (mt List.map_eq_nil_iff.1 h) ?_
  rw [List.forall_mem_map]
  intro ch _ c hc
  rw [beq_eq_false_iff_ne]
  rintro rfl
  exact ch.notMem_text (by decide) (by decide) (by decide) hc

/-- A graph with the text of one without chains has none. -/
lemma chains_eq_nil_of_text_eq {g g' : Filtergraph} (h : g.text = g'.text) (hnil : g.chains = []) :
    g'.chains = [] := by
  have hfound := congrArg (fun s => inBrackets s.toList) h
  rw [inBrackets_text, inBrackets_text, hnil] at hfound
  have hlabels : g'.chains.flatMap Chain.labels = [] := List.map_eq_nil_iff.1 hfound.symm
  refine List.eq_nil_iff_forall_not_mem.2 fun ch hch => ?_
  exact absurd (List.flatMap_eq_nil_iff.1 hlabels ch hch) (by simp [Chain.labels])

/-- Chains have the same texts exactly when they have the same parts, one by one. -/
lemma map_text_eq_iff {cs cs' : List Chain} :
    (cs.map fun ch => ch.text.toList) = (cs'.map fun ch => ch.text.toList) ↔
      cs.map Chain.parts = cs'.map Chain.parts := by
  induction cs generalizing cs' with
  | nil => cases cs' <;> simp
  | cons ch cs ih =>
    cases cs' with
    | nil => simp
    | cons ch' cs' =>
      rw [List.map_cons, List.map_cons, List.map_cons, List.map_cons, List.cons.injEq,
        List.cons.injEq, ih, String.toList_inj, Chain.text_eq_iff]

/-- Graphs have the same text exactly when their chains have the same parts, one by one. -/
theorem text_eq_iff {g g' : Filtergraph} :
    g.text = g'.text ↔ g.chains.map Chain.parts = g'.chains.map Chain.parts := by
  rw [← map_text_eq_iff]
  constructor
  · intro h
    by_cases hnil : g.chains = []
    · rw [hnil, chains_eq_nil_of_text_eq h hnil]
    · have hnil' : g'.chains ≠ [] := fun hnil' => hnil (chains_eq_nil_of_text_eq h.symm hnil')
      rw [← splitAll_text hnil, ← splitAll_text hnil', h]
  · intro h
    rw [← String.toList_inj, toList_text, toList_text, h]

end Filtergraph

end Montage
