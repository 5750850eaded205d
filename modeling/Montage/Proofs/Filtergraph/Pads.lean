import Montage.Proofs.Filtergraph.Brackets
import Montage.Proofs.Filtergraph.Visits

/-!
# Pads

A pad is a stream of an input file, and a graph that reads a pad relies on the file to have this
stream.  A walk asks a leaf only for streams that the leaf has (`draws_assemble`), and whatever is
done to a clip afterwards adds no pads.  So the inputs of a graph are leaves of the clip, and its
text only names streams that these have (`exists_leaves_of_ofClip`).
-/

namespace Montage

/-- The leaf has a stream of the kind. -/
def Leaf.Has (l : Leaf) : Stream → Prop
  | .picture => l.traits.hasPicture = true
  | .sound => l.traits.hasSound = true

namespace Filtergraph

/-! ### Pads of labels -/

/-- How a pad is written. -/
lemma bracketed_pad (i : Nat) (stream : Stream) : (Label.pad i stream).bracketed =
    "[" ++ toString i ++ match stream with
      | .picture => ":v:0]"
      | .sound => ":a:0]" := by
  have hrest : ":" ++ (stream.letter ++ (":0" ++ "]")) = match stream with
      | .picture => ":v:0]"
      | .sound => ":a:0]" := by
    cases stream <;> decide
  rw [← hrest]
  unfold Label.bracketed Label.text
  simp only [String.append_assoc]

/-- The stream of an input is one that a leaf has, where the inputs of the leaves are numbered on
from the given number. -/
def Offered (first : Nat) (ls : List Leaf) (i : Nat) (stream : Stream) : Prop :=
  ∃ k l, i = first + k ∧ ls[k]? = some l ∧ l.Has stream

namespace Offered

variable {first i : Nat} {ls ms : List Leaf} {stream : Stream}

/-- Leaves offer what they do with others after them. -/
lemma left (h : Offered first ls i stream) : Offered first (ls ++ ms) i stream := by
  obtain ⟨k, l, hi, hl, hhas⟩ := h
  obtain ⟨hlt, -⟩ := List.getElem?_eq_some_iff.1 hl
  exact ⟨k, l, hi, (List.getElem?_append_left hlt).trans hl, hhas⟩

/-- Leaves offer what they do after others, whose inputs a fragment has opened. -/
lemma after {f : Fragment} {start : Cursor} (hf : f.inputs = ls.map Leaf.input)
    (h : Offered (f.after start).inputs ms i stream) :
    Offered start.inputs (ls ++ ms) i stream := by
  obtain ⟨k, l, hi, hl, hhas⟩ := h
  have hcount : (f.after start).inputs = start.inputs + ls.length := by
    unfold Fragment.after
    rw [hf, List.length_map]
  refine ⟨ls.length + k, l, by rw [hi, hcount, Nat.add_assoc], ?_, hhas⟩
  rw [List.getElem?_append_right (Nat.le_add_right _ _), Nat.add_sub_cancel_left, hl]

end Offered

variable {P Q : Nat → Stream → Prop}

/-- All pads among the labels are of a certain kind. -/
def PadsIn (P : Nat → Stream → Prop) (ls : List Label) : Prop :=
  ∀ i stream, .pad i stream ∈ ls → P i stream

/-- Without labels there are no pads. -/
lemma padsIn_nil : PadsIn P [] := fun _ _ h => nomatch h

/-- A link is no pad. -/
lemma padsIn_link (stream : Stream) (n : Nat) : PadsIn P [.link stream n] := by
  intro i stream' h
  cases List.mem_singleton.1 h

/-- The pads of labels after one another. -/
lemma padsIn_append {ls ms : List Label} : PadsIn P (ls ++ ms) ↔ PadsIn P ls ∧ PadsIn P ms := by
  constructor
  · intro h
    exact ⟨fun i s hl => h i s (List.mem_append_left _ hl),
      fun i s hm => h i s (List.mem_append_right _ hm)⟩
  · rintro ⟨hls, hms⟩ i s h
    exact (List.mem_append.1 h).elim (hls i s) (hms i s)

/-- Pads of one kind are of another one. -/
lemma PadsIn.mono {ls : List Label} (h : PadsIn P ls) (hPQ : ∀ i s, P i s → Q i s) : PadsIn Q ls :=
  fun i s hl => hPQ i s (h i s hl)

/-- The pads that chains read, of chains after one another. -/
lemma padsIn_readLabels_append {cs cs' : List Chain} (h : PadsIn P (readLabels cs))
    (h' : PadsIn P (readLabels cs')) : PadsIn P (readLabels (cs ++ cs')) := by
  unfold readLabels
  rw [List.flatMap_append]
  exact padsIn_append.2 ⟨h, h'⟩

/-- A further chain reads pads of the same kind. -/
lemma padsIn_readLabels_concat {cs : List Chain} (h : PadsIn P (readLabels cs)) {ch : Chain}
    (hreads : PadsIn P ch.inputs) : PadsIn P (readLabels (cs ++ [ch])) := by
  refine padsIn_readLabels_append h ?_
  unfold readLabels
  rwa [List.flatMap_singleton]

/-! ### Steps of the walk -/

/-- The pads that a fragment reads, or leaves to be read, are of a certain kind. -/
structure Fragment.Draws (f : Fragment) (P : Nat → Stream → Prop) : Prop where
  chains : PadsIn P (readLabels f.chains)
  picture : PadsIn P f.picture.toList
  sound : PadsIn P f.sound.toList

/-- The pads that a bundle reads, or leaves to be read, are of a certain kind. -/
structure Bundle.Draws (b : Bundle) (P : Nat → Stream → Prop) : Prop where
  chains : PadsIn P (readLabels b.chains)
  pictures : PadsIn P b.pictures
  sounds : PadsIn P b.sounds

section Steps

variable {start : Cursor} {d : Demand} {f g : Fragment} {filter : Filter} {reads : List Label}

namespace Fragment

/-- A fragment that adds nothing reads no pads. -/
lemma draws_empty : Fragment.empty.Draws P := ⟨padsIn_nil, padsIn_nil, padsIn_nil⟩

/-- Pads of one kind are of another one. -/
lemma Draws.mono (h : f.Draws P) (hPQ : ∀ i s, P i s → Q i s) : f.Draws Q :=
  ⟨h.chains.mono hPQ, h.picture.mono hPQ, h.sound.mono hPQ⟩

/-- A picture that is made of streams draws on these. -/
lemma Draws.withPicture (h : f.Draws P) (hreads : PadsIn P reads) :
    (f.withPicture start reads filter).Draws P :=
  ⟨padsIn_readLabels_concat h.chains hreads, padsIn_link _ _, h.sound⟩

/-- A sound that is made of streams draws on these. -/
lemma Draws.withSound (h : f.Draws P) (hreads : PadsIn P reads) :
    (f.withSound start reads filter).Draws P :=
  ⟨padsIn_readLabels_concat h.chains hreads, h.picture, padsIn_link _ _⟩

/-- Passing a picture through a filter draws on nothing else. -/
lemma Draws.viaPicture (h : f.Draws P) : (f.viaPicture start filter).Draws P := by
  have hpicture := h.picture
  unfold Fragment.viaPicture
  cases hp : f.picture with
  | none => exact h
  | some label =>
    rw [hp] at hpicture
    exact h.withPicture hpicture

/-- Passing a sound through a filter draws on nothing else. -/
lemma Draws.viaSound (h : f.Draws P) : (f.viaSound start filter).Draws P := by
  have hsound := h.sound
  unfold Fragment.viaSound
  cases hs : f.sound with
  | none => exact h
  | some label =>
    rw [hs] at hsound
    exact h.withSound hsound

end Fragment

/-- A source that has the streams that are demanded draws on these. -/
lemma draws_sourceFragment (t : Traits) (medium : Medium) (path : Path) (limit : Option Seconds) :
    (sourceFragment (d.within t) medium path limit start).Draws
      (Offered start.inputs [⟨t, medium, path, limit⟩]) := by
  refine ⟨padsIn_nil, fun i s h => ?_, fun i s h => ?_⟩
  · obtain ⟨hd, heq⟩ := Option.ite_some_none_eq_some.1 (Option.mem_toList.1 h)
    cases heq
    exact ⟨0, _, rfl, rfl, (Bool.and_eq_true_iff.1 hd).2⟩
  · obtain ⟨hd, heq⟩ := Option.ite_some_none_eq_some.1 (Option.mem_toList.1 h)
    cases heq
    exact ⟨0, _, rfl, rfl, (Bool.and_eq_true_iff.1 hd).2⟩

/-- Scaling draws on nothing else. -/
lemma draws_scaleFragment (h : f.Draws P) (width height : Option UInt32) :
    (scaleFragment width height start f).Draws P := by
  unfold scaleFragment
  split
  · exact h
  · exact h.viaPicture

/-- Ending a sound early draws on nothing else. -/
lemma draws_limitSound (h : f.Draws P) (duration : Option Seconds) :
    (limitSound duration start f).Draws P := by
  unfold limitSound
  cases duration with
  | none => exact h
  | some duration => exact h.viaSound

/-- Silence draws on nothing else. -/
lemma draws_fillSilence {duration : Option Seconds} (h : f.Draws P)
    (hg : fillSilence d duration start f = .ok g) : g.Draws P := by
  rcases fillSilence_eq_ok.1 hg with ⟨-, -, s, -, rfl⟩ | ⟨-, rfl⟩
  · exact h.withSound padsIn_nil
  · exact h

/-- A canvas draws on nothing. -/
lemma draws_canvasFragment {size : Canvas} {duration : Option Seconds}
    (h : canvasFragment d size duration start = .ok f) : f.Draws P := by
  rcases canvasFragment_eq_ok.1 h with ⟨-, s, -, rfl⟩ | ⟨-, rfl⟩
  · exact Fragment.draws_empty.withPicture padsIn_nil
  · exact Fragment.draws_empty

/-- A layer on a picture draws on nothing but what both do. -/
lemma draws_overlayFragment {below : Option Label} (h : f.Draws P) (hbelow : PadsIn P below.toList)
    (offset : Placement) : (overlayFragment below offset start f).Draws P := by
  have hpicture := h.picture
  unfold overlayFragment
  split
  · rename_i below picture hp
    rw [hp] at hpicture
    exact h.withPicture (padsIn_append.2 ⟨hbelow, hpicture⟩)
  · exact ⟨h.chains, hbelow, h.sound⟩

/-- A layer on a picture that is no pad is none. -/
lemma picture_overlayFragment {below : Option Label} (hbelow : PadsIn P below.toList)
    (offset : Placement) : PadsIn P (overlayFragment below offset start f).picture.toList := by
  unfold overlayFragment
  split
  · exact padsIn_link _ _
  · exact hbelow

/-- Playing sounds together draws on nothing else. -/
lemma draws_mixSounds {sounds : List Label} (h : f.Draws P) (hsounds : PadsIn P sounds) :
    (mixSounds d start sounds f).Draws P := by
  unfold mixSounds
  split
  · split
    · exact ⟨h.chains, h.picture, hsounds⟩
    · exact h.withSound hsounds
  · exact h

/-- Joining streams draws on nothing else. -/
lemma draws_joinBundle {b : Bundle} (h : b.Draws P) : (joinBundle d start b).Draws P := by
  have hbundle : b.toFragment.Draws P := ⟨h.chains, padsIn_nil, padsIn_nil⟩
  unfold joinBundle
  dsimp only
  generalize hf : (if d.picture = true then b.toFragment.withPicture start b.pictures
    (.concat b.pictures.length .picture) else b.toFragment) = f
  have hpicture : f.Draws P := by
    split at hf
    · exact hf ▸ hbundle.withPicture h.pictures
    · exact hf ▸ hbundle
  split
  · exact hpicture.withSound h.sounds
  · exact hpicture

end Steps

/-! ### The walk -/

section Walk

variable {start : Cursor} {d : Demand} {f : Fragment} {cs : List Clip}

/-- Parts draw on streams that their leaves have. -/
lemma draws_assembleParts {b : Bundle}
    (hcs : ∀ c ∈ cs, ∀ {start f}, assemble c d start = .ok f →
      f.Draws (Offered start.inputs (visitedLeaves (visits c d))))
    (h : assembleParts cs d start = .ok b) :
    b.Draws (Offered start.inputs (visitedLeaves (visitsAll cs d))) := by
  induction cs generalizing start b with
  | nil =>
    rw [assembleParts_nil_eq_ok.1 h]
    exact ⟨padsIn_nil, padsIn_nil, padsIn_nil⟩
  | cons c cs ih =>
    obtain ⟨g, f, rest, hg, hf, hrest, rfl⟩ := assembleParts_cons_eq_ok.1 h
    obtain ⟨hc, hcs⟩ := List.forall_mem_cons.1 hcs
    have hinputs : f.inputs = (visitedLeaves (visits c d)).map Leaf.input :=
      (inputs_fillSilence hf).trans (inputs_assemble hg)
    rw [visitsAll, visitedLeaves_append]
    have hfirst := draws_fillSilence (hc hg) hf
    have hothers := ih hcs hrest
    refine ⟨padsIn_readLabels_append ?_ ?_, padsIn_append.2 ⟨?_, ?_⟩, padsIn_append.2 ⟨?_, ?_⟩⟩
    · exact hfirst.chains.mono fun _ _ => .left
    · exact hothers.chains.mono fun _ _ => .after hinputs
    · exact hfirst.picture.mono fun _ _ => .left
    · exact hothers.pictures.mono fun _ _ => .after hinputs
    · exact hfirst.sound.mono fun _ _ => .left
    · exact hothers.sounds.mono fun _ _ => .after hinputs

/-- Layers on a picture that is no pad draw on streams that their leaves have. -/
lemma draws_assembleLayers {below : Option Label} {stack : Fragment} {sounds : List Label}
    (hcs : ∀ c ∈ cs, ∀ {start f}, assemble c d start = .ok f →
      f.Draws (Offered start.inputs (visitedLeaves (visits c d))))
    (hbelow : PadsIn (fun _ _ => False) below.toList)
    (h : assembleLayers cs d below start = .ok (stack, sounds)) :
    PadsIn (Offered start.inputs (visitedLeaves (visitsAll cs d))) (readLabels stack.chains) ∧
      PadsIn (fun _ _ => False) stack.picture.toList ∧
      PadsIn (Offered start.inputs (visitedLeaves (visitsAll cs d))) sounds := by
  induction cs generalizing start below stack sounds with
  | nil =>
    obtain ⟨rfl, rfl⟩ := assembleLayers_nil_eq_ok.1 h
    exact ⟨padsIn_nil, hbelow, padsIn_nil⟩
  | cons c cs ih =>
    obtain ⟨g, f, upper, others, hg, rfl, hupper, rfl, rfl⟩ := assembleLayers_cons_eq_ok.1 h
    obtain ⟨hc, hcs⟩ := List.forall_mem_cons.1 hcs
    have hinputs : (overlayFragment below c.offset start g).inputs =
        (visitedLeaves (visits c d)).map Leaf.input :=
      (inputs_overlayFragment below c.offset start g).trans (inputs_assemble hg)
    have hfirst : (overlayFragment below c.offset start g).Draws
        (Offered start.inputs (visitedLeaves (visits c d))) :=
      draws_overlayFragment (hc hg) (hbelow.mono fun _ _ => False.elim) c.offset
    obtain ⟨hchains, hpicture, hothers⟩ :=
      ih hcs (picture_overlayFragment hbelow c.offset) hupper
    rw [visitsAll, visitedLeaves_append]
    refine ⟨padsIn_readLabels_append ?_ ?_, hpicture, padsIn_append.2 ⟨?_, ?_⟩⟩
    · exact hfirst.chains.mono fun _ _ => .left
    · exact hchains.mono fun _ _ => .after hinputs
    · exact hfirst.sound.mono fun _ _ => .left
    · exact hothers.mono fun _ _ => .after hinputs

/-- A walk that only takes place for a demand draws on nothing without it. -/
lemma draws_assembleIf {demanded : Bool} {c : Clip}
    (hc : ∀ {start f}, assemble c d start = .ok f →
      f.Draws (Offered start.inputs (visitedLeaves (visits c d))))
    (h : assembleIf demanded c d start = .ok f) :
    f.Draws (Offered start.inputs (visitedLeaves (if demanded then visits c d else []))) := by
  rcases assembleIf_eq_ok.1 h with ⟨rfl, h⟩ | ⟨rfl, rfl⟩
  · exact hc h
  · exact Fragment.draws_empty

/-- A walk draws on streams that the leaves that it visits have. -/
theorem draws_assemble {c : Clip} (h : assemble c d start = .ok f) :
    f.Draws (Offered start.inputs (visitedLeaves (visits c d))) := by
  induction c generalizing d start f with
  | source t medium path limit =>
    rw [assemble_source_eq_ok.1 h]
    exact draws_sourceFragment t medium path limit
  | resized t input width height ih =>
    obtain ⟨g, hg, rfl⟩ := assemble_resized_eq_ok.1 h
    rw [visits, visitedLeaves_concat _ rfl]
    exact draws_scaleFragment (ih hg) width height
  | framed t input margin color opacity ih =>
    obtain ⟨g, hg, rfl⟩ := assemble_framed_eq_ok.1 h
    rw [visits, visitedLeaves_concat _ rfl]
    exact (ih hg).viaPicture
  | placed t input ih =>
    rw [assemble_placed] at h
    rw [visits, visitedLeaves_concat _ rfl]
    exact ih h
  | joined t parts ih =>
    obtain ⟨b, hb, rfl⟩ := assemble_joined_eq_ok.1 h
    rw [visits, visitedLeaves_concat _ rfl]
    exact draws_joinBundle (draws_assembleParts (fun c hc => ih c hc) hb)
  | layered t layers size ih =>
    obtain ⟨canvas, stack, sounds, hcanvas, hlayers, rfl⟩ := assemble_layered_eq_ok.1 h
    rw [visits, visitedLeaves_concat _ rfl]
    have hbottom : canvas.Draws fun _ _ => False := draws_canvasFragment hcanvas
    have hcount : (canvas.after start).inputs = start.inputs := by
      unfold Fragment.after
      rw [inputs_canvasFragment hcanvas, List.length_nil, Nat.add_zero]
    obtain ⟨hchains, hpicture, hsounds⟩ :=
      draws_assembleLayers (fun c hc => ih c hc) hbottom.picture hlayers
    rw [hcount] at hchains hsounds
    refine draws_mixSounds ⟨?_, ?_, padsIn_nil⟩ hsounds
    · exact padsIn_readLabels_append (hbottom.chains.mono fun _ _ => False.elim) hchains
    · exact hpicture.mono fun _ _ => False.elim
  | scored t picture sound ihp ihs =>
    obtain ⟨p, s, hp, hs, rfl⟩ := assemble_scored_eq_ok.1 h
    rw [visits, visitedLeaves_concat _ rfl, visitedLeaves_append]
    have hinputs := inputs_assembleIf (fun hc => inputs_assemble hc) hp
    have hseen := draws_assembleIf (fun hc => ihp hc) hp
    have hheard : (limitSound picture.duration (p.after start) s).Draws _ :=
      draws_limitSound (draws_assembleIf (fun hc => ihs hc) hs) picture.duration
    refine ⟨padsIn_readLabels_append ?_ ?_, ?_, ?_⟩
    · exact hseen.chains.mono fun _ _ => .left
    · exact hheard.chains.mono fun _ _ => .after hinputs
    · exact hseen.picture.mono fun _ _ => .left
    · exact hheard.sound.mono fun _ _ => .after hinputs
  | trimmed t input begins stop ih =>
    obtain ⟨g, hg, rfl⟩ := assemble_trimmed_eq_ok.1 h
    rw [visits, visitedLeaves_concat _ rfl]
    exact (ih hg).viaPicture.viaSound

end Walk

/-! ### The graph -/

/-- The chains of a fragment and its exits read pads of the kind of the fragment. -/
lemma Fragment.Draws.close {f : Fragment} {P : Nat → Stream → Prop} (h : f.Draws P) :
    PadsIn P (readLabels (f.chains ++ f.exits)) := by
  refine padsIn_readLabels_append h.chains ?_
  rw [readLabels_exits]
  exact padsIn_append.2 ⟨h.picture, h.sound⟩

variable {g : Filtergraph} {P : Nat → Stream → Prop}

/-- A pad that the text of a graph names is read by one of its chains. -/
lemma exists_of_bracketed_infix (hlinear : Linear g) (hreads : PadsIn P (readLabels g.chains))
    {i : Nat} {stream : Stream}
    (hpad : (Label.pad i stream).bracketed.toList <:+: g.text.toList) : P i stream := by
  have hclose : ']' ∉ (Label.pad i stream).text.toList :=
    (Label.spelled_text _).notMem (by decide)
  obtain ⟨ch, hch, l, hl, htext⟩ := exists_label_of_infix hclose hpad
  cases Label.text_injective htext
  refine hreads i stream (List.mem_flatMap.2 ⟨ch, hch, ?_⟩)
  rcases List.mem_append.1 hl with hinput | houtput
  · exact hinput
  · exact absurd (List.mem_singleton.1 houtput).symm (hlinear.noPad ch hch i stream)

/-- The inputs of a graph are leaves of the clip, in order, and a pad that the text of the graph
names is a stream that the leaf of this input has. -/
theorem exists_leaves_of_ofClip {c : Clip} (hg : ofClip c = .ok g) :
    ∃ ls : List Leaf, ls.Sublist c.leaves ∧ g.inputs = ls.map Leaf.input ∧
      ∀ i stream, (Label.pad i stream).bracketed.toList <:+: g.text.toList →
        ∃ l, ls[i]? = some l ∧ l.Has stream := by
  have hlinear : Linear g := linear_ofClip hg
  obtain ⟨f, hf, rfl⟩ := ofClip_eq_ok.1 hg
  refine ⟨_, visitedLeaves_sublist c _, inputs_assemble hf, fun i stream hpad => ?_⟩
  obtain ⟨k, l, rfl, hl, hhas⟩ :=
    exists_of_bracketed_infix hlinear (draws_assemble hf).close hpad
  rw [Nat.zero_add]
  exact ⟨l, hl, hhas⟩

end Filtergraph

end Montage
