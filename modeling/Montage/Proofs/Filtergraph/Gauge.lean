import Montage.Proofs.Clip.Leaves
import Montage.Proofs.Filtergraph.Labels

/-!
# Quantities of streams

How long a stream lasts, or how large its picture is, can be worked out along the chains of a graph.
A `Gauge` says what such a quantity is for the streams of source files and how a filter makes it out
of the quantities of the streams that it reads, and `Measures` carries it through a graph.  In a
graph whose labels are in order, a label has one quantity at most (`Linear.measures_unique`).

`pictureMeasure` and `soundMeasure` work the quantity out on the tree of a clip, without labels and
chains.
-/

namespace Montage.Filtergraph

variable {β : Type}

/-! ### Quantities in a graph -/

/-- A quantity of streams. -/
structure Gauge (β : Type) where
  /-- The quantity of a stream of a source file of which the traits are recorded. -/
  source : Traits → Stream → β
  /-- The quantity of what a filter makes, by those of the streams that it reads. -/
  apply : Filter → List β → β

/-- What a label of a graph measures, when the inputs of the graph are the given source files: a pad
what its stream does, and the output of a chain what the filter makes of the labels that it
reads. -/
inductive Measures (G : Gauge β) (ls : List Leaf) (g : Filtergraph) : Label → β → Prop where
  | pad {i : Nat} {l : Leaf} (stream : Stream) (h : ls[i]? = some l) :
      Measures G ls g (.pad i stream) (G.source l.traits stream)
  | chain {reads : List Label} {filter : Filter} {l : Label} {bs : List β}
      (h : ⟨reads, filter, l⟩ ∈ g.chains) (hreads : List.Forall₂ (Measures G ls g) reads bs) :
      Measures G ls g l (G.apply filter bs)

variable {G : Gauge β} {ls : List Leaf} {g : Filtergraph}

/-- In a graph whose labels are in order, a label measures one thing at most. -/
theorem Linear.measures_unique (hg : Linear g) {l : Label} {b b' : β} (h : Measures G ls g l b)
    (h' : Measures G ls g l b') : b = b' := by
  -- The induction goes over the first derivation, and over those of the labels that a chain reads.
  revert b'
  refine @Measures.rec β G ls g (fun l b _ => ∀ {b'}, Measures G ls g l b' → b = b')
    (fun reads bs _ => ∀ {bs'}, List.Forall₂ (Measures G ls g) reads bs' → bs = bs')
    ?_ ?_ ?_ ?_ l b h
  · intro i leaf stream hleaf b' h'
    cases h' with
    | pad _ hleaf' => rw [Option.some.inj (hleaf.symm.trans hleaf')]
    | chain hch _ => exact absurd rfl (hg.noPad _ hch i stream)
  · intro reads filter l bs hch _ ih b' h'
    cases h' with
    | pad _ _ => exact absurd rfl (hg.noPad _ hch _ _)
    | chain hch' hreads' =>
      cases List.inj_on_of_nodup_map hg.distinct hch hch' rfl
      rw [ih hreads']
  · intro bs' h'
    cases h'
    rfl
  · intro l b reads bs _ _ ih ihs bs' h'
    cases h' with
    | cons hl' hreads' => rw [ih hl', ihs hreads']

/-- A label measures a quantity and no other. -/
def Shows (G : Gauge β) (ls : List Leaf) (g : Filtergraph) (l : Label) (b : β) : Prop :=
  ∀ b', Measures G ls g l b' ↔ b' = b

/-! ### Quantities of a clip -/

/-- A picture with the picture of a clip laid on it, if the clip has one. -/
def coveredBy (G : Gauge β) (below : β) (c : Clip) (above : β) : β :=
  if c.hasPicture then G.apply (.overlay c.offset) [below, above] else below

/-- The sound of a clip, or silence when it has none. -/
def filledBy (G : Gauge β) (c : Clip) (sound : β) : β :=
  if c.hasSound then sound else G.apply (.silence (c.duration.getD .undefined)) []

/-- Sounds played together; a single one stays as it is. -/
def mixedBy (G : Gauge β) : List β → β
  | [b] => b
  | bs => G.apply (.mix bs.length) bs

/-- A sound that ends at a position, when that is known. -/
def limitedBy (G : Gauge β) (duration : Option Seconds) (b : β) : β :=
  match duration with
  | none => b
  | some duration => G.apply (.limit duration) [b]

mutual

/-- What the picture of a clip measures. -/
def pictureMeasure (G : Gauge β) : Clip → β
  | .source t _ _ _ => G.source t .picture
  | .resized _ input width height =>
    if width.isNone && height.isNone then pictureMeasure G input
    else G.apply (.scale width height) [pictureMeasure G input]
  | .framed _ input margin color opacity =>
    G.apply (.pad margin color opacity) [pictureMeasure G input]
  | .placed _ input => pictureMeasure G input
  | .joined _ parts => G.apply (.concat parts.length .picture) (pictureMeasures G parts)
  | .layered t layers size =>
    stackMeasure G layers (G.apply (.black size (t.duration.getD .undefined)) [])
  | .scored _ picture _ => pictureMeasure G picture
  | .trimmed _ input start stop => G.apply (.trim .picture start stop) [pictureMeasure G input]

/-- What the pictures of clips measure, in order. -/
def pictureMeasures (G : Gauge β) : List Clip → List β
  | [] => []
  | c :: cs => pictureMeasure G c :: pictureMeasures G cs

/-- What a picture measures when clips are laid on it one after another. -/
def stackMeasure (G : Gauge β) : List Clip → β → β
  | [], below => below
  | c :: cs, below => stackMeasure G cs (coveredBy G below c (pictureMeasure G c))

end

mutual

/-- What the sound of a clip measures. -/
def soundMeasure (G : Gauge β) : Clip → β
  | .source t _ _ _ => G.source t .sound
  | .resized _ input _ _ => soundMeasure G input
  | .framed _ input _ _ _ => soundMeasure G input
  | .placed _ input => soundMeasure G input
  | .joined _ parts => G.apply (.concat parts.length .sound) (trackMeasures G parts)
  | .layered _ layers _ => mixedBy G (soundMeasures G layers)
  | .scored _ picture sound => limitedBy G picture.duration (soundMeasure G sound)
  | .trimmed _ input start stop => G.apply (.trim .sound start stop) [soundMeasure G input]

/-- What the sounds of the parts of a sequence measure, with silence where there is none. -/
def trackMeasures (G : Gauge β) : List Clip → List β
  | [] => []
  | c :: cs => filledBy G c (soundMeasure G c) :: trackMeasures G cs

/-- What the sounds of those clips measure that have one, in order. -/
def soundMeasures (G : Gauge β) : List Clip → List β
  | [] => []
  | c :: cs => if c.hasSound then soundMeasure G c :: soundMeasures G cs else soundMeasures G cs

end

/-- What the sound track of a part of a sequence measures. -/
def trackMeasure (G : Gauge β) (c : Clip) : β := filledBy G c (soundMeasure G c)

/-- The pictures of clips are measured one by one. -/
lemma pictureMeasures_eq (G : Gauge β) (cs : List Clip) :
    pictureMeasures G cs = cs.map (pictureMeasure G) := by
  induction cs with
  | nil => rfl
  | cons c cs ih => rw [pictureMeasures, ih, List.map_cons]

/-- The sound tracks of parts are measured one by one. -/
lemma trackMeasures_eq (G : Gauge β) (cs : List Clip) :
    trackMeasures G cs = cs.map (trackMeasure G) := by
  induction cs with
  | nil => rfl
  | cons c cs ih => rw [trackMeasures, ih, List.map_cons, trackMeasure]

/-- The sounds of layers are those of the clips that have one. -/
lemma soundMeasures_eq (G : Gauge β) (cs : List Clip) :
    soundMeasures G cs = (cs.filter Clip.hasSound).map (soundMeasure G) := by
  induction cs with
  | nil => rfl
  | cons c cs ih =>
    rw [soundMeasures, ih]
    split <;> rename_i hsound
    · rw [List.filter_cons_of_pos hsound, List.map_cons]
    · rw [List.filter_cons_of_neg hsound]

end Montage.Filtergraph
