import Mathlib.Data.List.Forall2
import Montage.Proofs.Filtergraph.Labels

/-!
# Streams as terms

A graph that the encoder runs is read backwards: a label stands for the filter of the chain that
makes it, applied to what the labels stand for that the chain reads, down to the pads of the inputs.
`Unfolds` says this of a graph as it is, and `pictureTerm` and `soundTerm` say, by recursion on a
clip and without labels or cursors, which terms its streams ought to be.
-/

namespace Montage.Filtergraph

/-! ### Terms and what labels stand for -/

/-- A stream as an expression over the streams of input files. -/
inductive Term where
  /-- The first stream of its kind in an input file. -/
  | file (input : Input) (stream : Stream)
  /-- The result of a filter. -/
  | apply (filter : Filter) (inputs : List Term)

/-- What a label of a graph stands for: a pad for a stream of its input file, and the output of a
chain for the filter of the chain, applied to what the labels stand for that the chain reads.  A
chain that only passes a stream on gives it another name. -/
inductive Unfolds (g : Filtergraph) : Label → Term → Prop where
  | pad {i : Nat} {input : Input} (stream : Stream) (h : g.inputs[i]? = some input) :
      Unfolds g (.pad i stream) (.file input stream)
  | copy {l l' : Label} {stream : Stream} {t : Term} (h : ⟨[l], .copy stream, l'⟩ ∈ g.chains)
      (hl : Unfolds g l t) : Unfolds g l' t
  | chain {reads : List Label} {filter : Filter} {l : Label} {ts : List Term}
      (h : ⟨reads, filter, l⟩ ∈ g.chains) (hfilter : ∀ stream, filter ≠ .copy stream)
      (hreads : List.Forall₂ (Unfolds g) reads ts) : Unfolds g l (.apply filter ts)

/-- In a graph whose labels are in order, a label stands for one term at most. -/
theorem Linear.unfolds_unique {g : Filtergraph} (hg : Linear g) {l : Label} {t t' : Term}
    (h : Unfolds g l t) (h' : Unfolds g l t') : t = t' := by
  have hsame {ch ch' : Chain} (hch : ch ∈ g.chains) (hch' : ch' ∈ g.chains)
      (heq : ch.output = ch'.output) : ch = ch' :=
    List.inj_on_of_nodup_map hg.distinct hch hch' heq
  -- The induction goes over the first derivation, and over those of the labels that a chain reads.
  revert t'
  refine @Unfolds.rec g (fun l t _ => ∀ {t'}, Unfolds g l t' → t = t')
    (fun ls ts _ => ∀ {ts'}, List.Forall₂ (Unfolds g) ls ts' → ts = ts') ?_ ?_ ?_ ?_ ?_ l t h
  · intro i input stream hinput t' h'
    cases h' with
    | pad _ hinput' => rw [Option.some.inj (hinput.symm.trans hinput')]
    | copy hch _ => exact absurd rfl (hg.noPad _ hch i stream)
    | chain hch _ _ => exact absurd rfl (hg.noPad _ hch i stream)
  · intro l l' stream t hch _ ih t' h'
    cases h' with
    | pad _ _ => exact absurd rfl (hg.noPad _ hch _ _)
    | copy hch' hl' =>
      cases hsame hch hch' rfl
      exact ih hl'
    | chain hch' hfilter _ =>
      cases hsame hch hch' rfl
      exact absurd rfl (hfilter stream)
  · intro reads filter l ts hch hfilter _ ih t' h'
    cases h' with
    | pad _ _ => exact absurd rfl (hg.noPad _ hch _ _)
    | copy hch' _ =>
      cases hsame hch hch' rfl
      exact absurd rfl (hfilter _)
    | chain hch' _ hreads' =>
      cases hsame hch hch' rfl
      rw [ih hreads']
  · intro ts' h'
    cases h'
    rfl
  · intro l t ls ts _ _ ih ihs ts' h'
    cases h' with
    | cons hl' hls' => rw [ih hl', ihs hls']

/-! ### The terms of a clip -/

/-- A picture with the picture of a clip laid on it, at the place of the clip; a clip without a
picture leaves it as it is. -/
def laidOn (below : Term) (c : Clip) (above : Option Term) : Option Term :=
  if c.hasPicture then above.map fun t => .apply (.overlay c.offset) [below, t] else some below

/-- The sound of a clip, or silence of its length when it has none. -/
def orSilence (c : Clip) (sound : Option Term) : Option Term :=
  if c.hasSound then sound else c.duration.map fun duration => .apply (.silence duration) []

/-- Sounds that are played together; a single sound stays as it is. -/
def mixed : List Term → Term
  | [t] => t
  | ts => .apply (.mix ts.length) ts

/-- A sound that ends at a position, when that is known. -/
def limited (duration : Option Seconds) (t : Term) : Term :=
  match duration with
  | none => t
  | some duration => .apply (.limit duration) [t]

mutual

/-- The picture of a clip as a term, when the lengths that it takes are known. -/
def pictureTerm : Clip → Option Term
  | .source _ medium path limit => some (.file ⟨path, medium == .image, limit⟩ .picture)
  | .resized _ input width height =>
    if width.isNone && height.isNone then pictureTerm input
    else (pictureTerm input).map fun t => .apply (.scale width height) [t]
  | .framed _ input margin color opacity =>
    (pictureTerm input).map fun t => .apply (.pad margin color opacity) [t]
  | .placed _ input => pictureTerm input
  | .joined _ parts => (pictureTerms parts).map fun ts => .apply (.concat ts.length .picture) ts
  | .layered t layers _ => do
    let size ← t.size
    let duration ← t.duration
    stackTerm layers (.apply (.black size duration) [])
  | .scored _ picture _ => pictureTerm picture
  | .trimmed _ input start stop =>
    (pictureTerm input).map fun t => .apply (.trim .picture start stop) [t]

/-- The pictures of clips, in order. -/
def pictureTerms : List Clip → Option (List Term)
  | [] => some []
  | c :: cs => do return (← pictureTerm c) :: (← pictureTerms cs)

/-- The picture that results when clips are laid on a picture one after another. -/
def stackTerm : List Clip → Term → Option Term
  | [], below => some below
  | c :: cs, below => do stackTerm cs (← laidOn below c (pictureTerm c))

end

mutual

/-- The sound of a clip as a term, when the lengths that it takes are known. -/
def soundTerm : Clip → Option Term
  | .source _ medium path limit => some (.file ⟨path, medium == .image, limit⟩ .sound)
  | .resized _ input _ _ => soundTerm input
  | .framed _ input _ _ _ => soundTerm input
  | .placed _ input => soundTerm input
  | .joined _ parts => (partSounds parts).map fun ts => .apply (.concat ts.length .sound) ts
  | .layered _ layers _ => (layerSounds layers).map mixed
  | .scored _ picture sound => (soundTerm sound).map (limited picture.duration)
  | .trimmed _ input start stop =>
    (soundTerm input).map fun t => .apply (.trim .sound start stop) [t]

/-- The sounds of the parts of a sequence, in order. -/
def partSounds : List Clip → Option (List Term)
  | [] => some []
  | c :: cs => do return (← orSilence c (soundTerm c)) :: (← partSounds cs)

/-- The sounds of the layers of a composition that have sound. -/
def layerSounds : List Clip → Option (List Term)
  | [] => some []
  | c :: cs =>
    if c.hasSound then do return (← soundTerm c) :: (← layerSounds cs) else layerSounds cs

end

end Montage.Filtergraph
