import Montage.Proofs.Filtergraph.Term

/-!
# What a fragment computes

A walk over a part of a clip adds a few inputs and chains to a graph that other walks have begun and
will go on with.  So what the fragment of a walk computes is said of every graph that it is a part
of (`Fragment.Within`): in each of them, the streams of the fragment stand for given terms.
`Fragment.Gives` is this statement, and each step of a walk takes it from the fragment before the
step to the one after it.
-/

namespace Montage.Filtergraph

variable {start : Cursor} {d : Demand} {f : Fragment}

/-! ### Fragments as parts of a graph -/

variable {g : Filtergraph} {V A : Option Term}

/-- What a walk adds is found in a graph: its inputs from where the walk started, and its chains. -/
structure Fragment.Within (f : Fragment) (start : Cursor) (g : Filtergraph) : Prop where
  inputs : ∀ i input, f.inputs[i]? = some input → g.inputs[start.inputs + i]? = some input
  chains : ∀ ch ∈ f.chains, ch ∈ g.chains

/-- A stream, if there is one, stands for a term that is known. -/
def Carries (g : Filtergraph) (label : Option Label) (term : Option Term) : Prop :=
  ∀ l, label = some l → ∃ t, term = some t ∧ Unfolds g l t

/-- Without a stream there is nothing to show. -/
lemma carries_none : Carries g none V := by
  intro l hl
  cases hl

namespace Fragment

/-- A fragment gives two terms when its streams stand for them in every graph that it is a part
of. -/
def Gives (f : Fragment) (start : Cursor) (V A : Option Term) : Prop :=
  ∀ g, f.Within start g → Carries g f.picture V ∧ Carries g f.sound A

/-- With a new chain, the fragment before it is a part of the graph too, and the chain is in it. -/
lemma within_emit (stream : Stream) (reads : List Label) (filter : Filter)
    (h : (f.emit start stream reads filter).Within start g) :
    f.Within start g ∧ ⟨reads, filter, f.next start stream⟩ ∈ g.chains := by
  refine ⟨⟨h.inputs, fun ch hch => ?_⟩, ?_⟩
  · exact h.chains ch (List.mem_append_left _ hch)
  · exact h.chains _ (List.mem_append_right f.chains (List.mem_singleton_self _))

/-- A picture that is made out of streams takes one new chain. -/
lemma within_withPicture {reads : List Label} {filter : Filter}
    (h : (f.withPicture start reads filter).Within start g) :
    f.Within start g ∧ ⟨reads, filter, f.next start .picture⟩ ∈ g.chains :=
  within_emit .picture reads filter ⟨h.inputs, h.chains⟩

/-- A sound that is made out of streams takes one new chain. -/
lemma within_withSound {reads : List Label} {filter : Filter}
    (h : (f.withSound start reads filter).Within start g) :
    f.Within start g ∧ ⟨reads, filter, f.next start .sound⟩ ∈ g.chains :=
  within_emit .sound reads filter ⟨h.inputs, h.chains⟩

/-- Of two fragments put together, each is a part of the graph, the second after the first. -/
lemma within_append {f' : Fragment} {picture sound : Option Label}
    (h : (f.append f' picture sound).Within start g) :
    f.Within start g ∧ f'.Within (f.after start) g := by
  refine ⟨⟨fun i input hi => ?_, fun ch hch => ?_⟩, ⟨fun i input hi => ?_, fun ch hch => ?_⟩⟩
  · refine h.inputs i input ?_
    obtain ⟨hlt, -⟩ := List.getElem?_eq_some_iff.1 hi
    exact (List.getElem?_append_left hlt).trans hi
  · exact h.chains ch (List.mem_append_left _ hch)
  · have hnext : (f.append f' picture sound).inputs[f.inputs.length + i]? = some input := by
      unfold append
      rw [List.getElem?_append_right (Nat.le_add_right _ _), Nat.add_sub_cancel_left]
      exact hi
    have hfound := h.inputs _ input hnext
    rwa [← Nat.add_assoc] at hfound
  · exact h.chains ch (List.mem_append_right _ hch)

/-- A picture that is passed through a filter is made out of itself. -/
lemma viaPicture_of_some {filter : Filter} {label : Label} (hp : f.picture = some label) :
    f.viaPicture start filter = f.withPicture start [label] filter := by
  unfold viaPicture
  rw [hp]
  rfl

/-- A sound that is passed through a filter is made out of itself. -/
lemma viaSound_of_some {filter : Filter} {label : Label} (hs : f.sound = some label) :
    f.viaSound start filter = f.withSound start [label] filter := by
  unfold viaSound
  rw [hs]
  rfl

/-- Where there is no picture, none is passed through a filter. -/
lemma viaPicture_of_none {filter : Filter} (hp : f.picture = none) :
    f.viaPicture start filter = f := by
  unfold viaPicture
  rw [hp]

/-- Where there is no sound, none is passed through a filter. -/
lemma viaSound_of_none {filter : Filter} (hs : f.sound = none) : f.viaSound start filter = f := by
  unfold viaSound
  rw [hs]

/-- A picture made of streams that stand for terms. -/
lemma carries_withPicture {reads : List Label} {filter : Filter}
    (hfilter : ∀ stream, filter ≠ .copy stream)
    (h : (f.withPicture start reads filter).Within start g) {ts : List Term}
    (hreads : List.Forall₂ (Unfolds g) reads ts) :
    Carries g (f.withPicture start reads filter).picture (some (.apply filter ts)) := by
  intro l hl
  cases hl
  exact ⟨_, rfl, .chain (within_withPicture h).2 hfilter hreads⟩

/-- A sound made of streams that stand for terms. -/
lemma carries_withSound {reads : List Label} {filter : Filter}
    (hfilter : ∀ stream, filter ≠ .copy stream)
    (h : (f.withSound start reads filter).Within start g) {ts : List Term}
    (hreads : List.Forall₂ (Unfolds g) reads ts) :
    Carries g (f.withSound start reads filter).sound (some (.apply filter ts)) := by
  intro l hl
  cases hl
  exact ⟨_, rfl, .chain (within_withSound h).2 hfilter hreads⟩

/-- Passing a picture through a filter applies the filter to what the picture stands for. -/
lemma Gives.viaPicture (h : f.Gives start V A) {filter : Filter}
    (hfilter : ∀ stream, filter ≠ .copy stream) :
    (f.viaPicture start filter).Gives start (V.map fun t => .apply filter [t]) A := by
  intro g hg
  cases hp : f.picture with
  | none =>
    rw [viaPicture_of_none hp] at hg ⊢
    rw [hp]
    exact ⟨carries_none, (h g hg).2⟩
  | some label =>
    rw [viaPicture_of_some hp] at hg ⊢
    have hf : f.Within start g := (within_withPicture hg).1
    obtain ⟨t, rfl, ht⟩ := (h g hf).1 label hp
    exact ⟨carries_withPicture hfilter hg (.cons ht .nil), (h g hf).2⟩

/-- Passing a sound through a filter applies the filter to what the sound stands for. -/
lemma Gives.viaSound (h : f.Gives start V A) {filter : Filter}
    (hfilter : ∀ stream, filter ≠ .copy stream) :
    (f.viaSound start filter).Gives start V (A.map fun t => .apply filter [t]) := by
  intro g hg
  cases hs : f.sound with
  | none =>
    rw [viaSound_of_none hs] at hg ⊢
    rw [hs]
    exact ⟨(h g hg).1, carries_none⟩
  | some label =>
    rw [viaSound_of_some hs] at hg ⊢
    have hf : f.Within start g := (within_withSound hg).1
    obtain ⟨t, rfl, ht⟩ := (h g hf).2 label hs
    exact ⟨(h g hf).1, carries_withSound hfilter hg (.cons ht .nil)⟩

end Fragment

/-! ### Steps of the walk -/

/-- The pads of a source stand for the streams of its file. -/
lemma gives_sourceFragment (d : Demand) (medium : Medium) (path : Path) (limit : Option Seconds)
    (start : Cursor) :
    (sourceFragment d medium path limit start).Gives start
      (some (.file ⟨path, medium == .image, limit⟩ .picture))
      (some (.file ⟨path, medium == .image, limit⟩ .sound)) := by
  intro g hg
  have hinput : g.inputs[start.inputs]? = some ⟨path, medium == .image, limit⟩ := hg.inputs 0 _ rfl
  constructor
  · intro l hl
    obtain ⟨-, rfl⟩ := Option.ite_some_none_eq_some.1 hl
    exact ⟨_, rfl, .pad .picture hinput⟩
  · intro l hl
    obtain ⟨-, rfl⟩ := Option.ite_some_none_eq_some.1 hl
    exact ⟨_, rfl, .pad .sound hinput⟩

/-- Scaling applies the filter when there is a new side. -/
lemma gives_scaleFragment (h : f.Gives start V A) (width height : Option UInt32) :
    (scaleFragment width height start f).Gives start
      (if width.isNone && height.isNone then V
        else V.map fun t => .apply (.scale width height) [t]) A := by
  unfold scaleFragment
  split
  · exact h
  · exact h.viaPicture fun stream => by simp

/-- Ending a sound early applies the filter when the length is known. -/
lemma gives_limitSound (h : f.Gives start V A) (duration : Option Seconds) :
    (limitSound duration start f).Gives start V (A.map (limited duration)) := by
  unfold limitSound limited
  cases duration with
  | none => simpa using h
  | some duration => exact h.viaSound fun stream => by simp

/-- A canvas is black and as long as the composition. -/
lemma carries_canvasFragment {size : Canvas} {duration : Option Seconds} {canvas : Fragment}
    (h : canvasFragment d size duration start = .ok canvas) (hg : canvas.Within start g) :
    Carries g canvas.picture (duration.map fun duration => .apply (.black size duration) []) := by
  rcases canvasFragment_eq_ok.1 h with ⟨-, s, rfl, rfl⟩ | ⟨-, rfl⟩
  · exact Fragment.carries_withPicture (fun stream => by simp) hg .nil
  · exact carries_none

end Montage.Filtergraph
