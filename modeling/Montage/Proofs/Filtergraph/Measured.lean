import Montage.Proofs.Filtergraph.Gauge
import Montage.Proofs.Filtergraph.Meaning
import Montage.Proofs.Filtergraph.Visits

/-!
# What the streams of a clip measure

A quantity that is carried through the graph of a clip comes out as the quantity that is worked out
on the tree of the clip (`shows_ofClip`).  This holds of every gauge and of every coherent clip.

A walk over a part of the clip adds chains to the graph and reads some of its inputs.  `Measurable`
says that the streams that the walk gives then measure what the part does, and
`measurable_of_coherent` proves it by induction over the clip.
-/

namespace Montage.Filtergraph

variable {β : Type} {G : Gauge β} {ls : List Leaf} {g : Filtergraph} {start : Cursor} {d : Demand}
  {f f' : Fragment} {filter : Filter} {reads : List Label} {b : β} {bs : List β}

/-! ### Steps of the walk -/

/-- A stream, if there is one, measures the given quantity. -/
def Bears (G : Gauge β) (ls : List Leaf) (g : Filtergraph) (label : Option Label) (b : β) : Prop :=
  ∀ l, label = some l → Measures G ls g l b

/-- The chains of a graph hold those that a fragment had before it was given a new one. -/
lemma chains_of_emit {stream : Stream} (h : (f.emit start stream reads filter).chains ⊆ g.chains) :
    f.chains ⊆ g.chains ∧ ⟨reads, filter, f.next start stream⟩ ∈ g.chains := by
  obtain ⟨hf, hnew⟩ := List.append_subset.1 h
  exact ⟨hf, hnew (List.mem_singleton_self _)⟩

/-- A picture that is made out of measured streams. -/
lemma bears_withPicture (h : (f.withPicture start reads filter).chains ⊆ g.chains)
    (hreads : List.Forall₂ (Measures G ls g) reads bs) :
    Bears G ls g (f.withPicture start reads filter).picture (G.apply filter bs) := by
  intro l hl
  cases hl
  exact .chain (chains_of_emit h).2 hreads

/-- A sound that is made out of measured streams. -/
lemma bears_withSound (h : (f.withSound start reads filter).chains ⊆ g.chains)
    (hreads : List.Forall₂ (Measures G ls g) reads bs) :
    Bears G ls g (f.withSound start reads filter).sound (G.apply filter bs) := by
  intro l hl
  cases hl
  exact .chain (chains_of_emit h).2 hreads

/-- A picture that is passed through a filter leaves the chains and the sound. -/
lemma viaPicture_keeps (f : Fragment) (start : Cursor) (filter : Filter) :
    f.chains ⊆ (f.viaPicture start filter).chains ∧
      (f.viaPicture start filter).sound = f.sound := by
  unfold Fragment.viaPicture
  split
  · exact ⟨List.Subset.refl _, rfl⟩
  · exact ⟨List.subset_append_left _ _, rfl⟩

/-- A sound that is passed through a filter leaves the chains and the picture. -/
lemma viaSound_keeps (f : Fragment) (start : Cursor) (filter : Filter) :
    f.chains ⊆ (f.viaSound start filter).chains ∧
      (f.viaSound start filter).picture = f.picture := by
  unfold Fragment.viaSound
  split
  · exact ⟨List.Subset.refl _, rfl⟩
  · exact ⟨List.subset_append_left _ _, rfl⟩

/-- Passing a picture through a filter applies the filter to its quantity. -/
lemma Bears.viaPicture (h : (f.viaPicture start filter).chains ⊆ g.chains)
    (hf : Bears G ls g f.picture b) :
    Bears G ls g (f.viaPicture start filter).picture (G.apply filter [b]) := by
  cases hp : f.picture with
  | none =>
    rw [Fragment.viaPicture_of_none hp, hp]
    exact fun l hl => nomatch hl
  | some label =>
    rw [Fragment.viaPicture_of_some hp] at h ⊢
    exact bears_withPicture h (.cons (hf label hp) .nil)

/-- Passing a sound through a filter applies the filter to its quantity. -/
lemma Bears.viaSound (h : (f.viaSound start filter).chains ⊆ g.chains)
    (hf : Bears G ls g f.sound b) :
    Bears G ls g (f.viaSound start filter).sound (G.apply filter [b]) := by
  cases hs : f.sound with
  | none =>
    rw [Fragment.viaSound_of_none hs, hs]
    exact fun l hl => nomatch hl
  | some label =>
    rw [Fragment.viaSound_of_some hs] at h ⊢
    exact bears_withSound h (.cons (hf label hs) .nil)

/-- Scaling applies the filter when there is a new side. -/
lemma Bears.scale {width height : Option UInt32}
    (h : (scaleFragment width height start f).chains ⊆ g.chains) (hf : Bears G ls g f.picture b) :
    Bears G ls g (scaleFragment width height start f).picture
      (if width.isNone && height.isNone then b else G.apply (.scale width height) [b]) := by
  unfold scaleFragment at h ⊢
  split
  · exact hf
  · rename_i hsides
    rw [if_neg hsides] at h
    exact hf.viaPicture h

/-- Scaling leaves the chains and the sound. -/
lemma scaleFragment_keeps (width height : Option UInt32) (start : Cursor) (f : Fragment) :
    f.chains ⊆ (scaleFragment width height start f).chains ∧
      (scaleFragment width height start f).sound = f.sound := by
  unfold scaleFragment
  split
  · exact ⟨List.Subset.refl _, rfl⟩
  · exact viaPicture_keeps f start _

/-- Ending a sound early applies the filter when the length is known. -/
lemma Bears.limit {duration : Option Seconds}
    (h : (limitSound duration start f).chains ⊆ g.chains) (hf : Bears G ls g f.sound b) :
    Bears G ls g (limitSound duration start f).sound (limitedBy G duration b) := by
  unfold limitSound limitedBy at *
  cases duration with
  | none => exact hf
  | some duration => exact hf.viaSound h

/-- Ending a sound early leaves the chains. -/
lemma chains_limitSound (duration : Option Seconds) (start : Cursor) (f : Fragment) :
    f.chains ⊆ (limitSound duration start f).chains := by
  unfold limitSound
  cases duration with
  | none => exact List.Subset.refl _
  | some duration => exact (viaSound_keeps f start _).1

/-- Silence leaves the chains and the picture. -/
lemma fillSilence_keeps {duration : Option Seconds}
    (h : fillSilence d duration start f = .ok f') :
    f.chains ⊆ f'.chains ∧ f'.picture = f.picture := by
  rcases fillSilence_eq_ok.1 h with ⟨-, -, s, -, rfl⟩ | ⟨-, rfl⟩
  · exact ⟨List.subset_append_left _ _, rfl⟩
  · exact ⟨List.Subset.refl _, rfl⟩

/-- A layer leaves the chains. -/
lemma chains_overlayFragment (below : Option Label) (offset : Placement) (start : Cursor)
    (f : Fragment) : f.chains ⊆ (overlayFragment below offset start f).chains := by
  unfold overlayFragment
  split
  · exact List.subset_append_left _ _
  · exact List.Subset.refl _

/-- Mixing sounds leaves the chains. -/
lemma chains_mixSounds (d : Demand) (start : Cursor) (sounds : List Label) (f : Fragment) :
    f.chains ⊆ (mixSounds d start sounds f).chains := by
  unfold mixSounds
  split
  · split
    · exact List.Subset.refl _
    · exact List.subset_append_left _ _
  · exact List.Subset.refl _

/-! ### Clips that are measured -/

/-- A walk over the clip that succeeds gives streams that measure what the clip does, in every graph
that has its chains and the leaves that it visits. -/
def Measurable (G : Gauge β) (ls : List Leaf) (g : Filtergraph) (c : Clip) : Prop :=
  ∀ d start f, assemble c d start = .ok f → f.chains ⊆ g.chains →
    visitedLeaves (visits c d) <+: ls.drop start.inputs →
    Bears G ls g f.picture (pictureMeasure G c) ∧ Bears G ls g f.sound (soundMeasure G c)

/-- Of leaves that are visited one after the other, both are found where their walks start. -/
lemma prefix_of_append {vs ws : List Leaf} {n : Nat} (h : vs ++ ws <+: ls.drop n) :
    vs <+: ls.drop n ∧ ws <+: ls.drop (n + vs.length) := by
  refine ⟨(List.prefix_append vs ws).trans h, ?_⟩
  obtain ⟨rest, hrest⟩ := h
  refine ⟨rest, ?_⟩
  rw [← List.drop_drop, ← hrest, List.append_assoc, List.drop_left]

/-- A walk that comes after another one starts behind the leaves that the other one visits. -/
lemma inputs_after {c : Clip} (h : assemble c d start = .ok f) (hf : f'.inputs = f.inputs) :
    (f'.after start).inputs = start.inputs + (visitedLeaves (visits c d)).length := by
  rw [Fragment.after, hf, inputs_assemble h, List.length_map]

variable {c : Clip} {cs : List Clip} {bundle : Bundle} {below : Option Label} {stack : Fragment}
  {sounds : List Label}

/-- A picture that a coherent clip has is there when it is demanded. -/
lemma exists_picture_of_coherent (hc : c.Coherent) (h : assemble c d start = .ok f)
    (hd : d.picture = true) (hseen : c.hasPicture = true) : ∃ l, f.picture = some l := by
  refine Option.isSome_iff_exists.1 ?_
  rw [(realizable_of_coherent hc d start f h).isSome_picture, hd, hseen]
  rfl

/-- A sound that a coherent clip has is there when it is demanded. -/
lemma exists_sound_of_coherent (hc : c.Coherent) (h : assemble c d start = .ok f)
    (hd : d.sound = true) (hheard : c.hasSound = true) : ∃ l, f.sound = some l := by
  refine Option.isSome_iff_exists.1 ?_
  rw [(realizable_of_coherent hc d start f h).isSome_sound, hd, hheard]
  rfl

/-- With silence, a part has a sound where sound is demanded, and it measures what the track of the
part does. -/
lemma exists_track_fillSilence (hc : c.Coherent) (hf : assemble c d start = .ok f)
    (h : fillSilence d c.duration start f = .ok f') (hchains : f'.chains ⊆ g.chains)
    (hsound : Bears G ls g f.sound (soundMeasure G c)) (hd : d.sound = true) :
    ∃ l, f'.sound = some l ∧ Measures G ls g l (filledBy G c (soundMeasure G c)) := by
  have hrealizes := realizable_of_coherent hc d start f hf
  unfold filledBy
  rcases fillSilence_eq_ok.1 h with ⟨-, hnone, s, hs, rfl⟩ | ⟨hsome, rfl⟩
  · have hsilent : c.hasSound = false := by simpa [hnone, hd] using hrealizes.isSome_sound.symm
    rw [if_neg (by simp [hsilent]), hs]
    exact ⟨_, rfl, bears_withSound hchains .nil _ rfl⟩
  · have hheard : c.hasSound = true := by simpa [hsome hd, hd] using hrealizes.isSome_sound.symm
    obtain ⟨l, hl⟩ := Option.isSome_iff_exists.1 (hsome hd)
    rw [if_pos hheard]
    exact ⟨l, hl, hsound l hl⟩

/-- The streams of the parts of a sequence measure what the parts do, in order. -/
lemma measures_of_assembleParts (hcoherent : ∀ c ∈ cs, c.Coherent)
    (hcs : ∀ c ∈ cs, Measurable G ls g c) (h : assembleParts cs d start = .ok bundle)
    (hchains : bundle.chains ⊆ g.chains)
    (hleaves : visitedLeaves (visitsAll cs d) <+: ls.drop start.inputs) :
    (d.picture = true → (∀ c ∈ cs, c.hasPicture = true) →
      List.Forall₂ (Measures G ls g) bundle.pictures (pictureMeasures G cs)) ∧
    (d.sound = true → List.Forall₂ (Measures G ls g) bundle.sounds (trackMeasures G cs)) := by
  induction cs generalizing start bundle with
  | nil =>
    rw [assembleParts_nil_eq_ok.1 h]
    exact ⟨fun _ _ => .nil, fun _ => .nil⟩
  | cons c cs ih =>
    obtain ⟨f, f', rest, hf, hf', hrest, rfl⟩ := assembleParts_cons_eq_ok.1 h
    obtain ⟨hcoherent, hothers⟩ := List.forall_mem_cons.1 hcoherent
    obtain ⟨hc, hcs⟩ := List.forall_mem_cons.1 hcs
    obtain ⟨hfirst, hlater⟩ := List.append_subset.1 hchains
    obtain ⟨hkept, hsame⟩ := fillSilence_keeps hf'
    rw [visitsAll, visitedLeaves_append] at hleaves
    obtain ⟨hvisited, hleft⟩ := prefix_of_append hleaves
    rw [← inputs_after hf (inputs_fillSilence hf')] at hleft
    obtain ⟨hpicture, hsound⟩ := hc d start f hf (List.Subset.trans hkept hfirst) hvisited
    obtain ⟨hpictures, htracks⟩ := ih hothers hcs hrest hlater hleft
    constructor
    · intro hd hseen
      obtain ⟨hfirstSeen, hseen⟩ := List.forall_mem_cons.1 hseen
      obtain ⟨l, hl⟩ := exists_picture_of_coherent hcoherent hf hd hfirstSeen
      rw [Bundle.cons, hsame, hl]
      exact .cons (hpicture l hl) (hpictures hd hseen)
    · intro hd
      obtain ⟨l, hl, htrack⟩ := exists_track_fillSilence hcoherent hf hf' hfirst hsound hd
      rw [Bundle.cons, hl]
      exact .cons htrack (htracks hd)

/-- A layer covers the picture below it. -/
lemma bears_overlayFragment (hc : c.Coherent) (hf : assemble c d start = .ok f)
    (h : (overlayFragment below c.offset start f).chains ⊆ g.chains)
    (hpicture : Bears G ls g f.picture (pictureMeasure G c)) (hd : d.picture = true)
    (hbelow : Bears G ls g below b) :
    Bears G ls g (overlayFragment below c.offset start f).picture
      (coveredBy G b c (pictureMeasure G c)) := by
  unfold coveredBy
  by_cases hseen : c.hasPicture = true
  · rw [if_pos hseen]
    obtain ⟨l, hl⟩ := exists_picture_of_coherent hc hf hd hseen
    unfold overlayFragment at h ⊢
    rw [hl] at h ⊢
    cases below with
    | none => exact fun l hl => nomatch hl
    | some lower =>
      exact bears_withPicture h (.cons (hbelow lower rfl) (.cons (hpicture l hl) .nil))
  · rw [if_neg hseen]
    have hnone : f.picture = none :=
      (realizable_of_coherent hc d start f hf).picture_eq_none (Bool.eq_false_iff.2 hseen)
    unfold overlayFragment
    rw [hnone]
    cases below <;> exact hbelow

/-- The streams of layers measure what the layers do, on top of a picture. -/
lemma measures_of_assembleLayers (hcoherent : ∀ c ∈ cs, c.Coherent)
    (hcs : ∀ c ∈ cs, Measurable G ls g c)
    (h : assembleLayers cs d below start = .ok (stack, sounds)) (hchains : stack.chains ⊆ g.chains)
    (hleaves : visitedLeaves (visitsAll cs d) <+: ls.drop start.inputs) :
    (d.picture = true → Bears G ls g below b → Bears G ls g stack.picture (stackMeasure G cs b)) ∧
    (d.sound = true → List.Forall₂ (Measures G ls g) sounds (soundMeasures G cs)) := by
  induction cs generalizing start below stack sounds b with
  | nil =>
    obtain ⟨rfl, rfl⟩ := assembleLayers_nil_eq_ok.1 h
    exact ⟨fun _ hbelow => hbelow, fun _ => .nil⟩
  | cons c cs ih =>
    obtain ⟨f, laid, upper, others, hf, rfl, hupper, rfl, rfl⟩ := assembleLayers_cons_eq_ok.1 h
    obtain ⟨hcoherent, hothers⟩ := List.forall_mem_cons.1 hcoherent
    obtain ⟨hc, hcs⟩ := List.forall_mem_cons.1 hcs
    obtain ⟨hfirst, hlater⟩ := List.append_subset.1 hchains
    rw [visitsAll, visitedLeaves_append] at hleaves
    obtain ⟨hvisited, hleft⟩ := prefix_of_append hleaves
    rw [← inputs_after hf (inputs_overlayFragment below c.offset start f)] at hleft
    obtain ⟨hpicture, hsound⟩ := hc d start f hf
      (List.Subset.trans (chains_overlayFragment below c.offset start f) hfirst) hvisited
    constructor
    · intro hd hbelow
      exact (ih hothers hcs hupper hlater hleft).1 hd
        (bears_overlayFragment hcoherent hf hfirst hpicture hd hbelow)
    · intro hd
      have hrest := (ih (b := b) hothers hcs hupper hlater hleft).2 hd
      rw [sound_overlayFragment, soundMeasures]
      by_cases hheard : c.hasSound = true
      · obtain ⟨l, hl⟩ := exists_sound_of_coherent hcoherent hf hd hheard
        rw [if_pos hheard, hl]
        exact .cons (hsound l hl) hrest
      · have hnone : f.sound = none := (realizable_of_coherent hcoherent d start f hf).sound_eq_none
          (Bool.eq_false_iff.2 hheard)
        rw [if_neg hheard, hnone]
        exact hrest

/-- Sounds are mixed, unless there is a single one. -/
lemma bears_mixSounds (hf : f.sound = none)
    (h : (mixSounds d start sounds f).chains ⊆ g.chains)
    (hsounds : d.sound = true → List.Forall₂ (Measures G ls g) sounds bs) :
    Bears G ls g (mixSounds d start sounds f).sound (mixedBy G bs) := by
  unfold mixSounds at *
  by_cases hd : d.sound = true
  · rw [if_pos hd] at *
    have hreads := hsounds hd
    -- Only a list of exactly one sound is not mixed.
    match hreads with
    | .nil => exact bears_withSound h .nil
    | .cons hb .nil =>
      intro l hl
      cases hl
      exact hb
    | .cons hb (.cons hb' hbs) =>
      have hmix := bears_withSound h (.cons hb (.cons hb' hbs))
      simpa [mixedBy, hbs.length_eq] using hmix
  · rw [if_neg hd, hf]
    exact fun l hl => nomatch hl

/-- The chains of a sequence hold those of its parts, and where a stream is demanded, the one that
joins the streams of the parts. -/
lemma chains_joinBundle (d : Demand) (start : Cursor) (bundle : Bundle) :
    bundle.chains ⊆ (joinBundle d start bundle).chains ∧
    (∀ l, (joinBundle d start bundle).picture = some l → d.picture = true ∧
      ⟨bundle.pictures, .concat bundle.pictures.length .picture, l⟩ ∈
        (joinBundle d start bundle).chains) ∧
    ∀ l, (joinBundle d start bundle).sound = some l → d.sound = true ∧
      ⟨bundle.sounds, .concat bundle.sounds.length .sound, l⟩ ∈
        (joinBundle d start bundle).chains := by
  unfold joinBundle
  cases d.picture <;> cases d.sound <;>
    simp [Fragment.withPicture, Fragment.withSound, Fragment.emit, Bundle.toFragment, eq_comm]

/-- The streams of parts are joined. -/
lemma bears_joinBundle {bs' : List β} (h : (joinBundle d start bundle).chains ⊆ g.chains)
    (hpictures : d.picture = true → List.Forall₂ (Measures G ls g) bundle.pictures bs)
    (hsounds : d.sound = true → List.Forall₂ (Measures G ls g) bundle.sounds bs') :
    Bears G ls g (joinBundle d start bundle).picture (G.apply (.concat bs.length .picture) bs) ∧
      Bears G ls g (joinBundle d start bundle).sound (G.apply (.concat bs'.length .sound) bs') := by
  obtain ⟨-, hpicture, hsound⟩ := chains_joinBundle d start bundle
  constructor
  · intro l hl
    obtain ⟨hd, hchain⟩ := hpicture l hl
    rw [← (hpictures hd).length_eq]
    exact .chain (h hchain) (hpictures hd)
  · intro l hl
    obtain ⟨hd, hchain⟩ := hsound l hl
    rw [← (hsounds hd).length_eq]
    exact .chain (h hchain) (hsounds hd)

/-- A walk that only takes place for a demand gives what the walk gives, or nothing. -/
lemma bears_assembleIf {demanded : Bool} (hc : Measurable G ls g c)
    (h : assembleIf demanded c d start = .ok f) (hchains : f.chains ⊆ g.chains)
    (hleaves : visitedLeaves (if demanded = true then visits c d else []) <+:
      ls.drop start.inputs) :
    Bears G ls g f.picture (pictureMeasure G c) ∧ Bears G ls g f.sound (soundMeasure G c) := by
  rcases assembleIf_eq_ok.1 h with ⟨rfl, h⟩ | ⟨-, rfl⟩
  · exact hc d start f h hchains hleaves
  · exact ⟨fun l hl => (nomatch hl), fun l hl => (nomatch hl)⟩

/-! ### The walk -/

/-- A sequence measures what its parts do, one after another. -/
lemma measurable_joined {t : Traits} (hcoherent : ∀ c ∈ cs, c.Coherent)
    (hcs : ∀ c ∈ cs, Measurable G ls g c)
    (hpictures : t.hasPicture = true → ∀ c ∈ cs, c.hasPicture = true) :
    Measurable G ls g (.joined t cs) := by
  intro d start f h hchains hleaves
  obtain ⟨bundle, hbundle, rfl⟩ := assemble_joined_eq_ok.1 h
  rw [visits, visitedLeaves_concat _ rfl] at hleaves
  obtain ⟨hseen, hheard⟩ := measures_of_assembleParts hcoherent hcs hbundle
    (List.Subset.trans (chains_joinBundle _ start bundle).1 hchains) hleaves
  rw [pictureMeasure, soundMeasure]
  have hjoined := bears_joinBundle hchains
    (fun hd => hseen hd (hpictures (Bool.and_eq_true_iff.1 hd).2)) hheard
  rwa [pictureMeasures_eq, List.length_map, ← pictureMeasures_eq, trackMeasures_eq,
    List.length_map, ← trackMeasures_eq] at hjoined

/-- A composition measures what its layers do, on a canvas and mixed. -/
lemma measurable_layered {t : Traits} {size : Canvas} (hcoherent : ∀ c ∈ cs, c.Coherent)
    (hcs : ∀ c ∈ cs, Measurable G ls g c) : Measurable G ls g (.layered t cs size) := by
  intro d start f h hchains hleaves
  obtain ⟨canvas, stack, sounds, hcanvas, hstack, rfl⟩ := assemble_layered_eq_ok.1 h
  rw [visits, visitedLeaves_concat _ rfl] at hleaves
  have happend : (canvas.append stack stack.picture none).chains ⊆ g.chains :=
    List.Subset.trans (chains_mixSounds _ start sounds _) hchains
  obtain ⟨hbottom, htop⟩ := List.append_subset.1 happend
  have hstart : (canvas.after start).inputs = start.inputs := by
    rw [Fragment.after, inputs_canvasFragment hcanvas]
    rfl
  have hlayers {b : β} := measures_of_assembleLayers (b := b) hcoherent hcs hstack htop
    (by rwa [hstart])
  rw [pictureMeasure, soundMeasure]
  constructor
  · rw [picture_mixSounds]
    rcases canvasFragment_eq_ok.1 hcanvas with ⟨hd, duration, hduration, rfl⟩ | ⟨-, rfl⟩
    · rw [hduration]
      exact hlayers.1 hd (bears_withPicture hbottom .nil)
    · intro l hl
      have hsome := isSome_assembleLayers hstack
      rw [show stack.picture = some l from hl] at hsome
      exact absurd hsome.symm Bool.false_ne_true
  · exact bears_mixSounds rfl hchains (hlayers (b := pictureMeasure G (.layered t cs size))).2

/-- A clip with the sound of another one measures what the picture of the one and the sound of the
other do. -/
lemma measurable_scored {t : Traits} {picture sound : Clip} (hp : Measurable G ls g picture)
    (hs : Measurable G ls g sound) : Measurable G ls g (.scored t picture sound) := by
  intro d start f h hchains hleaves
  obtain ⟨p, s, hpicture, hsound, rfl⟩ := assemble_scored_eq_ok.1 h
  rw [visits, visitedLeaves_concat _ rfl, visitedLeaves_append] at hleaves
  obtain ⟨hfirst, hlast⟩ := List.append_subset.1 hchains
  obtain ⟨hseen, hheard⟩ := prefix_of_append hleaves
  have hstart : (p.after start).inputs = start.inputs + (visitedLeaves
      (if (d.within t).picture = true then visits picture .pictureOnly else [])).length := by
    rw [Fragment.after, inputs_assembleIf (fun h => inputs_assemble h) hpicture, List.length_map]
  rw [← hstart] at hheard
  rw [pictureMeasure, soundMeasure]
  refine ⟨(bears_assembleIf hp hpicture hfirst hseen).1, Bears.limit hlast ?_⟩
  exact (bears_assembleIf hs hsound (List.Subset.trans (chains_limitSound _ _ s) hlast) hheard).2

/-- The walk over a coherent clip gives streams that measure what the clip does. -/
theorem measurable_of_coherent (G : Gauge β) (ls : List Leaf) (g : Filtergraph)
    (hc : c.Coherent) : Measurable G ls g c := by
  have hsource (t : Traits) (medium : Medium) (path : Path) (limit : Option Seconds) :
      Measurable G ls g (.source t medium path limit) := by
    intro d start f h hchains hleaves
    rw [assemble_source_eq_ok.1 h, pictureMeasure, soundMeasure]
    obtain ⟨rest, hrest⟩ := hleaves
    have hleaf : ls[start.inputs]? = some ⟨t, medium, path, limit⟩ := by
      rw [← Nat.add_zero start.inputs, ← List.getElem?_drop, ← hrest]
      rfl
    constructor
    · intro l hl
      obtain ⟨-, rfl⟩ := Option.ite_some_none_eq_some.1 hl
      exact .pad .picture hleaf
    · intro l hl
      obtain ⟨-, rfl⟩ := Option.ite_some_none_eq_some.1 hl
      exact .pad .sound hleaf
  induction hc with
  | image path duration size => exact hsource _ _ _ _
  | video path limit probed hasSound size => exact hsource _ _ _ _
  | audio path limit probed => exact hsource _ _ _ _
  | resized width height hinput hpicture ih =>
    intro d start f h hchains hleaves
    obtain ⟨f', hf', rfl⟩ := assemble_resized_eq_ok.1 h
    rw [visits, visitedLeaves_concat _ rfl] at hleaves
    obtain ⟨hkept, hsame⟩ := scaleFragment_keeps width height start f'
    obtain ⟨hseen, hheard⟩ := ih _ _ _ hf' (List.Subset.trans hkept hchains) hleaves
    rw [pictureMeasure, soundMeasure, hsame]
    exact ⟨hseen.scale hchains, hheard⟩
  | framed margin color opacity hinput hpicture ih =>
    intro d start f h hchains hleaves
    obtain ⟨f', hf', rfl⟩ := assemble_framed_eq_ok.1 h
    rw [visits, visitedLeaves_concat _ rfl] at hleaves
    obtain ⟨hkept, hsame⟩ := viaPicture_keeps f' start (.pad margin color opacity)
    obtain ⟨hseen, hheard⟩ := ih _ _ _ hf' (List.Subset.trans hkept hchains) hleaves
    rw [pictureMeasure, soundMeasure, hsame]
    exact ⟨hseen.viaPicture hchains, hheard⟩
  | placed offset hinput hpicture ih =>
    intro d start f h hchains hleaves
    rw [assemble_placed] at h
    rw [visits, visitedLeaves_concat _ rfl] at hleaves
    rw [pictureMeasure, soundMeasure]
    exact ih _ _ _ h hchains hleaves
  | joined hparts hpictures ih =>
    refine measurable_joined hparts ih fun hpicture => ?_
    exact List.forall_mem_cons.2 ⟨hpicture, fun c hc => (hpictures c hc).trans hpicture⟩
  | layered size hlayers hsome ih => exact measurable_layered hlayers ih
  | scored hpicture hsound hseen hheard ihp ihs => exact measurable_scored ihp ihs
  | trimmed begins stop hinput hstop hstart ih =>
    intro d start f h hchains hleaves
    obtain ⟨f', hf', rfl⟩ := assemble_trimmed_eq_ok.1 h
    rw [visits, visitedLeaves_concat _ rfl] at hleaves
    obtain ⟨hkept, hsame⟩ := viaPicture_keeps f' start (.trim .picture begins stop)
    obtain ⟨hkept', hsame'⟩ := viaSound_keeps (f'.viaPicture start (.trim .picture begins stop))
      start (.trim .sound begins stop)
    have hcut : (f'.viaPicture start (.trim .picture begins stop)).chains ⊆ g.chains :=
      List.Subset.trans hkept' hchains
    obtain ⟨hseen, hheard⟩ := ih _ _ _ hf' (List.Subset.trans hkept hcut) hleaves
    rw [pictureMeasure, soundMeasure, hsame']
    refine ⟨hseen.viaPicture hcut, Bears.viaSound hchains ?_⟩
    rwa [hsame]

/-! ### The graph -/

/-- The source files that the graph of a clip opens, in the order of its inputs. -/
def openedLeaves (c : Clip) : List Leaf := visitedLeaves (visits c ⟨c.hasPicture, c.hasSound⟩)

/-- The inputs of the graph of a clip are the source files that it opens. -/
lemma inputs_ofClip (hg : ofClip c = .ok g) : g.inputs = (openedLeaves c).map Leaf.input := by
  obtain ⟨f, hf, rfl⟩ := ofClip_eq_ok.1 hg
  exact inputs_assemble hf

/-- The streams that leave the graph of a coherent clip measure what the clip does. -/
theorem shows_ofClip (G : Gauge β) (hc : c.Coherent) (hg : ofClip c = .ok g) :
    (c.hasPicture = true → Shows G (openedLeaves c) g (.final .picture)
      (G.apply (.copy .picture) [pictureMeasure G c])) ∧
    (c.hasSound = true → Shows G (openedLeaves c) g (.final .sound)
      (G.apply (.copy .sound) [soundMeasure G c])) := by
  have hlinear : Linear g := linear_ofClip hg
  obtain ⟨f, hf, rfl⟩ := ofClip_eq_ok.1 hg
  have hshows {l : Label} {b : β} (h : Measures G (openedLeaves c) f.close l b) :
      Shows G (openedLeaves c) f.close l b := by
    intro b'
    constructor
    · exact fun h' => hlinear.measures_unique h' h
    · rintro rfl
      exact h
  obtain ⟨hseen, hheard⟩ := measurable_of_coherent G (openedLeaves c) f.close hc _ _ _ hf
    (List.subset_append_left _ _) (List.prefix_refl _)
  constructor
  · intro hpicture
    obtain ⟨l, hl⟩ := exists_picture_of_coherent hc hf hpicture hpicture
    refine hshows (.chain (List.mem_append_right _ ?_) (.cons (hseen l hl) .nil))
    simp [Fragment.exits, hl, exit]
  · intro hsound
    obtain ⟨l, hl⟩ := exists_sound_of_coherent hc hf hsound hsound
    refine hshows (.chain (List.mem_append_right _ ?_) (.cons (hheard l hl) .nil))
    simp [Fragment.exits, hl, exit]

/-- The labels are read by the chain that joins them to the stream of this kind that leaves the
graph. -/
def FedTo (g : Filtergraph) (stream : Stream) (reads : List Label) : Prop :=
  ∃ l n, ⟨reads, .concat n stream, l⟩ ∈ g.chains ∧ exit stream l ∈ g.chains

/-- In a graph whose labels are in order, one list of labels at most is joined to a stream that
leaves. -/
lemma Linear.fedTo_unique (hg : Linear g) {stream : Stream} {reads reads' : List Label}
    (h : FedTo g stream reads) (h' : FedTo g stream reads') : reads = reads' := by
  obtain ⟨l, n, hjoin, hexit⟩ := h
  obtain ⟨l', n', hjoin', hexit'⟩ := h'
  cases List.inj_on_of_nodup_map hg.distinct hexit hexit' rfl
  cases List.inj_on_of_nodup_map hg.distinct hjoin hjoin' rfl
  rfl

/-- The parts of a coherent sequence are coherent, and they have a picture if the sequence has
one. -/
lemma parts_of_coherent {t : Traits} (hc : (Clip.joined t cs).Coherent) :
    (∀ c ∈ cs, c.Coherent) ∧ (t.hasPicture = true → ∀ c ∈ cs, c.hasPicture = true) := by
  cases hc with
  | joined hparts hpictures =>
    refine ⟨hparts, fun hpicture => ?_⟩
    exact List.forall_mem_cons.2 ⟨hpicture, fun c hc => (hpictures c hc).trans hpicture⟩

/-- What is joined in the graph of a sequence with picture and sound are the pictures and the sound
tracks of its parts, in order. -/
theorem segments_ofClip (G : Gauge β) {t : Traits} (hc : (Clip.joined t cs).Coherent)
    (hg : ofClip (.joined t cs) = .ok g) (hpicture : t.hasPicture = true)
    (hsound : t.hasSound = true) :
    ∃ pictures sounds, FedTo g .picture pictures ∧ FedTo g .sound sounds ∧
      List.Forall₂ (Measures G (openedLeaves (.joined t cs)) g) pictures
        (cs.map (pictureMeasure G)) ∧
      List.Forall₂ (Measures G (openedLeaves (.joined t cs)) g) sounds
        (cs.map (trackMeasure G)) := by
  obtain ⟨f, hf, rfl⟩ := ofClip_eq_ok.1 hg
  obtain ⟨l, hl⟩ := exists_picture_of_coherent hc hf hpicture hpicture
  obtain ⟨l', hl'⟩ := exists_sound_of_coherent hc hf hsound hsound
  obtain ⟨bundle, hbundle, hjoined⟩ := assemble_joined_eq_ok.1 hf
  obtain ⟨hparts, hseen, hheard⟩ := chains_joinBundle
    (Demand.within ⟨(Clip.joined t cs).hasPicture, (Clip.joined t cs).hasSound⟩ t) ⟨0, 0⟩ bundle
  rw [← hjoined] at hparts hseen hheard
  obtain ⟨hd, hjoin⟩ := hseen l hl
  obtain ⟨hd', hjoin'⟩ := hheard l' hl'
  refine ⟨bundle.pictures, bundle.sounds, ⟨l, _, List.mem_append_left _ hjoin, ?_⟩,
    ⟨l', _, List.mem_append_left _ hjoin', ?_⟩, ?_⟩
  · refine List.mem_append_right _ ?_
    simp [Fragment.exits, hl]
  · refine List.mem_append_right _ ?_
    simp [Fragment.exits, hl']
  · obtain ⟨hcoherent, hpictures⟩ := parts_of_coherent hc
    have hleaves : visitedLeaves (visitsAll cs
        (Demand.within ⟨(Clip.joined t cs).hasPicture, (Clip.joined t cs).hasSound⟩ t)) <+:
        (openedLeaves (.joined t cs)).drop 0 := by
      rw [openedLeaves, visits, visitedLeaves_concat _ rfl]
      exact List.prefix_refl _
    have hmeasurable : ∀ c ∈ cs, Measurable G (openedLeaves (.joined t cs)) f.close c :=
      fun c hc => measurable_of_coherent G _ _ (hcoherent c hc)
    obtain ⟨hpics, htracks⟩ := measures_of_assembleParts hcoherent hmeasurable hbundle
      (List.Subset.trans hparts (List.subset_append_left _ _)) hleaves
    rw [← pictureMeasures_eq, ← trackMeasures_eq]
    exact ⟨hpics hd (hpictures hpicture), htracks hd'⟩

end Montage.Filtergraph
