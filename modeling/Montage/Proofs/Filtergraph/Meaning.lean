import Montage.Proofs.Clip.Coherent
import Montage.Proofs.Filtergraph.Gives

/-!
# What the graph of a clip computes

The label under which the picture of a clip leaves its graph stands for `pictureTerm` of the clip,
and the label of the sound for `soundTerm`; a clip without one of the two has a graph without it.
This is `faithful_ofClip`, and it holds of every clip that the renderer obtains.

`Fragment.Realizes` says what a walk over a clip is to achieve, and `realizable_of_coherent` that
every walk that succeeds does, by induction over the clip.  Sequences and compositions walk over a
list of clips, with an induction of their own for their pictures and for their sounds.
-/

namespace Montage.Filtergraph

variable {start : Cursor} {d : Demand} {f : Fragment}

/-! ### Streams of coherent clips -/

/-- A demand that one clip can meet is met by every clip with the same streams. -/
lemma Demand.within_within {d : Demand} {t t' : Traits} (hpicture : t.hasPicture = t'.hasPicture)
    (hsound : t.hasSound = t'.hasSound) : (d.within t').within t = d.within t' := by
  unfold within
  rw [hpicture, hsound, Bool.and_assoc, Bool.and_self, Bool.and_assoc, Bool.and_self]

/-- The walk over a coherent clip gives all streams that are demanded and that the clip has. -/
lemma given_assemble {c : Clip} (hc : c.Coherent) (h : assemble c d start = .ok f) :
    f.given = d.within c.traits := by
  induction hc generalizing d start f with
  | image path duration size =>
    rw [assemble_source_eq_ok.1 h, given_sourceFragment]
    rfl
  | video path limit probed hasSound size =>
    rw [assemble_source_eq_ok.1 h, given_sourceFragment]
    rfl
  | audio path limit probed =>
    rw [assemble_source_eq_ok.1 h, given_sourceFragment]
    rfl
  | resized width height hinput hpicture ih =>
    obtain ⟨g, hg, rfl⟩ := assemble_resized_eq_ok.1 h
    rw [given_scaleFragment, ih hg]
    exact Demand.within_within rfl rfl
  | framed margin color opacity hinput hpicture ih =>
    obtain ⟨g, hg, rfl⟩ := assemble_framed_eq_ok.1 h
    rw [Fragment.given_viaPicture, ih hg]
    exact Demand.within_within rfl rfl
  | placed offset hinput hpicture ih =>
    rw [assemble_placed] at h
    rw [ih h]
    exact Demand.within_within rfl rfl
  | joined hparts hpictures ih =>
    obtain ⟨b, -, rfl⟩ := assemble_joined_eq_ok.1 h
    exact given_joinBundle _ _ _
  | layered canvas hlayers hsome ih =>
    obtain ⟨canvas, stack, sounds, hcanvas, hlayers, rfl⟩ := assemble_layered_eq_ok.1 h
    have hstack := (isSome_assembleLayers hlayers).trans (streams_canvasFragment hcanvas).1
    rw [given_mixSounds _ _ _ rfl]
    exact congrArg (Demand.mk · _) hstack
  | @scored picture sound _ _ hseen hheard ihp ihs =>
    obtain ⟨p, s, hp, hs, rfl⟩ := assemble_scored_eq_ok.1 h
    have hlimit := congrArg Demand.sound (given_limitSound picture.duration (p.after start) s)
    have hgiven : p.given.picture = (d.picture && picture.hasPicture) := by
      rcases assembleIf_eq_ok.1 hp with ⟨hdemanded, hp⟩ | ⟨hidden, rfl⟩
      · rw [ihp hp]
        exact hseen.trans hdemanded.symm
      · exact hidden.symm
    have hsounding : s.given.sound = (d.sound && true) := by
      rcases assembleIf_eq_ok.1 hs with ⟨hdemanded, hs⟩ | ⟨hsilent, rfl⟩
      · rw [ihs hs]
        exact hheard.trans hdemanded.symm
      · exact hsilent.symm
    exact congrArg₂ Demand.mk hgiven (hlimit.trans hsounding)
  | trimmed begins stop hinput hstop hstart ih =>
    obtain ⟨g, hg, rfl⟩ := assemble_trimmed_eq_ok.1 h
    rw [Fragment.given_viaSound, Fragment.given_viaPicture, ih hg]
    exact Demand.within_within rfl rfl

/-! ### What a walk is to achieve -/

variable {g : Filtergraph}

/-- What a walk over a clip is to achieve: it gives the demanded streams that the clip has, and they
stand for the terms of the clip. -/
structure Fragment.Realizes (f : Fragment) (c : Clip) (d : Demand) (start : Cursor) : Prop where
  given : f.given = d.within c.traits
  gives : f.Gives start (pictureTerm c) (soundTerm c)

namespace Fragment.Realizes

variable {c : Clip}

/-- There is a picture exactly when it is demanded and the clip has one. -/
lemma isSome_picture (h : f.Realizes c d start) :
    f.picture.isSome = (d.picture && c.hasPicture) :=
  congrArg Demand.picture h.given

/-- There is a sound exactly when it is demanded and the clip has one. -/
lemma isSome_sound (h : f.Realizes c d start) : f.sound.isSome = (d.sound && c.hasSound) :=
  congrArg Demand.sound h.given

/-- A clip without a picture gives none. -/
lemma picture_eq_none (h : f.Realizes c d start) (hc : c.hasPicture = false) :
    f.picture = none := by
  rw [← Option.isNone_iff_eq_none, ← Option.isSome_eq_false_iff, h.isSome_picture, hc]
  exact Bool.and_false _

/-- A clip without sound gives none. -/
lemma sound_eq_none (h : f.Realizes c d start) (hc : c.hasSound = false) : f.sound = none := by
  rw [← Option.isNone_iff_eq_none, ← Option.isSome_eq_false_iff, h.isSome_sound, hc]
  exact Bool.and_false _

/-- A picture that is demanded and there has a label that stands for the picture of the clip. -/
lemma exists_picture (h : f.Realizes c d start) (hg : f.Within start g) (hd : d.picture = true)
    (hc : c.hasPicture = true) :
    ∃ l t, f.picture = some l ∧ pictureTerm c = some t ∧ Unfolds g l t := by
  have hsome : f.picture.isSome = true := h.isSome_picture.trans (by rw [hd, hc]; rfl)
  obtain ⟨l, hl⟩ := Option.isSome_iff_exists.1 hsome
  obtain ⟨t, ht, hunfolds⟩ := (h.gives g hg).1 l hl
  exact ⟨l, t, hl, ht, hunfolds⟩

/-- A sound that is demanded and there has a label that stands for the sound of the clip. -/
lemma exists_sound (h : f.Realizes c d start) (hg : f.Within start g) (hd : d.sound = true)
    (hc : c.hasSound = true) :
    ∃ l t, f.sound = some l ∧ soundTerm c = some t ∧ Unfolds g l t := by
  have hsome : f.sound.isSome = true := h.isSome_sound.trans (by rw [hd, hc]; rfl)
  obtain ⟨l, hl⟩ := Option.isSome_iff_exists.1 hsome
  obtain ⟨t, ht, hunfolds⟩ := (h.gives g hg).2 l hl
  exact ⟨l, t, hl, ht, hunfolds⟩

end Fragment.Realizes

/-- Every walk over the clip that succeeds achieves what it is to. -/
def Realizable (c : Clip) : Prop :=
  ∀ d start f, assemble c d start = .ok f → f.Realizes c d start

/-! ### Parts and layers -/

/-- With silence, each part has a sound where sound is demanded: its own, or silence of its
length. -/
lemma exists_sound_fillSilence {c : Clip} {f' : Fragment} (h : f.Realizes c d start)
    (hf' : fillSilence d c.duration start f = .ok f') (hg : f'.Within start g)
    (hd : d.sound = true) :
    ∃ l t, f'.sound = some l ∧ orSilence c (soundTerm c) = some t ∧ Unfolds g l t := by
  rcases fillSilence_eq_ok.1 hf' with ⟨-, hnone, s, hs, rfl⟩ | ⟨hsome, rfl⟩
  · have hsilent : c.hasSound = false := by simpa [hnone, hd] using h.isSome_sound.symm
    obtain ⟨t, ht, hunfolds⟩ :=
      Fragment.carries_withSound (fun stream => by simp) hg .nil _ rfl
    refine ⟨_, t, rfl, ?_, hunfolds⟩
    unfold orSilence
    rw [hsilent, hs]
    exact ht
  · have hheard : c.hasSound = true := by simpa [hsome hd, hd] using h.isSome_sound.symm
    obtain ⟨l, t, hl, ht, hunfolds⟩ := h.exists_sound hg hd hheard
    exact ⟨l, t, hl, (if_pos hheard).trans ht, hunfolds⟩

/-- Silence leaves the picture as it is. -/
lemma picture_fillSilence {duration : Option Seconds} {f' : Fragment}
    (h : fillSilence d duration start f = .ok f') (hg : f'.Within start g) :
    f'.picture = f.picture ∧ f.Within start g := by
  rcases fillSilence_eq_ok.1 h with ⟨-, -, s, -, rfl⟩ | ⟨-, rfl⟩
  · exact ⟨rfl, (Fragment.within_withSound hg).1⟩
  · exact ⟨rfl, hg⟩

/-- Of a fragment followed by a bundle, each is a part of the graph. -/
lemma Bundle.within_cons {pictures sounds : List Label} {b : Bundle}
    (h : (Bundle.cons f pictures sounds b).toFragment.Within start g) :
    f.Within start g ∧ b.toFragment.Within (f.after start) g := by
  have happend : (f.append b.toFragment none none).Within start g := h
  exact Fragment.within_append happend

variable {cs : List Clip} {b : Bundle}

/-- The pictures of the parts of a sequence stand for the pictures of the clips, in order. -/
lemma exists_pictures_of_assembleParts
    (hcs : ∀ c ∈ cs, Realizable c)
    (h : assembleParts cs d start = .ok b) (hg : b.toFragment.Within start g)
    (hd : d.picture = true) (hpictures : ∀ c ∈ cs, c.hasPicture = true) :
    ∃ ts, pictureTerms cs = some ts ∧ List.Forall₂ (Unfolds g) b.pictures ts := by
  induction cs generalizing start b with
  | nil =>
    rw [assembleParts_nil_eq_ok.1 h]
    exact ⟨[], rfl, .nil⟩
  | cons c cs ih =>
    obtain ⟨f, f', rest, hf, hf', hrest, rfl⟩ := assembleParts_cons_eq_ok.1 h
    obtain ⟨hc, hcs⟩ := List.forall_mem_cons.1 hcs
    obtain ⟨hpicture, hpictures⟩ := List.forall_mem_cons.1 hpictures
    obtain ⟨hfirst, hlater⟩ := Bundle.within_cons hg
    obtain ⟨heq, hwithin⟩ := picture_fillSilence hf' hfirst
    obtain ⟨l, t, hl, ht, hunfolds⟩ := (hc _ _ _ hf).exists_picture hwithin hd hpicture
    obtain ⟨ts, hts, hreads⟩ := ih hcs hrest hlater hpictures
    refine ⟨t :: ts, by simp [pictureTerms, ht, hts], ?_⟩
    unfold Bundle.cons
    rw [heq, hl]
    exact .cons hunfolds hreads

/-- The sounds of the parts of a sequence stand for the sounds of the clips, in order, and for
silence where a clip has none. -/
lemma exists_sounds_of_assembleParts
    (hcs : ∀ c ∈ cs, Realizable c)
    (h : assembleParts cs d start = .ok b) (hg : b.toFragment.Within start g)
    (hd : d.sound = true) :
    ∃ ts, partSounds cs = some ts ∧ List.Forall₂ (Unfolds g) b.sounds ts := by
  induction cs generalizing start b with
  | nil =>
    rw [assembleParts_nil_eq_ok.1 h]
    exact ⟨[], rfl, .nil⟩
  | cons c cs ih =>
    obtain ⟨f, f', rest, hf, hf', hrest, rfl⟩ := assembleParts_cons_eq_ok.1 h
    obtain ⟨hc, hcs⟩ := List.forall_mem_cons.1 hcs
    obtain ⟨hfirst, hlater⟩ := Bundle.within_cons hg
    obtain ⟨l, t, hl, ht, hunfolds⟩ := exists_sound_fillSilence (hc _ _ _ hf) hf' hfirst hd
    obtain ⟨ts, hts, hreads⟩ := ih hcs hrest hlater
    refine ⟨t :: ts, by simp [partSounds, ht, hts], ?_⟩
    unfold Bundle.cons
    rw [hl]
    exact .cons hunfolds hreads

variable {below : Option Label} {stack : Fragment} {sounds : List Label}

/-- A layer is laid on the picture below it. -/
lemma exists_picture_overlayFragment {c : Clip} {lower : Label} {t : Term}
    (h : f.Realizes c d start) (hg : (overlayFragment (some lower) c.offset start f).Within start g)
    (hd : d.picture = true) (ht : Unfolds g lower t) :
    ∃ l t', (overlayFragment (some lower) c.offset start f).picture = some l ∧
      laidOn t c (pictureTerm c) = some t' ∧ Unfolds g l t' := by
  unfold overlayFragment laidOn at *
  by_cases hc : c.hasPicture = true
  · have hsome : f.picture.isSome = true := h.isSome_picture.trans (by rw [hd, hc]; rfl)
    obtain ⟨l, hl⟩ := Option.isSome_iff_exists.1 hsome
    rw [hl] at hg ⊢
    have hwithin : f.Within start g := (Fragment.within_withPicture hg).1
    obtain ⟨above, habove, hunfolds⟩ := (h.gives g hwithin).1 l hl
    obtain ⟨t', ht', hlaid⟩ := Fragment.carries_withPicture (fun stream => by simp) hg
      (.cons ht (.cons hunfolds .nil)) _ rfl
    refine ⟨_, t', rfl, ?_, hlaid⟩
    rw [if_pos hc, habove]
    exact ht'
  · have hnone : f.picture = none := h.picture_eq_none (Bool.eq_false_iff.2 hc)
    rw [hnone]
    exact ⟨lower, t, rfl, if_neg hc, ht⟩

/-- Layers are laid on a picture in order. -/
lemma exists_picture_of_assembleLayers
    (hcs : ∀ c ∈ cs, Realizable c) {lower : Label} {t : Term}
    (h : assembleLayers cs d (some lower) start = .ok (stack, sounds))
    (hg : stack.Within start g) (hd : d.picture = true) (ht : Unfolds g lower t) :
    ∃ l t', stack.picture = some l ∧ stackTerm cs t = some t' ∧ Unfolds g l t' := by
  induction cs generalizing start lower stack sounds t with
  | nil =>
    obtain ⟨rfl, -⟩ := assembleLayers_nil_eq_ok.1 h
    exact ⟨lower, t, rfl, rfl, ht⟩
  | cons c cs ih =>
    obtain ⟨f, laid, upper, others, hf, rfl, hupper, rfl, -⟩ := assembleLayers_cons_eq_ok.1 h
    obtain ⟨hc, hcs⟩ := List.forall_mem_cons.1 hcs
    obtain ⟨hfirst, hlater⟩ := Fragment.within_append hg
    obtain ⟨l, t', hl, ht', hlaid⟩ := exists_picture_overlayFragment (hc _ _ _ hf) hfirst hd ht
    rw [hl] at hupper
    obtain ⟨top, whole, htop, hwhole, hunfolds⟩ := ih hcs hupper hlater hlaid
    exact ⟨top, whole, htop, by simp [stackTerm, ht', hwhole], hunfolds⟩

/-- A fragment with an overlay holds the fragment of the layer. -/
lemma within_overlayFragment {offset : Placement}
    (h : (overlayFragment below offset start f).Within start g) : f.Within start g := by
  unfold overlayFragment at h
  split at h
  · exact (Fragment.within_withPicture h).1
  · exact ⟨h.inputs, h.chains⟩

/-- The sounds of layers stand for the sounds of the clips that have sound, in order. -/
lemma exists_sounds_of_assembleLayers
    (hcs : ∀ c ∈ cs, Realizable c)
    (h : assembleLayers cs d below start = .ok (stack, sounds))
    (hg : stack.Within start g) (hd : d.sound = true) :
    ∃ ts, layerSounds cs = some ts ∧ List.Forall₂ (Unfolds g) sounds ts := by
  induction cs generalizing start below stack sounds with
  | nil =>
    obtain ⟨-, rfl⟩ := assembleLayers_nil_eq_ok.1 h
    exact ⟨[], rfl, .nil⟩
  | cons c cs ih =>
    obtain ⟨f, laid, upper, others, hf, rfl, hupper, rfl, rfl⟩ := assembleLayers_cons_eq_ok.1 h
    obtain ⟨hc, hcs⟩ := List.forall_mem_cons.1 hcs
    obtain ⟨hfirst, hlater⟩ := Fragment.within_append hg
    obtain ⟨ts, hts, hreads⟩ := ih hcs hupper hlater
    rw [sound_overlayFragment]
    by_cases hheard : c.hasSound = true
    · obtain ⟨l, t, hl, ht, hunfolds⟩ :=
        (hc _ _ _ hf).exists_sound (within_overlayFragment hfirst) hd hheard
      rw [hl]
      exact ⟨t :: ts, by simp [layerSounds, hheard, ht, hts], .cons hunfolds hreads⟩
    · rw [(hc _ _ _ hf).sound_eq_none (Bool.eq_false_iff.2 hheard)]
      exact ⟨ts, by simp [layerSounds, hheard, hts], hreads⟩

/-- Mixing sounds leaves the picture as it is. -/
lemma picture_mixSounds (d : Demand) (start : Cursor) (sounds : List Label) (f : Fragment) :
    (mixSounds d start sounds f).picture = f.picture := by
  unfold mixSounds
  split
  · split <;> rfl
  · rfl

/-- A fragment with a mix holds the fragment before it. -/
lemma within_mixSounds (h : (mixSounds d start sounds f).Within start g) : f.Within start g := by
  unfold mixSounds at h
  split at h
  · split at h
    · exact ⟨h.inputs, h.chains⟩
    · exact (Fragment.within_withSound h).1
  · exact h

/-- The sounds of layers are mixed. -/
lemma carries_mixSounds {T : Option (List Term)} (hf : f.sound = none)
    (hg : (mixSounds d start sounds f).Within start g)
    (hsounds : d.sound = true → ∃ ts, T = some ts ∧ List.Forall₂ (Unfolds g) sounds ts) :
    Carries g (mixSounds d start sounds f).sound (T.map mixed) := by
  unfold mixSounds at *
  by_cases hd : d.sound = true
  · rw [if_pos hd] at *
    obtain ⟨ts, rfl, hreads⟩ := hsounds hd
    -- Only a list of exactly one sound is not mixed.
    match hreads with
    | .nil => exact Fragment.carries_withSound (fun stream => by simp) hg .nil
    | .cons ht .nil =>
      intro l hl
      cases hl
      exact ⟨_, rfl, ht⟩
    | .cons ht (.cons ht' hts) =>
      have hmix := Fragment.carries_withSound (fun stream => by simp) hg (.cons ht (.cons ht' hts))
      simpa [mixed, hts.length_eq] using hmix
  · rw [if_neg hd, hf]
    exact carries_none

/-- The streams of a sequence are joined. -/
lemma carries_joinBundle {T T' : Option (List Term)} (hg : (joinBundle d start b).Within start g)
    (hpictures : b.toFragment.Within start g → d.picture = true →
      ∃ ts, T = some ts ∧ List.Forall₂ (Unfolds g) b.pictures ts)
    (hsounds : b.toFragment.Within start g → d.sound = true →
      ∃ ts, T' = some ts ∧ List.Forall₂ (Unfolds g) b.sounds ts) :
    Carries g (joinBundle d start b).picture
        (T.map fun ts => .apply (.concat ts.length .picture) ts) ∧
      Carries g (joinBundle d start b).sound
        (T'.map fun ts => .apply (.concat ts.length .sound) ts) := by
  unfold joinBundle at *
  dsimp only at hg ⊢
  -- The picture is joined first, and the sound is put beside it.
  generalize hf : (if d.picture = true then b.toFragment.withPicture start b.pictures
    (.concat b.pictures.length .picture) else b.toFragment) = f at hg ⊢
  have hwithin : f.Within start g := by
    split at hg
    · exact (Fragment.within_withSound hg).1
    · exact hg
  have hbundle : b.toFragment.Within start g := by
    split at hf
    · subst hf
      exact (Fragment.within_withPicture hwithin).1
    · exact hf ▸ hwithin
  have hpicture : Carries g f.picture (T.map fun ts => .apply (.concat ts.length .picture) ts) := by
    split at hf
    · rename_i hd
      subst hf
      obtain ⟨ts, rfl, hreads⟩ := hpictures hbundle hd
      have hjoin := Fragment.carries_withPicture (fun stream => by simp) hwithin hreads
      rwa [hreads.length_eq] at hjoin
    · subst hf
      exact carries_none
  have hsilent : f.sound = none := by
    split at hf <;> exact hf ▸ rfl
  split at hg
  · rename_i hd
    obtain ⟨ts, rfl, hreads⟩ := hsounds hbundle hd
    have hjoin := Fragment.carries_withSound (fun stream => by simp) hg hreads
    rw [if_pos hd]
    rw [hreads.length_eq] at hjoin ⊢
    exact ⟨hpicture, hjoin⟩
  · rename_i hd
    rw [if_neg hd, hsilent]
    exact ⟨hpicture, carries_none⟩

/-! ### The walk -/

/-- A sequence whose parts have pictures when it has one gives the terms of the sequence. -/
lemma gives_joined {t : Traits} (hparts : ∀ c ∈ cs, Realizable c)
    (hpictures : t.hasPicture = true → ∀ c ∈ cs, c.hasPicture = true)
    (h : assemble (.joined t cs) d start = .ok f) :
    f.Gives start (pictureTerm (.joined t cs)) (soundTerm (.joined t cs)) := by
  obtain ⟨b, hb, rfl⟩ := assemble_joined_eq_ok.1 h
  intro g hg
  rw [pictureTerm, soundTerm]
  refine carries_joinBundle hg (fun hbundle hd => ?_) (fun hbundle hd => ?_)
  · have hpicture : t.hasPicture = true := (Bool.and_eq_true_iff.1 hd).2
    exact exists_pictures_of_assembleParts hparts hb hbundle hd (hpictures hpicture)
  · exact exists_sounds_of_assembleParts hparts hb hbundle hd

/-- A composition of known size gives the terms of the composition. -/
lemma gives_layered {t : Traits} {size : Canvas} (hlayers : ∀ c ∈ cs, Realizable c)
    (hsize : t.size = some size) (h : assemble (.layered t cs size) d start = .ok f) :
    f.Gives start (pictureTerm (.layered t cs size)) (soundTerm (.layered t cs size)) := by
  obtain ⟨canvas, stack, sounds, hcanvas, hstack, rfl⟩ := assemble_layered_eq_ok.1 h
  intro g hg
  obtain ⟨hbottom, htop⟩ := Fragment.within_append (within_mixSounds hg)
  rw [pictureTerm, soundTerm]
  constructor
  · rw [picture_mixSounds]
    intro l hl
    have hd : (d.within t).picture = true := by
      rw [← (streams_canvasFragment hcanvas).1, ← isSome_assembleLayers hstack]
      exact Option.isSome_iff_exists.2 ⟨l, hl⟩
    obtain ⟨lower, hlower⟩ := Option.isSome_iff_exists.1
      ((streams_canvasFragment hcanvas).1.trans hd)
    obtain ⟨black, hblack, hunfolds⟩ := carries_canvasFragment hcanvas hbottom lower hlower
    obtain ⟨duration, hduration, rfl⟩ := Option.map_eq_some_iff.1 hblack
    rw [hlower] at hstack
    obtain ⟨l', t', hl', ht', hwhole⟩ :=
      exists_picture_of_assembleLayers hlayers hstack htop hd hunfolds
    cases hl'.symm.trans hl
    exact ⟨t', by simp [hsize, hduration, ht'], hwhole⟩
  · exact carries_mixSounds rfl hg fun hd => exists_sounds_of_assembleLayers hlayers hstack htop hd

/-- A clip with the sound of another one gives the picture of the one and the sound of the
other. -/
lemma gives_scored {t : Traits} {picture sound : Clip} (hp : Realizable picture)
    (hs : Realizable sound) (h : assemble (.scored t picture sound) d start = .ok f) :
    f.Gives start (pictureTerm (.scored t picture sound))
      (soundTerm (.scored t picture sound)) := by
  obtain ⟨p, s, hpicture, hsound, rfl⟩ := assemble_scored_eq_ok.1 h
  intro g hg
  obtain ⟨hfirst, hlast⟩ := Fragment.within_append hg
  rw [pictureTerm, soundTerm]
  constructor
  · rcases assembleIf_eq_ok.1 hpicture with ⟨-, hpicture⟩ | ⟨-, rfl⟩
    · exact ((hp _ _ _ hpicture).gives g hfirst).1
    · exact carries_none
  · have hgives : s.Gives (p.after start) (pictureTerm sound) (soundTerm sound) := by
      rcases assembleIf_eq_ok.1 hsound with ⟨-, hsound⟩ | ⟨-, rfl⟩
      · exact (hs _ _ _ hsound).gives
      · exact fun g _ => ⟨carries_none, carries_none⟩
    exact (gives_limitSound hgives picture.duration g hlast).2

/-- The walk over a coherent clip gives streams that stand for the terms of the clip. -/
theorem realizable_of_coherent {c : Clip} (hc : c.Coherent) : Realizable c := by
  intro d start f h
  refine ⟨given_assemble hc h, ?_⟩
  induction hc generalizing d start f with
  | image path duration size =>
    rw [assemble_source_eq_ok.1 h]
    exact gives_sourceFragment _ .image path (some duration) start
  | video path limit probed hasSound size =>
    rw [assemble_source_eq_ok.1 h]
    exact gives_sourceFragment _ .video path limit start
  | audio path limit probed =>
    rw [assemble_source_eq_ok.1 h]
    exact gives_sourceFragment _ .audio path limit start
  | resized width height hinput hpicture ih =>
    obtain ⟨f', hf', rfl⟩ := assemble_resized_eq_ok.1 h
    rw [pictureTerm, soundTerm]
    exact gives_scaleFragment (ih _ _ _ hf') width height
  | framed margin color opacity hinput hpicture ih =>
    obtain ⟨f', hf', rfl⟩ := assemble_framed_eq_ok.1 h
    rw [pictureTerm, soundTerm]
    exact (ih _ _ _ hf').viaPicture fun stream => by simp
  | placed offset hinput hpicture ih =>
    rw [assemble_placed] at h
    rw [pictureTerm, soundTerm]
    exact ih _ _ _ h
  | joined hparts hpictures ih =>
    refine gives_joined (fun c hc d start f hf => ?_) (fun hpicture => ?_) h
    · exact ⟨given_assemble (hparts c hc) hf, ih c hc d start f hf⟩
    · exact List.forall_mem_cons.2 ⟨hpicture, fun c hc => (hpictures c hc).trans hpicture⟩
  | layered size hlayers hsome ih =>
    refine gives_layered (fun c hc d start f hf => ?_) rfl h
    exact ⟨given_assemble (hlayers c hc) hf, ih c hc d start f hf⟩
  | scored hpicture hsound hseen hheard ihp ihs =>
    refine gives_scored (fun d start f hf => ?_) (fun d start f hf => ?_) h
    · exact ⟨given_assemble hpicture hf, ihp d start f hf⟩
    · exact ⟨given_assemble hsound hf, ihs d start f hf⟩
  | trimmed begins stop hinput hstop hstart ih =>
    obtain ⟨f', hf', rfl⟩ := assemble_trimmed_eq_ok.1 h
    rw [pictureTerm, soundTerm]
    exact ((ih _ _ _ hf').viaPicture fun stream => by simp).viaSound fun stream => by simp

/-! ### The graph -/

/-- A label of a graph stands for a term and for no other. -/
def Defines (g : Filtergraph) (l : Label) (t : Term) : Prop := ∀ t', Unfolds g l t' ↔ t' = t

/-- A graph computes what a clip says: the streams of the clip leave it, and no others, and each
stands for the term of the clip. -/
structure Faithful (c : Clip) (g : Filtergraph) : Prop where
  picture : c.hasPicture = true → g.picture = some (.final .picture) ∧
    ∃ t, pictureTerm c = some t ∧ Defines g (.final .picture) t
  noPicture : c.hasPicture = false → g.picture = none ∧ ∀ t, ¬ Unfolds g (.final .picture) t
  sound : c.hasSound = true → g.sound = some (.final .sound) ∧
    ∃ t, soundTerm c = some t ∧ Defines g (.final .sound) t
  noSound : c.hasSound = false → g.sound = none ∧ ∀ t, ¬ Unfolds g (.final .sound) t

/-- A fragment from the beginning is a part of its graph. -/
lemma within_close (f : Fragment) : f.Within ⟨0, 0⟩ f.close := by
  refine ⟨fun i input hi => ?_, fun ch hch => List.mem_append_left _ hch⟩
  rw [Nat.zero_add]
  exact hi

/-- In a graph whose labels are in order, a stream that leaves stands for what it stood for inside,
and for nothing else. -/
lemma defines_final (hlinear : Linear g) {stream : Stream} {l : Label} {t : Term}
    (hexit : exit stream l ∈ g.chains) (ht : Unfolds g l t) : Defines g (.final stream) t := by
  have hfinal : Unfolds g (.final stream) t := .copy hexit ht
  intro t'
  constructor
  · intro ht'
    exact hlinear.unfolds_unique ht' hfinal
  · rintro rfl
    exact hfinal

/-- A picture leaves a graph when there is one. -/
lemma mem_exits_picture : .final .picture ∈ f.exits.map Chain.output ↔ f.picture.isSome = true := by
  unfold Fragment.exits
  cases f.picture <;> cases f.sound <;> simp [exit]

/-- A sound leaves a graph when there is one. -/
lemma mem_exits_sound : .final .sound ∈ f.exits.map Chain.output ↔ f.sound.isSome = true := by
  unfold Fragment.exits
  cases f.picture <;> cases f.sound <;> simp [exit]

/-- What leaves a graph leaves it through an exit. -/
lemma final_mem_exits_of_unfolds {c : Clip} (hf : assemble c d ⟨0, 0⟩ = .ok f) {stream : Stream}
    {t : Term} (ht : Unfolds f.close (.final stream) t) :
    .final stream ∈ f.exits.map Chain.output := by
  have hmem : .final stream ∈ (f.chains ++ f.exits).map Chain.output := by
    cases ht with
    | copy h _ => exact List.mem_map.2 ⟨_, h, rfl⟩
    | chain h _ _ => exact List.mem_map.2 ⟨_, h, rfl⟩
  rw [List.map_append] at hmem
  rcases List.mem_append.1 hmem with hchain | hexit
  · obtain ⟨ch, hch, hfinal⟩ := List.mem_map.1 hchain
    obtain ⟨s, n, hlink, -⟩ := (ledger_of_wiring (wired_assemble hf)).issued ch hch
    cases hlink.symm.trans hfinal
  · exact hexit

/-- The graph of a clip that is obtained computes what the clip says. -/
theorem faithful_ofClip {h : Host} {o : RenderOptions} {c : Clip} (hc : Renderer.Obtained h o c)
    (hg : ofClip c = .ok g) : Faithful c g := by
  have hlinear : Linear g := linear_ofClip hg
  obtain ⟨f, hf, rfl⟩ := ofClip_eq_ok.1 hg
  have hrealizes := realizable_of_coherent hc.coherent _ _ _ hf
  have hwithin := within_close f
  constructor
  · intro hpicture
    obtain ⟨l, t, hl, ht, hunfolds⟩ := hrealizes.exists_picture hwithin hpicture hpicture
    refine ⟨by simp [Fragment.close, hl], t, ht, defines_final hlinear ?_ hunfolds⟩
    refine List.mem_append_right _ ?_
    simp [Fragment.exits, hl]
  · intro hpicture
    have hnone := hrealizes.picture_eq_none hpicture
    refine ⟨by simp [Fragment.close, hnone], fun t ht => ?_⟩
    have hexit := final_mem_exits_of_unfolds hf ht
    rw [mem_exits_picture, hnone] at hexit
    exact Bool.false_ne_true hexit
  · intro hsound
    obtain ⟨l, t, hl, ht, hunfolds⟩ := hrealizes.exists_sound hwithin hsound hsound
    refine ⟨by simp [Fragment.close, hl], t, ht, defines_final hlinear ?_ hunfolds⟩
    refine List.mem_append_right _ ?_
    simp [Fragment.exits, hl]
  · intro hsound
    have hnone := hrealizes.sound_eq_none hsound
    refine ⟨by simp [Fragment.close, hnone], fun t ht => ?_⟩
    have hexit := final_mem_exits_of_unfolds hf ht
    rw [mem_exits_sound, hnone] at hexit
    exact Bool.false_ne_true hexit

/-- A renderer that sees a video file and a picture. -/
def studio : Renderer :=
  ⟨⟨[(⟨.above 0, ["talk.mp4"]⟩,
        .file (.media "[[[\"video\",4,3],[\"audio\",null,null]],[\"0\"]]" 0 "")),
      (⟨.above 0, ["card.png"]⟩, .file (.image 4 3))]⟩, []⟩

/-- The usual programs, without encoding anything. -/
def rehearsal : RenderOptions := ⟨"ffmpeg", "ffprobe", true, true⟩

open Renderer

/-- The video file is there, and the prober knows it. -/
lemma exists_probe_talk : ∃ content, studio.files.file? ⟨"talk.mp4"⟩ = some content ∧
    (probe .standard rehearsal ⟨"talk.mp4"⟩ studio.files).1 =
      .ok ⟨some .zero, some ⟨4, 3⟩, true, true⟩ := by
  have hfile : (studio.files.file? ⟨"talk.mp4"⟩).isSome = true := by decide +kernel
  obtain ⟨content, hcontent⟩ := Option.isSome_iff_exists.1 hfile
  have hprobe : (probe .standard rehearsal ⟨"talk.mp4"⟩ studio.files).1.toOption =
      some ⟨some .zero, some ⟨4, 3⟩, true, true⟩ := by decide +kernel
  exact ⟨content, hcontent, toOption_eq_some.1 hprobe⟩

/-- The video file can be opened. -/
lemma obtained_talk : Obtained .standard rehearsal talk := by
  obtain ⟨content, hcontent, hprobe⟩ := exists_probe_talk
  have hopen : (openFile .standard rehearsal ⟨.video, ⟨"talk.mp4"⟩, none, true⟩ content
      studio.files).1 = .ok talk :=
    openFile_eq_ok.2 (.inr ⟨_, hprobe, .inl ⟨rfl, videoClip_eq_ok.2 ⟨rfl, rfl⟩⟩⟩)
  exact @Obtained.made _ _ (.source ⟨.video, ⟨"talk.mp4"⟩, none, true⟩) studio talk
    (fun d hd => nomatch hd) (openSource_eq_ok.2 ⟨content, hcontent, hopen⟩)

/-- The picture can be opened. -/
lemma obtained_card : Obtained .standard rehearsal card := by
  have hfile : studio.files.file? ⟨"card.png"⟩ = some (.image 4 3) := by decide +kernel
  have hsize : (imageSize ⟨"card.png"⟩ (.image 4 3)).toOption = some ⟨4, 3⟩ := by decide +kernel
  have hopen : (openFile .standard rehearsal ⟨.image, ⟨"card.png"⟩, some .zero, false⟩
      (.image 4 3) studio.files).1 = .ok card :=
    openFile_eq_ok.2 (.inl ⟨rfl, imageClip_eq_ok.2 ⟨⟨4, 3⟩, .zero, toOption_eq_some.1 hsize, rfl,
      rfl⟩⟩)
  exact @Obtained.made _ _ (.source ⟨.image, ⟨"card.png"⟩, some .zero, false⟩) studio card
    (fun d hd => nomatch hd) (openSource_eq_ok.2 ⟨_, hfile, hopen⟩)

/-- The composition is obtained by four calls. -/
lemma obtained_encore : Obtained .standard rehearsal encore := by
  have hlecture : Obtained .standard rehearsal lecture := by
    refine @Obtained.made _ _ (.concatenate [talk, card]) studio lecture ?_
      (pureReply_eq_ok.2 rfl)
    simp [Recipe.clips, obtained_talk, obtained_card]
  refine @Obtained.made _ _ (.composite [lecture, talk] none) studio encore ?_
    (pureReply_eq_ok.2 rfl)
  simp [Recipe.clips, hlecture, obtained_talk]

/-- The graph of that composition computes what the composition says. -/
theorem faithful_encore : ∃ g, ofClip encore = .ok g ∧ Faithful encore g :=
  ⟨_, rfl, faithful_ofClip obtained_encore rfl⟩

end Montage.Filtergraph
