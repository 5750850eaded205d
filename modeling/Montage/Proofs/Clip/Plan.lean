import Montage.Proofs.Clip.Coherent
import Montage.Proofs.Filtergraph.Meaning
import Montage.Proofs.Session.Counterparts

/-!
# Plans

A `Plan` says how calls of the renderer make a larger clip of given clips and of one that is still
to be filled in; it may be used in several places.

Nothing that is made of a clip depends on more than the traits of the clip and the outcomes of walks
over it.  Clips that share these are `Alike`, and filling one or the other into a plan gives clips
that are alike again, or the same error (`build_alike`).  So the graphs are the same as well.
-/

namespace Montage

open Filtergraph

namespace Clip

/-! ### Clips that are alike -/

/-- The clips have the same traits, and walks over them have the same outcome. -/
structure Alike (c c' : Clip) : Prop where
  traits : c.traits = c'.traits
  walk : ∀ d start, assemble c d start = assemble c' d start

/-- What is known of a clip, and the graph that computes it or the fault for which there is none. -/
def view (c : Clip) : Traits × Except Fault Filtergraph := (c.traits, ofClip c)

variable {c c' p p' : Clip} {cs cs' : List Clip}

namespace Alike

/-- A clip is like itself. -/
lemma refl (c : Clip) : c.Alike c := ⟨rfl, fun _ _ => rfl⟩

/-- Clips that are alike have the same view. -/
lemma view_eq (h : c.Alike c') : c.view = c'.view := by
  unfold view ofClip hasPicture hasSound
  rw [h.traits, h.walk]

/-- Clips that are alike have traits of which the same can be said. -/
lemma map_eq {α : Type} (f : Traits → α) (h : List.Forall₂ Alike cs cs') :
    cs.map (fun c => f c.traits) = cs'.map fun c => f c.traits := by
  induction h with
  | nil => rfl
  | cons hc _ ih => rw [List.map_cons, List.map_cons, hc.traits, ih]

/-- What some clip of a list has, some clip of a list of clips that are alike has. -/
lemma any_eq (f : Traits → Bool) (h : List.Forall₂ Alike cs cs') :
    (cs.any fun c => f c.traits) = cs'.any fun c => f c.traits := by
  have hmap : (cs.map fun c => f c.traits).any id = (cs'.map fun c => f c.traits).any id := by
    rw [map_eq f h]
  rwa [List.any_map, List.any_map] at hmap

/-! ### Changes -/

variable {t t' : Traits}

/-- Clips that are alike are resized to clips that are alike. -/
lemma resized (h : c.Alike c') (ht : t = t') (width height : Option UInt32) :
    Alike (.resized t c width height) (.resized t' c' width height) := by
  refine ⟨ht, fun d start => ?_⟩
  simp only [assemble, ht, h.walk]

/-- Clips that are alike are framed to clips that are alike. -/
lemma framed (h : c.Alike c') (ht : t = t') (margin : UInt32) (color : Color) (opacity : UInt32) :
    Alike (.framed t c margin color opacity) (.framed t' c' margin color opacity) := by
  refine ⟨ht, fun d start => ?_⟩
  simp only [assemble, ht, h.walk]

/-- Clips that are alike are placed as clips that are alike. -/
lemma placed (h : c.Alike c') (ht : t = t') : Alike (.placed t c) (.placed t' c') := by
  refine ⟨ht, fun d start => ?_⟩
  simp only [assemble, ht, h.walk]

/-- Clips that are alike are trimmed to clips that are alike. -/
lemma trimmed (h : c.Alike c') (ht : t = t') (start : Seconds) (stop : Option Seconds) :
    Alike (.trimmed t c start stop) (.trimmed t' c' start stop) := by
  refine ⟨ht, fun d begins => ?_⟩
  simp only [assemble, ht, h.walk]

/-- Pictures and sounds that are alike make scored clips that are alike. -/
lemma scored (hp : p.Alike p') (hc : c.Alike c') (ht : t = t') :
    Alike (.scored t p c) (.scored t' p' c') := by
  refine ⟨ht, fun d start => ?_⟩
  have hlength : p.duration = p'.duration := congrArg Traits.duration hp.traits
  simp only [assemble, ht, hp.walk, hc.walk, hlength]

/-! ### Combinations -/

/-- The walks over parts that are alike have the same outcome. -/
lemma assembleParts_eq (h : List.Forall₂ Alike cs cs') (d : Demand) (start : Cursor) :
    assembleParts cs d start = assembleParts cs' d start := by
  induction h generalizing start with
  | nil => rfl
  | @cons c c' cs cs' hc _ ih =>
    have hlength : c.duration = c'.duration := congrArg Traits.duration hc.traits
    simp only [assembleParts, hc.walk, hlength, ih]

/-- The walks over layers that are alike have the same outcome. -/
lemma assembleLayers_eq (h : List.Forall₂ Alike cs cs') (d : Demand) (below : Option Label)
    (start : Cursor) : assembleLayers cs d below start = assembleLayers cs' d below start := by
  induction h generalizing below start with
  | nil => rfl
  | @cons c c' cs cs' hc _ ih =>
    have hoffset : c.offset = c'.offset := congrArg Traits.offset hc.traits
    simp only [assembleLayers, hc.walk, hoffset, ih]

/-- Parts that are alike make sequences that are alike. -/
lemma joined (h : List.Forall₂ Alike cs cs') (ht : t = t') :
    Alike (.joined t cs) (.joined t' cs') := by
  refine ⟨ht, fun d start => ?_⟩
  simp only [assemble, ht, assembleParts_eq h]

/-- Layers that are alike make compositions that are alike. -/
lemma layered (h : List.Forall₂ Alike cs cs') (ht : t = t') (size : Canvas) :
    Alike (.layered t cs size) (.layered t' cs' size) := by
  refine ⟨ht, fun d start => ?_⟩
  simp only [assemble, ht, assembleLayers_eq h]

end Alike

/-! ### Outcomes of the constructors -/

/-- Of clips that are alike, both or none have a picture where one is required. -/
lemma requirePicture_alike (h : c.Alike c') (kind : Kind) :
    c.requirePicture kind = c'.requirePicture kind := by
  unfold requirePicture hasPicture
  rw [h.traits]

/-- Clips that are alike are given a new size alike. -/
lemma resize_alike (h : c.Alike c') (width height : Option UInt32) :
    SameOutcome Alike (c.resize width height) (c'.resize width height) := by
  unfold resize
  rw [requirePicture_alike h]
  refine (SameOutcome.refl (fun _ => rfl) _).bind (R := Eq) fun _ _ _ => .ok (h.resized ?_ _ _)
  rw [h.traits, size, size, h.traits]

/-- Clips that are alike are given a border alike. -/
lemma frame_alike (h : c.Alike c') (margin : UInt32) (color : Color) (opacity : UInt32) :
    SameOutcome Alike (c.frame margin color opacity) (c'.frame margin color opacity) := by
  unfold frame
  rw [requirePicture_alike h]
  refine (SameOutcome.refl (fun _ => rfl) _).bind (R := Eq) fun _ _ _ => .ok (h.framed ?_ _ _ _)
  rw [h.traits, size, size, h.traits]

/-- Clips that are alike are placed alike. -/
lemma place_alike (h : c.Alike c') (x y : Option UInt32) :
    SameOutcome Alike (c.place x y) (c'.place x y) := by
  unfold place
  rw [requirePicture_alike h]
  refine (SameOutcome.refl (fun _ => rfl) _).bind (R := Eq) fun _ _ _ => .ok (h.placed ?_)
  rw [h.traits, offset, offset, h.traits]

/-- Clips that are alike are played one after another alike. -/
lemma concatenate_alike (h : List.Forall₂ Alike cs cs') :
    SameOutcome Alike (concatenate cs) (concatenate cs') := by
  cases h with
  | nil => exact .error _
  | @cons c c' cs cs' hc hcs =>
    have hall : List.Forall₂ Alike (c :: cs) (c' :: cs') := .cons hc hcs
    have hpicture : c.hasPicture = c'.hasPicture := congrArg Traits.hasPicture hc.traits
    have hmixed : (cs.any fun d => d.hasPicture != c.hasPicture) =
        cs'.any fun d => d.hasPicture != c'.hasPicture := by
      rw [hpicture]
      exact Alike.any_eq (fun t => t.hasPicture != c'.hasPicture) hcs
    have hsound : (c :: cs).any hasSound = (c' :: cs').any hasSound :=
      Alike.any_eq Traits.hasSound hall
    have hlength : (c :: cs).map duration = (c' :: cs').map duration :=
      Alike.map_eq Traits.duration hall
    have hsize : c.size = c'.size := congrArg Traits.size hc.traits
    unfold concatenate
    dsimp only
    rw [hmixed]
    split
    · exact .error _
    · refine .ok (Alike.joined hall ?_)
      rw [hpicture, hsound, hlength, hsize]

/-- The first pictures of lists of clips that are alike have the same size. -/
lemma firstSize_alike (h : List.Forall₂ Alike cs cs') : firstSize cs = firstSize cs' := by
  unfold firstSize
  induction h with
  | nil => rfl
  | @cons c c' cs cs' hc _ ih =>
    have hpicture : c.hasPicture = c'.hasPicture := congrArg Traits.hasPicture hc.traits
    have hsize : c.size = c'.size := congrArg Traits.size hc.traits
    rw [List.find?_cons, List.find?_cons, hpicture]
    cases c'.hasPicture with
    | true => exact hsize
    | false => exact ih

/-- Clips that are alike are put on a canvas alike. -/
lemma compose_alike (h : List.Forall₂ Alike cs cs') (size : Option Canvas) :
    SameOutcome Alike (compose cs size) (compose cs' size) := by
  have hnone : cs.isEmpty = cs'.isEmpty := by
    cases h <;> rfl
  have hsound : cs.any hasSound = cs'.any hasSound := Alike.any_eq Traits.hasSound h
  have hlength : cs.map duration = cs'.map duration := Alike.map_eq Traits.duration h
  unfold compose
  rw [hnone, firstSize_alike h]
  split
  · exact .error _
  · split
    · exact .error _
    · refine .ok (Alike.layered h ?_ _)
      rw [hsound, hlength]

/-- A picture is given a sound alike. -/
lemma setAudio_alike (hp : p.Alike p') (hc : c.Alike c') :
    SameOutcome Alike (setAudio p c) (setAudio p' c') := by
  have hsound : c.hasSound = c'.hasSound := congrArg Traits.hasSound hc.traits
  unfold setAudio
  rw [requirePicture_alike hp, hsound]
  refine (SameOutcome.refl (fun _ => rfl) _).bind (R := Eq) fun _ _ _ => ?_
  split
  · exact .ok (hp.scored hc (by rw [hp.traits]))
  · exact .error _

/-- Fails unless a range has something in it and starts before the end of what it is taken from. -/
def checkRange (start : Seconds) (stop total : Option Seconds) : Except Fault Unit := do
  if let some stop := stop then
    if stop.le start then throw (.emptyRange start stop)
  if let some total := total then
    if total.le start then throw (.startPastEnd start total)

/-- A clip is cut when the range lets it. -/
lemma cut_eq (c : Clip) (start : Seconds) (stop : Option Seconds) :
    c.cut start stop = checkRange start stop c.duration >>= fun _ =>
      .ok (.trimmed { c.traits with duration := trimmedDuration start stop c.duration } c start
        stop) := by
  unfold cut checkRange
  cases stop with
  | none =>
    cases c.duration with
    | none => rfl
    | some total =>
      dsimp only
      cases total.le start <;> rfl
  | some s =>
    cases c.duration with
    | none =>
      dsimp only
      cases s.le start <;> rfl
    | some total =>
      dsimp only
      cases s.le start <;> cases total.le start <;> rfl

/-- Clips that are alike are cut alike. -/
lemma cut_alike (h : c.Alike c') (start : Seconds) (stop : Option Seconds) :
    SameOutcome Alike (c.cut start stop) (c'.cut start stop) := by
  have hlength : c.duration = c'.duration := congrArg Traits.duration h.traits
  rw [cut_eq, cut_eq, hlength]
  refine (SameOutcome.refl (fun _ => rfl) _).bind (R := Eq) fun _ _ _ => .ok (h.trimmed ?_ _ _)
  rw [h.traits]

end Clip

/-! ### Calls -/

namespace Renderer

variable {h : Host} {o : RenderOptions} {r : Renderer}

/-- An effect changes clips that are alike alike. -/
lemma change_alike {c c' : Clip} (hc : c.Alike c') (e : Effect) :
    SameOutcome Clip.Alike (change c e) (change c' e) := by
  cases e with
  | margin m => exact Clip.frame_alike hc _ _ _
  | position x y => exact Clip.place_alike hc x y
  | resize height width => exact Clip.resize_alike hc width height

/-- Recipes with clips that are alike make clips that are alike. -/
theorem make_alike {recipe recipe' : Recipe Clip} (hrecipe : recipe.Alike Clip.Alike recipe') :
    SameOutcome Clip.Alike (make h o recipe r).outcome (make h o recipe' r).outcome := by
  cases hrecipe with
  | source s => exact SameOutcome.refl Clip.Alike.refl _
  | effect hinput e => exact (change_alike hinput e).mapError _
  | concatenate hclips => exact (Clip.concatenate_alike hclips).mapError _
  | composite hlayers size => exact (Clip.compose_alike hlayers size).mapError _
  | attachAudio hpicture hsound => exact (Clip.setAudio_alike hpicture hsound).mapError _
  | extractRange hinput start stop => exact (Clip.cut_alike hinput _ _).mapError _

end Renderer

/-! ### Plans -/

/-- How a larger clip is made, out of given clips and of one that fills each gap. -/
inductive Plan where
  | gap
  | clip (c : Clip)
  | effect (input : Plan) (e : Effect)
  | concatenate (parts : List Plan)
  | composite (layers : List Plan) (size : Option Canvas)
  | attachAudio (picture sound : Plan)
  | extractRange (input : Plan) (start : Timestamp) (stop : Option Timestamp)

/-- Induction over a plan: what holds of every part of a sequence and of every layer of a
composition may be used for the whole. -/
@[elab_as_elim, induction_eliminator]
theorem Plan.inductionOn {motive : Plan → Prop} (gap : motive .gap) (clip : ∀ c, motive (.clip c))
    (effect : ∀ input e, motive input → motive (.effect input e))
    (concatenate : ∀ parts, (∀ p ∈ parts, motive p) → motive (.concatenate parts))
    (composite : ∀ layers size, (∀ p ∈ layers, motive p) → motive (.composite layers size))
    (attachAudio : ∀ picture sound, motive picture → motive sound →
      motive (.attachAudio picture sound))
    (extractRange : ∀ input start stop, motive input → motive (.extractRange input start stop))
    (plan : Plan) : motive plan :=
  @Plan.rec motive (fun ps => ∀ p ∈ ps, motive p) gap clip effect concatenate composite attachAudio
    extractRange (fun _ h => nomatch h) (fun _ _ hp hps => List.forall_mem_cons.2 ⟨hp, hps⟩) plan

namespace Plan

section Build

variable (h : Host) (o : RenderOptions) (r : Renderer)

mutual

/-- What the calls of a plan make, one after another, when a clip fills its gaps; the first call
that fails ends it. -/
def build : Plan → Clip → Except Error Clip
  | .gap, c => .ok c
  | .clip d, _ => .ok d
  | .effect input e, c => do
    (Renderer.make h o (.effect (← build input c) e) r).outcome
  | .concatenate parts, c => do
    (Renderer.make h o (.concatenate (← buildAll parts c)) r).outcome
  | .composite layers size, c => do
    (Renderer.make h o (.composite (← buildAll layers c) size) r).outcome
  | .attachAudio picture sound, c => do
    let picture ← build picture c
    (Renderer.make h o (.attachAudio picture (← build sound c)) r).outcome
  | .extractRange input start stop, c => do
    (Renderer.make h o (.extractRange (← build input c) start stop) r).outcome

/-- What several plans make. -/
def buildAll : List Plan → Clip → Except Error (List Clip)
  | [], _ => .ok []
  | p :: ps, c => do
    let d ← build p c
    return d :: (← buildAll ps c)

end

end Build

variable {h : Host} {o : RenderOptions} {r : Renderer} {c c' : Clip}

/-- Several plans make clips that are alike of clips that are alike when each single one does. -/
lemma buildAll_alike {ps : List Plan}
    (hps : ∀ p ∈ ps, SameOutcome Clip.Alike (build h o r p c) (build h o r p c')) :
    SameOutcome (List.Forall₂ Clip.Alike) (buildAll h o r ps c) (buildAll h o r ps c') := by
  induction ps with
  | nil => exact .ok .nil
  | cons p ps ih =>
    obtain ⟨hp, hps⟩ := List.forall_mem_cons.1 hps
    rw [buildAll, buildAll]
    exact hp.bind fun d d' hd => (ih hps).bind fun ds ds' hds => .ok (.cons hd hds)

/-- Clips that are alike fill the gaps of a plan alike. -/
theorem build_alike (plan : Plan) (hc : c.Alike c') :
    SameOutcome Clip.Alike (plan.build h o r c) (plan.build h o r c') := by
  induction plan with
  | gap => exact .ok hc
  | clip d => exact .ok (.refl d)
  | effect input e ih =>
    rw [build, build]
    exact ih.bind fun d d' hd => Renderer.make_alike (.effect hd e)
  | concatenate parts ih =>
    rw [build, build]
    exact (buildAll_alike ih).bind fun ds ds' hds => Renderer.make_alike (.concatenate hds)
  | composite layers size ih =>
    rw [build, build]
    exact (buildAll_alike ih).bind fun ds ds' hds => Renderer.make_alike (.composite hds size)
  | attachAudio picture sound ihp ihs =>
    rw [build, build]
    exact ihp.bind fun p p' hp => ihs.bind fun s s' hs => Renderer.make_alike (.attachAudio hp hs)
  | extractRange input start stop ih =>
    rw [build, build]
    exact ih.bind fun d d' hd => Renderer.make_alike (.extractRange hd start stop)

end Plan

end Montage
