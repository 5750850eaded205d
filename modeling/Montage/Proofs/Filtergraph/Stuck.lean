import Montage.Proofs.Clip.Known
import Montage.Proofs.Renderer.Command

/-!
# Walks that get stuck

A graph is full of lengths: a canvas is as long as its composition, and silence as long as the part
that it is put in for.  So a walk gets stuck where such a length is needed and not known, and
`Visit.Stuck` lists these places.  A walk over a coherent clip fails for no other reason
(`decided_of_coherent`).

A smaller demand visits less, so a walk that succeeds still does so when less is demanded
(`passable_of_le`).  When all source files of a clip have known lengths, then so have the nodes
above them, and no walk gets stuck (`passable_of_timed`).  Without that, a known length of the whole
clip is not enough: `lowering_of_excerpt` is about a part of 5 seconds of a composition that never
ends.
-/

namespace Montage

namespace Filtergraph

variable {c : Clip} {cs : List Clip} {d e : Demand} {start : Cursor} {v w : Visit}
  {vs ws : List Visit}

/-- A walk cannot go on from the visit: a length is needed there that is not known. -/
inductive Visit.Stuck : Visit → Prop
  /-- The picture of a composition is demanded, and it is not known how long the canvas is. -/
  | layered {t : Traits} {layers : List Clip} {size : Canvas} {d : Demand}
      (hpicture : d.picture = true) (hlength : (Clip.layered t layers size).duration = none) :
      Stuck ⟨.layered t layers size, d⟩
  /-- The sound of a sequence is demanded, and it is not known how long the silence of a part
  is. -/
  | joined {t : Traits} {parts : List Clip} {d : Demand} {c : Clip} (hsound : d.sound = true)
      (hpart : c ∈ parts) (hsilent : c.hasSound = false) (hlength : c.duration = none) :
      Stuck ⟨.joined t parts, d⟩

/-- A walk gets past all of the visits. -/
def Passable (vs : List Visit) : Prop := ∀ v ∈ vs, ¬ v.Stuck

/-- Visits after one another are passable when both parts are. -/
lemma passable_append : Passable (vs ++ ws) ↔ Passable vs ∧ Passable ws :=
  List.forall_mem_append

/-- A single visit is passable when it is not stuck. -/
lemma passable_singleton : Passable [v] ↔ ¬ v.Stuck := List.forall_mem_singleton

/-- A further visit that is not stuck changes nothing. -/
lemma passable_concat (hv : ¬ v.Stuck) : Passable (vs ++ [v]) ↔ Passable vs := by
  rw [passable_append, passable_singleton, and_iff_left hv]

/-- A visit of a composition is stuck exactly when a picture of unknown length is demanded. -/
lemma stuck_layered {t : Traits} {layers : List Clip} {size : Canvas} :
    Visit.Stuck ⟨.layered t layers size, d⟩ ↔ d.picture = true ∧ t.duration = none := by
  constructor
  · rintro ⟨hpicture, hlength⟩
    exact ⟨hpicture, hlength⟩
  · rintro ⟨hpicture, hlength⟩
    exact .layered hpicture hlength

/-- A visit of a sequence is stuck exactly when silence of unknown length is demanded. -/
lemma stuck_joined {t : Traits} {parts : List Clip} : Visit.Stuck ⟨.joined t parts, d⟩ ↔
    d.sound = true ∧ ∃ c ∈ parts, c.hasSound = false ∧ c.duration = none := by
  constructor
  · rintro (_ | ⟨hsound, hpart, hsilent, hlength⟩)
    exact ⟨hsound, _, hpart, hsilent, hlength⟩
  · rintro ⟨hsound, c, hpart, hsilent, hlength⟩
    exact .joined hsound hpart hsilent hlength

/-! ### Steps of the walk -/

/-- A step that goes on with a result whatever it is adds no reason to fail. -/
lemma exists_step {α β : Type} {reached : α → Prop} {step : α → β} :
    (∃ b, ∃ a, reached a ∧ b = step a) ↔ ∃ a, reached a := by
  constructor
  · rintro ⟨-, a, ha, -⟩
    exact ⟨a, ha⟩
  · rintro ⟨a, ha⟩
    exact ⟨step a, a, ha, rfl⟩

/-- A canvas can be made unless a picture of unknown length is demanded. -/
lemma exists_canvasFragment {size : Canvas} {duration : Option Seconds} :
    (∃ canvas, canvasFragment d size duration start = .ok canvas) ↔
      ¬ (d.picture = true ∧ duration = none) := by
  simp only [canvasFragment_eq_ok]
  cases d.picture <;> cases duration <;> simp

/-- Silence can be put in unless it is of unknown length. -/
lemma exists_fillSilence {duration : Option Seconds} {f : Fragment} :
    (∃ g, fillSilence d duration start f = .ok g) ↔
      (d.sound = true → f.sound = none → duration ≠ none) := by
  simp only [fillSilence_eq_ok]
  cases d.sound <;> cases f.sound <;> cases duration <;> simp

/-! ### The walk -/

/-- A walk over the clip succeeds, from wherever it starts, exactly when it gets past its visits. -/
def Decided (c : Clip) : Prop :=
  ∀ {d start}, (∃ f, assemble c d start = .ok f) ↔ Passable (visits c d)

/-- Silence can be put in for a part of a coherent clip, unless it is demanded, the part has no
sound and its length is not known. -/
lemma exists_fillSilence_of_coherent {g : Fragment} (hc : c.Coherent)
    (hg : assemble c d start = .ok g) :
    (∃ f, fillSilence d c.duration start g = .ok f) ↔
      ¬ (d.sound = true ∧ c.hasSound = false ∧ c.duration = none) := by
  -- A walk over a coherent clip gives every stream that is demanded and that the clip has.
  have hsound : g.sound.isSome = (d.sound && c.hasSound) :=
    congrArg Demand.sound (given_assemble hc hg)
  have hsilent : d.sound = true → (g.sound = none ↔ c.hasSound = false) := by
    intro hd
    rw [← Option.not_isSome_iff_eq_none, hsound, hd, Bool.true_and, Bool.not_eq_true]
  rw [exists_fillSilence]
  constructor
  · rintro hknown ⟨hd, hc, hlength⟩
    exact hknown hd ((hsilent hd).2 hc) hlength
  · intro hknown hd hnone hlength
    exact hknown ⟨hd, (hsilent hd).1 hnone, hlength⟩

/-- A walk over parts succeeds exactly when it gets past their visits, and knows the length of every
silence that is demanded. -/
lemma exists_assembleParts (hcoherent : ∀ c ∈ cs, c.Coherent) (hcs : ∀ c ∈ cs, Decided c) :
    (∃ b, assembleParts cs d start = .ok b) ↔ Passable (visitsAll cs d) ∧
      ¬ (d.sound = true ∧ ∃ c ∈ cs, c.hasSound = false ∧ c.duration = none) := by
  induction cs generalizing start with
  | nil => simp [assembleParts_nil_eq_ok, visitsAll, Passable]
  | cons c cs ih =>
    obtain ⟨hfirst, hothers⟩ := List.forall_mem_cons.1 hcoherent
    obtain ⟨hc, hcs⟩ := List.forall_mem_cons.1 hcs
    rw [visitsAll, passable_append]
    constructor
    · rintro ⟨b, hb⟩
      obtain ⟨g, f, rest, hg, hf, hrest, -⟩ := assembleParts_cons_eq_ok.1 hb
      obtain ⟨hpassable, hknown⟩ := (ih hothers hcs).1 ⟨rest, hrest⟩
      refine ⟨⟨hc.1 ⟨g, hg⟩, hpassable⟩, ?_⟩
      rintro ⟨hd, part, hpart, hunknown⟩
      rcases List.mem_cons.1 hpart with rfl | hpart
      · exact (exists_fillSilence_of_coherent hfirst hg).1 ⟨f, hf⟩ ⟨hd, hunknown⟩
      · exact hknown ⟨hd, part, hpart, hunknown⟩
    · rintro ⟨⟨hpast, hrest⟩, hknown⟩
      obtain ⟨g, hg⟩ := hc.2 hpast
      have hlength : ¬ (d.sound = true ∧ c.hasSound = false ∧ c.duration = none) := by
        rintro ⟨hd, hunknown⟩
        exact hknown ⟨hd, c, List.mem_cons_self, hunknown⟩
      have hlengths : ¬ (d.sound = true ∧ ∃ c ∈ cs, c.hasSound = false ∧ c.duration = none) := by
        rintro ⟨hd, part, hpart, hunknown⟩
        exact hknown ⟨hd, part, List.mem_cons_of_mem _ hpart, hunknown⟩
      obtain ⟨f, hf⟩ := (exists_fillSilence_of_coherent hfirst hg).2 hlength
      obtain ⟨rest, hrest⟩ : ∃ rest, assembleParts cs d (f.after start) = .ok rest :=
        (ih hothers hcs).2 ⟨hrest, hlengths⟩
      exact ⟨_, assembleParts_cons_eq_ok.2 ⟨g, f, rest, hg, hf, hrest, rfl⟩⟩

/-- A walk over layers succeeds exactly when it gets past their visits. -/
lemma exists_assembleLayers {below : Option Label} (hcs : ∀ c ∈ cs, Decided c) :
    (∃ stack sounds, assembleLayers cs d below start = .ok (stack, sounds)) ↔
      Passable (visitsAll cs d) := by
  induction cs generalizing start below with
  | nil => simp [assembleLayers_nil_eq_ok, visitsAll, Passable]
  | cons c cs ih =>
    obtain ⟨hc, hcs⟩ := List.forall_mem_cons.1 hcs
    rw [visitsAll, passable_append]
    constructor
    · rintro ⟨stack, sounds, h⟩
      obtain ⟨g, f, upper, others, hg, -, hupper, -, -⟩ := assembleLayers_cons_eq_ok.1 h
      exact ⟨hc.1 ⟨g, hg⟩, (ih hcs).1 ⟨upper, others, hupper⟩⟩
    · rintro ⟨hpast, hrest⟩
      obtain ⟨g, hg⟩ := hc.2 hpast
      let f := overlayFragment below c.offset start g
      obtain ⟨upper, others, hupper⟩ : ∃ upper others,
          assembleLayers cs d f.picture (f.after start) = .ok (upper, others) := (ih hcs).2 hrest
      exact ⟨_, _, assembleLayers_cons_eq_ok.2 ⟨g, f, upper, others, hg, rfl, hupper, rfl, rfl⟩⟩

/-- A walk that only takes place for a demand succeeds without it. -/
lemma exists_assembleIf {demanded : Bool} (hc : Decided c) :
    (∃ f, assembleIf demanded c d start = .ok f) ↔
      Passable (if demanded then visits c d else []) := by
  simp only [assembleIf_eq_ok]
  cases demanded with
  | false => simp [Passable]
  | true => simpa using hc

/-- A walk always gets past a source file. -/
lemma passable_source (t : Traits) (medium : Medium) (path : Path) (limit : Option Seconds)
    (d : Demand) : Passable (visits (.source t medium path limit) d) := by
  rw [visits, passable_singleton]
  rintro ⟨⟩

/-- A walk over a source file always succeeds. -/
lemma decided_source (t : Traits) (medium : Medium) (path : Path) (limit : Option Seconds) :
    Decided (.source t medium path limit) := fun {d _} =>
  iff_of_true ⟨_, assemble_source_eq_ok.2 rfl⟩ (passable_source t medium path limit d)

/-- A walk over a coherent clip succeeds exactly when it gets past its visits. -/
theorem decided_of_coherent (hc : c.Coherent) : Decided c := by
  induction hc with
  | image path duration size => exact decided_source _ _ _ _
  | video path limit probed hasSound size => exact decided_source _ _ _ _
  | audio path limit probed => exact decided_source _ _ _ _
  | resized width height hinput hpicture ih =>
    intro d start
    simp only [assemble_resized_eq_ok, exists_step]
    rw [visits, passable_concat]
    · exact ih
    · rintro ⟨⟩
  | framed margin color opacity hinput hpicture ih =>
    intro d start
    simp only [assemble_framed_eq_ok, exists_step]
    rw [visits, passable_concat]
    · exact ih
    · rintro ⟨⟩
  | placed offset hinput hpicture ih =>
    intro d start
    rw [assemble_placed, visits, passable_concat]
    · exact ih
    · rintro ⟨⟩
  | @joined c cs hparts hpictures ih =>
    intro d start
    simp only [assemble_joined_eq_ok, exists_step]
    rw [visits, passable_append, passable_singleton, exists_assembleParts hparts ih, stuck_joined]
  | layered size hlayers hsome ih =>
    intro d start
    rw [visits, passable_append, passable_singleton, stuck_layered, and_comm]
    constructor
    · rintro ⟨f, hf⟩
      obtain ⟨canvas, stack, sounds, hcanvas, hstack, -⟩ := assemble_layered_eq_ok.1 hf
      exact ⟨exists_canvasFragment.1 ⟨canvas, hcanvas⟩,
        (exists_assembleLayers ih).1 ⟨stack, sounds, hstack⟩⟩
    · rintro ⟨hknown, hpast⟩
      obtain ⟨canvas, hcanvas⟩ : ∃ canvas, canvasFragment _ size _ start = .ok canvas :=
        exists_canvasFragment.2 hknown
      obtain ⟨stack, sounds, hstack⟩ := (exists_assembleLayers ih).2 hpast
      exact ⟨_, assemble_layered_eq_ok.2 ⟨canvas, stack, sounds, hcanvas, hstack, rfl⟩⟩
  | scored hpicture hsound hseen hheard ihp ihs =>
    intro d start
    rw [visits, passable_concat, passable_append]
    · constructor
      · rintro ⟨f, hf⟩
        obtain ⟨p, s, hp, hs, -⟩ := assemble_scored_eq_ok.1 hf
        exact ⟨(exists_assembleIf ihp).1 ⟨p, hp⟩, (exists_assembleIf ihs).1 ⟨s, hs⟩⟩
      · rintro ⟨hpicture, hsound⟩
        obtain ⟨p, hp⟩ := (exists_assembleIf ihp).2 hpicture
        obtain ⟨s, hs⟩ := (exists_assembleIf ihs).2 hsound
        exact ⟨_, assemble_scored_eq_ok.2 ⟨p, s, hp, hs, rfl⟩⟩
    · rintro ⟨⟩
  | trimmed begins stop hinput hstop hstart ih =>
    intro d start
    simp only [assemble_trimmed_eq_ok, exists_step]
    rw [visits, passable_concat]
    · exact ih
    · rintro ⟨⟩

/-! ### Smaller demands -/

/-- A smaller demand stays so when a clip meets a part of it. -/
lemma Demand.within_mono (hde : d ≤ e) (t : Traits) : d.within t ≤ e.within t := by
  constructor
  · intro hp
    obtain ⟨hd, ht⟩ := Bool.and_eq_true_iff.1 hp
    exact Bool.and_eq_true_iff.2 ⟨hde.1 hd, ht⟩
  · intro hs
    obtain ⟨hd, ht⟩ := Bool.and_eq_true_iff.1 hs
    exact Bool.and_eq_true_iff.2 ⟨hde.2 hd, ht⟩

/-- A visit that is stuck stays so when more is demanded. -/
lemma Visit.Stuck.mono (hde : d ≤ e) (hstuck : Visit.Stuck ⟨c, d⟩) : Visit.Stuck ⟨c, e⟩ := by
  cases hstuck with
  | layered hpicture hlength => exact .layered (hde.1 hpicture) hlength
  | joined hsound hpart hsilent hlength => exact .joined (hde.2 hsound) hpart hsilent hlength

/-- A walk that gets past a node and what is below it does so when less is demanded. -/
lemma passable_concat_of_le (hde : d ≤ e) (hbelow : Passable ws → Passable vs)
    (he : Passable (ws ++ [⟨c, e⟩])) : Passable (vs ++ [⟨c, d⟩]) := by
  rw [passable_append, passable_singleton] at he ⊢
  exact ⟨hbelow he.1, fun hstuck => he.2 (hstuck.mono hde)⟩

/-- Walks that get past several clips do so when less is demanded. -/
lemma passable_visitsAll_of_le (hcs : ∀ c ∈ cs, Passable (visits c e) → Passable (visits c d))
    (he : Passable (visitsAll cs e)) : Passable (visitsAll cs d) := by
  induction cs with
  | nil => exact he
  | cons c cs ih =>
    obtain ⟨hc, hcs⟩ := List.forall_mem_cons.1 hcs
    rw [visitsAll, passable_append] at he ⊢
    exact ⟨hc he.1, ih hcs he.2⟩

/-- Visits that only take place for a demand are fewer when that is not made. -/
lemma passable_if_of_le {p q : Bool} (hpq : p = true → q = true)
    (hq : Passable (if q = true then vs else [])) : Passable (if p = true then vs else []) := by
  by_cases hp : p = true
  · rw [if_pos (hpq hp)] at hq
    rwa [if_pos hp]
  · rw [if_neg hp]
    exact List.forall_mem_nil _

/-- A walk that gets past its visits does so when less is demanded. -/
theorem passable_of_le (hde : d ≤ e) (he : Passable (visits c e)) : Passable (visits c d) := by
  induction c generalizing d e with
  | source t medium path limit =>
    rw [visits, passable_singleton] at he ⊢
    exact fun hstuck => he (hstuck.mono (Demand.within_mono hde t))
  | resized t input width height ih =>
    have hwithin := Demand.within_mono hde t
    exact passable_concat_of_le hwithin (ih hwithin) he
  | framed t input margin color opacity ih =>
    have hwithin := Demand.within_mono hde t
    exact passable_concat_of_le hwithin (ih hwithin) he
  | placed t input ih =>
    have hwithin := Demand.within_mono hde t
    exact passable_concat_of_le hwithin (ih hwithin) he
  | joined t parts ih =>
    have hwithin := Demand.within_mono hde t
    exact passable_concat_of_le hwithin
      (passable_visitsAll_of_le fun c hc => ih c hc hwithin) he
  | layered t layers size ih =>
    have hwithin := Demand.within_mono hde t
    exact passable_concat_of_le hwithin
      (passable_visitsAll_of_le fun c hc => ih c hc hwithin) he
  | scored t picture sound ihp ihs =>
    have hwithin := Demand.within_mono hde t
    refine passable_concat_of_le hwithin (fun hbelow => ?_) he
    rw [passable_append] at hbelow ⊢
    exact ⟨passable_if_of_le hwithin.1 hbelow.1, passable_if_of_le hwithin.2 hbelow.2⟩
  | trimmed t input begins stop ih =>
    have hwithin := Demand.within_mono hde t
    exact passable_concat_of_le hwithin (ih hwithin) he

/-! ### Known lengths -/

/-- Walks over several clips get past their visits when each single one does. -/
lemma passable_visitsAll (hcs : ∀ c ∈ cs, Passable (visits c d)) : Passable (visitsAll cs d) := by
  induction cs with
  | nil => exact List.forall_mem_nil _
  | cons c cs ih =>
    obtain ⟨hc, hcs⟩ := List.forall_mem_cons.1 hcs
    rw [visitsAll, passable_append]
    exact ⟨hc, ih hcs⟩

/-- A walk over a coherent clip gets past its visits when all source files have known lengths. -/
theorem passable_of_timed (hc : c.Coherent) (htimed : c.Timed) : Passable (visits c d) := by
  induction hc generalizing d with
  | image path duration size => exact passable_source _ _ _ _ d
  | video path limit probed hasSound size => exact passable_source _ _ _ _ d
  | audio path limit probed => exact passable_source _ _ _ _ d
  | resized width height hinput hpicture ih =>
    rw [visits, passable_concat]
    · exact ih htimed
    · rintro ⟨⟩
  | framed margin color opacity hinput hpicture ih =>
    rw [visits, passable_concat]
    · exact ih htimed
    · rintro ⟨⟩
  | placed offset hinput hpicture ih =>
    rw [visits, passable_concat]
    · exact ih htimed
    · rintro ⟨⟩
  | joined hparts hpictures ih =>
    rw [visits, passable_append, passable_singleton, stuck_joined]
    refine ⟨passable_visitsAll fun c hc => ih c hc (htimed.of_mem rfl hc), ?_⟩
    rintro ⟨-, part, hpart, -, hlength⟩
    have hknown := (hparts part hpart).isSome_duration (htimed.of_mem rfl hpart)
    exact Option.isSome_iff_ne_none.1 hknown hlength
  | layered size hlayers hsome ih =>
    have hknown := (Clip.Coherent.layered size hlayers hsome).isSome_duration htimed
    rw [visits, passable_append, passable_singleton, stuck_layered]
    refine ⟨passable_visitsAll fun c hc => ih c hc (htimed.of_mem rfl hc), ?_⟩
    rintro ⟨-, hlength⟩
    exact Option.isSome_iff_ne_none.1 hknown hlength
  | scored hpicture hsound hseen hheard ihp ihs =>
    have hp : Passable (visits _ .pictureOnly) :=
      ihp fun l hl => htimed l (List.mem_append_left _ hl)
    have hs : Passable (visits _ .soundOnly) :=
      ihs fun l hl => htimed l (List.mem_append_right _ hl)
    rw [visits, passable_concat, passable_append]
    · exact ⟨passable_if_of_le (q := true) (fun _ => rfl) hp,
        passable_if_of_le (q := true) (fun _ => rfl) hs⟩
    · rintro ⟨⟩
  | trimmed start stop hinput hstop hstart ih =>
    rw [visits, passable_concat]
    · exact ih htimed
    · rintro ⟨⟩

/-! ### The graph -/

/-- The graph of a coherent clip can be made exactly when the walk gets past all visits. -/
lemma exists_ofClip (hc : c.Coherent) :
    (∃ g, ofClip c = .ok g) ↔ Passable (visits c ⟨c.hasPicture, c.hasSound⟩) := by
  simp only [ofClip_eq_ok, exists_step]
  exact decided_of_coherent hc

/-- The graph of a clip that the renderer obtains cannot be made exactly when a visit is stuck: the
picture of a composition of unknown length is demanded, or the sound of a sequence with a silent
part of unknown length.  So when all source files have known lengths, the clip can be encoded
exactly when it has a picture and the frame rate is not zero.  And a walk that succeeds does so when
less is demanded. -/
theorem lowering_of_obtained {h : Host} {o : RenderOptions} (hc : Renderer.Obtained h o c) :
    ((∃ fault, ofClip c = .error fault) ↔
      ∃ v ∈ visits c ⟨c.hasPicture, c.hasSound⟩, v.Stuck) ∧
    ((∀ l ∈ c.leaves, l.traits.duration.isSome = true) → ∀ (o' : RenderOptions) (e : Encoding),
      (∃ command, e.command o' c = .ok command) ↔ c.hasPicture = true ∧ e.fps ≠ 0) ∧
    ∀ (d e : Demand) (start start' : Cursor), d ≤ e → (∃ f, assemble c e start' = .ok f) →
      ∃ f, assemble c d start = .ok f := by
  have hgraph := exists_ofClip hc.coherent
  refine ⟨?_, fun htimed o' e => ?_, fun d e start start' hde hwalk => ?_⟩
  · have hfails : (∃ fault, ofClip c = .error fault) ↔ ¬ ∃ g, ofClip c = .ok g := by
      cases ofClip c <;> simp
    rw [hfails, hgraph, Passable]
    push Not
    rfl
  · have hok := hgraph.2 (passable_of_timed hc.coherent htimed)
    constructor
    · rintro ⟨command, hcommand⟩
      obtain ⟨hpicture, hfps, -⟩ := Encoding.command_eq_ok.1 hcommand
      exact ⟨hpicture, hfps⟩
    · rintro ⟨hpicture, hfps⟩
      obtain ⟨g, hg⟩ := hok
      exact ⟨_, Encoding.command_eq_ok.2 ⟨hpicture, hfps, g, hg, rfl⟩⟩
  · exact (decided_of_coherent hc.coherent).2
      (passable_of_le hde ((decided_of_coherent hc.coherent).1 hwalk))

open Renderer

/-- A renderer that sees a video file whose length the prober does not know. -/
def newsroom : Renderer :=
  ⟨⟨[(⟨.above 0, ["live.mp4"]⟩, .file (.media "[[[\"video\",4,3]],[null]]" 0 ""))]⟩, []⟩

/-- That file. -/
def broadcast : Clip := .ofSource .video ⟨"live.mp4"⟩ none none false (some ⟨4, 3⟩)

/-- The file on a canvas. -/
def screening : Clip := .layered ⟨true, false, none, some ⟨4, 3⟩, .origin⟩ [broadcast] ⟨4, 3⟩

/-- The first 5 seconds of it. -/
def excerpt : Clip :=
  let start : Timestamp := ⟨0, 0, 0⟩
  let stop : Timestamp := ⟨0, 0, 5⟩
  .trimmed ⟨true, false, some (stop.toSeconds.sub start.toSeconds), some ⟨4, 3⟩, .origin⟩ screening
    start.toSeconds (some stop.toSeconds)

/-- The file can be opened. -/
lemma obtained_broadcast : Obtained .standard rehearsal broadcast := by
  have hfile : (newsroom.files.file? ⟨"live.mp4"⟩).isSome = true := by decide +kernel
  obtain ⟨content, hcontent⟩ := Option.isSome_iff_exists.1 hfile
  have hprobe : (probe .standard rehearsal ⟨"live.mp4"⟩ newsroom.files).1.toOption =
      some ⟨none, some ⟨4, 3⟩, true, false⟩ := by
    decide +kernel
  have hopen : (openFile .standard rehearsal ⟨.video, ⟨"live.mp4"⟩, none, true⟩ content
      newsroom.files).1 = .ok broadcast :=
    openFile_eq_ok.2 (.inr ⟨_, toOption_eq_some.1 hprobe, .inl ⟨rfl, videoClip_eq_ok.2 ⟨rfl, rfl⟩⟩⟩)
  exact @Obtained.made _ _ (.source ⟨.video, ⟨"live.mp4"⟩, none, true⟩) newsroom broadcast
    (fun d hd => nomatch hd) (openSource_eq_ok.2 ⟨content, hcontent, hopen⟩)

/-- The part is obtained by two more calls. -/
lemma obtained_excerpt : Obtained .standard rehearsal excerpt := by
  have hscreening : Obtained .standard rehearsal screening := by
    refine @Obtained.made _ _ (.composite [broadcast] none) newsroom screening ?_
      (pureReply_eq_ok.2 rfl)
    simp [Recipe.clips, obtained_broadcast]
  refine @Obtained.made _ _ (.extractRange screening ⟨0, 0, 0⟩ (some ⟨0, 0, 5⟩)) newsroom excerpt ?_
    (pureReply_eq_ok.2 (Clip.cut_eq_ok.2 ⟨?_, ?_, rfl⟩))
  · simp [Recipe.clips, hscreening]
  · have hends :
        (⟨0, 0, 5⟩ : Timestamp).toSeconds.le (⟨0, 0, 0⟩ : Timestamp).toSeconds = false := by
      decide +kernel
    exact fun s hs => Option.some.inj hs ▸ hends
  · rintro s ⟨⟩

/-- The part has a known length, and yet its graph cannot be made.  A composition of files of known
lengths can be encoded, and its sound alone can be computed from any cursor. -/
theorem lowering_of_excerpt : excerpt.duration.isSome = true ∧
    (∃ v ∈ visits excerpt ⟨excerpt.hasPicture, excerpt.hasSound⟩, v.Stuck) ∧
    (∃ fault, ofClip excerpt = .error fault) ∧
    (∃ command, (⟨⟨"encore.mp4"⟩, 25, "libx264", "medium", none, []⟩ : Encoding).command rehearsal
      encore = .ok command) ∧
    ∃ f, assemble encore .soundOnly ⟨3, 7⟩ = .ok f := by
  obtain ⟨hfails, -, -⟩ := lowering_of_obtained obtained_excerpt
  obtain ⟨-, hencodes, hless⟩ := lowering_of_obtained obtained_encore
  have hstuck : ∃ v ∈ visits excerpt ⟨excerpt.hasPicture, excerpt.hasSound⟩, v.Stuck := by
    refine ⟨⟨screening, ⟨true, false⟩⟩, ?_, .layered rfl rfl⟩
    exact List.mem_append_left _ (List.mem_append_right _ (List.mem_singleton_self _))
  have htimed : ∀ l ∈ encore.leaves, l.traits.duration.isSome = true := by decide
  refine ⟨rfl, hstuck, hfails.2 hstuck, (hencodes htimed _ _).2 ⟨rfl, by decide⟩, ?_⟩
  exact hless .soundOnly ⟨true, true⟩ ⟨3, 7⟩ ⟨0, 0⟩ ⟨fun _ => rfl, fun _ => rfl⟩ ⟨_, rfl⟩

end Filtergraph

end Montage
