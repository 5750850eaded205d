import Montage.Proofs.Clip.Leaves
import Montage.Proofs.Filtergraph.Alignment
import Montage.Proofs.Renderer.Command

/-!
# The inputs of a graph

A graph reads a source file once for every use that the clip makes of it.  `Clip.uses` lists these
uses by the tree alone: what a picture and what a sound is demanded for is decided at scored clips,
and nowhere else.  The walk of `assemble` asks at each node which streams the clip has as well, but
in a coherent clip this shuts out no leaf (`visitedLeaves_visits`).

Every use goes back to a call that has opened the source (`exists_source_of_obtained`), and the
options of its input follow from what that call was given (`readAs_of_make`).  A picture file is
shown again and again, and it can only be opened with a length, so it is always cut off.
-/

namespace Montage

open Filtergraph

namespace Clip

mutual

/-- The source files that a clip uses for the demanded streams, from left to right; a file that is
used twice is listed twice. -/
def uses : Clip → Demand → List Leaf
  | .source t medium path limit, _ => [⟨t, medium, path, limit⟩]
  | .resized _ input _ _, d => uses input d
  | .framed _ input _ _ _, d => uses input d
  | .placed _ input, d => uses input d
  | .joined _ parts, d => usesOfAll parts d
  | .layered _ layers _, d => usesOfAll layers d
  | .scored _ picture sound, d =>
    (if d.picture then uses picture .pictureOnly else []) ++
      if d.sound then uses sound .soundOnly else []
  | .trimmed _ input _ _, d => uses input d

/-- The source files that several clips use, one clip after another. -/
def usesOfAll : List Clip → Demand → List Leaf
  | [], _ => []
  | c :: cs, d => uses c d ++ usesOfAll cs d

end

/-- The source files that a clip uses for all its streams. -/
def allUses (c : Clip) : List Leaf := c.uses ⟨c.hasPicture, c.hasSound⟩

end Clip

/-! ### Uses and visits -/

/-- What a clip can meet of a demand is not changed by asking a clip with more streams first. -/
lemma Filtergraph.Demand.within_within_of_le {d : Demand} {t t' : Traits}
    (hpicture : t'.hasPicture = true → t.hasPicture = true)
    (hsound : t'.hasSound = true → t.hasSound = true) : (d.within t).within t' = d.within t' := by
  have hand {a b c : Bool} (h : c = true → b = true) : (a && b && c) = (a && c) := by
    cases c
    · rw [Bool.and_false, Bool.and_false]
    · rw [h rfl, Bool.and_true]
  unfold Demand.within
  rw [hand hpicture, hand hsound]

section Visits

variable {c : Clip} {cs : List Clip} {t : Traits} {d e : Demand}

/-- Several clips use what they are visited for, when each single one does. -/
lemma visitedLeaves_visitsAll (hde : d.within t = e.within t)
    (hpictures : ∀ c ∈ cs, c.hasPicture = true → t.hasPicture = true)
    (hsounds : ∀ c ∈ cs, c.hasSound = true → t.hasSound = true)
    (hcs : ∀ c ∈ cs, ∀ {d e : Demand}, d.within c.traits = e.within c.traits →
      visitedLeaves (visits c d) = c.uses e) :
    visitedLeaves (visitsAll cs (d.within t)) = Clip.usesOfAll cs e := by
  induction cs with
  | nil => rfl
  | cons c cs ih =>
    obtain ⟨hpicture, hpictures⟩ := List.forall_mem_cons.1 hpictures
    obtain ⟨hsound, hsounds⟩ := List.forall_mem_cons.1 hsounds
    obtain ⟨hc, hcs⟩ := List.forall_mem_cons.1 hcs
    have hsame : (d.within t).within c.traits = e.within c.traits := by
      rw [hde, Demand.within_within_of_le hpicture hsound]
    rw [visitsAll, visitedLeaves_append, hc hsame, ih hpictures hsounds hcs, Clip.usesOfAll]

/-- A walk over a coherent clip visits the leaves that the clip uses, whatever is demanded of it
beyond the streams that it has. -/
theorem visitedLeaves_visits (hc : c.Coherent) (hde : d.within c.traits = e.within c.traits) :
    visitedLeaves (visits c d) = c.uses e := by
  induction hc generalizing d e with
  | image path duration size => rfl
  | video path limit probed hasSound size => rfl
  | audio path limit probed => rfl
  | @resized input width height hinput hpicture ih =>
    rw [visits, visitedLeaves_concat _ rfl, Clip.uses]
    refine ih (Eq.trans ?_ hde)
    exact Demand.within_within rfl rfl
  | @framed input margin color opacity hinput hpicture ih =>
    rw [visits, visitedLeaves_concat _ rfl, Clip.uses]
    refine ih (Eq.trans ?_ hde)
    exact Demand.within_within rfl rfl
  | @placed input offset hinput hpicture ih =>
    rw [visits, visitedLeaves_concat _ rfl, Clip.uses]
    refine ih (Eq.trans ?_ hde)
    exact Demand.within_within rfl rfl
  | @joined c cs hparts hpictures ih =>
    have hfirst : ∀ p ∈ c :: cs, p.hasPicture = true → c.hasPicture = true :=
      List.forall_mem_cons.2 ⟨id, fun p hp hseen => hpictures p hp ▸ hseen⟩
    rw [visits, visitedLeaves_concat _ rfl, Clip.uses]
    exact visitedLeaves_visitsAll hde hfirst
      (fun p hp hheard => List.any_eq_true.2 ⟨p, hp, hheard⟩) fun p hp => ih p hp
  | layered size hlayers hsome ih =>
    rw [visits, visitedLeaves_concat _ rfl, Clip.uses]
    exact visitedLeaves_visitsAll hde (fun _ _ _ => rfl)
      (fun p hp hheard => List.any_eq_true.2 ⟨p, hp, hheard⟩) fun p hp => ih p hp
  | @scored picture sound hpicture hsound hseen hheard ihp ihs =>
    -- the node has both streams, so it passes on whatever is demanded of it
    have hall (d : Demand) : d.within { picture.traits with hasSound := true } = d := by
      change (⟨d.picture && picture.hasPicture, d.sound && true⟩ : Demand) = d
      rw [hseen, Bool.and_true, Bool.and_true]
    have hsame : d = e := (hall d).symm.trans (hde.trans (hall e))
    rw [visits, visitedLeaves_concat _ rfl, visitedLeaves_append, hall, Clip.uses, ← hsame,
      apply_ite visitedLeaves, apply_ite visitedLeaves, ihp rfl, ihs rfl]
    rfl
  | @trimmed input start stop hinput hstop hstart ih =>
    rw [visits, visitedLeaves_concat _ rfl, Clip.uses]
    refine ih (Eq.trans ?_ hde)
    exact Demand.within_within rfl rfl

/-- A coherent clip uses leaves of its own, in order. -/
lemma Clip.allUses_sublist (hc : c.Coherent) : c.allUses.Sublist c.leaves := by
  have hvisits := visitedLeaves_sublist c ⟨c.hasPicture, c.hasSound⟩
  rwa [visitedLeaves_visits hc rfl] at hvisits

/-- The graph of a coherent clip reads the source files that the clip uses. -/
lemma inputs_of_coherent {g : Filtergraph} (hc : c.Coherent) (hg : ofClip c = .ok g) :
    g.inputs = c.allUses.map Leaf.input := by
  obtain ⟨f, hf, rfl⟩ := ofClip_eq_ok.1 hg
  have hinputs : f.close.inputs = f.inputs := rfl
  rw [hinputs, inputs_assemble hf, visitedLeaves_visits hc rfl, Clip.allUses]

end Visits

/-! ### Uses and the calls that have opened them -/

/-- How a leaf is read that was opened of a source: a picture is shown again and again until its
length is over, and any other file is cut off if a length was given. -/
structure Leaf.ReadAs (l : Leaf) (s : Source) : Prop where
  path : l.input.path = s.path
  picture : s.medium = .image → ∃ duration, s.duration = some duration ∧
    l.clip.duration = some duration ∧ l.input.options = ["-loop", "1", "-t", duration.plain]
  given : s.medium ≠ .image → ∀ duration, s.duration = some duration →
    l.input.options = ["-t", duration.plain]
  notGiven : s.medium ≠ .image → s.duration = none → l.input.options = []

namespace Renderer

variable {h : Host} {o : RenderOptions} {r : Renderer} {c : Clip} {l : Leaf} {s : Source}

/-- A source that is no picture is cut off where its length says. -/
lemma readAs_of_ne_image (hmedium : s.medium ≠ .image) (hl : l.medium = s.medium)
    (hpath : l.path = s.path) (hlimit : l.limit = s.duration) : l.ReadAs s := by
  have hstill : (l.medium == .image) = false := by
    rw [hl]
    exact beq_eq_false_iff_ne.2 hmedium
  have hoptions : l.input.options = s.duration.elim [] fun limit => ["-t", limit.plain] := by
    unfold Leaf.input Input.options
    rw [hstill, hlimit]
    cases s.duration <;> rfl
  refine ⟨hpath, fun himage => absurd himage hmedium, fun _ duration hduration => ?_,
    fun _ hduration => ?_⟩
  · rw [hoptions, hduration, Option.elim_some]
  · rw [hoptions, hduration, Option.elim_none]

/-- A leaf is read in the way that follows from the source that it was opened of. -/
theorem readAs_of_make (hmade : (make h o (.source s) r).outcome = .ok l.clip) : l.ReadAs s := by
  obtain ⟨content, -, hfile⟩ := openSource_eq_ok.1 hmade
  rcases openFile_eq_ok.1 hfile with ⟨hmedium, himage⟩ |
    ⟨p, -, ⟨hmedium, hvideo⟩ | ⟨hmedium, haudio⟩⟩
  · obtain ⟨size, duration, -, hduration, hclip⟩ := imageClip_eq_ok.1 himage
    obtain rfl : l = ⟨_, _, _, _⟩ := Leaf.clip_injective hclip
    exact ⟨rfl, fun _ => ⟨duration, hduration, rfl, rfl⟩, fun hne => absurd hmedium hne,
      fun hne => absurd hmedium hne⟩
  · obtain ⟨-, hclip⟩ := videoClip_eq_ok.1 hvideo
    obtain rfl : l = ⟨_, _, _, _⟩ := Leaf.clip_injective hclip
    exact readAs_of_ne_image (by simp [hmedium]) hmedium.symm rfl rfl
  · obtain ⟨-, hclip⟩ := audioClip_eq_ok.1 haudio
    obtain rfl : l = ⟨_, _, _, _⟩ := Leaf.clip_injective hclip
    exact readAs_of_ne_image (by simp [hmedium]) hmedium.symm rfl rfl

/-- Every leaf of an obtained clip was opened by a call for its source. -/
theorem exists_source_of_obtained (hc : Obtained h o c) :
    ∀ l ∈ c.leaves, ∃ s r, (make h o (.source s) r).outcome = .ok l.clip := by
  induction hc with
  | @made recipe r c hclips hmade ih =>
    intro l hl
    by_cases hsource : ∃ s, recipe = .source s
    · obtain ⟨s, rfl⟩ := hsource
      obtain ⟨opened, hopened, -⟩ := exists_leaf_of_openSource hmade
      have hleaf : l = opened := by
        rw [hopened] at hl
        exact List.mem_singleton.1 hl
      exact ⟨s, r, by rw [hleaf, ← hopened, hmade]⟩
    · rw [leaves_of_make (fun s hs => hsource ⟨s, hs⟩) hmade] at hl
      obtain ⟨d, hd, hl⟩ := List.mem_flatMap.1 hl
      exact ih d hd l hl

end Renderer

/-! ### The inputs of graphs and commands -/

/-- The inputs of the graph of an obtained clip are the source files that the clip uses, one for
each use.  Each of them was opened by a call and is read as this call says.  A command that encodes
the clip gives them in this order, with their options, and shows no picture without an end. -/
theorem inputs_of_obtained {h : Host} {o : RenderOptions} {c : Clip}
    (hc : Renderer.Obtained h o c) :
    (∀ g, ofClip c = .ok g → g.inputs = c.allUses.map Leaf.input) ∧
    (∀ l ∈ c.allUses, ∃ s r, (Renderer.make h o (.source s) r).outcome = .ok l.clip ∧
      l.ReadAs s) ∧
    ∀ (o' : RenderOptions) (e : Encoding) (command : Command), e.command o' c = .ok command →
      (∃ settings, command.arguments =
        ["-hide_banner", "-loglevel", "error", if o'.overwrite then "-y" else "-n"] ++
          c.allUses.flatMap (fun l => l.input.options ++ ["-i", l.path.text]) ++
          "-filter_complex" :: settings) ∧
      ∀ l ∈ c.allUses, l.input.still = true →
        ∃ duration : Seconds, l.input.options = ["-loop", "1", "-t", duration.plain] := by
  have hopened (l : Leaf) (hl : l ∈ c.allUses) :
      ∃ s r, (Renderer.make h o (.source s) r).outcome = .ok l.clip ∧ l.ReadAs s := by
    have hleaf : l ∈ c.leaves := (Clip.allUses_sublist hc.coherent).subset hl
    obtain ⟨s, r, hmade⟩ := Renderer.exists_source_of_obtained hc l hleaf
    exact ⟨s, r, hmade, Renderer.readAs_of_make hmade⟩
  refine ⟨fun g hg => inputs_of_coherent hc.coherent hg, hopened, fun o' e command hcommand => ?_⟩
  obtain ⟨-, -, g, hg, rfl⟩ := Encoding.command_eq_ok.1 hcommand
  constructor
  · have hinputs : g.inputArguments =
        c.allUses.flatMap fun l => l.input.options ++ ["-i", l.path.text] := by
      unfold inputArguments
      rw [inputs_of_coherent hc.coherent hg, List.flatMap_map]
      rfl
    refine ⟨g.text :: (g.outputArguments ++ e.settingArguments ++ [e.destination.text]), ?_⟩
    rw [← hinputs]
    simp [Encoding.arguments]
  · intro l hl hstill
    obtain ⟨s, r, hmade, hread⟩ := hopened l hl
    obtain ⟨opened, hleaf, hdepicts⟩ := Renderer.exists_leaf_of_openSource hmade
    have hmedium : s.medium = .image := by
      rw [← hdepicts.medium, ← Leaf.clip_injective hleaf]
      exact beq_iff_eq.1 hstill
    obtain ⟨duration, -, -, hoptions⟩ := hread.picture hmedium
    exact ⟨duration, hoptions⟩

/-- A title card with the sound of a trailer: of the trailer only the sound is used. -/
def overture : Clip := .scored { card.traits with hasSound := true } card (trailer 4)

/-- The card can be given this sound. -/
lemma obtained_overture : Renderer.Obtained .standard rehearsal overture := by
  refine @Renderer.Obtained.made _ _ (.attachAudio card (trailer 4)) studio _ ?_
    (Renderer.pureReply_eq_ok.2 rfl)
  simp [Recipe.clips, obtained_card, obtained_trailer]

/-- The overture reads the card, in a loop that ends, and the sound of the trailer, but not its
picture. -/
theorem inputs_of_overture : ∃ g, ofClip overture = .ok g ∧ g.inputs.map Input.options =
    [["-loop", "1", "-t", Seconds.zero.plain], ["-t", (Seconds.ofNat 4).plain]] := by
  obtain ⟨hinputs, -, -⟩ := inputs_of_obtained obtained_overture
  refine ⟨_, rfl, ?_⟩
  rw [hinputs _ rfl]
  rfl

end Montage
