import Montage.Proofs.Clip.Coherent

/-!
# Leaves

At the leaves of the tree of a clip are source files.  `Clip.leaves` lists them, and
`leaves_of_make` says where they come from: a clip that the renderer makes has the leaves of the
clips that it is made of, unless it is a source file that was just opened.

What a leaf has follows from the file that it was opened from (`exists_leaf_of_openSource`): it has
a picture if the file is one, or if the prober finds a video stream in it, and it has sound if the
prober finds an audio stream and, for a video, the sound is to be kept.
-/

namespace Montage

/-- A source file at a leaf of a clip, cut off at `limit` seconds when there is a limit. -/
structure Leaf where
  traits : Traits
  medium : Medium
  path : Path
  limit : Option Seconds

/-- The source file as a clip. -/
def Leaf.clip (l : Leaf) : Clip := .source l.traits l.medium l.path l.limit

/-- Leaves that are the same clip are the same. -/
lemma Leaf.clip_injective : Function.Injective Leaf.clip := by
  rintro ⟨_, _, _, _⟩ ⟨_, _, _, _⟩ h
  cases h
  rfl

namespace Clip

mutual

/-- The source files at the leaves of a clip. -/
def leaves : Clip → List Leaf
  | .source t medium path limit => [⟨t, medium, path, limit⟩]
  | .resized _ input _ _ => leaves input
  | .framed _ input _ _ _ => leaves input
  | .placed _ input => leaves input
  | .joined _ parts => leavesOfAll parts
  | .layered _ layers _ => leavesOfAll layers
  | .scored _ picture sound => leaves picture ++ leaves sound
  | .trimmed _ input _ _ => leaves input

/-- The source files at the leaves of several clips. -/
def leavesOfAll : List Clip → List Leaf
  | [] => []
  | c :: cs => leaves c ++ leavesOfAll cs

end

/-- The leaves of several clips are those of the single clips. -/
lemma leavesOfAll_eq (cs : List Clip) : leavesOfAll cs = cs.flatMap leaves := by
  induction cs with
  | nil => rfl
  | cons c cs ih => rw [leavesOfAll, ih, List.flatMap_cons]

end Clip

namespace Renderer

variable {h : Host} {o : RenderOptions} {r : Renderer} {c : Clip}

/-- An effect has the leaves of its input. -/
lemma leaves_of_change {input : Clip} {e : Effect} (hchange : change input e = .ok c) :
    c.leaves = input.leaves := by
  cases e with
  | margin m =>
    obtain ⟨-, rfl⟩ := Clip.frame_eq_ok.1 hchange
    rw [Clip.leaves]
  | position x y =>
    obtain ⟨-, rfl⟩ := Clip.place_eq_ok.1 hchange
    rw [Clip.leaves]
  | resize height width =>
    obtain ⟨-, rfl⟩ := Clip.resize_eq_ok.1 hchange
    rw [Clip.leaves]

/-- A clip that is not opened but made of others has the leaves of these. -/
lemma leaves_of_make {recipe : Recipe Clip} (hrecipe : ∀ s, recipe ≠ .source s)
    (hmade : (make h o recipe r).outcome = .ok c) :
    c.leaves = recipe.clips.flatMap Clip.leaves := by
  cases recipe with
  | source s => exact absurd rfl (hrecipe s)
  | effect input e =>
    rw [leaves_of_change (pureReply_eq_ok.1 hmade), Recipe.clips, List.flatMap_singleton]
  | concatenate clips =>
    obtain ⟨first, others, rfl, -, rfl⟩ := Clip.concatenate_eq_ok.1 (pureReply_eq_ok.1 hmade)
    rw [Clip.leaves, Clip.leavesOfAll_eq, Recipe.clips]
  | composite layers size =>
    obtain ⟨-, canvas, -, rfl⟩ := Clip.compose_eq_ok.1 (pureReply_eq_ok.1 hmade)
    rw [Clip.leaves, Clip.leavesOfAll_eq, Recipe.clips]
  | attachAudio picture sound =>
    obtain ⟨-, -, rfl⟩ := Clip.setAudio_eq_ok.1 (pureReply_eq_ok.1 hmade)
    rw [Clip.leaves, Recipe.clips, List.flatMap_cons, List.flatMap_singleton]
  | extractRange input start stop =>
    obtain ⟨-, -, rfl⟩ := Clip.cut_eq_ok.1 (pureReply_eq_ok.1 hmade)
    rw [Clip.leaves, Recipe.clips, List.flatMap_singleton]

/-- A source can be seen: it is a picture, or a video in whose file the prober finds a video
stream. -/
def CanBeSeen (h : Host) (o : RenderOptions) (files : FileTree) (s : Source) : Prop :=
  s.medium = .image ∨
    s.medium = .video ∧ ∃ p, (probe h o s.path files).1 = .ok p ∧ p.hasVideo = true

/-- A source can be heard: it is a sound, or a video whose sound is to be kept, and the prober finds
an audio stream in its file. -/
def CanBeHeard (h : Host) (o : RenderOptions) (files : FileTree) (s : Source) : Prop :=
  (s.medium = .audio ∨ s.medium = .video ∧ s.hasAudio = true) ∧
    ∃ p, (probe h o s.path files).1 = .ok p ∧ p.hasAudio = true

/-- A leaf is what was opened of a source: it has a picture only if the source can be seen, and
sound only if the source can be heard. -/
structure Depicts (h : Host) (o : RenderOptions) (files : FileTree) (s : Source) (l : Leaf) :
    Prop where
  medium : l.medium = s.medium
  path : l.path = s.path
  seen : l.traits.hasPicture = true → CanBeSeen h o files s
  heard : l.traits.hasSound = true → CanBeHeard h o files s

/-- A source that is opened gives a leaf. -/
lemma exists_leaf_of_openSource {s : Source} (hopen : (openSource h o s r).outcome = .ok c) :
    ∃ l : Leaf, c = l.clip ∧ Depicts h o r.files s l := by
  obtain ⟨content, -, hfile⟩ := openSource_eq_ok.1 hopen
  rcases openFile_eq_ok.1 hfile with ⟨hmedium, himage⟩ |
    ⟨p, hprobe, ⟨hmedium, hvideo⟩ | ⟨hmedium, haudio⟩⟩
  · obtain ⟨size, duration, -, -, rfl⟩ := imageClip_eq_ok.1 himage
    refine ⟨⟨_, _, _, _⟩, rfl, hmedium.symm, rfl, fun _ => .inl hmedium, fun hsound => ?_⟩
    exact absurd hsound Bool.false_ne_true
  · obtain ⟨hseen, rfl⟩ := videoClip_eq_ok.1 hvideo
    refine ⟨⟨_, _, _, _⟩, rfl, hmedium.symm, rfl, fun _ => .inr ⟨hmedium, p, hprobe, hseen⟩,
      fun hsound => ?_⟩
    obtain ⟨hkept, hheard⟩ := Bool.and_eq_true_iff.1 hsound
    exact ⟨.inr ⟨hmedium, hkept⟩, p, hprobe, hheard⟩
  · obtain ⟨hheard, rfl⟩ := audioClip_eq_ok.1 haudio
    refine ⟨⟨_, _, _, _⟩, rfl, hmedium.symm, rfl, fun hpicture => ?_,
      fun _ => ⟨.inl hmedium, p, hprobe, hheard⟩⟩
    exact absurd hpicture Bool.false_ne_true

end Renderer

end Montage
