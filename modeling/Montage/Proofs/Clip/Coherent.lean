import Montage.Proofs.Outcome
import Montage.Renderer

/-!
# Clips that the renderer makes

A clip is *obtained* when calls of the renderer lead to it: each call makes a clip, from a source
file or from clips obtained before, in whatever state the renderer then is.  One clip may be used in
many others.

What is recorded at a node of an obtained clip is not arbitrary.  `Clip.Coherent` says how it comes
from the clips below the node, and which clips a node may stand on.  The renderer makes coherent
clips only (`Renderer.Obtained.coherent`), so a fact about all obtained clips is proved by induction
over `Coherent`, which follows the tree of the clip.
-/

namespace Montage

namespace Clip

variable {c c' : Clip}

/-! ### Outcomes of the constructors -/

/-- A picture is required and there. -/
lemma requirePicture_eq_ok {kind : Kind} {u : Unit} :
    c.requirePicture kind = .ok u ↔ c.hasPicture = true := by
  unfold requirePicture
  split <;> simp_all

/-- Only a picture is resized. -/
lemma resize_eq_ok {width height : Option UInt32} :
    c.resize width height = .ok c' ↔ c.hasPicture = true ∧
      c' = .resized { c.traits with size := scaledSize width height c.size } c width height := by
  simp only [resize, bind_eq_ok, pure_eq_ok, requirePicture_eq_ok, exists_const]

/-- Only a picture is given a border. -/
lemma frame_eq_ok {margin : UInt32} {color : Color} {opacity : UInt32} :
    c.frame margin color opacity = .ok c' ↔ c.hasPicture = true ∧
      c' = .framed { c.traits with size := c.size.map (framedSize margin) } c margin color
        opacity := by
  simp only [frame, bind_eq_ok, pure_eq_ok, requirePicture_eq_ok, exists_const]

/-- Only a picture is placed. -/
lemma place_eq_ok {x y : Option UInt32} :
    c.place x y = .ok c' ↔ c.hasPicture = true ∧
      c' = .placed { c.traits with offset := ⟨x.getD c.offset.x, y.getD c.offset.y⟩ } c := by
  simp only [place, bind_eq_ok, pure_eq_ok, requirePicture_eq_ok, exists_const]

/-- A sequence has a first part, and the others have a picture exactly when that one has. -/
lemma concatenate_eq_ok {parts : List Clip} :
    concatenate parts = .ok c' ↔ ∃ c cs, parts = c :: cs ∧
      (∀ d ∈ cs, d.hasPicture = c.hasPicture) ∧
      c' = .joined
        { hasPicture := c.hasPicture
          hasSound := (c :: cs).any hasSound
          duration := Seconds.sumKnown ((c :: cs).map duration)
          size := c.size
          offset := .origin } (c :: cs) := by
  cases parts with
  | nil => simp [concatenate]
  | cons c cs =>
    simp only [concatenate]
    split
    · rename_i hmixed
      obtain ⟨d, hd, hne⟩ := List.any_eq_true.1 hmixed
      refine ⟨fun h => (nomatch h), ?_⟩
      rintro ⟨_, _, heq, hall, -⟩
      cases heq
      simp [hall d hd] at hne
    · rename_i hpure
      have hall : ∀ d ∈ cs, d.hasPicture = c.hasPicture := by simpa using hpure
      constructor
      · intro h
        cases h
        exact ⟨c, cs, rfl, hall, rfl⟩
      · rintro ⟨_, _, heq, -, rfl⟩
        cases heq
        rfl

/-- A composition has layers, and a size of its own or that of its lowest picture. -/
lemma compose_eq_ok {layers : List Clip} {size : Option Canvas} :
    compose layers size = .ok c' ↔ layers ≠ [] ∧ ∃ canvas,
      (size <|> firstSize layers) = some canvas ∧
      c' = .layered
        { hasPicture := true
          hasSound := layers.any hasSound
          duration := Seconds.maximumKnown (layers.map duration)
          size := some canvas
          offset := .origin } layers canvas := by
  unfold compose
  split
  · rename_i hnone
    simp [List.isEmpty_iff.1 hnone]
  · rename_i hsome
    have hne : layers ≠ [] := fun hnil => hsome (List.isEmpty_iff.2 hnil)
    cases hsize : (size <|> firstSize layers) with
    | none => simp
    | some canvas => simp [hne, eq_comm]

/-- A picture is given the sound of a clip that has sound. -/
lemma setAudio_eq_ok {picture sound : Clip} :
    setAudio picture sound = .ok c' ↔ picture.hasPicture = true ∧ sound.hasSound = true ∧
      c' = .scored { picture.traits with hasSound := true } picture sound := by
  simp only [setAudio, bind_eq_ok, requirePicture_eq_ok, exists_const]
  split <;> simp_all [pure_eq_ok, throw_eq_ok]

/-- A part of a clip ends after it starts, and starts before the clip ends. -/
lemma cut_eq_ok {start : Seconds} {stop : Option Seconds} :
    c.cut start stop = .ok c' ↔ (∀ s, stop = some s → s.le start = false) ∧
      (∀ total, c.duration = some total → total.le start = false) ∧
      c' = .trimmed { c.traits with duration := trimmedDuration start stop c.duration } c start
        stop := by
  unfold cut
  -- Each of the two guards is there or not, and then it holds or fails.
  cases stop with
  | none =>
    cases c.duration with
    | none => simp [pure_eq_ok]
    | some total =>
      cases ht : total.le start <;>
        simp [ht, bind_eq_ok, pure_eq_ok, throw_eq_ok, -bind_pure_comp]
  | some s =>
    cases c.duration with
    | none =>
      cases hs : s.le start <;>
        simp [hs, bind_eq_ok, pure_eq_ok, throw_eq_ok, -bind_pure_comp]
    | some total =>
      cases hs : s.le start <;> cases ht : total.le start <;>
        simp [hs, ht, bind_eq_ok, pure_eq_ok, throw_eq_ok, -bind_pure_comp]

/-! ### Coherent clips -/

/-- Each node of the clip has the traits that follow from what is below it, and stands on clips that
it can be made of. -/
inductive Coherent : Clip → Prop where
  /-- A picture file is shown for the length that it is given. -/
  | image (path : Path) (duration : Seconds) (size : Canvas) :
      Coherent (.source ⟨true, false, some duration, some size, .origin⟩ .image path
        (some duration))
  /-- A video file lasts as long as it is given, or else as the prober says. -/
  | video (path : Path) (limit probed : Option Seconds) (hasSound : Bool) (size : Option Canvas) :
      Coherent (.source ⟨true, hasSound, limit <|> probed, size, .origin⟩ .video path limit)
  /-- An audio file lasts as long as it is given, or else as the prober says. -/
  | audio (path : Path) (limit probed : Option Seconds) :
      Coherent (.source ⟨false, true, limit <|> probed, none, .origin⟩ .audio path limit)
  | resized {input : Clip} (width height : Option UInt32) (hinput : Coherent input)
      (hpicture : input.hasPicture = true) :
      Coherent (.resized { input.traits with size := scaledSize width height input.size } input
        width height)
  | framed {input : Clip} (margin : UInt32) (color : Color) (opacity : UInt32)
      (hinput : Coherent input) (hpicture : input.hasPicture = true) :
      Coherent (.framed { input.traits with size := input.size.map (framedSize margin) } input
        margin color opacity)
  | placed {input : Clip} (offset : Placement) (hinput : Coherent input)
      (hpicture : input.hasPicture = true) :
      Coherent (.placed { input.traits with offset } input)
  | joined {c : Clip} {cs : List Clip} (hparts : ∀ d ∈ c :: cs, Coherent d)
      (hpictures : ∀ d ∈ cs, d.hasPicture = c.hasPicture) :
      Coherent (.joined
        { hasPicture := c.hasPicture
          hasSound := (c :: cs).any hasSound
          duration := Seconds.sumKnown ((c :: cs).map duration)
          size := c.size
          offset := .origin } (c :: cs))
  | layered {layers : List Clip} (size : Canvas) (hlayers : ∀ d ∈ layers, Coherent d)
      (hsome : layers ≠ []) :
      Coherent (.layered
        { hasPicture := true
          hasSound := layers.any hasSound
          duration := Seconds.maximumKnown (layers.map duration)
          size := some size
          offset := .origin } layers size)
  | scored {picture sound : Clip} (hpicture : Coherent picture) (hsound : Coherent sound)
      (hseen : picture.hasPicture = true) (hheard : sound.hasSound = true) :
      Coherent (.scored { picture.traits with hasSound := true } picture sound)
  | trimmed {input : Clip} (start : Seconds) (stop : Option Seconds) (hinput : Coherent input)
      (hstop : ∀ s, stop = some s → s.le start = false)
      (hstart : ∀ total, input.duration = some total → total.le start = false) :
      Coherent (.trimmed
        { input.traits with duration := trimmedDuration start stop input.duration } input start
        stop)

end Clip

/-! ### Obtained clips -/

/-- The clips that a recipe makes a clip of. -/
def Recipe.clips {γ : Type} : Recipe γ → List γ
  | .source _ => []
  | .effect input _ => [input]
  | .concatenate clips => clips
  | .composite layers _ => layers
  | .attachAudio picture sound => [picture, sound]
  | .extractRange input _ _ => [input]

namespace Renderer

variable {h : Host} {o : RenderOptions} {r : Renderer} {c : Clip}

/-- The clips that calls of the renderer lead to.  Between the calls the files may change. -/
inductive Obtained (h : Host) (o : RenderOptions) : Clip → Prop where
  /-- A call makes a clip of clips that earlier calls have made. -/
  | made {recipe : Recipe Clip} {r : Renderer} {c : Clip}
      (hclips : ∀ d ∈ recipe.clips, Obtained h o d)
      (hmade : (make h o recipe r).outcome = .ok c) : Obtained h o c

/-- A picture that can be opened is shown for the length of the source. -/
lemma imageClip_eq_ok {s : Source} {content : Content} :
    imageClip s content = .ok c ↔ ∃ size duration, imageSize s.path content = .ok size ∧
      s.duration = some duration ∧
      c = .ofSource .image s.path (some duration) (some duration) false (some size) := by
  unfold imageClip
  cases s.duration with
  | none => simp [bind_eq_ok, throw_eq_ok, -bind_pure_comp]
  | some duration => simp [bind_eq_ok, pure_eq_ok, -bind_pure_comp]

/-- A media file that can be opened as a video has a video stream. -/
lemma videoClip_eq_ok {s : Source} {p : Probe} :
    videoClip s p = .ok c ↔ p.hasVideo = true ∧
      c = .ofSource .video s.path s.duration (s.duration <|> p.duration)
        (s.hasAudio && p.hasAudio) p.size := by
  unfold videoClip
  cases p.hasVideo with
  | false => simp
  | true => simp only [↓reduceIte, true_and, Except.ok.injEq, @eq_comm _ c]

/-- A media file that can be opened as audio has an audio stream. -/
lemma audioClip_eq_ok {s : Source} {p : Probe} :
    audioClip s p = .ok c ↔ p.hasAudio = true ∧
      c = .ofSource .audio s.path s.duration (s.duration <|> p.duration) true none := by
  unfold audioClip
  cases p.hasAudio with
  | false => simp
  | true => simp only [↓reduceIte, true_and, Except.ok.injEq, @eq_comm _ c]

/-- A file that can be opened is a picture, or a media file that the prober knows. -/
lemma openFile_eq_ok {s : Source} {content : Content} {files : FileTree} :
    (openFile h o s content files).1 = .ok c ↔
      (s.medium = .image ∧ imageClip s content = .ok c) ∨
      ∃ p, (probe h o s.path files).1 = .ok p ∧
        ((s.medium = .video ∧ videoClip s p = .ok c) ∨
          (s.medium = .audio ∧ audioClip s p = .ok c)) := by
  unfold openFile
  cases s.medium with
  | image => simp
  | video => rcases probe h o s.path files with ⟨e | p, files⟩ <;> simp
  | audio => rcases probe h o s.path files with ⟨e | p, files⟩ <;> simp

/-- A source that can be opened is a file that can be. -/
lemma openSource_eq_ok {s : Source} :
    (openSource h o s r).outcome = .ok c ↔ ∃ content, r.files.file? s.path = some content ∧
      (openFile h o s content r.files).1 = .ok c := by
  unfold openSource
  cases r.files.file? s.path with
  | none => simp
  | some content =>
    simp only [Option.some.injEq, exists_eq_left']
    rcases openFile h o s content r.files with ⟨e | c, events, files⟩ <;> simp

/-- A source that can be opened gives a coherent clip. -/
lemma coherent_of_openSource {s : Source} (hopen : (openSource h o s r).outcome = .ok c) :
    c.Coherent := by
  obtain ⟨content, -, hfile⟩ := openSource_eq_ok.1 hopen
  rcases openFile_eq_ok.1 hfile with ⟨-, himage⟩ | ⟨p, -, ⟨-, hvideo⟩ | ⟨-, haudio⟩⟩
  · obtain ⟨size, duration, -, -, rfl⟩ := imageClip_eq_ok.1 himage
    exact .image s.path duration size
  · obtain ⟨-, rfl⟩ := videoClip_eq_ok.1 hvideo
    exact .video s.path s.duration p.duration _ p.size
  · obtain ⟨-, rfl⟩ := audioClip_eq_ok.1 haudio
    exact .audio s.path s.duration p.duration

/-- An effect on a coherent clip gives a coherent clip. -/
lemma coherent_of_change {input : Clip} {e : Effect} (hinput : input.Coherent)
    (hchange : change input e = .ok c) : c.Coherent := by
  cases e with
  | margin m =>
    obtain ⟨hpicture, rfl⟩ := Clip.frame_eq_ok.1 hchange
    exact .framed _ _ _ hinput hpicture
  | position x y =>
    obtain ⟨hpicture, rfl⟩ := Clip.place_eq_ok.1 hchange
    exact .placed _ hinput hpicture
  | resize height width =>
    obtain ⟨hpicture, rfl⟩ := Clip.resize_eq_ok.1 hchange
    exact .resized _ _ hinput hpicture

/-- A call that touches nothing but clips succeeds exactly when the clip can be made. -/
lemma pureReply_eq_ok {clip : Except Fault Clip} :
    (pureReply r clip).outcome = .ok c ↔ clip = .ok c := by
  unfold pureReply
  cases clip <;> simp [Except.mapError]

/-- The renderer makes coherent clips of coherent clips. -/
lemma coherent_of_make {recipe : Recipe Clip} (hclips : ∀ d ∈ recipe.clips, d.Coherent)
    (hmade : (make h o recipe r).outcome = .ok c) : c.Coherent := by
  cases recipe with
  | source s => exact coherent_of_openSource hmade
  | effect input e =>
    exact coherent_of_change (hclips input (List.mem_singleton_self _)) (pureReply_eq_ok.1 hmade)
  | concatenate clips =>
    obtain ⟨c, cs, rfl, hpictures, rfl⟩ := Clip.concatenate_eq_ok.1 (pureReply_eq_ok.1 hmade)
    exact .joined hclips hpictures
  | composite layers size =>
    obtain ⟨hsome, canvas, -, rfl⟩ := Clip.compose_eq_ok.1 (pureReply_eq_ok.1 hmade)
    exact .layered canvas hclips hsome
  | attachAudio picture sound =>
    obtain ⟨hseen, hheard, rfl⟩ := Clip.setAudio_eq_ok.1 (pureReply_eq_ok.1 hmade)
    exact .scored (hclips picture (by simp [Recipe.clips])) (hclips sound (by simp [Recipe.clips]))
      hseen hheard
  | extractRange input start stop =>
    obtain ⟨hstop, hstart, rfl⟩ := Clip.cut_eq_ok.1 (pureReply_eq_ok.1 hmade)
    exact .trimmed _ _ (hclips input (List.mem_singleton_self _)) hstop hstart

/-- Every clip that calls of the renderer lead to is coherent. -/
theorem Obtained.coherent (hc : Obtained h o c) : c.Coherent := by
  induction hc with
  | made _ hmade ih => exact coherent_of_make ih hmade

end Renderer

end Montage
