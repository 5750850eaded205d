import Montage.Error

/-!
# Clips

A clip is a tree: source files at the leaves, and above them what was done to them.  Each node keeps
the `Traits` of the clip that it is the root of, so that asking for a length or a size does not walk
the tree.  Clips are built with `Clip.ofSource`, `resize`, `frame`, `place`, `concatenate`,
`compose`, `setAudio` and `cut`, which refuse what makes no sense and work out the traits.
-/

namespace Montage

/-- What is known of a clip as a whole. -/
structure Traits where
  hasPicture : Bool
  hasSound : Bool
  /-- The length in seconds, when it is known. -/
  duration : Option Seconds
  /-- The size of the picture, when it is known. -/
  size : Option Canvas
  /-- Where the picture lands on a canvas. -/
  offset : Placement
  deriving DecidableEq, Repr

/-- A clip, by how it is made. -/
inductive Clip where
  /-- A source file, cut off at `limit` seconds when there is a limit. -/
  | source (traits : Traits) (medium : Medium) (path : Path) (limit : Option Seconds)
  /-- A picture of a new size. -/
  | resized (traits : Traits) (input : Clip) (width height : Option UInt32)
  /-- A picture with a border. -/
  | framed (traits : Traits) (input : Clip) (margin : UInt32) (color : Color) (opacity : UInt32)
  /-- The same clip at another place on a canvas. -/
  | placed (traits : Traits) (input : Clip)
  /-- Clips one after another. -/
  | joined (traits : Traits) (parts : List Clip)
  /-- Clips on one canvas, the first one at the bottom. -/
  | layered (traits : Traits) (layers : List Clip) (size : Canvas)
  /-- The picture of one clip with the sound of another. -/
  | scored (traits : Traits) (picture sound : Clip)
  /-- The part of a clip between two positions. -/
  | trimmed (traits : Traits) (input : Clip) (start : Seconds) (stop : Option Seconds)

/-- Induction over the tree of a clip: what holds of every part of a sequence and of every layer of
a composition may be used for the whole. -/
@[elab_as_elim, induction_eliminator]
theorem Clip.inductionOn {motive : Clip → Prop}
    (source : ∀ traits medium path limit, motive (.source traits medium path limit))
    (resized : ∀ traits input width height, motive input →
      motive (.resized traits input width height))
    (framed : ∀ traits input margin color opacity, motive input →
      motive (.framed traits input margin color opacity))
    (placed : ∀ traits input, motive input → motive (.placed traits input))
    (joined : ∀ traits parts, (∀ c ∈ parts, motive c) → motive (.joined traits parts))
    (layered : ∀ traits layers size, (∀ c ∈ layers, motive c) →
      motive (.layered traits layers size))
    (scored : ∀ traits picture sound, motive picture → motive sound →
      motive (.scored traits picture sound))
    (trimmed : ∀ traits input start stop, motive input →
      motive (.trimmed traits input start stop)) (c : Clip) : motive c :=
  @Clip.rec motive (fun cs => ∀ c ∈ cs, motive c) source resized framed placed joined layered scored
    trimmed (fun _ h => nomatch h) (fun _ _ hc hcs => List.forall_mem_cons.2 ⟨hc, hcs⟩) c

namespace Clip

/-- What is known of a clip as a whole. -/
def traits : Clip → Traits
  | .source t .. => t
  | .resized t .. => t
  | .framed t .. => t
  | .placed t _ => t
  | .joined t _ => t
  | .layered t .. => t
  | .scored t .. => t
  | .trimmed t .. => t

/-- The clip has a picture. -/
def hasPicture (c : Clip) : Bool := c.traits.hasPicture

/-- The clip has sound. -/
def hasSound (c : Clip) : Bool := c.traits.hasSound

/-- The length in seconds, when it is known. -/
def duration (c : Clip) : Option Seconds := c.traits.duration

/-- The size of the picture, when it is known. -/
def size (c : Clip) : Option Canvas := c.traits.size

/-- Where the picture lands on a canvas. -/
def offset (c : Clip) : Placement := c.traits.offset

/-- Fails unless the clip has a picture, on behalf of a kind of block. -/
def requirePicture (c : Clip) (kind : Kind) : Except Fault Unit :=
  if c.hasPicture then .ok () else .error (.needsPicture kind)

/-! ### Sources -/

/-- A source file.  `limit` cuts it off, and `duration` is how long it then lasts. -/
def ofSource (medium : Medium) (path : Path) (limit duration : Option Seconds) (hasSound : Bool)
    (size : Option Canvas) : Clip :=
  .source ⟨medium != .audio, hasSound, duration, size, .origin⟩ medium path limit

/-! ### Changes of a picture -/

/-- The side that goes with a scaled one: `value * num / den`, rounded with halves up, then down to
an even number of at least 2 that fits 32 bits. -/
def evenScale (value num den : UInt32) : UInt32 :=
  let rounded := (value.toNat * num.toNat + den.toNat / 2) / den.toNat
  UInt32.ofNat (max (min rounded (UInt32.size - 1) / 2 * 2) 2)

/-- The size of a resized picture.  A missing side keeps the aspect ratio. -/
def scaledSize (width height : Option UInt32) (current : Option Canvas) : Option Canvas :=
  match width, height, current with
  | some width, some height, _ => some ⟨width, height⟩
  | some width, none, some c =>
    if 0 < c.width then some ⟨width, evenScale c.height width c.width⟩ else none
  | none, some height, some c =>
    if 0 < c.height then some ⟨evenScale c.width height c.height, height⟩ else none
  | none, none, current => current
  | _, _, none => none

/-- The clip with its picture scaled. -/
def resize (c : Clip) (width height : Option UInt32) : Except Fault Clip := do
  c.requirePicture .resize
  return .resized { c.traits with size := scaledSize width height c.size } c width height

/-- A side with a border at both ends, or the largest number of 32 bits. -/
def grow (side margin : UInt32) : UInt32 :=
  UInt32.ofNat (min (side.toNat + 2 * margin.toNat) (UInt32.size - 1))

/-- The size of a picture with a border. -/
def framedSize (margin : UInt32) (c : Canvas) : Canvas :=
  ⟨grow c.width margin, grow c.height margin⟩

/-- The clip with a border around its picture. -/
def frame (c : Clip) (margin : UInt32) (color : Color) (opacity : UInt32) : Except Fault Clip := do
  c.requirePicture .margin
  return .framed { c.traits with size := c.size.map (framedSize margin) } c margin color opacity

/-- The clip at another place on a canvas.  What is not given stays. -/
def place (c : Clip) (x y : Option UInt32) : Except Fault Clip := do
  c.requirePicture .position
  return .placed { c.traits with offset := ⟨x.getD c.offset.x, y.getD c.offset.y⟩ } c

/-! ### Combinations -/

/-- Clips one after another.  Either all of them have a picture or none has. -/
def concatenate : List Clip → Except Fault Clip
  | [] => .error .nothingToConcatenate
  | c :: cs =>
    if cs.any fun d => d.hasPicture != c.hasPicture then .error .mixedConcatenation
    else
      .ok (.joined
        { hasPicture := c.hasPicture
          hasSound := (c :: cs).any hasSound
          duration := Seconds.sumKnown ((c :: cs).map duration)
          size := c.size
          offset := .origin } (c :: cs))

/-- The size of the first clip that has a picture. -/
def firstSize (layers : List Clip) : Option Canvas := (layers.find? hasPicture).bind size

/-- Clips on one canvas, of the given size or else of the size of the lowest picture. -/
def compose (layers : List Clip) (size : Option Canvas) : Except Fault Clip :=
  if layers.isEmpty then .error .nothingToCompose
  else
    match size <|> firstSize layers with
    | none => .error .unknownCanvas
    | some canvas =>
      .ok (.layered
        { hasPicture := true
          hasSound := layers.any hasSound
          duration := Seconds.maximumKnown (layers.map duration)
          size := some canvas
          offset := .origin } layers canvas)

/-- The picture of one clip with the sound of another. -/
def setAudio (picture sound : Clip) : Except Fault Clip := do
  picture.requirePicture .setAudio
  if sound.hasSound then
    return .scored { picture.traits with hasSound := true } picture sound
  else throw .noSoundToAttach

/-! ### Parts -/

/-- The length of a part of a clip. -/
def trimmedDuration (start : Seconds) (stop total : Option Seconds) : Option Seconds :=
  match stop, total with
  | some stop, some total => some ((stop.min total).sub start)
  | some stop, none => some (stop.sub start)
  | none, total => total.map fun total => total.sub start

/-- The part of a clip between two positions; without an end it runs to the end of the clip. -/
def cut (c : Clip) (start : Seconds) (stop : Option Seconds) : Except Fault Clip := do
  if let some stop := stop then
    if stop.le start then throw (.emptyRange start stop)
  if let some total := c.duration then
    if total.le start then throw (.startPastEnd start total)
  return .trimmed { c.traits with duration := trimmedDuration start stop c.duration } c start stop

end Clip

end Montage
