import Montage.Host
import Montage.Probe
import Montage.Renderer.Command

/-!
# The renderer

The renderer is the backend that works on files.  It probes a source when it opens it, keeps clips
as trees, and carries out one command for each clip that it encodes.  In a dry run it only puts the
commands together.
-/

namespace Montage

/-- Both programs of the options can be started. -/
def RenderOptions.haveTools (o : RenderOptions) (h : Host) : Bool :=
  h.works o.encoder && h.works o.prober

/-- What the renderer keeps between calls. -/
structure Renderer where
  files : FileTree
  /-- The commands of the clips encoded so far. -/
  commands : List Command

namespace Renderer

/-! ### Opening sources -/

/-- Asks the prober about a file. -/
def probe (h : Host) (o : RenderOptions) (path : Path) (files : FileTree) :
    Except Fault Probe × FileTree :=
  let arguments :=
    ["-v", "error", "-print_format", "json", "-show_streams", "-show_format", path.text]
  match h.start files o.prober arguments with
  | .error failure => (.error (.proberNotStarted o.prober failure), files)
  | .ok tool =>
    let (done, files) := tool.run arguments files
    if done.status ≠ 0 then (.error (.probeFailed path (Text.trimmed done.complaint)), files)
    else
      match Probe.ofBytes? (Json.bytesOf done.output) with
      | none => (.error .probeUnreadable, files)
      | some probe => (.ok probe, files)

/-- A name with this extension says that its file is a picture. -/
def isPictureExtension (e : String) : Bool :=
  let e := e.map Char.toLower
  e = "png" || e = "apng"

/-- The most bytes that a row of a picture may take. -/
def rowLimit : Nat := 536870912

/-- The bytes that a row of a picture takes: three for each pixel, and one that says how the row is
stored. -/
def rowSize (width : Nat) : Nat := 3 * width + 1

/-- The size of a picture file.  The name has to say that it is a picture, both sides count at least
one pixel, and a row keeps within its limit. -/
def imageSize (path : Path) (content : Content) : Except Fault Canvas :=
  match content with
  | .image width height =>
    if path.extension?.any isPictureExtension ∧ 1 ≤ width ∧ 1 ≤ height ∧
        rowSize width ≤ rowLimit then
      .ok ⟨UInt32.ofNat width, UInt32.ofNat height⟩
    else .error (.imageUnreadable path)
  | _ => .error (.imageUnreadable path)

/-- A clip that shows a picture file for the length of the source. -/
def imageClip (s : Source) (content : Content) : Except Fault Clip := do
  let size ← imageSize s.path content
  match s.duration with
  | none => throw (.imageWithoutLength s.path)
  | some duration =>
    return .ofSource .image s.path (some duration) (some duration) false (some size)

/-- A clip that plays a media file with a video stream. -/
def videoClip (s : Source) (p : Probe) : Except Fault Clip :=
  if p.hasVideo then
    .ok (.ofSource .video s.path s.duration (s.duration <|> p.duration) (s.hasAudio && p.hasAudio)
      p.size)
  else .error (.noVideoStream s.path)

/-- A clip that plays the sound of a media file. -/
def audioClip (s : Source) (p : Probe) : Except Fault Clip :=
  if p.hasAudio then
    .ok (.ofSource .audio s.path s.duration (s.duration <|> p.duration) true none)
  else .error (.noAudioStream s.path)

/-- The report on a video source whose sound is missing. -/
def soundEvents (s : Source) (p : Probe) : List Event :=
  if p.hasVideo && s.hasAudio && !p.hasAudio then [.soundMissing s.path] else []

/-- The clip of a source whose file is there, what is to be reported before it is open, and the
files afterwards. -/
def openFile (h : Host) (o : RenderOptions) (s : Source) (content : Content) (files : FileTree) :
    Except Fault Clip × List Event × FileTree :=
  match s.medium with
  | .image => (imageClip s content, [], files)
  | .video =>
    match probe h o s.path files with
    | (.error e, files) => (.error e, [], files)
    | (.ok p, files) => (videoClip s p, soundEvents s p, files)
  | .audio =>
    match probe h o s.path files with
    | (.error e, files) => (.error e, [], files)
    | (.ok p, files) => (audioClip s p, [], files)

/-- The report on an open source. -/
def openedEvent (s : Source) (c : Clip) : Event :=
  .openedSource s.path c.duration c.size c.hasSound

/-- Opens a source. -/
def openSource (h : Host) (o : RenderOptions) (s : Source) (r : Renderer) : Reply Renderer Clip :=
  match r.files.file? s.path with
  | none => ⟨.error (.backend (.sourceMissing s.path)), r, []⟩
  | some content =>
    match openFile h o s content r.files with
    | (.error e, events, files) => ⟨.error (.backend e), { r with files }, events⟩
    | (.ok c, events, files) => ⟨.ok c, { r with files }, events ++ [openedEvent s c]⟩

/-! ### Making clips -/

/-- The clip with an effect.  A border is black, opaque and without width where nothing else is
said. -/
def change (c : Clip) : Effect → Except Fault Clip
  | .resize height width => c.resize width height
  | .position x y => c.place x y
  | .margin m =>
    c.frame (m.size.getD 0) ⟨m.red.getD 0, m.green.getD 0, m.blue.getD 0⟩ (m.opacity.getD 1)

/-- The reply of a call that touches nothing but clips. -/
def pureReply (r : Renderer) (clip : Except Fault Clip) : Reply Renderer Clip :=
  ⟨clip.mapError .backend, r, []⟩

/-- Makes a clip. -/
def make (h : Host) (o : RenderOptions) (recipe : Recipe Clip) (r : Renderer) :
    Reply Renderer Clip :=
  match recipe with
  | .source s => openSource h o s r
  | .effect input e => pureReply r (change input e)
  | .concatenate clips => pureReply r (Clip.concatenate clips)
  | .composite layers size => pureReply r (Clip.compose layers size)
  | .attachAudio picture sound => pureReply r (Clip.setAudio picture sound)
  | .extractRange input start stop =>
    pureReply r (input.cut start.toSeconds (stop.map (·.toSeconds)))

/-! ### Encoding -/

/-- The directory that a destination is in, when its path names one. -/
def directory? (destination : Path) : Option Path :=
  destination.parent?.filter fun d => d != .empty

/-- Makes the directory of a destination. -/
def prepare (destination : Path) (files : FileTree) : Except Error Unit × FileTree :=
  match directory? destination with
  | none => (.ok (), files)
  | some directory =>
    match files.ensureDirectory directory with
    | (none, files) => (.ok (), files)
    | (some e, files) => (.error (.directoryNotMade directory e), files)

/-- Carries out a command whose destination can be written. -/
def execute (h : Host) (o : RenderOptions) (command : Command) (destination : Path)
    (files : FileTree) : Except Fault Unit × FileTree :=
  if !o.overwrite && files.isPresent destination then (.error (.outputExists destination), files)
  else if !h.works o.encoder then (.error (.encoderMissing o.encoder), files)
  else
    match h.start files command.program command.arguments with
    | .error failure => (.error (.encoderNotStarted command.program failure), files)
    | .ok tool =>
      let (done, files) := tool.run command.arguments files
      if done.status ≠ 0 then
        (.error (.encoderFailed done.status (Text.trimmed done.complaint)), files)
      else (.ok (), files)

/-- Makes the directory of a destination and carries out the command that writes it. -/
def carryOut (h : Host) (o : RenderOptions) (command : Command) (destination : Path)
    (files : FileTree) : Except Error Unit × FileTree :=
  match prepare destination files with
  | (.error e, files) => (.error e, files)
  | (.ok _, files) =>
    let (outcome, files) := execute h o command destination files
    (outcome.mapError .backend, files)

/-- Encodes a clip.  The command is remembered when all went well. -/
def encode (h : Host) (o : RenderOptions) (c : Clip) (e : Encoding) (r : Renderer) :
    Reply Renderer Unit :=
  match e.command o c with
  | .error fault => ⟨.error (.backend fault), r, []⟩
  | .ok command =>
    let events : List Event := [.encodeCommand command.display]
    let (outcome, files) :=
      if o.dryRun then (.ok (), r.files) else carryOut h o command e.destination r.files
    match outcome with
    | .error e => ⟨.error e, { r with files }, events⟩
    | .ok () => ⟨.ok (), ⟨files, r.commands ++ [command]⟩, events⟩

/-- The renderer as a backend. -/
def backend (h : Host) (o : RenderOptions) : Backend Renderer Clip where
  make := make h o
  duration c r := ⟨.ok c.duration, r, []⟩
  encode := encode h o

end Renderer

end Montage
