import Montage.Backend
import Montage.Command
import Montage.Filtergraph.Assembly

/-!
# The encode command

`Encoding.command` puts the command together that encodes a clip: the inputs of the clip's
filtergraph with their options, the graph itself, the streams that leave it, and the settings of the
encoding.
-/

namespace Montage

/-- The programs that a renderer uses, and how it uses them. -/
structure RenderOptions where
  encoder : String
  prober : String
  /-- Files that exist are overwritten. -/
  overwrite : Bool
  /-- Commands are put together but not carried out. -/
  dryRun : Bool
  deriving DecidableEq, Repr

/-- The arguments for the inputs of a graph. -/
def Filtergraph.inputArguments (g : Filtergraph) : List String :=
  g.inputs.flatMap fun i => i.options ++ ["-i", i.path.text]

/-- The arguments for the streams that leave a graph. -/
def Filtergraph.outputArguments (g : Filtergraph) : List String :=
  (g.picture.toList ++ g.sound.toList).flatMap (fun l => ["-map", l.bracketed]) ++
    if g.sound.isNone then ["-an"] else []

namespace Encoding

/-- The arguments for the settings of an encoding. -/
def settingArguments (e : Encoding) : List String :=
  ["-r", toString e.fps, "-c:v", e.codec, "-preset", e.preset] ++
    (match e.threads with
      | none => []
      | some threads => ["-threads", toString threads]) ++
    e.params

/-- The arguments that encode a graph. -/
def arguments (o : RenderOptions) (g : Filtergraph) (e : Encoding) : List String :=
  ["-hide_banner", "-loglevel", "error", if o.overwrite then "-y" else "-n"] ++
    g.inputArguments ++ ["-filter_complex", g.text] ++ g.outputArguments ++ e.settingArguments ++
    [e.destination.text]

/-- The command that encodes a clip. -/
def command (o : RenderOptions) (c : Clip) (e : Encoding) : Except Fault Command := do
  c.requirePicture .deliver
  if e.fps = 0 then throw .zeroFrameRate
  return ⟨o.encoder, e.arguments o (← Filtergraph.ofClip c)⟩

end Encoding

end Montage
