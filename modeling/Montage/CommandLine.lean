import Montage.Invocation
import Montage.Json.Writer
import Montage.Operation.Json
import Montage.Recorder.Inspect
import Montage.Renderer
import Montage.Script.File
import Montage.Session

/-!
# The command line program

`CommandLine.run` is the program as a function: from its arguments and the files it sees, to what it
prints, its exit status and the files afterwards.  An error is printed with its causes, each further
in than the error itself.  What was logged is said before the results.
-/

namespace Montage.CommandLine

/-- What the program says beside its output. -/
inductive Message where
  /-- An entry of the log. -/
  | logged (e : Event)
  | plain (text : String)
  deriving DecidableEq, Repr

/-- The message in words. -/
def Message.text : Message → String
  | .logged e => e.entry
  | .plain text => text

/-- How the program ends. -/
structure Ending where
  status : Nat
  output : String
  /-- What was said, in order; nothing stands for the usage text. -/
  messages : Option (List Message)
  files : FileTree

/-- The ending with log entries before everything else that is said. -/
def Ending.after (events : List Event) (verbosity : Nat) (e : Ending) : Ending :=
  let entries := (Event.shown verbosity events).map Message.logged
  { e with messages := e.messages.map (entries ++ ·) }

/-! ### Errors -/

/-- The lines of a text. -/
def linesOf (text : String) : List String :=
  (Text.splitAll (· = '\n') text.toList).map String.ofList

/-- Lines, of which the first is marked and the others stand below it. -/
def hanging (mark space : String) : List String → List String
  | [] => []
  | l :: ls => (mark ++ l) :: ls.map (space ++ ·)

/-- The lines of numbered causes. -/
def numberedCauses (causes : List String) : List String :=
  causes.zipIdx.flatMap fun c =>
    hanging ("    " ++ toString c.2 ++ ": ") "       " (linesOf c.1)

/-- The lines of causes.  A single cause has no number. -/
def causeLines : List String → List String
  | [cause] => hanging "    " "    " (linesOf cause)
  | causes => numberedCauses causes

/-- The lines of an error with its causes. -/
def errorLines (message : String) (causes : List String) : List String :=
  linesOf ("Error: " ++ message) ++
    if causes.isEmpty then [] else ["", "Caused by:"] ++ causeLines causes

/-- The causes of an error that its message leaves out. -/
def hiddenCauses (e : Error) : List String := (e.cause?.map FileFailure.message).toList

/-- The end of the program with an error. -/
def failure (files : FileTree) (message : String) (causes : List String) : Ending :=
  ⟨1, "", some ((errorLines message causes).map .plain), files⟩

/-- The end of the program with what it prints and says. -/
def success (files : FileTree) (output messages : List String) : Ending :=
  ⟨0, String.join (output.map (· ++ "\n")), some (messages.map .plain), files⟩

/-! ### Commands -/

/-- Reads a script and goes on with its steps. -/
def withSteps (files : FileTree) (script : Path) (verbosity : Nat)
    (next : List Step → Ending) : Ending :=
  let reading := Script.load files script
  let ending :=
    match reading.steps with
    | .error e => failure files e.message (hiddenCauses e)
    | .ok steps => next steps
  ending.after reading.events verbosity

/-- Shows the steps of a script. -/
def parse (files : FileTree) (script : Path) (verbosity : Nat) : Ending :=
  withSteps files script verbosity fun steps =>
    success files [(Json.array (steps.map Step.toJson)).pretty] []

/-- The line on a script that could be run. -/
def checkedLine (report : Session.Report NumberedClip) : String :=
  "ok: " ++ toString report.stepsRun ++ " steps, " ++ toString report.exports.length ++
    " exports, " ++ toString report.bindings.size ++ " clips bound"

/-- How the program ends after a session with the recorder. -/
def checked (files : FileTree) (script : Path)
    (turn : Turn Recorder NumberedClip (Session.Report NumberedClip)) : Ending :=
  match turn.outcome with
  | .error e => failure files ("check script '" ++ script.text ++ "'") (e.message :: hiddenCauses e)
  | .ok report => success files (turn.state.calls.map (·.inspect)) [checkedLine report]

/-- Runs a script against the recorder and shows the calls. -/
def check (files : FileTree) (script : Path) (verbosity : Nat) : Ending :=
  withSteps files script verbosity fun steps =>
    let turn := Session.run (Recorder.backend none) (Script.directory script) steps .empty
    (checked files script turn).after turn.events verbosity

/-- How the program ends after a session with the renderer. -/
def rendered (script : Path) (o : RenderOptions)
    (turn : Turn Renderer Clip (Session.Report Clip)) : Ending :=
  let files := turn.state.files
  match turn.outcome with
  | .error e => failure files ("run script '" ++ script.text ++ "'") (e.message :: hiddenCauses e)
  | .ok report =>
    if o.dryRun then success files (turn.state.commands.map (·.display)) []
    else success files [] (report.exports.map fun path => "wrote " ++ path.text)

/-- Runs a script against the renderer. -/
def render (h : Host) (files : FileTree) (script : Path) (o : RenderOptions) (verbosity : Nat) :
    Ending :=
  withSteps files script verbosity fun steps =>
    let turn := Session.run (Renderer.backend h o) (Script.directory script) steps ⟨files, []⟩
    (rendered script o turn).after turn.events verbosity

/-- The name and the version of the program. -/
def versionLine : String := "vidmaster 0.1.0"

/-- How the program is called. -/
def usage : String := "usage: vidmaster [-v] run|check|parse SCRIPT"

/-- Runs the program. -/
def run (h : Host) (arguments : List String) (files : FileTree) : Ending :=
  match Invocation.ofArguments? arguments with
  | none => ⟨2, "", none, files⟩
  | some .help => success files [] []
  | some .version => success files [versionLine] []
  | some (.parse script verbosity) => parse files script verbosity
  | some (.check script verbosity) => check files script verbosity
  | some (.run script options verbosity) => render h files script options verbosity

end Montage.CommandLine
