import Montage.Backend
import Montage.Bindings

/-!
# Sessions

A session runs the steps of a script, in order, against a backend.  A step first turns the names
that it reads into clips; `Step.task` is what it then asks of the backend, and `perform` asks it.
The first error ends the session, and what was done before stays done.

Everything that a session does is part of its result: a `Turn` holds the outcome, the state of the
backend, the trace of its calls and the events to report.
-/

namespace Montage

variable {σ γ α : Type}

/-! ### What a step asks for -/

/-- What a step asks of a backend, with clips in the place of names. -/
inductive Task (γ : Type) where
  | make (recipe : Recipe γ)
  /-- Opens a source with the length of another clip. -/
  | makeAsLongAs (model : γ) (source : Source)
  /-- Writes the clip with the given name to a file. -/
  | encode (name : String) (clip : γ) (encoding : Encoding)

namespace Definition

/-- The source of a definition, seen from a directory. -/
def toSource (d : Definition) (base : Path) : Source :=
  ⟨d.medium, base.join d.source, d.duration.map fun n => .ofNat n.toNat, d.hasAudio⟩

/-- What a definition asks for.  The length of another clip counts only without a length of its
own. -/
def task (base : Path) (find : String → Except Error γ) (d : Definition) :
    Except Error (Task γ) :=
  match d.duration, d.durationFrom with
  | none, some name => do return .makeAsLongAs (← find name) (d.toSource base)
  | _, _ => .ok (.make (.source (d.toSource base)))

end Definition

/-- The recipe of a combination. -/
def Mix.recipe (find : String → Except Error γ) : Mix → Except Error (Recipe γ)
  | .concatenate clips => do return .concatenate (← clips.mapM find)
  | .composite clips size => do return .composite (← clips.mapM find) size
  | .setAudio picture sound => do return .attachAudio (← find picture) (← find sound)

/-- The encoding of a delivery, seen from a directory. -/
def Delivery.toEncoding (d : Delivery) (base : Path) : Encoding :=
  ⟨base.join d.destination, d.fps, d.codec, d.preset, d.threads, d.params⟩

/-- What an operation asks for, where `find` gives the clip of a name. -/
def Operation.task (base : Path) (find : String → Except Error γ) :
    Operation → Except Error (Task γ)
  | .define d => d.task base find
  | .effect input _ e => do return .make (.effect (← find input) e)
  | .mix _ m => do return .make (← m.recipe find)
  | .subclip s => do return .make (.extractRange (← find s.input) s.start s.stop)
  | .deliver d => do return .encode d.input (← find d.input) (d.toEncoding base)

/-- What a step asks for.  Every name that it reads has to be bound before it asks for anything. -/
def Step.task (base : Path) (bindings : Bindings γ) (step : Step) : Except Error (Task γ) := do
  let find (name : String) := bindings.get name step.operation.kind.token step.line
  let _ ← step.operation.inputs.mapM find
  step.operation.task base find

/-! ### Asking for it -/

/-- What a part of a session did. -/
structure Turn (σ γ α : Type) where
  outcome : Except Error α
  state : σ
  trace : List (Exchange γ)
  events : List Event

/-- What a task yields: a new clip, or the file of a named clip. -/
inductive Product (γ : Type) where
  | clip (c : γ)
  | file (name : String) (path : Path)

/-- Makes a clip. -/
def Backend.perform (B : Backend σ γ) (recipe : Recipe γ) (s : σ) : Turn σ γ (Product γ) :=
  let reply := B.make recipe s
  ⟨reply.outcome.map .clip, reply.state, [.made recipe reply.outcome], reply.events⟩

/-- Carries out a task. -/
def Task.perform (B : Backend σ γ) : Task γ → σ → Turn σ γ (Product γ)
  | .make recipe, s => B.perform recipe s
  | .makeAsLongAs model source, s =>
    let measured := B.duration model s
    match measured.outcome with
    | .error e => ⟨.error e, measured.state, [.measured model (.error e)], measured.events⟩
    | .ok duration =>
      let made := B.perform (.source { source with duration }) measured.state
      { made with
        trace := .measured model (.ok duration) :: made.trace
        events := measured.events ++ made.events }
  | .encode name clip encoding, s =>
    let reply := B.encode clip encoding s
    ⟨reply.outcome.map fun _ => .file name encoding.destination, reply.state,
      [.encoded clip encoding reply.outcome], reply.events⟩

/-! ### Running steps -/

/-- The report on binding a name; nothing is said of a new one. -/
def Bindings.bindingEvents (bs : Bindings γ) (name : String) : List Event :=
  if bs.contains name then [.rebinding name] else []

/-- What a session has brought about so far. -/
structure Progress (γ : Type) where
  bindings : Bindings γ
  /-- The files written, in order. -/
  exports : List Path
  /-- The name of the clip that was written last. -/
  lastExport : Option String

namespace Progress

/-- The beginning of a session. -/
def start : Progress γ := ⟨.empty, [], none⟩

/-- Takes note of what an operation has yielded. -/
def record (p : Progress γ) (op : Operation) : Product γ → Progress γ × List Event
  | .clip c =>
    match op.output? with
    | none => (p, [])
    | some name => ({ p with bindings := p.bindings.bind name c }, p.bindings.bindingEvents name)
  | .file name path =>
    ({ p with exports := p.exports ++ [path], lastExport := some name }, [.exported name path])

end Progress

/-- Runs one step. -/
def Step.run (B : Backend σ γ) (base : Path) (step : Step) (p : Progress γ) (s : σ) :
    Turn σ γ (Progress γ) :=
  let kind := step.operation.kind
  let started : List Event := [.stepStarted step.line kind]
  match step.task base p.bindings with
  | .error e => ⟨.error e, s, [], started⟩
  | .ok task =>
    let turn := task.perform B s
    match turn.outcome with
    | .error e =>
      ⟨.error (e.inBlock kind step.line), turn.state, turn.trace, started ++ turn.events⟩
    | .ok product =>
      let (p, noted) := p.record step.operation product
      ⟨.ok p, turn.state, turn.trace, started ++ turn.events ++ noted⟩

namespace Session

/-- Runs steps one after another, up to the first error. -/
def runSteps (B : Backend σ γ) (base : Path) :
    List Step → Progress γ → σ → Turn σ γ (Progress γ)
  | [], p, s => ⟨.ok p, s, [], []⟩
  | step :: steps, p, s =>
    let turn := step.run B base p s
    match turn.outcome with
    | .error e => { turn with outcome := .error e }
    | .ok p =>
      let rest := runSteps B base steps p turn.state
      { rest with trace := turn.trace ++ rest.trace, events := turn.events ++ rest.events }

/-- What a session that ran to its end reports. -/
structure Report (γ : Type) where
  bindings : Bindings γ
  exports : List Path
  lastExport : Option String
  stepsRun : Nat

/-- Runs a script from the beginning. -/
def run (B : Backend σ γ) (base : Path) (steps : List Step) (s : σ) : Turn σ γ (Report γ) :=
  let turn := runSteps B base steps .start s
  { turn with
    outcome := turn.outcome.map fun p => ⟨p.bindings, p.exports, p.lastExport, steps.length⟩ }

end Session

end Montage
