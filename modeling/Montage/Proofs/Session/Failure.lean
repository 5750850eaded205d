import Montage.Proofs.Session.Calls

/-!
# The first error ends a session

Whatever the backend, a run that fails does so at one step, and nothing comes after it.
`Step.Breaks` says what such a step has done: either a name that it reads is not bound, and then it
has called nothing, or the last of its calls has failed.  In the second case its names were all
found, so that its error can only be the one of that call.

`exists_breaking_step` finds this step in every run that fails.
-/

namespace Montage

variable {σ γ : Type} {B : Backend σ γ} {base : Path} {step : Step} {steps : List Step}
  {p : Progress γ} {s : σ} {e : Error}

/-- How the error of a call leaves the block that made the call: a fault of the backend has the kind
and the line of the block put in front of its words, and any other error stays as it is. -/
inductive Surfaces (kind : Kind) (line : Nat) : Error → Error → Prop
  | traced {fault fault' : Fault}
      (words : fault'.message =
        kind.token ++ " block at line " ++ toString line ++ ": " ++ fault.message) :
      Surfaces kind line (.backend fault) (.backend fault')
  | unchanged {e : Error} (other : ∀ fault, e ≠ .backend fault) : Surfaces kind line e e

/-- An error leaves a block in the way that it should. -/
lemma surfaces_inBlock (kind : Kind) (line : Nat) (e : Error) :
    Surfaces kind line e (e.inBlock kind line) := by
  cases e with
  | backend fault => exact .traced rfl
  | _ => exact .unchanged fun fault heq => by cases heq

namespace Step

/-- What a step has done that ends a session with an error, where `bindings` are the names bound
before it and `calls` are the calls that it made. -/
inductive Breaks (base : Path) (bindings : Bindings γ) (step : Step) :
    List (Exchange γ) → Error → Prop
  /-- A name is not bound.  The first such name is the error, and nothing was called. -/
  | unbound {name : String}
      (first : FirstUnknown (bindings.contains · = true) step.operation.inputs name) :
      Breaks base bindings step [] (.undefinedClip name step.operation.kind.token step.line)
  /-- All names are bound and have been found again in carrying out the step; its last call has
  failed, and no other. -/
  | failed {earlier : List (Exchange γ)} {last : Exchange γ} {cause e : Error}
      (bound : ∀ name ∈ step.operation.inputs, bindings.contains name = true)
      (found : ∃ task, step.operation.task base
        (bindings.get · step.operation.kind.token step.line) = .ok task)
      (before : Succeeded earlier)
      (failure : last.error? = some cause)
      (surfaces : Surfaces step.operation.kind step.line cause e) :
      Breaks base bindings step (earlier ++ [last]) e

/-- A step that fails has met with an unbound name or with a failing call. -/
lemma breaks_of_run (h : (step.run B base p s).outcome = .error e) :
    step.Breaks base p.bindings (step.run B base p s).trace e := by
  by_cases hbound : ∀ name ∈ step.operation.inputs, p.bindings.contains name = true
  · obtain ⟨task, htask, hop⟩ := exists_task base hbound
    cases hproduct : (task.perform B s).outcome with
    | ok product =>
      rw [(run_of_task_ok htask hproduct).1] at h
      cases h
    | error cause =>
      obtain ⟨earlier, last, hcalls, hearlier, hlast⟩ := Task.exists_failed_call hproduct
      rw [run_of_perform_error htask hproduct] at h
      cases h
      rw [trace_of_task htask, hcalls]
      exact .failed hbound ⟨task, hop⟩ hearlier hlast (surfaces_inBlock _ _ cause)
  · obtain ⟨name, hname⟩ := exists_firstUnknown hbound
    rw [run_of_task_error (task_of_firstUnknown base hname)] at h ⊢
    cases h
    exact .unbound hname

end Step

namespace Session

/-- The run of the steps breaks off with an error at a place: at a step, after the steps before it
have ended in a report, and in making some calls. -/
structure BreaksAt (B : Backend σ γ) (base : Path) (steps : List Step) (s : σ) (e : Error)
    (place : Nat) (step : Step) (report : Report γ) (calls : List (Exchange γ)) : Prop where
  step_at : steps[place]? = some step
  /-- The steps before the place succeed on their own. -/
  reached : (run B base (steps.take place) s).outcome = .ok report
  /-- None of their calls has failed. -/
  before : Succeeded (run B base (steps.take place) s).trace
  answered_before : B.Answers s (run B base (steps.take place) s).trace
    (run B base (steps.take place) s).state
  /-- The whole run makes their calls, with the same outcomes, and then those of the step; it makes
  no others. -/
  trace : (run B base steps s).trace = (run B base (steps.take place) s).trace ++ calls
  answered : B.Answers (run B base (steps.take place) s).state calls (run B base steps s).state
  breaks : step.Breaks base report.bindings calls e

/-- A run that fails breaks off at one step: there a name is not bound and nothing is called, or the
last call of the run fails, with the error of the run. -/
theorem exists_breaking_step (h : (run B base steps s).outcome = .error e) :
    ∃ place step report calls, BreaksAt B base steps s e place step report calls := by
  obtain ⟨before, step, after, q, rfl, hbefore, hstep, hwhole⟩ :=
    exists_failing_step (map_eq_error.1 h)
  have htake : (before ++ step :: after).take before.length = before := List.take_left
  have hreached : (run B base before s).outcome =
      .ok ⟨q.bindings, q.exports, q.lastExport, before.length⟩ := map_eq_ok.2 ⟨q, hbefore, rfl⟩
  have htrace : (run B base (before ++ step :: after) s).trace = (run B base before s).trace ++
      (step.run B base q (run B base before s).state).trace := congrArg Turn.trace hwhole
  have hstate : (run B base (before ++ step :: after) s).state =
      (step.run B base q (run B base before s).state).state := congrArg Turn.state hwhole
  refine ⟨before.length, step, ⟨q.bindings, q.exports, q.lastExport, before.length⟩,
    (step.run B base q (run B base before s).state).trace, ?_⟩
  exact {
    step_at := by simp
    reached := by rw [htake, hreached]
    before := by
      rw [htake]
      exact succeeded_of_runSteps hbefore
    answered_before := by
      rw [htake]
      exact answers_runSteps B base before .start s
    trace := by rw [htake, htrace]
    answered := by
      rw [htake, hstate]
      exact Step.answers_run B base step q _
    breaks := Step.breaks_of_run hstep }

/-- A backend that numbers its clips, and has lost one of its sources. -/
def cutting : Backend Nat Nat where
  make recipe n :=
    match recipe with
    | .source ⟨_, ⟨"lost.mp4"⟩, _, _⟩ => ⟨.error (.backend (.custom "no such reel")), n, []⟩
    | _ => ⟨.ok n, n + 1, []⟩
  duration _ n := ⟨.ok none, n, []⟩
  encode _ _ n := ⟨.ok (), n, []⟩

/-- A clip is to be as long as another one, but its source is lost. -/
def reel : List Step :=
  [⟨1, .define ⟨"talk", .video, ⟨"talk.mp4"⟩, true, none, none⟩⟩,
    ⟨6, .define ⟨"echo", .video, ⟨"lost.mp4"⟩, false, none, some "talk"⟩⟩,
    ⟨12, .deliver ⟨"echo", ⟨"echo.mp4"⟩, 25, "libx264", "medium", none, []⟩⟩]

/-- The run of that script breaks off at its second step. -/
theorem breaking_step_of_reel :
    (run cutting ⟨""⟩ reel 0).outcome =
        .error (.backend (.inBlock .define 6 (.custom "no such reel"))) ∧
      ∃ place step report calls, BreaksAt cutting ⟨""⟩ reel 0
        (.backend (.inBlock .define 6 (.custom "no such reel"))) place step report calls := by
  have hrun : (run cutting ⟨""⟩ reel 0).outcome =
      .error (.backend (.inBlock .define 6 (.custom "no such reel"))) := by rfl
  exact ⟨hrun, exists_breaking_step hrun⟩

end Session

end Montage
