import Montage.Proofs.Session.Run

/-!
# The calls of a session

The trace of a session is a record of its calls.  `Backend.Answers` says that such a record is true:
each call was made in the state that the calls before it had left, and was answered as the record
says.  `answers_runSteps` says it of every run, whether it fails or not.

A session goes on after a call only when the call succeeded.  So a run that succeeds has no failed
call in its trace (`succeeded_of_runSteps`), and a task that fails has exactly one, the last, whose
error is that of the task (`Task.exists_failed_call`).
-/

namespace Montage

variable {σ γ : Type} {B : Backend σ γ} {base : Path} {step : Step} {steps : List Step}
  {task : Task γ} {p p' : Progress γ} {s s' s'' : σ} {trace rest : List (Exchange γ)}

/-! ### Records of calls -/

/-- The error that a call ended with, if it failed. -/
def Exchange.error? : Exchange γ → Option Error
  | .made _ (.error e) => some e
  | .measured _ (.error e) => some e
  | .encoded _ _ (.error e) => some e
  | _ => none

/-- The error of a call that was to make a clip. -/
@[simp] lemma Exchange.error?_made {recipe : Recipe γ} {outcome : Except Error γ} {e : Error} :
    (Exchange.made recipe outcome).error? = some e ↔ outcome = .error e := by
  cases outcome <;> simp [error?]

/-- The error of a call that was to measure a clip. -/
@[simp] lemma Exchange.error?_measured {clip : γ} {outcome : Except Error (Option Seconds)}
    {e : Error} : (Exchange.measured clip outcome).error? = some e ↔ outcome = .error e := by
  cases outcome <;> simp [error?]

/-- The error of a call that was to write a clip. -/
@[simp] lemma Exchange.error?_encoded {clip : γ} {encoding : Encoding}
    {outcome : Except Error Unit} {e : Error} :
    (Exchange.encoded clip encoding outcome).error? = some e ↔ outcome = .error e := by
  cases outcome <;> simp [error?]

/-- No call of a trace has failed. -/
def Succeeded (trace : List (Exchange γ)) : Prop := ∀ x ∈ trace, x.error? = none

/-- The backend answers the calls of a trace, one after another, as the trace says; this takes it
from one state to another. -/
inductive Backend.Answers (B : Backend σ γ) : σ → List (Exchange γ) → σ → Prop
  | nil (s : σ) : Answers B s [] s
  | made {s s' : σ} {rest : List (Exchange γ)} (recipe : Recipe γ)
      (h : Answers B (B.make recipe s).state rest s') :
      Answers B s (.made recipe (B.make recipe s).outcome :: rest) s'
  | measured {s s' : σ} {rest : List (Exchange γ)} (clip : γ)
      (h : Answers B (B.duration clip s).state rest s') :
      Answers B s (.measured clip (B.duration clip s).outcome :: rest) s'
  | encoded {s s' : σ} {rest : List (Exchange γ)} (clip : γ) (encoding : Encoding)
      (h : Answers B (B.encode clip encoding s).state rest s') :
      Answers B s (.encoded clip encoding (B.encode clip encoding s).outcome :: rest) s'

/-- Calls that go on where others end are answered after them. -/
lemma Backend.Answers.append (h : B.Answers s trace s') (hrest : B.Answers s' rest s'') :
    B.Answers s (trace ++ rest) s'' := by
  induction h with
  | nil => exact hrest
  | made recipe _ ih => exact .made recipe (ih hrest)
  | measured clip _ ih => exact .measured clip (ih hrest)
  | encoded clip encoding _ ih => exact .encoded clip encoding (ih hrest)

/-! ### The calls of a task -/

namespace Task

/-- The trace of a task is a true record of its calls. -/
lemma answers_perform (B : Backend σ γ) (task : Task γ) (s : σ) :
    B.Answers s (task.perform B s).trace (task.perform B s).state := by
  cases task with
  | make recipe => exact .made recipe (.nil _)
  | makeAsLongAs model source =>
    have hmeasured := Backend.Answers.measured (B := B) (s := s) model (.nil _)
    simp only [perform]
    split
    · rename_i e he
      rwa [he] at hmeasured
    · rename_i duration hduration
      rw [hduration] at hmeasured
      exact hmeasured.append (.made _ (.nil _))
  | encode name clip encoding => exact .encoded clip encoding (.nil _)

/-- All calls of a task that is carried out succeed. -/
lemma succeeded_of_perform {product : Product γ}
    (h : (task.perform B s).outcome = .ok product) : Succeeded (task.perform B s).trace := by
  cases task with
  | make recipe =>
    obtain ⟨clip, hclip, -⟩ := map_eq_ok.1 h
    simp [Succeeded, perform, Backend.perform, hclip, Exchange.error?]
  | makeAsLongAs model source =>
    simp only [perform] at h ⊢
    split at h
    · cases h
    · obtain ⟨clip, hclip, -⟩ := map_eq_ok.1 h
      simp [Succeeded, Backend.perform, hclip, Exchange.error?]
  | encode name clip encoding =>
    obtain ⟨_, hencode, -⟩ := map_eq_ok.1 h
    simp [Succeeded, perform, hencode, Exchange.error?]

/-- A task that fails does so at its last call, with the error of this call. -/
lemma exists_failed_call {e : Error} (h : (task.perform B s).outcome = .error e) :
    ∃ earlier last, (task.perform B s).trace = earlier ++ [last] ∧ Succeeded earlier ∧
      last.error? = some e := by
  cases task with
  | make recipe =>
    exact ⟨[], _, rfl, by simp [Succeeded], Exchange.error?_made.2 (map_eq_error.1 h)⟩
  | makeAsLongAs model source =>
    simp only [perform] at h ⊢
    split at h
    · cases h
      exact ⟨[], _, rfl, by simp [Succeeded], rfl⟩
    · rename_i duration _
      exact ⟨[.measured model (.ok duration)], _, rfl, by simp [Succeeded, Exchange.error?],
        Exchange.error?_made.2 (map_eq_error.1 h)⟩
  | encode name clip encoding =>
    exact ⟨[], _, rfl, by simp [Succeeded], Exchange.error?_encoded.2 (map_eq_error.1 h)⟩

end Task

/-! ### The calls of a run -/

namespace Step

/-- The trace of a step is a true record of its calls. -/
lemma answers_run (B : Backend σ γ) (base : Path) (step : Step) (p : Progress γ) (s : σ) :
    B.Answers s (step.run B base p s).trace (step.run B base p s).state := by
  cases htask : step.task base p.bindings with
  | error e =>
    rw [run_of_task_error htask]
    exact .nil s
  | ok task =>
    rw [trace_of_task htask, state_of_task htask]
    exact Task.answers_perform B task s

/-- All calls of a step that succeeds succeed. -/
lemma succeeded_of_run (h : (step.run B base p s).outcome = .ok p') :
    Succeeded (step.run B base p s).trace := by
  obtain ⟨task, product, htask, hproduct, -⟩ := run_eq_ok.1 h
  rw [trace_of_task htask]
  exact Task.succeeded_of_perform hproduct

end Step

namespace Session

/-- The trace of a run is a true record of its calls. -/
theorem answers_runSteps (B : Backend σ γ) (base : Path) (steps : List Step) (p : Progress γ)
    (s : σ) : B.Answers s (runSteps B base steps p s).trace (runSteps B base steps p s).state := by
  induction steps generalizing p s with
  | nil => exact .nil s
  | cons step steps ih =>
    have hstep := Step.answers_run B base step p s
    cases houtcome : (step.run B base p s).outcome with
    | error e => rwa [runSteps_cons_of_error houtcome]
    | ok q =>
      rw [runSteps_cons_of_ok houtcome]
      exact hstep.append (ih q _)

/-- All calls of a run that succeeds succeed. -/
theorem succeeded_of_runSteps (h : (runSteps B base steps p s).outcome = .ok p') :
    Succeeded (runSteps B base steps p s).trace := by
  induction steps generalizing p s with
  | nil => simp [Succeeded, runSteps]
  | cons step steps ih =>
    cases houtcome : (step.run B base p s).outcome with
    | error e =>
      rw [runSteps_cons_of_error houtcome, houtcome] at h
      cases h
    | ok q =>
      rw [runSteps_cons_of_ok houtcome] at h ⊢
      intro x hx
      rcases List.mem_append.1 hx with hx | hx
      · exact Step.succeeded_of_run houtcome x hx
      · exact ih h x hx

end Session

end Montage
