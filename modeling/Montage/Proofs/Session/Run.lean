import Montage.Proofs.Session.Step

/-!
# Runs, step by step

A run of some steps is a run of the first ones and, unless that failed, a run of the others from
where it ended.  Facts about runs are proved by adding one step at the end.
-/

namespace Montage.Session

variable {σ γ : Type} {B : Backend σ γ} {base : Path} {steps others : List Step}
  {p p' : Progress γ} {s : σ}

/-- What two parts of a session did, one after the other. -/
def Turn.andThen {α β : Type} (first : Turn σ γ α) (second : Turn σ γ β) : Turn σ γ β :=
  { second with
    trace := first.trace ++ second.trace
    events := first.events ++ second.events }

/-- A run ends with a first step that fails. -/
lemma runSteps_cons_of_error {step : Step} {e : Error}
    (h : (step.run B base p s).outcome = .error e) :
    runSteps B base (step :: steps) p s = step.run B base p s := by
  simp only [runSteps, h]
  rw [← h]

/-- After a first step that succeeds, the others are run. -/
lemma runSteps_cons_of_ok {step : Step} (h : (step.run B base p s).outcome = .ok p') :
    runSteps B base (step :: steps) p s = Turn.andThen (step.run B base p s)
      (runSteps B base steps p' (step.run B base p s).state) := by
  simp only [runSteps, h, Turn.andThen]

/-- Steps after a failure are not run. -/
lemma runSteps_append_of_error {e : Error} (h : (runSteps B base steps p s).outcome = .error e) :
    runSteps B base (steps ++ others) p s = runSteps B base steps p s := by
  induction steps generalizing p s with
  | nil => cases h
  | cons step steps ih =>
    rw [List.cons_append]
    cases hstep : (step.run B base p s).outcome with
    | error e' => rw [runSteps_cons_of_error hstep, runSteps_cons_of_error hstep]
    | ok q =>
      rw [runSteps_cons_of_ok hstep] at h
      rw [runSteps_cons_of_ok hstep, runSteps_cons_of_ok hstep, ih h]

/-- Steps after others that succeed are run from where those end. -/
lemma runSteps_append_of_ok (h : (runSteps B base steps p s).outcome = .ok p') :
    runSteps B base (steps ++ others) p s = Turn.andThen (runSteps B base steps p s)
      (runSteps B base others p' (runSteps B base steps p s).state) := by
  induction steps generalizing p s with
  | nil =>
    cases h
    rfl
  | cons step steps ih =>
    rw [List.cons_append]
    cases hstep : (step.run B base p s).outcome with
    | error e =>
      rw [runSteps_cons_of_error hstep, hstep] at h
      cases h
    | ok q =>
      rw [runSteps_cons_of_ok hstep] at h
      rw [runSteps_cons_of_ok hstep, runSteps_cons_of_ok hstep, ih h]
      simp only [Turn.andThen, List.append_assoc]

/-- Steps with others behind them succeed exactly when they do and then the others do. -/
lemma runSteps_append_eq_ok : (runSteps B base (steps ++ others) p s).outcome = .ok p' ↔
    ∃ q, (runSteps B base steps p s).outcome = .ok q ∧
      (runSteps B base others q (runSteps B base steps p s).state).outcome = .ok p' := by
  cases hsteps : (runSteps B base steps p s).outcome with
  | error e => simp [runSteps_append_of_error hsteps, hsteps]
  | ok q => simp [runSteps_append_of_ok hsteps, Turn.andThen]

/-- A run of one step is that step. -/
lemma runSteps_singleton (step : Step) (p : Progress γ) (s : σ) :
    runSteps B base [step] p s = step.run B base p s := by
  cases hstep : (step.run B base p s).outcome with
  | error e => exact runSteps_cons_of_error hstep
  | ok q =>
    rw [runSteps_cons_of_ok hstep]
    simp only [Turn.andThen, runSteps, List.append_nil, ← hstep]

/-- A step after others that succeed is run from where those end. -/
lemma runSteps_concat_of_ok (h : (runSteps B base steps p s).outcome = .ok p') (step : Step) :
    (runSteps B base (steps ++ [step]) p s).outcome =
        (step.run B base p' (runSteps B base steps p s).state).outcome ∧
      (runSteps B base (steps ++ [step]) p s).state =
        (step.run B base p' (runSteps B base steps p s).state).state := by
  rw [runSteps_append_of_ok h, runSteps_singleton]
  exact ⟨rfl, rfl⟩

/-- The calls of a step after others that succeed come after theirs. -/
lemma trace_concat_of_ok (h : (runSteps B base steps p s).outcome = .ok p') (step : Step) :
    (runSteps B base (steps ++ [step]) p s).trace = (runSteps B base steps p s).trace ++
      (step.run B base p' (runSteps B base steps p s).state).trace := by
  rw [runSteps_append_of_ok h, runSteps_singleton]
  rfl

/-- Steps with one more at the end succeed exactly when they do and then the last one does. -/
lemma runSteps_concat_eq_ok {step : Step} :
    (runSteps B base (steps ++ [step]) p s).outcome = .ok p' ↔
      ∃ q, (runSteps B base steps p s).outcome = .ok q ∧
        (step.run B base q (runSteps B base steps p s).state).outcome = .ok p' := by
  cases hsteps : (runSteps B base steps p s).outcome with
  | error e => simp [runSteps_append_of_error hsteps, hsteps]
  | ok q => simp [(runSteps_concat_of_ok hsteps step).1]

/-- A run that fails does so at one step, after the steps before it succeeded. -/
theorem exists_failing_step {e : Error} (h : (runSteps B base steps p s).outcome = .error e) :
    ∃ before step after q, steps = before ++ step :: after ∧
      (runSteps B base before p s).outcome = .ok q ∧
      (step.run B base q (runSteps B base before p s).state).outcome = .error e ∧
      runSteps B base steps p s = Turn.andThen (runSteps B base before p s)
        (step.run B base q (runSteps B base before p s).state) := by
  induction steps generalizing p s with
  | nil => cases h
  | cons first steps ih =>
    cases hfirst : (first.run B base p s).outcome with
    | error e' =>
      rw [runSteps_cons_of_error hfirst] at h ⊢
      exact ⟨[], first, steps, p, rfl, rfl, h, rfl⟩
    | ok p' =>
      rw [runSteps_cons_of_ok hfirst] at h ⊢
      obtain ⟨before, step, after, q, rfl, hbefore, hstep, hwhole⟩ := ih h
      refine ⟨first :: before, step, after, q, rfl, ?_⟩
      rw [runSteps_cons_of_ok hfirst, hwhole]
      refine ⟨hbefore, hstep, ?_⟩
      simp only [Turn.andThen, List.append_assoc]

end Montage.Session
