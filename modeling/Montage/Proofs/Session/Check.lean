import Mathlib.Data.List.Induction
import Montage.Proofs.Session.Run
import Montage.Recorder

/-!
# Checking a script

A script is checked by running it against the recorder.  Such a run succeeds exactly when every name
is bound before it is read (`check_decides`), a property of the script alone; otherwise it fails at
the first step that reads a name too early, with the first such name.

Half of this holds of every backend: a run that succeeds has bound every name that it read
(`definesBeforeUse_of_runSteps`).  The recorder adds that it refuses nothing.
-/

namespace Montage.Session

variable {σ γ : Type} {B : Backend σ γ} {base : Path} {steps : List Step} {step : Step}
  {p : Progress γ} {s : σ} {name : String}

/-! ### Names that a script binds and reads -/

/-- One of the steps binds the name. -/
def Binds (steps : List Step) (name : String) : Prop :=
  ∃ step ∈ steps, step.operation.output? = some name

/-- Every name that a step reads is bound by a step before it. -/
def DefinesBeforeUse (steps : List Step) : Prop :=
  ∀ before step after, steps = before ++ step :: after →
    ∀ name ∈ step.operation.inputs, Binds before name

/-- Whether one of the steps binds a name can be computed. -/
instance (steps : List Step) (name : String) : Decidable (Binds steps name) :=
  inferInstanceAs (Decidable (∃ step ∈ steps, step.operation.output? = some name))

/-- What is read at each place of a script is bound by the steps before that place. -/
lemma definesBeforeUse_iff_getElem : DefinesBeforeUse steps ↔
    ∀ i, ∀ h : i < steps.length, ∀ name ∈ steps[i].operation.inputs, Binds (steps.take i) name := by
  constructor
  · intro h i hi
    refine h (steps.take i) steps[i] (steps.drop (i + 1)) ?_
    rw [List.getElem_cons_drop, List.take_append_drop]
  · rintro h before step after rfl name hname
    have hplace := h before.length (by simp) name (by simpa using hname)
    rwa [List.take_left] at hplace

/-- Whether a script defines before use can be computed. -/
instance : DecidablePred DefinesBeforeUse :=
  fun _ => decidable_of_iff _ definesBeforeUse_iff_getElem.symm

/-- A step at the end binds its output. -/
lemma binds_concat :
    Binds (steps ++ [step]) name ↔ Binds steps name ∨ step.operation.output? = some name := by
  simp [Binds, or_and_right, exists_or]

/-- A step of a script with a step at the end is that one, or a step of the rest. -/
lemma split_concat {before after : List Step} {other : Step}
    (h : steps ++ [step] = before ++ other :: after) :
    (before = steps ∧ other = step) ∨ ∃ rest, steps = before ++ other :: rest := by
  rcases List.eq_nil_or_concat after with rfl | ⟨rest, last, rfl⟩
  · obtain ⟨hbefore, hlast⟩ := List.append_inj' h rfl
    exact .inl ⟨hbefore.symm, (List.singleton_inj.1 hlast).symm⟩
  · have hshort : steps ++ [step] = (before ++ other :: rest) ++ [last] := by
      rw [h, List.append_assoc, List.cons_append, List.concat_eq_append]
    exact .inr ⟨rest, (List.append_inj' hshort rfl).1⟩

/-- A script with a step at the end defines before use when the rest does, and binds what the step
reads. -/
lemma definesBeforeUse_concat : DefinesBeforeUse (steps ++ [step]) ↔
    DefinesBeforeUse steps ∧ ∀ name ∈ step.operation.inputs, Binds steps name := by
  constructor
  · intro h
    refine ⟨fun before other after heq => ?_, h steps step [] rfl⟩
    exact h before other (after ++ [step]) (by rw [heq, List.append_assoc, List.cons_append])
  · rintro ⟨hsteps, hstep⟩ before other after heq
    rcases split_concat heq with ⟨rfl, rfl⟩ | ⟨rest, hrest⟩
    · exact hstep
    · exact hsteps before other rest hrest

/-! ### Runs that succeed -/

/-- A run that succeeds has bound the outputs of its steps. -/
theorem contains_of_runSteps (h : (runSteps B base steps .start s).outcome = .ok p)
    (name : String) : p.bindings.contains name = true ↔ Binds steps name := by
  induction steps using List.reverseRecOn generalizing p with
  | nil =>
    cases h
    simp [Progress.start, Binds]
  | append_singleton steps step ih =>
    obtain ⟨q, hsteps, hstep⟩ := runSteps_concat_eq_ok.1 h
    rw [Step.contains_of_run hstep, ih hsteps, binds_concat]

/-- A run that succeeds has read only names that were bound before. -/
theorem definesBeforeUse_of_runSteps (h : (runSteps B base steps .start s).outcome = .ok p) :
    DefinesBeforeUse steps := by
  induction steps using List.reverseRecOn generalizing p with
  | nil =>
    intro before step after heq
    simp at heq
  | append_singleton steps step ih =>
    obtain ⟨q, hsteps, hstep⟩ := runSteps_concat_eq_ok.1 h
    refine definesBeforeUse_concat.2 ⟨ih hsteps, fun name hname => ?_⟩
    exact (contains_of_runSteps hsteps name).1 (Step.contains_inputs_of_run hstep name hname)

/-! ### The recorder -/

/-- The recorder carries out every task. -/
lemma exists_recorded (task : Task NumberedClip) (r : Recorder) :
    ∃ product, (task.perform (Recorder.backend none) r).outcome = .ok product := by
  cases task with
  | make recipe => exact ⟨_, rfl⟩
  | makeAsLongAs model source => exact ⟨_, rfl⟩
  | encode name clip encoding => exact ⟨_, rfl⟩

/-- Against the recorder a step fails only for a name that is not bound. -/
lemma exists_run_of_bound {p : Progress NumberedClip} (base : Path) (r : Recorder)
    (hbound : ∀ name ∈ step.operation.inputs, p.bindings.contains name = true) :
    ∃ p', (step.run (Recorder.backend none) base p r).outcome = .ok p' := by
  obtain ⟨task, htask, -⟩ := Step.exists_task base hbound
  obtain ⟨product, hproduct⟩ := exists_recorded task r
  exact ⟨_, (Step.run_of_task_ok htask hproduct).1⟩

/-- A check fails at the first step that reads a name too early, with the first such name, and the
recorder then has the calls of the steps before. -/
lemma exists_first_fault {r : Recorder} {e : Error}
    (h : (runSteps (Recorder.backend none) base steps .start r).outcome = .error e) :
    ∃ before step after name, steps = before ++ step :: after ∧ DefinesBeforeUse before ∧
      FirstUnknown (Binds before) step.operation.inputs name ∧
      e = .undefinedClip name step.operation.kind.token step.line ∧
      (runSteps (Recorder.backend none) base steps .start r).state =
        (runSteps (Recorder.backend none) base before .start r).state := by
  obtain ⟨before, step, after, q, rfl, hbefore, hstep, hwhole⟩ := exists_failing_step h
  have hunbound : ¬ ∀ name ∈ step.operation.inputs, q.bindings.contains name = true := by
    intro hbound
    obtain ⟨p', hp'⟩ := exists_run_of_bound base _ hbound
    cases hp'.symm.trans hstep
  obtain ⟨name, hname⟩ := exists_firstUnknown hunbound
  have hfails := Step.run_of_task_error (B := Recorder.backend none)
    (s := (runSteps (Recorder.backend none) base before .start r).state)
    (Step.task_of_firstUnknown base hname)
  refine ⟨before, step, after, name, rfl, definesBeforeUse_of_runSteps hbefore, ?_, ?_, ?_⟩
  · simpa only [contains_of_runSteps hbefore] using hname
  · rw [hfails] at hstep
    cases hstep
    rfl
  · rw [hwhole]
    simp only [Turn.andThen, hfails]

/-- A check succeeds exactly when every name is bound before it is read.  When it fails, it is at
the first step that reads a name too early, with the first such name in the order of reading, and
the recorder has the calls that the steps before make on their own. -/
theorem check_decides (base : Path) (steps : List Step) (r : Recorder) :
    ((∃ report, (run (Recorder.backend none) base steps r).outcome = .ok report) ↔
      DefinesBeforeUse steps) ∧
    ∀ e, (run (Recorder.backend none) base steps r).outcome = .error e →
      ∃ before step after name, steps = before ++ step :: after ∧ DefinesBeforeUse before ∧
        FirstUnknown (Binds before) step.operation.inputs name ∧
        e = .undefinedClip name step.operation.kind.token step.line ∧
        (run (Recorder.backend none) base steps r).state =
          (run (Recorder.backend none) base before r).state := by
  constructor
  · constructor
    · rintro ⟨report, hreport⟩
      obtain ⟨p, hp, -⟩ := map_eq_ok.1 hreport
      exact definesBeforeUse_of_runSteps hp
    · intro hsteps
      cases hrun : (runSteps (Recorder.backend none) base steps .start r).outcome with
      | ok p => exact ⟨_, map_eq_ok.2 ⟨p, hrun, rfl⟩⟩
      | error e =>
        obtain ⟨before, step, after, name, rfl, -, ⟨early, late, hinputs, -, hname⟩, -⟩ :=
          exists_first_fault hrun
        exact absurd (hsteps before step after rfl name (by simp [hinputs])) hname
  · intro e he
    exact exists_first_fault (map_eq_error.1 he)

end Montage.Session
