import Montage.Proofs.Session.Counterparts
import Montage.Proofs.Session.Failure

/-!
# The footprint of a step

A step reads the names in `Operation.inputs` and binds the one in `Operation.output?`; of what is
bound to other names it knows nothing, and it leaves them alone.  So two sessions that are in
different places, but agree on the names that a step reads, do the same in this step
(`footprint_of_run`).

What a step asks of the backend depends on these names only (`Step.task_congr`).  After that no name
is looked up any more, and what the step leaves behind follows from what its task yields
(`Step.leaves_of_run`).
-/

namespace Montage

variable {σ γ : Type} {B : Backend σ γ} {base : Path} {bs bs' : Bindings γ} {step : Step}
  {task : Task γ} {p q : Progress γ} {s : σ} {product : Product γ}

/-! ### What is read -/

namespace Step

/-- What a step asks for depends only on what is bound to the names that it reads. -/
lemma task_congr (base : Path)
    (hagree : ∀ name ∈ step.operation.inputs, bs.lookup? name = bs'.lookup? name) :
    step.task base bs = step.task base bs' := by
  have hcontains : ∀ name ∈ step.operation.inputs, bs.contains name = bs'.contains name :=
    fun name hname => congrArg Option.isSome (hagree name hname)
  by_cases hbound : ∀ name ∈ step.operation.inputs, bs'.contains name = true
  · obtain ⟨task, htask, -⟩ := exists_task base hbound
    rw [htask]
    exact task_eq_ok_of_lookup? hagree htask
  · -- both fail with the first name that is not bound, which is the same one for both
    obtain ⟨name, hname⟩ := exists_firstUnknown hbound
    rw [task_of_firstUnknown base hname]
    obtain ⟨before, after, hinputs, hbefore, hunbound⟩ := hname
    refine task_of_firstUnknown base ⟨before, after, hinputs, fun n hn => ?_, fun hcontained => ?_⟩
    · exact (hcontains n (by simp [hinputs, hn])).trans (hbefore n hn)
    · exact hunbound ((hcontains name (by simp [hinputs])).symm.trans hcontained)

end Step

/-! ### What is left behind -/

/-- What is bound after a part of a session.  When it fails, what was bound before stays bound. -/
def Turn.bindings (turn : Turn σ γ (Progress γ)) (before : Bindings γ) : Bindings γ :=
  match turn.outcome with
  | .ok p => p.bindings
  | .error _ => before

/-- How an operation leaves the names behind, where `trace` are its calls, `result` is what it ends
with, and `before` and `after` are what is bound then. -/
inductive Operation.Leaves (base : Path) (op : Operation) (trace : List (Exchange γ))
    (before : Bindings γ) : (result : Except Error (Product γ)) → (after : Bindings γ) → Prop
  /-- An operation that fails binds nothing. -/
  | failed {e : Error} : Leaves base op trace before (.error e) before
  /-- The output of an operation is bound to the clip that its last call made; all other names stay
  as they are. -/
  | bound {name : String} {clip : γ} {calls : List (Exchange γ)} {recipe : Recipe γ}
      {after : Bindings γ} (output : op.output? = some name)
      (made : trace = calls ++ [.made recipe (.ok clip)])
      (lookup : ∀ other,
        after.lookup? other = if other = name then some clip else before.lookup? other) :
      Leaves base op trace before (.ok (.clip clip)) after
  /-- A delivery writes a clip to a file, and binds nothing. -/
  | delivered {d : Delivery} {clip : γ} (delivery : op = .deliver d)
      (written : trace = [.encoded clip (d.toEncoding base) (.ok ())]) :
      Leaves base op trace before (.ok (.file d.input (d.toEncoding base).destination)) before

/-- A task for a clip that is carried out yields the clip that its last call made. -/
lemma Task.exists_made (h : (∃ recipe, task = .make recipe) ∨
      ∃ model source, task = .makeAsLongAs model source)
    (hproduct : (task.perform B s).outcome = .ok product) :
    ∃ clip calls recipe, product = .clip clip ∧
      (task.perform B s).trace = calls ++ [.made recipe (.ok clip)] := by
  rcases h with ⟨recipe, rfl⟩ | ⟨model, source, rfl⟩
  · obtain ⟨clip, hclip, rfl⟩ := map_eq_ok.1 hproduct
    exact ⟨clip, [], recipe, rfl, by simp [perform, Backend.perform, hclip]⟩
  · simp only [perform] at hproduct ⊢
    split at hproduct
    · cases hproduct
    · rename_i duration hduration
      obtain ⟨clip, hclip, rfl⟩ := map_eq_ok.1 hproduct
      exact ⟨clip, [.measured model (.ok duration)], .source { source with duration }, rfl,
        by simp [Backend.perform, hclip]⟩

/-- Taking note of what a task yields binds the output of the operation, and nothing else. -/
lemma Operation.leaves_of_perform {op : Operation} {find : String → Except Error γ}
    (htask : op.task base find = .ok task) (hproduct : (task.perform B s).outcome = .ok product) :
    op.Leaves base (task.perform B s).trace p.bindings (.ok product)
      (p.record op product).1.bindings := by
  rcases op.task_cases htask with ⟨name, houtput, hclip⟩ | ⟨d, clip, rfl, -, rfl⟩
  · obtain ⟨clip, calls, recipe, rfl, hmade⟩ := Task.exists_made hclip hproduct
    refine .bound houtput hmade fun other => ?_
    simp only [Progress.record, houtput]
    exact Bindings.lookup?_bind p.bindings name clip other
  · obtain ⟨⟨⟩, hwritten, rfl⟩ := map_eq_ok.1 hproduct
    have hcalls : (Task.perform B (.encode d.input clip (d.toEncoding base)) s).trace =
        [.encoded clip (d.toEncoding base) (.ok ())] := by
      simp only [Task.perform, hwritten]
    exact .delivered rfl hcalls

namespace Step

/-- What a step ends with: what its task yields, or the first error that it meets with. -/
def result (B : Backend σ γ) (base : Path) (step : Step) (bs : Bindings γ) (s : σ) :
    Except Error (Product γ) := do
  let task ← step.task base bs
  (task.perform B s).outcome.mapError (·.inBlock step.operation.kind step.line)

/-- A step takes note of what it ends with, and of nothing else. -/
lemma outcome_run (B : Backend σ γ) (base : Path) (step : Step) (p : Progress γ) (s : σ) :
    (step.run B base p s).outcome = (step.result B base p.bindings s).map fun product =>
      (p.record step.operation product).1 := by
  unfold result
  cases htask : step.task base p.bindings with
  | error e =>
    rw [run_of_task_error htask]
    rfl
  | ok task =>
    dsimp only [bind, Except.bind]
    cases hproduct : (task.perform B s).outcome with
    | error e => exact run_of_perform_error htask hproduct
    | ok product => exact (run_of_task_ok htask hproduct).1

/-- A step leaves the names behind as what it ends with says. -/
lemma leaves_run (B : Backend σ γ) (base : Path) (step : Step) (p : Progress γ) (s : σ) :
    step.operation.Leaves base (step.run B base p s).trace p.bindings
      (step.result B base p.bindings s) ((step.run B base p s).bindings p.bindings) := by
  have houtcome := outcome_run B base step p s
  unfold Turn.bindings
  rw [houtcome]
  cases hresult : step.result B base p.bindings s with
  | error e => exact .failed
  | ok product =>
    obtain ⟨task, htask, hmapped⟩ := bind_eq_ok.1 hresult
    have hproduct : (task.perform B s).outcome = .ok product := by
      cases hperform : (task.perform B s).outcome with
      | error e =>
        rw [hperform] at hmapped
        cases hmapped
      | ok made =>
        rw [hperform] at hmapped
        cases hmapped
        rfl
    obtain ⟨_, -, hoperation⟩ := bind_eq_ok.1 htask
    rw [trace_of_task htask]
    exact Operation.leaves_of_perform hoperation hproduct

/-- The names that an operation reads and the one that it binds are all that a step touches.  From
places that agree on the names that are read, a step makes the same calls with the same outcomes,
and ends with the same result or error; each place is left as it was, but for the output of a step
that succeeds, which is bound to the clip that the step has made. -/
theorem footprint_of_run (B : Backend σ γ) (base : Path) (step : Step) (p q : Progress γ) (s : σ)
    (hagree : ∀ name ∈ step.operation.inputs,
      p.bindings.lookup? name = q.bindings.lookup? name) :
    (step.run B base p s).trace = (step.run B base q s).trace ∧
    (step.run B base p s).state = (step.run B base q s).state ∧
    ∃ result : Except Error (Product γ),
      (step.run B base p s).outcome =
        result.map (fun product => (p.record step.operation product).1) ∧
      (step.run B base q s).outcome =
        result.map (fun product => (q.record step.operation product).1) ∧
      step.operation.Leaves base (step.run B base p s).trace p.bindings result
        ((step.run B base p s).bindings p.bindings) ∧
      step.operation.Leaves base (step.run B base q s).trace q.bindings result
        ((step.run B base q s).bindings q.bindings) := by
  have htask := task_congr base hagree
  have hresult : step.result B base p.bindings s = step.result B base q.bindings s := by
    unfold result
    rw [htask]
  have hcalls : (step.run B base p s).trace = (step.run B base q s).trace ∧
      (step.run B base p s).state = (step.run B base q s).state := by
    cases hp : step.task base p.bindings with
    | error e =>
      rw [run_of_task_error hp, run_of_task_error (htask ▸ hp)]
      exact ⟨rfl, rfl⟩
    | ok task =>
      have hq : step.task base q.bindings = .ok task := htask ▸ hp
      rw [trace_of_task hp, trace_of_task hq, state_of_task hp, state_of_task hq]
      exact ⟨rfl, rfl⟩
  refine ⟨hcalls.1, hcalls.2, step.result B base p.bindings s, outcome_run B base step p s, ?_,
    leaves_run B base step p s, ?_⟩
  · rw [hresult]
    exact outcome_run B base step q s
  · rw [hresult]
    exact leaves_run B base step q s

/-- Two clips after one another, under the name of another clip. -/
def joinStep : Step := ⟨6, .mix "loop" (.concatenate ["talk", "tune"])⟩

/-- A place with both clips, and with a clip under the name that is bound anew. -/
def busyPlace : Progress Nat :=
  ⟨((Bindings.empty.bind "talk" 0).bind "tune" 1).bind "loop" 5, [], none⟩

/-- A place with the same two clips, and with a clip that is of no concern. -/
def idlePlace : Progress Nat :=
  ⟨((Bindings.empty.bind "talk" 0).bind "tune" 1).bind "hum" 6, [⟨"talk.mp4"⟩], some "talk"⟩

/-- From both places the step makes the same clip.  The one place has it instead of the clip that
was bound before, and the other one has it beside the clip that is of no concern. -/
theorem footprint_of_joinStep :
    (∀ name ∈ joinStep.operation.inputs,
      busyPlace.bindings.lookup? name = idlePlace.bindings.lookup? name) ∧
    (joinStep.run Session.cutting ⟨""⟩ busyPlace 9).trace =
      (joinStep.run Session.cutting ⟨""⟩ idlePlace 9).trace ∧
    ((joinStep.run Session.cutting ⟨""⟩ busyPlace 9).bindings busyPlace.bindings).entries =
      [("loop", 9), ("talk", 0), ("tune", 1)] ∧
    ((joinStep.run Session.cutting ⟨""⟩ idlePlace 9).bindings idlePlace.bindings).entries =
      [("hum", 6), ("loop", 9), ("talk", 0), ("tune", 1)] := by
  have hagree : ∀ name ∈ joinStep.operation.inputs,
      busyPlace.bindings.lookup? name = idlePlace.bindings.lookup? name := by
    decide +kernel
  obtain ⟨htrace, -, -⟩ :=
    footprint_of_run Session.cutting ⟨""⟩ joinStep busyPlace idlePlace 9 hagree
  exact ⟨hagree, htrace, by decide +kernel, by decide +kernel⟩

end Step

end Montage
