import Montage.Proofs.Session.Calls
import Montage.Proofs.Session.Resolution

/-!
# What a script fixes of its runs

The names that a run binds, the files that it reports and the encodings that it asks for do not
depend on the backend.  A run that succeeds follows the outline of its script: `Outlined` reads all
of this off the deliveries of the script, and `outlined_runSteps` says that it holds of every
backend and every state.
-/

namespace Montage

variable {σ γ : Type} {B : Backend σ γ} {base : Path} {step : Step} {steps : List Step}
  {op : Operation} {task : Task γ} {p p' : Progress γ} {s : σ}

/-- The encoding that a call asks for, if it writes a clip. -/
def Exchange.encoding? : Exchange γ → Option Encoding
  | .encoded _ encoding _ => some encoding
  | _ => none

/-! ### One step -/

/-- An operation that binds a name writes no file. -/
lemma Operation.delivery?_of_output? {name : String} (h : op.output? = some name) :
    op.delivery? = none := by
  cases op with
  | deliver d => cases h
  | _ => rfl

/-- A task for a clip asks for no encoding. -/
lemma Task.encodings_of_clip (h : (∃ recipe, task = .make recipe) ∨
      ∃ model source, task = .makeAsLongAs model source) :
    (task.perform B s).trace.filterMap Exchange.encoding? = [] := by
  rcases h with ⟨recipe, rfl⟩ | ⟨model, source, rfl⟩
  · rfl
  · simp only [perform]
    split <;> rfl

/-- A step that succeeds writes the file of its delivery, if it is one, and asks for no other
encoding. -/
lemma Step.outline_of_run (h : (step.run B base p s).outcome = .ok p') :
    p'.exports = p.exports ++
        step.operation.delivery?.toList.map (fun d => (d.toEncoding base).destination) ∧
      p'.lastExport = (step.operation.delivery?.map (·.input)).or p.lastExport ∧
      (step.run B base p s).trace.filterMap Exchange.encoding? =
        step.operation.delivery?.toList.map (·.toEncoding base) := by
  obtain ⟨task, product, htask, hproduct, rfl⟩ := run_eq_ok.1 h
  obtain ⟨_, -, hop⟩ := bind_eq_ok.1 htask
  rw [trace_of_task htask]
  rcases Operation.task_cases hop with ⟨name, hname, hclip⟩ | ⟨d, clip, hd, -, rfl⟩
  · obtain ⟨clip, rfl⟩ := Task.exists_clip hclip hproduct
    rw [Operation.delivery?_of_output? hname, Task.encodings_of_clip hclip]
    simp [Progress.record, hname]
  · obtain ⟨_, -, rfl⟩ := map_eq_ok.1 hproduct
    simp [hd, Operation.delivery?, Progress.record, Task.perform, Exchange.encoding?]

/-! ### A whole run -/

namespace Session

/-- What the steps of a script bring about, as far as the script fixes it: the files that are
reported, the clip that was written last, and the encodings that were asked for. -/
structure Outlined (base : Path) (steps : List Step) (p : Progress γ) (trace : List (Exchange γ)) :
    Prop where
  exports : p.exports = (deliveries steps).map fun d => (d.toEncoding base).destination
  lastExport : p.lastExport = (deliveries steps).getLast?.map (·.input)
  encodings : trace.filterMap Exchange.encoding? = (deliveries steps).map (·.toEncoding base)

/-- A run that succeeds follows the outline of its script. -/
theorem outlined_runSteps (h : (runSteps B base steps .start s).outcome = .ok p) :
    Outlined base steps p (runSteps B base steps .start s).trace := by
  induction steps using List.reverseRecOn generalizing p with
  | nil =>
    cases h
    exact ⟨rfl, rfl, rfl⟩
  | append_singleton steps step ih =>
    obtain ⟨q, hsteps, hstep⟩ := runSteps_concat_eq_ok.1 h
    have houtline := ih hsteps
    obtain ⟨hexports, hlast, hencodings⟩ := Step.outline_of_run hstep
    refine ⟨?_, ?_, ?_⟩
    · rw [hexports, houtline.exports, deliveries_concat, List.map_append]
    · rw [hlast, houtline.lastExport, deliveries_concat]
      cases step.operation.delivery? <;> simp
    · rw [trace_concat_of_ok hsteps, List.filterMap_append, houtline.encodings, hencodings,
        deliveries_concat, List.map_append]

end Session

end Montage
