import Montage.Proofs.Bindings
import Montage.Session

/-!
# Steps and the names that they read

Whatever the backend, a step does one of two things.  When a name that it reads is not bound, it
fails with the first such name and touches nothing.  Otherwise it has a task, asks the backend for
it, and binds its output, if it has one, to the clip that the backend gives.

The laws here say this once for all operations; `Operation.task` and `Step.run` are not opened
elsewhere.
-/

namespace Montage

variable {σ γ : Type} {B : Backend σ γ} {base : Path} {bs : Bindings γ} {step : Step}
  {op : Operation} {find : String → Except Error γ} {task : Task γ} {p p' : Progress γ} {s : σ}

/-- The first name of a list that is not among those that are known. -/
def FirstUnknown (known : String → Prop) (names : List String) (name : String) : Prop :=
  ∃ before after, names = before ++ name :: after ∧ (∀ n ∈ before, known n) ∧ ¬ known name

/-- A list has a first unknown name unless all its names are known. -/
lemma exists_firstUnknown {known : String → Prop} {names : List String}
    (h : ¬ ∀ name ∈ names, known name) : ∃ name, FirstUnknown known names name := by
  induction names with
  | nil => simp at h
  | cons n ns ih =>
    by_cases hn : known n
    · have hns : ¬ ∀ name ∈ ns, known name := fun hall => h (List.forall_mem_cons.2 ⟨hn, hall⟩)
      obtain ⟨name, before, after, rfl, hbefore, hname⟩ := ih hns
      exact ⟨name, n :: before, after, rfl, List.forall_mem_cons.2 ⟨hn, hbefore⟩, hname⟩
    · exact ⟨n, [], ns, rfl, by simp, hn⟩

/-! ### Tasks -/

/-- Names that are all found are found together. -/
lemma exists_mapM_find {names : List String}
    (hfind : ∀ name ∈ names, ∃ clip, find name = .ok clip) :
    ∃ clips, names.mapM find = .ok clips := by
  cases hclips : names.mapM find with
  | ok clips => exact ⟨clips, rfl⟩
  | error e =>
    obtain ⟨before, name, after, rfl, -, hname⟩ := mapM_eq_error.1 hclips
    obtain ⟨clip, hclip⟩ := hfind name (List.mem_append_right _ List.mem_cons_self)
    cases hclip.symm.trans hname

/-- A definition whose names are all found asks for something. -/
lemma Definition.exists_task {d : Definition}
    (hfind : ∀ name ∈ (Operation.define d).inputs, ∃ clip, find name = .ok clip) :
    ∃ task, d.task base find = .ok task := by
  unfold Definition.task
  unfold Operation.inputs at hfind
  cases hduration : d.duration with
  | some n => exact ⟨_, rfl⟩
  | none =>
    cases hmodel : d.durationFrom with
    | none => exact ⟨_, rfl⟩
    | some name =>
      obtain ⟨clip, hclip⟩ := hfind name (by simp [hduration, hmodel])
      exact ⟨_, bind_eq_ok.2 ⟨clip, hclip, rfl⟩⟩

/-- A combination whose names are all found has a recipe. -/
lemma Mix.exists_recipe {m : Mix} (hfind : ∀ name ∈ m.inputs, ∃ clip, find name = .ok clip) :
    ∃ recipe, m.recipe find = .ok recipe := by
  cases m with
  | concatenate names =>
    obtain ⟨clips, hclips⟩ := exists_mapM_find hfind
    exact ⟨_, bind_eq_ok.2 ⟨clips, hclips, rfl⟩⟩
  | composite names size =>
    obtain ⟨clips, hclips⟩ := exists_mapM_find hfind
    exact ⟨_, bind_eq_ok.2 ⟨clips, hclips, rfl⟩⟩
  | setAudio picture sound =>
    obtain ⟨seen, hseen⟩ := hfind picture List.mem_cons_self
    obtain ⟨heard, hheard⟩ := hfind sound (List.mem_cons_of_mem _ (List.mem_singleton_self _))
    exact ⟨_, bind_eq_ok.2 ⟨seen, hseen, bind_eq_ok.2 ⟨heard, hheard, rfl⟩⟩⟩

/-- An operation whose names are all found asks for something. -/
lemma Operation.exists_task (hfind : ∀ name ∈ op.inputs, ∃ clip, find name = .ok clip) :
    ∃ task, op.task base find = .ok task := by
  cases op with
  | define d => exact Definition.exists_task hfind
  | effect input output e =>
    obtain ⟨clip, hclip⟩ := hfind input (List.mem_singleton_self _)
    exact ⟨_, bind_eq_ok.2 ⟨clip, hclip, rfl⟩⟩
  | mix output m =>
    obtain ⟨recipe, hrecipe⟩ := Mix.exists_recipe hfind
    exact ⟨_, bind_eq_ok.2 ⟨recipe, hrecipe, rfl⟩⟩
  | subclip c =>
    obtain ⟨clip, hclip⟩ := hfind c.input (List.mem_singleton_self _)
    exact ⟨_, bind_eq_ok.2 ⟨clip, hclip, rfl⟩⟩
  | deliver d =>
    obtain ⟨clip, hclip⟩ := hfind d.input (List.mem_singleton_self _)
    exact ⟨_, bind_eq_ok.2 ⟨clip, hclip, rfl⟩⟩

/-- A step whose names are all bound asks for what its operation asks for. -/
lemma Step.exists_task (base : Path)
    (hbound : ∀ name ∈ step.operation.inputs, bs.contains name = true) :
    ∃ task, step.task base bs = .ok task ∧
      step.operation.task base (bs.get · step.operation.kind.token step.line) = .ok task := by
  have hfind : ∀ name ∈ step.operation.inputs,
      ∃ clip, bs.get name step.operation.kind.token step.line = .ok clip := by
    intro name hname
    obtain ⟨clip, hclip⟩ := Bindings.contains_iff.1 (hbound name hname)
    exact ⟨clip, Bindings.get_eq_ok.2 hclip⟩
  obtain ⟨clips, hclips⟩ := exists_mapM_find hfind
  obtain ⟨task, htask⟩ := Operation.exists_task hfind
  exact ⟨task, bind_eq_ok.2 ⟨clips, hclips, htask⟩, htask⟩

/-- A step with a name that is not bound fails with the first such name. -/
lemma Step.task_of_firstUnknown (base : Path) {name : String}
    (hname : FirstUnknown (bs.contains · = true) step.operation.inputs name) :
    step.task base bs = .error (.undefinedClip name step.operation.kind.token step.line) := by
  obtain ⟨before, after, hinputs, hbefore, hunbound⟩ := hname
  refine bind_eq_error.2 (.inl (mapM_eq_error.2 ⟨before, name, after, hinputs, ?_, ?_⟩))
  · intro n hn
    obtain ⟨clip, hclip⟩ := Bindings.contains_iff.1 (hbefore n hn)
    exact ⟨clip, Bindings.get_eq_ok.2 hclip⟩
  · exact Bindings.get_eq_error.2 ⟨Bool.eq_false_iff.2 hunbound, rfl⟩

/-! ### Steps -/

/-- What an operation asks for is a clip for its output, or the file of a delivery. -/
lemma Operation.task_cases (htask : op.task base find = .ok task) :
    (∃ name, op.output? = some name ∧
      ((∃ recipe, task = .make recipe) ∨ ∃ model source, task = .makeAsLongAs model source)) ∨
    ∃ d clip, op = .deliver d ∧ find d.input = .ok clip ∧
      task = .encode d.input clip (d.toEncoding base) := by
  cases op with
  | define d =>
    refine .inl ⟨d.name, rfl, ?_⟩
    have hdefine : d.task base find = .ok task := htask
    unfold Definition.task at hdefine
    split at hdefine
    · obtain ⟨model, -, hmodel⟩ := bind_eq_ok.1 hdefine
      exact .inr ⟨model, _, pure_eq_ok.1 hmodel⟩
    · cases hdefine
      exact .inl ⟨_, rfl⟩
  | effect input output e =>
    obtain ⟨clip, -, hclip⟩ := bind_eq_ok.1 htask
    exact .inl ⟨output, rfl, .inl ⟨_, pure_eq_ok.1 hclip⟩⟩
  | mix output m =>
    obtain ⟨recipe, -, hrecipe⟩ := bind_eq_ok.1 htask
    exact .inl ⟨output, rfl, .inl ⟨_, pure_eq_ok.1 hrecipe⟩⟩
  | subclip c =>
    obtain ⟨clip, -, hclip⟩ := bind_eq_ok.1 htask
    exact .inl ⟨c.output, rfl, .inl ⟨_, pure_eq_ok.1 hclip⟩⟩
  | deliver d =>
    obtain ⟨clip, hclip, hencode⟩ := bind_eq_ok.1 htask
    exact .inr ⟨d, clip, rfl, hclip, pure_eq_ok.1 hencode⟩

/-- A task for a clip yields a clip. -/
lemma Task.exists_clip (h : (∃ recipe, task = .make recipe) ∨
      ∃ model source, task = .makeAsLongAs model source) {product : Product γ}
    (hproduct : (task.perform B s).outcome = .ok product) : ∃ clip, product = .clip clip := by
  rcases h with ⟨recipe, rfl⟩ | ⟨model, source, rfl⟩
  · obtain ⟨clip, -, rfl⟩ := map_eq_ok.1 hproduct
    exact ⟨clip, rfl⟩
  · unfold Task.perform at hproduct
    dsimp only at hproduct
    split at hproduct
    · cases hproduct
    · obtain ⟨clip, -, rfl⟩ := map_eq_ok.1 hproduct
      exact ⟨clip, rfl⟩

namespace Step

/-- A step that asks for nothing fails, and leaves the backend as it is. -/
lemma run_of_task_error {e : Error} (h : step.task base p.bindings = .error e) :
    step.run B base p s = ⟨.error e, s, [], [.stepStarted step.line step.operation.kind]⟩ := by
  unfold run
  simp only [h]

/-- A step whose task is carried out takes note of what it yields. -/
lemma run_of_task_ok (htask : step.task base p.bindings = .ok task) {product : Product γ}
    (hproduct : (task.perform B s).outcome = .ok product) :
    (step.run B base p s).outcome = .ok (p.record step.operation product).1 ∧
      (step.run B base p s).state = (task.perform B s).state := by
  unfold run
  simp only [htask, hproduct, and_self]

/-- A step leaves the backend as its task does. -/
lemma state_of_task (htask : step.task base p.bindings = .ok task) :
    (step.run B base p s).state = (task.perform B s).state := by
  unfold run
  simp only [htask]
  split <;> rfl

/-- A step makes the calls of its task. -/
lemma trace_of_task (htask : step.task base p.bindings = .ok task) :
    (step.run B base p s).trace = (task.perform B s).trace := by
  unfold run
  simp only [htask]
  split <;> rfl

/-- A step whose task fails does so with the error of the task, traced to the block. -/
lemma run_of_perform_error (htask : step.task base p.bindings = .ok task) {e : Error}
    (he : (task.perform B s).outcome = .error e) :
    (step.run B base p s).outcome = .error (e.inBlock step.operation.kind step.line) := by
  unfold run
  simp only [htask, he]

/-- A step succeeds exactly when it has a task and the task is carried out. -/
lemma run_eq_ok : (step.run B base p s).outcome = .ok p' ↔ ∃ task product,
    step.task base p.bindings = .ok task ∧ (task.perform B s).outcome = .ok product ∧
      p' = (p.record step.operation product).1 := by
  cases htask : step.task base p.bindings with
  | error e => simp [run_of_task_error htask]
  | ok task =>
    cases hproduct : (task.perform B s).outcome with
    | error e => simp [run_of_perform_error htask hproduct, hproduct]
    | ok product =>
      rw [(run_of_task_ok htask hproduct).1]
      simp [hproduct, eq_comm]

/-- A step that succeeds reads only names that are bound. -/
theorem contains_inputs_of_run (h : (step.run B base p s).outcome = .ok p') :
    ∀ name ∈ step.operation.inputs, p.bindings.contains name = true := by
  obtain ⟨task, product, htask, -, -⟩ := run_eq_ok.1 h
  obtain ⟨clips, hclips, -⟩ := bind_eq_ok.1 htask
  intro name hname
  by_contra hunbound
  obtain ⟨missing, hmissing⟩ : ∃ missing,
      FirstUnknown (p.bindings.contains · = true) step.operation.inputs missing :=
    exists_firstUnknown fun hall => hunbound (hall name hname)
  rw [task_of_firstUnknown base hmissing] at htask
  cases htask

/-- A step that succeeds binds its output, if it has one, and nothing else. -/
lemma bindings_of_run (h : (step.run B base p s).outcome = .ok p') :
    (step.operation.output? = none ∧ p'.bindings = p.bindings) ∨
      ∃ name clip, step.operation.output? = some name ∧
        p'.bindings = p.bindings.bind name clip := by
  obtain ⟨task, product, htask, hproduct, rfl⟩ := run_eq_ok.1 h
  obtain ⟨_, -, htask⟩ := bind_eq_ok.1 htask
  rcases Operation.task_cases htask with ⟨name, hname, hclip⟩ | ⟨d, clip, hd, -, rfl⟩
  · obtain ⟨clip, rfl⟩ := Task.exists_clip hclip hproduct
    exact .inr ⟨name, clip, hname, by simp only [Progress.record, hname]⟩
  · obtain ⟨_, -, rfl⟩ := map_eq_ok.1 hproduct
    exact .inl ⟨by rw [hd]; rfl, rfl⟩

/-- After a step that succeeds, its output is bound beside what was bound before. -/
theorem contains_of_run (h : (step.run B base p s).outcome = .ok p') (name : String) :
    p'.bindings.contains name = true ↔
      p.bindings.contains name = true ∨ step.operation.output? = some name := by
  rcases bindings_of_run h with ⟨hnone, heq⟩ | ⟨output, clip, hsome, heq⟩
  · rw [heq, hnone]
    simp
  · rw [heq, hsome, Bindings.contains_bind, Option.some.injEq, or_comm, eq_comm (a := name)]

end Step

end Montage
