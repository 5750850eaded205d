import Montage.Proofs.Session.Step

/-!
# Operations with other names, tasks with other clips

`Operation.rename` puts other clip names in the place of those of an operation, and `Task.Alike`
says that two tasks ask for the same, the one of clips that correspond to those of the other.  An
operation does nothing with clips but pass them on.  So when a second session finds a counterpart
wherever the first one finds a clip, perhaps under another name, then it asks for the counterpart of
what the first one asks for (`Step.exists_task_rename`).

The two sessions may have different backends, and with them clips of different types.
-/

namespace Montage

variable {γ δ : Type} {f : String → String} {R : γ → δ → Prop} {base : Path} {op : Operation}

/-! ### Other names -/

/-- The same definition with other clip names. -/
def Definition.rename (f : String → String) (d : Definition) : Definition :=
  { d with name := f d.name, durationFrom := d.durationFrom.map f }

/-- The same combination with other clip names. -/
def Mix.rename (f : String → String) : Mix → Mix
  | .concatenate clips => .concatenate (clips.map f)
  | .composite clips size => .composite (clips.map f) size
  | .setAudio picture sound => .setAudio (f picture) (f sound)

/-- The same operation with other clip names.  Paths stay as they are. -/
def Operation.rename (f : String → String) : Operation → Operation
  | .define d => .define (d.rename f)
  | .effect input output e => .effect (f input) (f output) e
  | .mix output m => .mix (f output) (m.rename f)
  | .subclip s => .subclip { s with input := f s.input, output := f s.output }
  | .deliver d => .deliver { d with input := f d.input }

/-- The same step with other clip names. -/
def Step.rename (f : String → String) (step : Step) : Step :=
  { step with operation := step.operation.rename f }

namespace Operation

/-- Other names ask for the same kind of block. -/
@[simp] lemma kind_rename (f : String → String) (op : Operation) :
    (op.rename f).kind = op.kind := by
  cases op with
  | mix output m => cases m <;> rfl
  | _ => rfl

/-- The names that are read are the other names of those that were read. -/
@[simp] lemma inputs_rename (f : String → String) (op : Operation) :
    (op.rename f).inputs = op.inputs.map f := by
  cases op with
  | define d =>
    simp only [rename, Definition.rename, inputs]
    cases d.duration <;> cases d.durationFrom <;> rfl
  | mix output m => cases m <;> rfl
  | _ => rfl

/-- The name that is bound is the other name of the one that was bound. -/
@[simp] lemma output?_rename (f : String → String) (op : Operation) :
    (op.rename f).output? = op.output?.map f := by
  cases op <;> rfl

/-- With the same names an operation is the same. -/
@[simp] lemma rename_id (op : Operation) : op.rename id = op := by
  cases op with
  | define d => simp [rename, Definition.rename]
  | mix output m => cases m <;> simp [rename, Mix.rename]
  | _ => rfl

end Operation

/-! ### Other clips -/

/-- Recipes of the same form whose clips correspond to each other. -/
inductive Recipe.Alike (R : γ → δ → Prop) : Recipe γ → Recipe δ → Prop
  | source (s : Source) : Alike R (.source s) (.source s)
  | effect {c : γ} {c' : δ} (hinput : R c c') (e : Effect) : Alike R (.effect c e) (.effect c' e)
  | concatenate {cs : List γ} {cs' : List δ} (hclips : List.Forall₂ R cs cs') :
      Alike R (.concatenate cs) (.concatenate cs')
  | composite {cs : List γ} {cs' : List δ} (hlayers : List.Forall₂ R cs cs')
      (size : Option Canvas) : Alike R (.composite cs size) (.composite cs' size)
  | attachAudio {p s : γ} {p' s' : δ} (hpicture : R p p') (hsound : R s s') :
      Alike R (.attachAudio p s) (.attachAudio p' s')
  | extractRange {c : γ} {c' : δ} (hinput : R c c') (start : Timestamp)
      (stop : Option Timestamp) : Alike R (.extractRange c start stop) (.extractRange c' start stop)

/-- Recipes whose clips are the same are the same. -/
lemma Recipe.Alike.eq {r r' : Recipe γ} (h : r.Alike Eq r') : r' = r := by
  cases h with
  | source s => rfl
  | effect hinput e => rw [hinput]
  | concatenate hclips =>
    rw [List.forall₂_eq_eq_eq] at hclips
    rw [hclips]
  | composite hlayers size =>
    rw [List.forall₂_eq_eq_eq] at hlayers
    rw [hlayers]
  | attachAudio hpicture hsound => rw [hpicture, hsound]
  | extractRange hinput start stop => rw [hinput]

/-- Tasks of the same form whose clips correspond to each other; a clip that is written has another
name in the second one. -/
inductive Task.Alike (f : String → String) (R : γ → δ → Prop) : Task γ → Task δ → Prop
  | make {r : Recipe γ} {r' : Recipe δ} (hrecipe : r.Alike R r') : Alike f R (.make r) (.make r')
  | makeAsLongAs {c : γ} {c' : δ} (hmodel : R c c') (source : Source) :
      Alike f R (.makeAsLongAs c source) (.makeAsLongAs c' source)
  | encode {c : γ} {c' : δ} (name : String) (hclip : R c c') (encoding : Encoding) :
      Alike f R (.encode name c encoding) (.encode (f name) c' encoding)

/-- Tasks whose names and clips are the same are the same. -/
lemma Task.Alike.eq {task task' : Task γ} (h : task.Alike id Eq task') : task' = task := by
  cases h with
  | make hrecipe => rw [hrecipe.eq]
  | makeAsLongAs hmodel source => rw [hmodel]
  | encode name hclip encoding => rw [hclip, id]

section Finding

variable {find : String → Except Error γ} {find' : String → Except Error δ} {task : Task γ}

/-- Wherever the first search finds a clip for one of the names, the second one finds a counterpart
under the other name. -/
def Matches (f : String → String) (R : γ → δ → Prop) (find : String → Except Error γ)
    (find' : String → Except Error δ) (names : List String) : Prop :=
  ∀ name ∈ names, ∀ c, find name = .ok c → ∃ c', find' (f name) = .ok c' ∧ R c c'

/-- Clips that are found together have counterparts that are found together. -/
lemma exists_mapM_of_matches {names : List String} {cs : List γ}
    (hmatch : Matches f R find find' names) (hclips : names.mapM find = .ok cs) :
    ∃ cs', (names.map f).mapM find' = .ok cs' ∧ List.Forall₂ R cs cs' := by
  simp only [mapM_eq_ok] at hclips ⊢
  induction hclips with
  | nil => exact ⟨[], .nil, .nil⟩
  | @cons name c names cs hname _ ih =>
    obtain ⟨hfirst, hothers⟩ := List.forall_mem_cons.1 hmatch
    obtain ⟨c', hc', hcounter⟩ := hfirst c hname
    obtain ⟨cs', hcs', hcounters⟩ := ih hothers
    exact ⟨c' :: cs', .cons hc' hcs', .cons hcounter hcounters⟩

/-- A definition asks for the counterpart. -/
lemma Definition.exists_task_rename {d : Definition}
    (hmatch : Matches f R find find' (Operation.define d).inputs)
    (htask : d.task base find = .ok task) :
    ∃ task', (d.rename f).task base find' = .ok task' ∧ task.Alike f R task' := by
  unfold Definition.task Definition.rename Definition.toSource at *
  unfold Operation.inputs at hmatch
  cases hduration : d.duration with
  | some n =>
    simp only [hduration] at htask ⊢
    cases htask
    exact ⟨_, rfl, .make (.source _)⟩
  | none =>
    cases hmodel : d.durationFrom with
    | none =>
      simp only [hduration, hmodel] at htask ⊢
      cases htask
      exact ⟨_, rfl, .make (.source _)⟩
    | some name =>
      simp only [hduration, hmodel] at htask ⊢
      obtain ⟨c, hc, htask⟩ := bind_eq_ok.1 htask
      cases htask
      obtain ⟨c', hc', hcounter⟩ := hmatch name (by simp [hduration, hmodel]) c hc
      exact ⟨_, bind_eq_ok.2 ⟨c', hc', rfl⟩, .makeAsLongAs hcounter _⟩

/-- A combination has the recipe that is the counterpart. -/
lemma Mix.exists_recipe_rename {m : Mix} {r : Recipe γ}
    (hmatch : Matches f R find find' m.inputs) (hrecipe : m.recipe find = .ok r) :
    ∃ r', (m.rename f).recipe find' = .ok r' ∧ r.Alike R r' := by
  cases m with
  | concatenate names =>
    obtain ⟨cs, hcs, hrecipe⟩ := bind_eq_ok.1 hrecipe
    cases hrecipe
    obtain ⟨cs', hcs', hcounters⟩ := exists_mapM_of_matches hmatch hcs
    exact ⟨_, bind_eq_ok.2 ⟨cs', hcs', rfl⟩, .concatenate hcounters⟩
  | composite names size =>
    obtain ⟨cs, hcs, hrecipe⟩ := bind_eq_ok.1 hrecipe
    cases hrecipe
    obtain ⟨cs', hcs', hcounters⟩ := exists_mapM_of_matches hmatch hcs
    exact ⟨_, bind_eq_ok.2 ⟨cs', hcs', rfl⟩, .composite hcounters size⟩
  | setAudio picture sound =>
    obtain ⟨p, hp, hrecipe⟩ := bind_eq_ok.1 hrecipe
    obtain ⟨s, hs, hrecipe⟩ := bind_eq_ok.1 hrecipe
    cases hrecipe
    obtain ⟨hpicture, hsound⟩ := List.forall_mem_cons.1 hmatch
    obtain ⟨p', hp', hseen⟩ := hpicture p hp
    obtain ⟨s', hs', hheard⟩ := List.forall_mem_singleton.1 hsound s hs
    exact ⟨_, bind_eq_ok.2 ⟨p', hp', bind_eq_ok.2 ⟨s', hs', rfl⟩⟩, .attachAudio hseen hheard⟩

/-- An operation asks for the counterpart. -/
lemma Operation.exists_task_rename (hmatch : Matches f R find find' op.inputs)
    (htask : op.task base find = .ok task) :
    ∃ task', (op.rename f).task base find' = .ok task' ∧ task.Alike f R task' := by
  cases op with
  | define d => exact Definition.exists_task_rename hmatch htask
  | effect input output e =>
    obtain ⟨c, hc, htask⟩ := bind_eq_ok.1 htask
    cases htask
    obtain ⟨c', hc', hcounter⟩ := hmatch input (List.mem_singleton_self _) c hc
    exact ⟨_, bind_eq_ok.2 ⟨c', hc', rfl⟩, .make (.effect hcounter e)⟩
  | mix output m =>
    obtain ⟨r, hr, htask⟩ := bind_eq_ok.1 htask
    cases htask
    obtain ⟨r', hr', hcounter⟩ := Mix.exists_recipe_rename hmatch hr
    exact ⟨_, bind_eq_ok.2 ⟨r', hr', rfl⟩, .make hcounter⟩
  | subclip s =>
    obtain ⟨c, hc, htask⟩ := bind_eq_ok.1 htask
    cases htask
    obtain ⟨c', hc', hcounter⟩ := hmatch s.input (List.mem_singleton_self _) c hc
    exact ⟨_, bind_eq_ok.2 ⟨c', hc', rfl⟩, .make (.extractRange hcounter s.start s.stop)⟩
  | deliver d =>
    obtain ⟨c, hc, htask⟩ := bind_eq_ok.1 htask
    cases htask
    obtain ⟨c', hc', hcounter⟩ := hmatch d.input (List.mem_singleton_self _) c hc
    exact ⟨_, bind_eq_ok.2 ⟨c', hc', rfl⟩, .encode d.input hcounter (d.toEncoding base)⟩

end Finding

namespace Step

variable {bs : Bindings γ} {bs' : Bindings δ} {step : Step} {task : Task γ}

/-- When a counterpart is bound wherever a clip is, a step asks for the counterpart. -/
theorem exists_task_rename
    (hbound : ∀ name ∈ step.operation.inputs, ∀ c, bs.lookup? name = some c →
      ∃ c', bs'.lookup? (f name) = some c' ∧ R c c')
    (htask : step.task base bs = .ok task) :
    ∃ task', (step.rename f).task base bs' = .ok task' ∧ task.Alike f R task' := by
  have hmatch : Matches f R (bs.get · step.operation.kind.token step.line)
      (bs'.get · step.operation.kind.token step.line) step.operation.inputs := by
    intro name hname c hc
    obtain ⟨c', hc', hcounter⟩ := hbound name hname c (Bindings.get_eq_ok.1 hc)
    exact ⟨c', Bindings.get_eq_ok.2 hc', hcounter⟩
  obtain ⟨clips, hclips, hop⟩ := bind_eq_ok.1 htask
  obtain ⟨clips', hclips', -⟩ := exists_mapM_of_matches hmatch hclips
  obtain ⟨task', htask', halike⟩ := Operation.exists_task_rename hmatch hop
  refine ⟨task', ?_, halike⟩
  unfold Step.task
  simp only [Step.rename, Operation.kind_rename, Operation.inputs_rename]
  exact bind_eq_ok.2 ⟨clips', hclips', htask'⟩

/-- With the same names a step is the same. -/
@[simp] lemma rename_id (step : Step) : step.rename id = step := by
  simp [Step.rename]

/-- When the same clips are bound to the names that a step reads, it asks for the same. -/
lemma task_eq_ok_of_lookup? {bs' : Bindings γ}
    (hbound : ∀ name ∈ step.operation.inputs, bs'.lookup? name = bs.lookup? name)
    (htask : step.task base bs = .ok task) : step.task base bs' = .ok task := by
  have hcounter : ∀ name ∈ step.operation.inputs, ∀ c, bs.lookup? name = some c →
      ∃ c', bs'.lookup? (id name) = some c' ∧ c = c' := by
    intro name hname c hc
    exact ⟨c, (hbound name hname).trans hc, rfl⟩
  obtain ⟨task', htask', halike⟩ := exists_task_rename hcounter htask
  rwa [rename_id, halike.eq] at htask'

end Step

end Montage
