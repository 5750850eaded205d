import Montage.Proofs.Session.Counterparts
import Montage.Proofs.Session.Resolution
import Montage.Proofs.Session.Soundness

/-!
# Clip names carry no meaning

A session compares names, and does nothing else with them.  So other names in their places change
nothing, as long as different names stay different.  `renamed_of_injOn` says this of every backend
and of every script, whether its run succeeds or not: the calls are the same and so are their
outcomes, and what is reported is what was reported, under the other names.

It is enough that the names that occur in the script stay different (`Session.names`).  An error
that says which name is not bound names the other one.  All other errors come from a call, and the
session passes them on as they are (`Turn.Renamed`).
-/

namespace Montage

variable {σ γ α : Type} {B : Backend σ γ} {base : Path} {f : String → String}

/-! ### Names that occur -/

namespace Operation

variable {op : Operation} {name : String}

/-- The names of clips that occur in an operation. -/
def names : Operation → List String
  | .define d => d.name :: d.durationFrom.toList
  | .effect input output _ => [input, output]
  | .mix output m => output :: m.inputs
  | .subclip s => [s.input, s.output]
  | .deliver d => [d.input]

/-- A name that is read occurs. -/
lemma mem_names_of_mem_inputs (h : name ∈ op.inputs) : name ∈ op.names := by
  cases op with
  | define d =>
    unfold inputs at h
    cases hduration : d.duration with
    | some n => simp [hduration] at h
    | none =>
      simp only [hduration] at h
      exact List.mem_cons_of_mem _ h
  | effect input output e => exact List.mem_cons.2 (.inl (List.mem_singleton.1 h))
  | mix output m => exact List.mem_cons_of_mem _ h
  | subclip s => exact List.mem_cons.2 (.inl (List.mem_singleton.1 h))
  | deliver d => exact h

/-- A name that is bound occurs. -/
lemma mem_names_of_output? (h : op.output? = some name) : name ∈ op.names := by
  cases op <;> simp_all [output?, names]

end Operation

/-- The names of clips that occur in a script. -/
def Session.names (steps : List Step) : List String :=
  steps.flatMap fun step => step.operation.names

/-! ### What is found under other names -/

namespace Bindings

variable {bs : Bindings γ} {name x : String} {c : γ}

/-- The same clips under other names. -/
def rename (f : String → String) (bs : Bindings γ) : Bindings γ :=
  bs.entries.foldr (fun e renamed => renamed.bind (f e.1) e.2) .empty

/-- What is found under a new name is the clip of the first entry that gets this name. -/
lemma lookup?_rename (f : String → String) (bs : Bindings γ) (x : String) :
    (bs.rename f).lookup? x = (bs.entries.find? fun e => x = f e.1).map (·.2) := by
  unfold rename
  induction bs.entries with
  | nil => rfl
  | cons e es ih =>
    rw [List.foldr_cons, lookup?_bind, List.find?_cons, ih]
    by_cases hx : x = f e.1 <;> simp [hx]

/-- When bound names stay different, what is found under a new name is the clip of the name that
became it. -/
lemma lookup?_rename_eq_some (hf : Set.InjOn f {name | bs.contains name = true}) :
    (bs.rename f).lookup? x = some c ↔ ∃ name, x = f name ∧ bs.lookup? name = some c := by
  rw [lookup?_rename, Option.map_eq_some_iff]
  constructor
  · rintro ⟨e, he, rfl⟩
    refine ⟨e.1, by simpa using List.find?_some he, ?_⟩
    exact (mem_iff_lookup bs.sorted).1 (List.mem_of_find?_eq_some he)
  · rintro ⟨name, rfl, hname⟩
    have hmem : (name, c) ∈ bs.entries := (mem_iff_lookup bs.sorted).2 hname
    obtain ⟨e, he⟩ : ∃ e, bs.entries.find? (fun e => f name = f e.1) = some e :=
      Option.isSome_iff_exists.1 (List.find?_isSome.2 ⟨_, hmem, by simp⟩)
    have hfound : bs.lookup? e.1 = some e.2 :=
      (mem_iff_lookup bs.sorted).1 (List.mem_of_find?_eq_some he)
    have hsame : name = e.1 :=
      hf (contains_iff.2 ⟨c, hname⟩) (contains_iff.2 ⟨_, hfound⟩)
        (by simpa using List.find?_some he)
    rw [← hsame, hname, Option.some.injEq] at hfound
    exact ⟨e, he, hfound.symm⟩

/-- Under a bound name that stays different from the others, the same clip is found. -/
lemma lookup?_rename_of_injOn {N : Set String} (hf : Set.InjOn f N)
    (hbound : ∀ name, bs.contains name = true → name ∈ N) (hname : name ∈ N) :
    (bs.rename f).lookup? (f name) = bs.lookup? name := by
  refine Option.ext fun c => ?_
  rw [lookup?_rename_eq_some (hf.mono hbound)]
  constructor
  · rintro ⟨other, hsame, hother⟩
    rwa [hf hname (hbound other (contains_iff.2 ⟨c, hother⟩)) hsame]
  · exact fun hc => ⟨name, rfl, hc⟩

/-- Binding a name and then giving all names up for others is binding the other name. -/
lemma rename_bind {N : Set String} (hf : Set.InjOn f N)
    (hbound : ∀ name, bs.contains name = true → name ∈ N) (hname : name ∈ N) (c : γ) :
    (bs.bind name c).rename f = (bs.rename f).bind (f name) c := by
  have hboth : ∀ other, (bs.bind name c).contains other = true → other ∈ N := by
    intro other hother
    rcases contains_bind.1 hother with rfl | hother
    · exact hname
    · exact hbound other hother
  refine ext_of_lookup? fun x => Option.ext fun d => ?_
  rw [lookup?_rename_eq_some (hf.mono hboth), lookup?_bind]
  by_cases hx : x = f name
  · rw [if_pos hx]
    constructor
    · rintro ⟨other, hother, hd⟩
      have hsame : other = name :=
        hf (hboth other (contains_iff.2 ⟨d, hd⟩)) hname (hother.symm.trans hx)
      rwa [hsame, lookup?_bind, if_pos rfl] at hd
    · intro hd
      exact ⟨name, hx, by rwa [lookup?_bind, if_pos rfl]⟩
  · rw [if_neg hx, lookup?_rename_eq_some (hf.mono hbound)]
    refine exists_congr fun other => and_congr_right fun hother => ?_
    rw [lookup?_bind, if_neg fun h => hx (hother.trans (congrArg f h))]

end Bindings

/-! ### Results under other names -/

/-- The same product, of a clip with another name. -/
def Product.rename (f : String → String) : Product γ → Product γ
  | .clip c => .clip c
  | .file name path => .file (f name) path

/-- The same progress with other clip names. -/
def Progress.rename (f : String → String) (p : Progress γ) : Progress γ :=
  { p with bindings := p.bindings.rename f, lastExport := p.lastExport.map f }

/-- The same report with other clip names. -/
def Session.Report.rename (f : String → String) (report : Report γ) : Report γ :=
  { report with bindings := report.bindings.rename f, lastExport := report.lastExport.map f }

/-- The same error; the name that is not bound is another. -/
def Error.rename (f : String → String) : Error → Error
  | .undefinedClip name kind line => .undefinedClip (f name) kind line
  | e => e

/-- A second part of a session did the same under other names. -/
structure Turn.Renamed (f : String → String) (rename : α → α) (turn turn' : Turn σ γ α) :
    Prop where
  state : turn'.state = turn.state
  trace : turn'.trace = turn.trace
  success : ∀ a, turn.outcome = .ok a → turn'.outcome = .ok (rename a)
  /-- Without a failing call, the reason for a failure is a name that is not bound. -/
  missing : ∀ e, turn.outcome = .error e → Succeeded turn.trace →
    ∃ name kind line, e = .undefinedClip name kind line ∧
      turn'.outcome = .error (.undefinedClip (f name) kind line)
  /-- The error of a failing call stays as it is, whatever it says. -/
  refused : ∀ e, turn.outcome = .error e → ¬ Succeeded turn.trace → turn'.outcome = .error e

/-- Both parts succeed, or none does. -/
lemma Turn.Renamed.exists_ok_iff {rename : α → α} {turn turn' : Turn σ γ α}
    (h : turn.Renamed f rename turn') :
    (∃ a, turn'.outcome = .ok a) ↔ ∃ a, turn.outcome = .ok a := by
  constructor
  · rintro ⟨a, ha⟩
    cases houtcome : turn.outcome with
    | ok b => exact ⟨b, rfl⟩
    | error e =>
      by_cases htrace : Succeeded turn.trace
      · obtain ⟨_, _, _, -, he⟩ := h.missing e houtcome htrace
        cases he.symm.trans ha
      · cases (h.refused e houtcome htrace).symm.trans ha
  · rintro ⟨a, ha⟩
    exact ⟨_, h.success a ha⟩

/-- Parts of a session that do the same under other names do so one after the other. -/
lemma Turn.Renamed.andThen {β : Type} {renameFirst : β → β} {rename : α → α}
    {first first' : Turn σ γ β} {second second' : Turn σ γ α}
    (hfirst : first.Renamed f renameFirst first') (hsecond : second.Renamed f rename second')
    (hcalls : Succeeded first.trace) :
    (Session.Turn.andThen first second).Renamed f rename (Session.Turn.andThen first' second') where
  state := hsecond.state
  trace := by rw [Session.Turn.andThen, Session.Turn.andThen, hfirst.trace, hsecond.trace]
  success := hsecond.success
  missing := fun e he htrace =>
    hsecond.missing e he fun x hx => htrace x (List.mem_append_right _ hx)
  refused := fun e he htrace => hsecond.refused e he fun hrest =>
    htrace (List.forall_mem_append.2 ⟨hcalls, hrest⟩)

/-- An error that is not about a name is the same under other names. -/
lemma Error.rename_eq {e : Error} (he : ¬ e.IsUndefinedClip) (f : String → String) :
    e.rename f = e := by
  cases e with
  | undefinedClip name kind line => exact absurd ⟨name, kind, line, rfl⟩ he
  | _ => rfl

/-! ### Tasks and steps -/

/-- Under another name a task is carried out in the same way. -/
lemma Task.perform_of_alike {task task' : Task γ} (h : task.Alike f Eq task') (B : Backend σ γ)
    (s : σ) : task'.perform B s = { task.perform B s with
      outcome := (task.perform B s).outcome.map (Product.rename f) } := by
  have hclip (x : Except Error γ) :
      x.map Product.clip = (x.map Product.clip).map (Product.rename f) := by
    cases x <;> rfl
  cases h with
  | make hrecipe =>
    rw [hrecipe.eq]
    simp only [perform, Backend.perform, ← hclip]
  | makeAsLongAs hmodel source =>
    rw [hmodel]
    simp only [perform, Backend.perform]
    split
    · rfl
    · simp only [← hclip]
  | encode name hc encoding =>
    rw [hc]
    simp only [perform]
    cases (B.encode _ encoding s).outcome <;> rfl

/-- The first unknown name stays the first one under another name. -/
lemma FirstUnknown.map {known known' : String → Prop} {names : List String} {name : String}
    (h : FirstUnknown known names name) (hknown : ∀ n ∈ names, known' (f n) ↔ known n) :
    FirstUnknown known' (names.map f) (f name) := by
  obtain ⟨before, after, rfl, hbefore, hname⟩ := h
  refine ⟨before.map f, after.map f, by rw [List.map_append, List.map_cons],
    List.forall_mem_map.2 fun n hn => ?_, ?_⟩
  · exact (hknown n (List.mem_append_left _ hn)).2 (hbefore n hn)
  · exact mt (hknown name (List.mem_append_right _ List.mem_cons_self)).1 hname

section Steps

variable {N : Set String} {p : Progress γ} {s : σ} {step : Step} {steps : List Step}

/-- Taking note of what an operation has yielded is the same under other names. -/
lemma Progress.record_rename (hf : Set.InjOn f N)
    (hbound : ∀ name, p.bindings.contains name = true → name ∈ N) {op : Operation}
    (hnames : ∀ name ∈ op.names, name ∈ N) (product : Product γ) :
    ((p.rename f).record (op.rename f) (product.rename f)).1 =
      (p.record op product).1.rename f := by
  cases product with
  | file name path => rfl
  | clip c =>
    unfold record Product.rename
    rw [Operation.output?_rename]
    cases houtput : op.output? with
    | none => rfl
    | some name =>
      have hname : name ∈ N := hnames name (Operation.mem_names_of_output? houtput)
      simp only [rename, Option.map_some, Bindings.rename_bind hf hbound hname]

/-- A step that reads an unknown name fails for this name, whichever it is. -/
lemma Step.renamed_run_of_firstUnknown {p' : Progress γ} {name : String}
    (hname : FirstUnknown (p.bindings.contains · = true) step.operation.inputs name)
    (hknown : ∀ n ∈ step.operation.inputs,
      p'.bindings.contains (f n) = true ↔ p.bindings.contains n = true) :
    (step.run B base p s).Renamed f (Progress.rename f) ((step.rename f).run B base p' s) := by
  have hother : FirstUnknown (p'.bindings.contains · = true)
      (step.rename f).operation.inputs (f name) := by
    rw [Step.rename, Operation.inputs_rename]
    exact hname.map hknown
  rw [run_of_task_error (task_of_firstUnknown base hname),
    run_of_task_error (task_of_firstUnknown base hother)]
  refine ⟨rfl, rfl, fun q hq => ?_, fun e he _ => ?_, fun e _ hfailed => ?_⟩
  · cases hq
  · cases he
    refine ⟨name, _, _, rfl, ?_⟩
    rw [Step.rename, Operation.kind_rename]
  · exact absurd (List.forall_mem_nil _) hfailed

/-- A step whose task is the same but for the name in it does the same. -/
lemma Step.renamed_run_of_alike {p' : Progress γ} {task task' : Task γ}
    (htask : step.task base p.bindings = .ok task)
    (htask' : (step.rename f).task base p'.bindings = .ok task') (halike : task.Alike f Eq task')
    (hrecord : ∀ product, (p'.record (step.rename f).operation (product.rename f)).1 =
      (p.record step.operation product).1.rename f) :
    (step.run B base p s).Renamed f (Progress.rename f) ((step.rename f).run B base p' s) := by
  have hperform := Task.perform_of_alike halike B s
  have hfailing {e : Error} (he : (step.run B base p s).outcome = .error e) :
      ∃ cause, (task.perform B s).outcome = .error cause := by
    cases hproduct : (task.perform B s).outcome with
    | ok product => cases (run_of_task_ok htask hproduct).1.symm.trans he
    | error cause => exact ⟨cause, rfl⟩
  refine ⟨?_, ?_, fun q hq => ?_, fun e he htrace => ?_, fun e he _ => ?_⟩
  · rw [state_of_task htask', state_of_task htask, hperform]
  · rw [trace_of_task htask', trace_of_task htask, hperform]
  · obtain ⟨_, product, hok, hproduct, rfl⟩ := run_eq_ok.1 hq
    cases htask.symm.trans hok
    have hproduct' : (task'.perform B s).outcome = .ok (product.rename f) := by
      rw [hperform]
      exact map_eq_ok.2 ⟨product, hproduct, rfl⟩
    rw [(run_of_task_ok htask' hproduct').1]
    exact congrArg _ (hrecord product)
  · obtain ⟨cause, hcause⟩ := hfailing he
    obtain ⟨earlier, last, hcalls, -, hlast⟩ := Task.exists_failed_call hcause
    rw [trace_of_task htask, hcalls] at htrace
    have hnone := htrace last (List.mem_append_right _ (List.mem_singleton_self _))
    cases hnone.symm.trans hlast
  · obtain ⟨cause, hcause⟩ := hfailing he
    have hcause' : (task'.perform B s).outcome = .error cause := by
      rw [hperform]
      exact map_eq_error.2 hcause
    rw [run_of_perform_error htask' hcause', Step.rename, Operation.kind_rename, ← he,
      run_of_perform_error htask hcause]

/-- A step does the same under other names. -/
lemma Step.renamed_run (hf : Set.InjOn f N)
    (hbound : ∀ name, p.bindings.contains name = true → name ∈ N)
    (hnames : ∀ name ∈ step.operation.names, name ∈ N) :
    (step.run B base p s).Renamed f (Progress.rename f)
      ((step.rename f).run B base (p.rename f) s) := by
  have hlookup : ∀ name ∈ step.operation.inputs,
      (p.rename f).bindings.lookup? (f name) = p.bindings.lookup? name := fun name hname =>
    Bindings.lookup?_rename_of_injOn hf hbound
      (hnames name (Operation.mem_names_of_mem_inputs hname))
  by_cases hall : ∀ name ∈ step.operation.inputs, p.bindings.contains name = true
  · have hcounter : ∀ name ∈ step.operation.inputs, ∀ c, p.bindings.lookup? name = some c →
        ∃ c', (p.rename f).bindings.lookup? (f name) = some c' ∧ c = c' := fun name hname c hc =>
      ⟨c, (hlookup name hname).trans hc, rfl⟩
    obtain ⟨task, htask, -⟩ := exists_task base hall
    obtain ⟨task', htask', halike⟩ := exists_task_rename hcounter htask
    exact renamed_run_of_alike htask htask' halike (Progress.record_rename hf hbound hnames)
  · obtain ⟨name, hname⟩ := exists_firstUnknown hall
    refine renamed_run_of_firstUnknown hname fun n hn => ?_
    rw [Bindings.contains, hlookup n hn, Bindings.contains]

/-! ### Runs -/

namespace Session

/-- Steps do the same under other names, one after the other. -/
lemma renamed_runSteps (hf : Set.InjOn f N)
    (hbound : ∀ name, p.bindings.contains name = true → name ∈ N)
    (hnames : ∀ name ∈ names steps, name ∈ N) :
    (runSteps B base steps p s).Renamed f (Progress.rename f)
      (runSteps B base (steps.map (Step.rename f)) (p.rename f) s) := by
  -- What carries the induction is that every name that is bound occurs in the script.
  induction steps generalizing p s with
  | nil =>
    refine ⟨rfl, rfl, fun q hq => ?_, fun e he => ?_, fun e he => ?_⟩
    · cases hq
      rfl
    · cases he
    · cases he
  | cons step steps ih =>
    obtain ⟨hfirst, hothers⟩ := List.forall_mem_append.1 hnames
    have hstep : (step.run B base p s).Renamed f (Progress.rename f)
        ((step.rename f).run B base (p.rename f) s) := Step.renamed_run hf hbound hfirst
    rw [List.map_cons]
    cases houtcome : (step.run B base p s).outcome with
    | error e =>
      have hfails : ¬ ∃ q, ((step.rename f).run B base (p.rename f) s).outcome = .ok q := by
        rw [hstep.exists_ok_iff, houtcome]
        rintro ⟨q, hq⟩
        cases hq
      cases hother : ((step.rename f).run B base (p.rename f) s).outcome with
      | ok q => exact absurd ⟨q, hother⟩ hfails
      | error e' => rwa [runSteps_cons_of_error houtcome, runSteps_cons_of_error hother]
    | ok q =>
      have hq : ∀ name, q.bindings.contains name = true → name ∈ N := by
        intro name hname
        rcases (Step.contains_of_run houtcome name).1 hname with hbefore | hnew
        · exact hbound name hbefore
        · exact hfirst name (Operation.mem_names_of_output? hnew)
      rw [runSteps_cons_of_ok houtcome, runSteps_cons_of_ok (hstep.success q houtcome), hstep.state]
      exact hstep.andThen (ih hq hothers) (Step.succeeded_of_run houtcome)

/-- When no call of the backend speaks of names, a run that fails at a call does not fail for a
name. -/
lemma not_isUndefinedClip_of_failed_call {e : Error} (hB : B.IgnoresNames)
    (he : (run B base steps s).outcome = .error e)
    (htrace : ¬ Succeeded (run B base steps s).trace) : ¬ e.IsUndefinedClip := by
  obtain ⟨place, step, report, calls, hplace⟩ := exists_breaking_step he
  have hbreaks := hplace.breaks
  have hanswered := hplace.answered
  have hcalls := hplace.trace
  cases hbreaks with
  | unbound first =>
    rw [List.append_nil] at hcalls
    exact absurd (hcalls ▸ hplace.before) htrace
  | failed _ _ _ failure surfaces =>
    intro hname
    exact hB.answers hanswered _ (List.mem_append_right _ (List.mem_singleton_self _)) _ failure
      (surfaces.isUndefinedClip hname)

/-- The run of a script under other names makes the same calls with the same outcomes, and ends in
the same report under these names, or in the same error.  When no call of the backend speaks of
names, the error is the same up to the name in it. -/
theorem renamed_of_injOn (B : Backend σ γ) (base : Path) (s : σ) {steps : List Step}
    {f : String → String} (hf : Set.InjOn f {name | name ∈ names steps}) :
    (run B base steps s).Renamed f (Report.rename f)
      (run B base (steps.map (Step.rename f)) s) ∧
    ((∃ report, (run B base (steps.map (Step.rename f)) s).outcome = .ok report) ↔
      ∃ report, (run B base steps s).outcome = .ok report) ∧
    (B.IgnoresNames → ∀ e, (run B base steps s).outcome = .error e →
      (run B base (steps.map (Step.rename f)) s).outcome = .error (e.rename f)) := by
  have hsteps : (runSteps B base steps .start s).Renamed f (Progress.rename f)
      (runSteps B base (steps.map (Step.rename f)) .start s) :=
    renamed_runSteps hf (fun name hname => nomatch hname) fun name hname => hname
  have hrun : (run B base steps s).Renamed f (Report.rename f)
      (run B base (steps.map (Step.rename f)) s) := by
    refine ⟨hsteps.state, hsteps.trace, fun report hreport => ?_, fun e he htrace => ?_,
      fun e he htrace => ?_⟩
    · obtain ⟨p, hp, rfl⟩ := map_eq_ok.1 hreport
      refine map_eq_ok.2 ⟨_, hsteps.success p hp, ?_⟩
      rw [List.length_map]
      rfl
    · obtain ⟨name, kind, line, hname, hother⟩ := hsteps.missing e (map_eq_error.1 he) htrace
      exact ⟨name, kind, line, hname, map_eq_error.2 hother⟩
    · exact map_eq_error.2 (hsteps.refused e (map_eq_error.1 he) htrace)
  refine ⟨hrun, hrun.exists_ok_iff, fun hB e he => ?_⟩
  by_cases htrace : Succeeded (run B base steps s).trace
  · obtain ⟨name, kind, line, rfl, hother⟩ := hrun.missing e he htrace
    exact hother
  · rw [hrun.refused e he htrace, Error.rename_eq (not_isUndefinedClip_of_failed_call hB he htrace)]

/-- Two names change places, and all others become one. -/
def swapped (name : String) : String := if name = "loop" then "talk" else "loop"

/-- The clip that is written has the other name then, and the calls are the same. -/
theorem renamed_loop :
    ∃ report, (run (Recorder.backend none) ⟨"/films"⟩ loop .empty).outcome = .ok report ∧
      (run (Recorder.backend none) ⟨"/films"⟩ (loop.map (Step.rename swapped)) .empty).outcome =
        .ok (report.rename swapped) ∧
      (run (Recorder.backend none) ⟨"/films"⟩ (loop.map (Step.rename swapped)) .empty).trace =
        (run (Recorder.backend none) ⟨"/films"⟩ loop .empty).trace ∧
      (report.rename swapped).lastExport = some "talk" := by
  have hdifferent : ∀ a ∈ names loop, ∀ b ∈ names loop, swapped a = swapped b → a = b := by decide
  obtain ⟨hrenamed, -⟩ := renamed_of_injOn (Recorder.backend none) ⟨"/films"⟩ .empty
    (fun a ha b hb => hdifferent a ha b hb)
  have hdefines : DefinesBeforeUse loop := by decide
  obtain ⟨report, hreport, hresolved⟩ := resolution_of_run ⟨"/films"⟩ hdefines
  refine ⟨report, hreport, hrenamed.success report hreport, hrenamed.trace, ?_⟩
  rw [Report.rename, hresolved.lastExport]
  rfl

end Session

end Steps

end Montage
