import Montage.Proofs.Session.Failure
import Montage.Proofs.Session.Outline
import Montage.Renderer

/-!
# What a check says of a run

A check is a run against the recorder.  It and a run against another backend need not have anything
in common: their clips differ, and so do the reasons for which they may fail.  What ties them
together is the script.  Both bind the names that its steps bind (`contains_of_runSteps`), both look
names up in the same order, and both follow its outline (`outlined_runSteps`).

So a run that succeeds is foreseen by the check, and a name that the check misses stops every run
that gets as far (`stopsAt_of_check`).  `check_sound` says this of the renderer, which adds that
none of its own calls fails for a name.
-/

namespace Montage

variable {σ γ : Type} {B : Backend σ γ} {base : Path} {steps : List Step} {step : Step}
  {s s' : σ} {e : Error} {trace : List (Exchange γ)}

/-! ### Errors about names -/

/-- The error says that a name is not bound. -/
def Error.IsUndefinedClip (e : Error) : Prop := ∃ name kind line, e = .undefinedClip name kind line

/-- No call of the backend fails for a name that is not bound. -/
structure Backend.IgnoresNames (B : Backend σ γ) : Prop where
  make : ∀ recipe s e, (B.make recipe s).outcome = .error e → ¬ e.IsUndefinedClip
  duration : ∀ clip s e, (B.duration clip s).outcome = .error e → ¬ e.IsUndefinedClip
  encode : ∀ clip encoding s e, (B.encode clip encoding s).outcome = .error e →
    ¬ e.IsUndefinedClip

/-- None of the calls that such a backend answers fails for a name. -/
lemma Backend.IgnoresNames.answers (hB : B.IgnoresNames) (h : B.Answers s trace s') :
    ∀ x ∈ trace, ∀ e, x.error? = some e → ¬ e.IsUndefinedClip := by
  induction h with
  | nil => simp
  | made recipe _ ih =>
    exact List.forall_mem_cons.2 ⟨fun e he => hB.make recipe _ e (Exchange.error?_made.1 he), ih⟩
  | measured clip _ ih =>
    exact List.forall_mem_cons.2
      ⟨fun e he => hB.duration clip _ e (Exchange.error?_measured.1 he), ih⟩
  | encoded clip encoding _ ih =>
    exact List.forall_mem_cons.2
      ⟨fun e he => hB.encode clip encoding _ e (Exchange.error?_encoded.1 he), ih⟩

/-- An error that surfaces as one about a name was one about a name. -/
lemma Surfaces.isUndefinedClip {kind : Kind} {line : Nat} {cause : Error}
    (h : Surfaces kind line cause e) (he : e.IsUndefinedClip) : cause.IsUndefinedClip := by
  cases h with
  | traced => obtain ⟨_, _, _, heq⟩ := he; cases heq
  | unchanged => exact he

/-- A fault is no error about a name. -/
lemma Error.not_isUndefinedClip_backend (fault : Fault) : ¬ (backend fault).IsUndefinedClip := by
  rintro ⟨_, _, _, heq⟩
  cases heq

/-- What fails with a fault does not fail for a name. -/
lemma not_isUndefinedClip_of_mapError {α : Type} {x : Except Fault α}
    (h : x.mapError .backend = .error e) : ¬ e.IsUndefinedClip := by
  obtain ⟨fault, -, rfl⟩ := mapError_eq_error.1 h
  exact Error.not_isUndefinedClip_backend fault

namespace Renderer

/-- Opening a source fails with a fault. -/
lemma not_isUndefinedClip_of_openSource {h : Host} {o : RenderOptions} {source : Source}
    {r : Renderer} (he : (openSource h o source r).outcome = .error e) : ¬ e.IsUndefinedClip := by
  unfold openSource at he
  split at he
  · cases he
    exact Error.not_isUndefinedClip_backend _
  · split at he
    · cases he
      exact Error.not_isUndefinedClip_backend _
    · cases he

/-- Making the directory of a destination fails for that directory. -/
lemma not_isUndefinedClip_of_prepare {destination : Path} {files : FileTree}
    (he : (prepare destination files).1 = .error e) : ¬ e.IsUndefinedClip := by
  unfold prepare at he
  split at he
  · cases he
  · split at he
    · cases he
    · cases he
      rintro ⟨_, _, _, heq⟩
      cases heq

/-- Writing a file fails with a fault, or because its directory could not be made. -/
lemma not_isUndefinedClip_of_carryOut {h : Host} {o : RenderOptions} {command : Command}
    {destination : Path} {files : FileTree}
    (he : (carryOut h o command destination files).1 = .error e) : ¬ e.IsUndefinedClip := by
  unfold carryOut at he
  split at he
  · rename_i e' files' hprepare
    cases he
    exact not_isUndefinedClip_of_prepare (congrArg Prod.fst hprepare)
  · exact not_isUndefinedClip_of_mapError he

/-- No call of the renderer fails for a name. -/
theorem ignoresNames (h : Host) (o : RenderOptions) : (backend h o).IgnoresNames where
  make recipe r e he := by
    cases recipe with
    | source source => exact not_isUndefinedClip_of_openSource he
    | _ => exact not_isUndefinedClip_of_mapError he
  duration clip r e he := by cases he
  encode clip encoding r e he := by
    have hencode : (encode h o clip encoding r).outcome = .error e := he
    unfold encode at hencode
    split at hencode
    · cases hencode
      exact Error.not_isUndefinedClip_backend _
    · dsimp only at hencode
      split at hencode
      · rename_i e' houtcome
        cases hencode
        split at houtcome
        · cases houtcome
        · exact not_isUndefinedClip_of_carryOut houtcome
      · cases hencode

end Renderer

/-! ### What the recorder keeps -/

/-- The encoding of a recorded call, if it wrote a clip. -/
def RecordedCall.encoding? : RecordedCall → Option Encoding
  | .encoded _ encoding => some encoding
  | .made .. => none

/-- The recorder keeps the encodings that it was asked for, in order. -/
lemma Recorder.encodings_of_answers {r r' : Recorder} {trace : List (Exchange NumberedClip)}
    (h : (Recorder.backend none).Answers r trace r') :
    r'.calls.filterMap RecordedCall.encoding? =
      r.calls.filterMap RecordedCall.encoding? ++ trace.filterMap Exchange.encoding? := by
  induction h with
  | nil => simp
  | made recipe _ ih =>
    simp only [ih, backend, make, List.filterMap_append, List.append_assoc]
    rfl
  | measured clip _ ih =>
    rw [ih]
    rfl
  | encoded clip encoding _ ih =>
    rw [ih]
    simp [backend, encode, RecordedCall.encoding?, Exchange.encoding?]

namespace Session

/-! ### Where a run stops -/

/-- The run of the steps fails at the step at a place: those before it succeed on their own, and the
error of the run up to that step is the error of the whole run. -/
structure StopsAt (B : Backend σ γ) (base : Path) (steps : List Step) (s : σ) (place : Nat)
    (e : Error) : Prop where
  reached : ∃ report, (run B base (steps.take place) s).outcome = .ok report
  there : (run B base (steps.take (place + 1)) s).outcome = .error e
  whole : (run B base steps s).outcome = .error e

variable {place : Nat}

/-- A run stops at a step exactly when it gets to the step and the step fails. -/
lemma stopsAt_iff : StopsAt B base steps s place e ↔ ∃ step q, steps[place]? = some step ∧
    (runSteps B base (steps.take place) .start s).outcome = .ok q ∧
    (step.run B base q (runSteps B base (steps.take place) .start s).state).outcome = .error e := by
  constructor
  · rintro ⟨⟨report, hreached⟩, hthere, -⟩
    obtain ⟨q, hq, -⟩ := map_eq_ok.1 hreached
    have hfails := map_eq_error.1 hthere
    rw [List.take_add_one] at hfails
    cases hstep : steps[place]? with
    | none =>
      rw [hstep, Option.toList_none, List.append_nil, hq] at hfails
      cases hfails
    | some step =>
      rw [hstep, Option.toList_some, (runSteps_concat_of_ok hq step).1] at hfails
      exact ⟨step, q, rfl, hq, hfails⟩
  · rintro ⟨step, q, hstep, hq, hfails⟩
    have hthere : (runSteps B base (steps.take (place + 1)) .start s).outcome = .error e := by
      rw [List.take_add_one, hstep, Option.toList_some, (runSteps_concat_of_ok hq step).1, hfails]
    have hwhole : (runSteps B base steps .start s).outcome = .error e := by
      rw [← List.take_append_drop (place + 1) steps, runSteps_append_of_error hthere, hthere]
    exact ⟨⟨_, map_eq_ok.2 ⟨q, hq, rfl⟩⟩, map_eq_error.2 hthere, map_eq_error.2 hwhole⟩

/-- A run that fails stops at some step. -/
lemma exists_stopsAt (h : (run B base steps s).outcome = .error e) :
    ∃ place, StopsAt B base steps s place e := by
  obtain ⟨before, step, after, q, rfl, hbefore, hstep, -⟩ :=
    exists_failing_step (map_eq_error.1 h)
  refine ⟨before.length, stopsAt_iff.2 ⟨step, q, by simp, ?_⟩⟩
  rw [List.take_left]
  exact ⟨hbefore, hstep⟩

/-- Where a run of the first steps stops, the run of all of them stops as well. -/
lemma StopsAt.of_take {n : Nat} (h : StopsAt B base (steps.take n) s place e) :
    place < n ∧ StopsAt B base steps s place e := by
  obtain ⟨step, q, hstep, hq, hfails⟩ := stopsAt_iff.1 h
  have hplace : place < n := by
    have := (List.getElem?_eq_some_iff.1 hstep).1
    rw [List.length_take] at this
    omega
  rw [List.take_take, min_eq_left hplace.le] at hq hfails
  rw [List.getElem?_take_of_lt hplace] at hstep
  exact ⟨hplace, stopsAt_iff.2 ⟨step, q, hstep, hq, hfails⟩⟩

/-! ### Checks and runs -/

/-- Where a check stops, every run stops that gets as far, with the same error. -/
theorem stopsAt_of_check {r : Recorder}
    (hcheck : StopsAt (Recorder.backend none) base steps r place e)
    (hreached : ∃ report, (run B base (steps.take place) s).outcome = .ok report) :
    StopsAt B base steps s place e := by
  obtain ⟨step, q, hstep, hq, hfails⟩ := stopsAt_iff.1 hcheck
  obtain ⟨report, hreport⟩ := hreached
  obtain ⟨p, hp, -⟩ := map_eq_ok.1 hreport
  have hsame : ∀ name, q.bindings.contains name = true ↔ p.bindings.contains name = true := by
    intro name
    rw [contains_of_runSteps hq, contains_of_runSteps hp]
  have hbreaks := Step.breaks_of_run hfails
  generalize (step.run (Recorder.backend none) base q _).trace = calls at hbreaks
  cases hbreaks with
  | unbound first =>
    simp only [hsame] at first
    refine stopsAt_iff.2 ⟨step, p, hstep, hp, ?_⟩
    rw [Step.run_of_task_error (Step.task_of_firstUnknown base first)]
  | failed bound =>
    obtain ⟨p', hp'⟩ := exists_run_of_bound base _ bound
    cases hp'.symm.trans hfails

/-- Where a check stops, every run stops there or before. -/
lemma exists_stopsAt_le {r : Recorder}
    (hcheck : StopsAt (Recorder.backend none) base steps r place e) (B : Backend σ γ) (s : σ) :
    ∃ earlier e', earlier ≤ place ∧ StopsAt B base steps s earlier e' := by
  cases hrun : (run B base (steps.take place) s).outcome with
  | ok report => exact ⟨place, e, le_rfl, stopsAt_of_check hcheck ⟨report, hrun⟩⟩
  | error e' =>
    obtain ⟨earlier, hstops⟩ := exists_stopsAt hrun
    obtain ⟨hlt, hstops⟩ := hstops.of_take
    exact ⟨earlier, e', hlt.le, hstops⟩

/-- A check foretells a run: both report the same files, the same last clip, the same number of
steps and the same names, and the encodings that the check keeps are those that the run asks for. -/
structure Foretells (checked : Report NumberedClip) (kept : Recorder) (report : Report γ)
    (trace : List (Exchange γ)) : Prop where
  exports : checked.exports = report.exports
  lastExport : checked.lastExport = report.lastExport
  stepsRun : checked.stepsRun = report.stepsRun
  names : checked.bindings.names = report.bindings.names
  encodings : kept.calls.filterMap RecordedCall.encoding? = trace.filterMap Exchange.encoding?

/-- A run that succeeds is foretold by the check, which succeeds too. -/
theorem foretells_of_run {report : Report γ} (h : (run B base steps s).outcome = .ok report) :
    ∃ checked, (run (Recorder.backend none) base steps .empty).outcome = .ok checked ∧
      Foretells checked (run (Recorder.backend none) base steps .empty).state report
        (run B base steps s).trace := by
  obtain ⟨p, hp, rfl⟩ := map_eq_ok.1 h
  obtain ⟨q, hq, -⟩ := tracks_runSteps base (definesBeforeUse_of_runSteps hp)
  have hrun := outlined_runSteps hp
  have hcheck := outlined_runSteps hq
  refine ⟨⟨q.bindings, q.exports, q.lastExport, steps.length⟩, map_eq_ok.2 ⟨q, hq, rfl⟩, ?_⟩
  exact {
    exports := hcheck.exports.trans hrun.exports.symm
    lastExport := hcheck.lastExport.trans hrun.lastExport.symm
    stepsRun := rfl
    names := Bindings.names_eq_of_contains fun name => by
      rw [contains_of_runSteps hq, contains_of_runSteps hp]
    encodings := by
      have hkept := Recorder.encodings_of_answers
        (answers_runSteps (Recorder.backend none) base steps .start .empty)
      rw [hcheck.encodings] at hkept
      exact hkept.trans hrun.encodings.symm }

/-- After a check that succeeds, no run fails for a name, unless a call of its backend does. -/
theorem not_isUndefinedClip_of_check {checked : Report NumberedClip} {r : Recorder}
    (hcheck : (run (Recorder.backend none) base steps r).outcome = .ok checked)
    (hB : B.IgnoresNames) (h : (run B base steps s).outcome = .error e) :
    ¬ e.IsUndefinedClip := by
  obtain ⟨q, hq, -⟩ := map_eq_ok.1 hcheck
  have hdefines := definesBeforeUse_of_runSteps hq
  obtain ⟨before, step, after, p, rfl, hbefore, hstep, -⟩ :=
    exists_failing_step (map_eq_error.1 h)
  have hanswers := Step.answers_run B base step p (runSteps B base before .start s).state
  have hbreaks := Step.breaks_of_run hstep
  generalize (step.run B base p _).trace = calls at hbreaks hanswers
  cases hbreaks with
  | unbound first =>
    obtain ⟨early, late, hinputs, -, hunbound⟩ := first
    have hbinds := hdefines before step after rfl _
      (hinputs ▸ List.mem_append_right early List.mem_cons_self)
    exact absurd ((contains_of_runSteps hbefore _).2 hbinds) hunbound
  | failed _ _ _ failure surfaces =>
    intro he
    exact hB.answers hanswers _ (List.mem_append_right _ (List.mem_singleton_self _)) _ failure
      (surfaces.isUndefinedClip he)

/-- A check is sound for the renderer.  When the renderer runs a script to its end, the check does
so too and foretells what is reported and encoded.  When the check fails for a name at a step, the
renderer fails there or before, and in the same way if it gets there.  When the check succeeds, the
renderer does not fail for a name. -/
theorem check_sound (h : Host) (o : RenderOptions) (base : Path) (steps : List Step)
    (r : Renderer) :
    (∀ report, (run (Renderer.backend h o) base steps r).outcome = .ok report →
      ∃ checked, (run (Recorder.backend none) base steps .empty).outcome = .ok checked ∧
        Foretells checked (run (Recorder.backend none) base steps .empty).state report
          (run (Renderer.backend h o) base steps r).trace) ∧
    (∀ place name kind line,
      StopsAt (Recorder.backend none) base steps .empty place (.undefinedClip name kind line) →
      (∃ earlier e, earlier ≤ place ∧ StopsAt (Renderer.backend h o) base steps r earlier e) ∧
      ((∃ report, (run (Renderer.backend h o) base (steps.take place) r).outcome = .ok report) →
        StopsAt (Renderer.backend h o) base steps r place (.undefinedClip name kind line))) ∧
    ((∃ checked, (run (Recorder.backend none) base steps .empty).outcome = .ok checked) →
      ∀ name kind line,
        (run (Renderer.backend h o) base steps r).outcome ≠
          .error (.undefinedClip name kind line)) := by
  refine ⟨fun report => foretells_of_run, ?_, ?_⟩
  · intro place name kind line hcheck
    exact ⟨exists_stopsAt_le hcheck _ r, stopsAt_of_check hcheck⟩
  · rintro ⟨checked, hcheck⟩ name kind line hrun
    exact not_isUndefinedClip_of_check hcheck (Renderer.ignoresNames h o) hrun
      ⟨name, kind, line, rfl⟩

end Session

end Montage
