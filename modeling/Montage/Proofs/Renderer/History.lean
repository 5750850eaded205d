import Montage.Proofs.Session.Run
import Montage.Renderer

/-!
# Remembered commands

The renderer remembers the commands of the clips that it has encoded.  Opening and combining clips
adds nothing to them, and encoding a clip adds the command of this clip, if all goes well
(`commands_encode`).

So each command that a run leaves behind has been put together at a delivery of the script, for the
clip that was bound to the input of the delivery when the run came to it
(`deliversAt_of_command`).
-/

namespace Montage

variable {h : Host} {o : RenderOptions} {base : Path} {step : Step} {steps : List Step}
  {p : Progress Clip} {r : Renderer} {task : Task Clip} {command : Command}

namespace Renderer

/-- Opening a source adds no command. -/
lemma commands_openSource (h : Host) (o : RenderOptions) (s : Source) (r : Renderer) :
    (openSource h o s r).state.commands = r.commands := by
  unfold openSource
  split
  · rfl
  · split <;> rfl

/-- Making a clip adds no command. -/
lemma commands_make (h : Host) (o : RenderOptions) (recipe : Recipe Clip) (r : Renderer) :
    (make h o recipe r).state.commands = r.commands := by
  cases recipe with
  | source s => exact commands_openSource h o s r
  | _ => rfl

/-- Encoding a clip adds its command if it succeeds, and nothing if it fails. -/
lemma commands_encode (h : Host) (o : RenderOptions) (c : Clip) (e : Encoding) (r : Renderer) :
    (∃ error, (encode h o c e r).outcome = .error error ∧
      (encode h o c e r).state.commands = r.commands) ∨
    ∃ command, e.command o c = .ok command ∧ (encode h o c e r).outcome = .ok () ∧
      (encode h o c e r).state.commands = r.commands ++ [command] := by
  unfold encode
  cases hcommand : e.command o c with
  | error fault => exact .inl ⟨_, rfl, rfl⟩
  | ok command =>
    dsimp only
    split
    · exact .inl ⟨_, rfl, rfl⟩
    · exact .inr ⟨command, rfl, rfl, rfl⟩

end Renderer

open Renderer

/-- A command that a task adds is that of the clip that it encodes. -/
lemma Task.exists_encode_of_command
    (hcommand : command ∈ (task.perform (backend h o) r).state.commands) :
    command ∈ r.commands ∨ ∃ name clip encoding, task = .encode name clip encoding ∧
      encoding.command o clip = .ok command := by
  cases task with
  | make recipe => exact .inl (commands_make h o recipe r ▸ hcommand)
  | makeAsLongAs model source => exact .inl (commands_make h o _ r ▸ hcommand)
  | encode name clip encoding =>
    rcases commands_encode h o clip encoding r with
      ⟨-, -, hsame⟩ | ⟨added, hadded, -, hcommands⟩
    · exact .inl (hsame ▸ hcommand)
    · rcases List.mem_append.1 (hcommands ▸ hcommand) with hearlier | hnew
      · exact .inl hearlier
      · rw [List.mem_singleton.1 hnew]
        exact .inr ⟨name, clip, encoding, rfl, hadded⟩

/-- A command that a step adds is that of the clip that the step delivers. -/
lemma Step.exists_delivery_of_command
    (hcommand : command ∈ (step.run (backend h o) base p r).state.commands) :
    command ∈ r.commands ∨ ∃ d c, step.operation = .deliver d ∧
      p.bindings.lookup? d.input = some c ∧ (d.toEncoding base).command o c = .ok command := by
  cases htask : step.task base p.bindings with
  | error e =>
    rw [run_of_task_error htask] at hcommand
    exact .inl hcommand
  | ok task =>
    rw [state_of_task htask] at hcommand
    refine (Task.exists_encode_of_command hcommand).imp_right ?_
    rintro ⟨name, clip, encoding, rfl, hadded⟩
    obtain ⟨_, -, hop⟩ := bind_eq_ok.1 htask
    rcases Operation.task_cases hop with ⟨-, -, ⟨_, hmake⟩ | ⟨_, _, hmake⟩⟩ | ⟨d, c, hd, hc, heq⟩
    · cases hmake
    · cases hmake
    · cases heq
      exact ⟨d, clip, hd, Bindings.get_eq_ok.1 hc, hadded⟩

namespace Session

/-- The command encodes a clip for a delivery of the script, which comes after some steps of a run
and finds the clip under the name of its input. -/
structure DeliversAt (h : Host) (o : RenderOptions) (base : Path) (steps : List Step)
    (p : Progress Clip) (r : Renderer) (before : List Step) (d : Delivery) (c : Clip)
    (command : Command) : Prop where
  delivery : ∃ line after, steps = before ++ ⟨line, .deliver d⟩ :: after
  clip : ∃ q, (runSteps (backend h o) base before p r).outcome = .ok q ∧
    q.bindings.lookup? d.input = some c
  command : (d.toEncoding base).command o c = .ok command

/-- What a run delivers after a first step that succeeds, it delivers with that step before. -/
lemma DeliversAt.cons {p' : Progress Clip} {before : List Step} {d : Delivery} {c : Clip}
    (hstep : (step.run (backend h o) base p r).outcome = .ok p')
    (hdelivers : DeliversAt h o base steps p' (step.run (backend h o) base p r).state before d c
      command) :
    DeliversAt h o base (step :: steps) p r (step :: before) d c command := by
  obtain ⟨⟨line, after, hsteps⟩, ⟨q, hbefore, hc⟩, hcommand⟩ := hdelivers
  refine ⟨⟨line, after, by rw [hsteps, List.cons_append]⟩, ⟨q, ?_, hc⟩, hcommand⟩
  rw [runSteps_cons_of_ok hstep]
  exact hbefore

/-- A command that a run leaves behind was there before it, or is that of a delivery. -/
theorem deliversAt_of_command
    (hcommand : command ∈ (runSteps (backend h o) base steps p r).state.commands) :
    command ∈ r.commands ∨ ∃ before d c, DeliversAt h o base steps p r before d c command := by
  induction steps generalizing p r with
  | nil => exact .inl hcommand
  | cons first steps ih =>
    have hfirst : command ∈ (first.run (backend h o) base p r).state.commands →
        command ∈ r.commands ∨
          ∃ before d c, DeliversAt h o base (first :: steps) p r before d c command := by
      intro hnew
      refine (Step.exists_delivery_of_command hnew).imp_right ?_
      rintro ⟨d, c, hd, hc, hadded⟩
      have hdelivery : first :: steps = [] ++ ⟨first.line, .deliver d⟩ :: steps := by
        rw [← hd, List.nil_append]
      exact ⟨[], d, c, ⟨first.line, steps, hdelivery⟩, ⟨p, rfl, hc⟩, hadded⟩
    cases houtcome : (first.run (backend h o) base p r).outcome with
    | error e =>
      rw [runSteps_cons_of_error houtcome] at hcommand
      exact hfirst hcommand
    | ok p' =>
      rw [runSteps_cons_of_ok houtcome] at hcommand
      rcases ih hcommand with hearlier | ⟨before, d, c, hdelivers⟩
      · exact hfirst hearlier
      · exact .inr ⟨first :: before, d, c, hdelivers.cons houtcome⟩

end Session

end Montage
