import Montage.Proofs.Command.Display
import Montage.Proofs.Script.Grammar
import Montage.Proofs.Script.Openings
import Montage.Proofs.Script.Validity

/-!
# The texts of a script in a command

Some texts of a script become arguments of the encoder as they are (`Operation.spoken`).  They are
values of value characters and blanks, so they are not empty and hold no quotes
(`showable_of_read`).
-/

namespace Montage

open Command

/-- The texts of an operation that become arguments of the encoder, or parts of paths that do. -/
def Operation.spoken : Operation → List String
  | .define d => [d.source.text]
  | .deliver d => d.destination.text :: d.codec :: d.preset :: d.params
  | _ => []

/-- A text of value characters and blanks can be shown. -/
lemma showable_of_made {cs : List Char} (hne : cs ≠ [])
    (hmade : ∀ c ∈ cs, Text.isValueChar c = true ∨ Text.isBlank c = true) :
    Showable (String.ofList cs) where
  ne_empty := by simpa using hne
  unquoted := by
    rw [String.toList_ofList]
    intro hmem
    exact absurd (hmade quote hmem) (by decide +kernel)

/-- A word of a text that can be shown can be shown. -/
lemma Command.Showable.of_mem_wordsOf {s w : String} (h : Showable s) (hw : w ∈ Text.wordsOf s) :
    Showable w := by
  obtain ⟨cs, hcs, rfl⟩ := List.mem_map.1 hw
  obtain ⟨hpiece, hne⟩ := List.mem_filter.1 hcs
  refine ⟨by simpa using hne, fun hmem => h.unquoted ?_⟩
  rw [String.toList_ofList] at hmem
  exact Text.mem_of_mem_splitAll hmem hpiece

namespace Block

open Attribute

variable {b : Block} {key s : String}

/-- A text that a line assigns can be shown. -/
lemma showable_of_assignment? {text : String} (h : assignment? text = some (key, .text s)) :
    Showable s := by
  obtain ⟨parts, hsplit, h⟩ := Option.bind_eq_some_iff.1 h
  obtain ⟨value, hread, heq⟩ := Option.map_eq_some_iff.1 h
  cases heq
  have hraw : s = String.ofList parts.2 := by
    have htype := type_of_readValue (toOption_eq_some.1 hread)
    have hvalue := toOption_eq_some.1 hread
    unfold readValue at hvalue
    rw [← htype] at hvalue
    cases hvalue
    rfl
  have hsplits := splits_of_split? hsplit
  rw [hraw]
  exact showable_of_made hsplits.raw_ne hsplits.raw_made

/-- A text that is assigned last can be shown. -/
lemma showable_of_last? (h : b.last? key = some (.text s)) : Showable s := by
  obtain ⟨⟨key', value⟩, ha, heq⟩ := Option.map_eq_some_iff.1 h
  cases heq
  obtain ⟨l, -, hassign⟩ := List.mem_filterMap.1 (List.mem_of_mem_filter (List.mem_of_getLast? ha))
  exact showable_of_assignment? hassign

/-- The texts that an operation has from a block can be shown. -/
lemma showable_of_statedBy {k : Kind} {op : Operation} (h : Operation.StatedBy b.last? k op) :
    ∀ s ∈ op.spoken, Showable s := by
  cases h with
  | define hname htype hsource => simpa [Operation.spoken] using showable_of_last? hsource
  | @deliver _ _ _ _ preset params _ hinput hdestination hfps hcodec hpreset hthreads hparams =>
    have hshown : Showable (preset.getD Operation.defaultPreset) := by
      cases preset with
      | none => decide
      | some preset => exact showable_of_last? hpreset
    have hwords : ∀ w ∈ (params.map Text.wordsOf).getD [], Showable w := by
      cases params with
      | none => simp
      | some params => exact fun w hw => (showable_of_last? hparams).of_mem_wordsOf hw
    simp only [Operation.spoken, List.forall_mem_cons]
    exact ⟨showable_of_last? hdestination, showable_of_last? hcodec, hshown, hwords⟩
  | _ => exact List.forall_mem_nil _

end Block

/-- The texts of a script that was read can be shown. -/
theorem Script.showable_of_read {text : String} {steps : List Step}
    (h : (Script.read text).steps = .ok steps) :
    ∀ step ∈ steps, ∀ s ∈ step.operation.spoken, Showable s := by
  have hblocks := readBlocks_eq_ok.1 h
  generalize Block.ofText text = bs at hblocks
  clear h
  induction hblocks with
  | nil => exact List.forall_mem_nil _
  | cons hb _ ih =>
    exact List.forall_mem_cons.2 ⟨Block.showable_of_statedBy (Block.exists_step_iff.1 hb).2.2.2, ih⟩

end Montage
