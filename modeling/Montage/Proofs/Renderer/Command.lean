import Montage.Proofs.Filtergraph.Counts
import Montage.Renderer.Command

/-!
# Encode commands

The command that encodes a clip is put together from the graph of the clip (`command_eq_ok`).  Since
the graph has the streams that the clip records, so has the command: between the text of the graph
and the settings, it asks for the picture, and for the sound or for none
(`bookkeeping_of_obtained`).
-/

namespace Montage

open Filtergraph

variable {o : RenderOptions} {c : Clip} {e : Encoding} {g : Filtergraph} {command : Command}

namespace Encoding

/-- A command is put together from the graph of a clip that has a picture. -/
lemma command_eq_ok : e.command o c = .ok command ↔ c.hasPicture = true ∧ e.fps ≠ 0 ∧
    ∃ g, ofClip c = .ok g ∧ command = ⟨o.encoder, e.arguments o g⟩ := by
  unfold Encoding.command
  simp only [bind_eq_ok, Clip.requirePicture_eq_ok, exists_const]
  by_cases hfps : e.fps = 0
  · simp [hfps, bind_eq_ok, throw_eq_ok, -bind_pure_comp]
  · simp [hfps, bind_eq_ok, pure_eq_ok, -bind_pure_comp]

/-- The arguments before the text of the graph: what is to be shown, and the inputs. -/
def leadingArguments (o : RenderOptions) (g : Filtergraph) : List String :=
  ["-hide_banner", "-loglevel", "error", if o.overwrite then "-y" else "-n"] ++ g.inputArguments

end Encoding

/-- The streams that leave the graph of a clip with a picture: it, and its sound or none. -/
lemma outputArguments_eq (h : Tallies c g) (hpicture : c.hasPicture = true) :
    g.outputArguments =
      if c.hasSound then ["-map", "[vout]", "-map", "[aout]"] else ["-map", "[vout]", "-an"] := by
  have hvideo := h.picture
  have haudio := h.sound
  rw [if_pos hpicture, Option.map_eq_some_iff] at hvideo
  obtain ⟨v, hv, hvout⟩ := hvideo
  unfold outputArguments
  rw [hv]
  by_cases hsound : c.hasSound = true
  · rw [if_pos hsound, Option.map_eq_some_iff] at haudio
    obtain ⟨a, ha, haout⟩ := haudio
    rw [ha, if_pos hsound]
    simp [Label.bracketed, hvout, haout]
  · rw [if_neg hsound, Option.map_eq_none_iff] at haudio
    rw [haudio, if_neg hsound]
    simp [Label.bracketed, hvout]

/-- A clip that the renderer obtains has a picture or sound, and its graph has the streams and
counts that the clip records.  Every command that encodes it asks for these streams, between the
text of the graph and the frame rate. -/
theorem bookkeeping_of_obtained {h : Host} {o' : RenderOptions} (hc : Renderer.Obtained h o' c) :
    (c.hasPicture = true ∨ c.hasSound = true) ∧ (∀ g, ofClip c = .ok g → Tallies c g) ∧
      ∀ (o : RenderOptions) (e : Encoding) (command : Command), e.command o c = .ok command →
        ∃ g settings, ofClip c = .ok g ∧ command.arguments =
          Encoding.leadingArguments o g ++ ["-filter_complex", g.text] ++
          (if c.hasSound then ["-map", "[vout]", "-map", "[aout]"]
            else ["-map", "[vout]", "-an"]) ++ "-r" :: settings := by
  have htallies (g : Filtergraph) (hg : ofClip c = .ok g) : Tallies c g :=
    tallies_of_coherent hc.coherent hg
  refine ⟨hc.coherent.hasStream, htallies, fun o e command hcommand => ?_⟩
  obtain ⟨hpicture, -, g, hg, rfl⟩ := Encoding.command_eq_ok.1 hcommand
  have hrate : e.settingArguments = "-r" :: e.settingArguments.tail := rfl
  refine ⟨g, e.settingArguments.tail ++ [e.destination.text], hg, ?_⟩
  rw [← outputArguments_eq (htallies g hg) hpicture, ← List.cons_append, ← hrate,
    ← List.append_assoc]
  rfl

/-- A composition of a sequence with one of its own parts is such a clip, and it can be encoded. -/
theorem bookkeeping_of_encore : ∃ g, ofClip encore = .ok g ∧ Tallies encore g ∧
    g.chains.filterMap Chain.sequence? = [(2, .picture), (2, .sound)] := by
  obtain ⟨-, htallies, -⟩ := bookkeeping_of_obtained obtained_encore
  exact ⟨_, rfl, htallies _ rfl, rfl⟩

end Montage
