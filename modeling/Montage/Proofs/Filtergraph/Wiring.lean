import Mathlib.Data.List.Nodup
import Mathlib.Data.List.Perm.Basic
import Montage.Proofs.Filtergraph.Walk

/-!
# Wiring

A walk builds a graph by two actions: it opens an input, whose pads are then waiting to be read, and
it emits a chain, which reads some of the labels that are waiting and puts its own output in their
place.  `Wiring s p cs t q` says that such actions lead from the cursor `s` with the labels `p`
waiting to the cursor `t` with the labels `q` waiting, and emit the chains `cs` on the way.

Every walk that succeeds is a wiring (`wiring_assemble`).  So a fact about the labels of all graphs
needs one case for each action, and none for each kind of clip; `Ledger` is the invariant from which
the label discipline follows.
-/

namespace Montage.Filtergraph

/-- The actions of a walk, from a cursor with some labels waiting to be read. -/
inductive Wiring (s : Cursor) (p : List Label) : List Chain → Cursor → List Label → Prop where
  /-- Nothing is done. -/
  | refl : Wiring s p [] s p
  /-- An input is opened, and some of its pads wait from then on. -/
  | input {cs : List Chain} {t : Cursor} {q pads : List Label} (h : Wiring s p cs t q)
      (hpads : pads.Sublist [.pad t.inputs .picture, .pad t.inputs .sound]) :
      Wiring s p cs ⟨t.inputs + 1, t.labels⟩ (q ++ pads)
  /-- A chain reads labels that wait, and its output waits from then on. -/
  | chain {cs : List Chain} {t : Cursor} {reads rest : List Label} (filter : Filter)
      (stream : Stream) (h : Wiring s p cs t (reads ++ rest)) :
      Wiring s p (cs ++ [⟨reads, filter, .link stream t.labels⟩]) ⟨t.inputs, t.labels + 1⟩
        (.link stream t.labels :: rest)
  /-- The order of the labels that wait is of no account. -/
  | perm {cs : List Chain} {t : Cursor} {q q' : List Label} (h : Wiring s p cs t q)
      (hq : q.Perm q') : Wiring s p cs t q'

namespace Wiring

variable {s t u : Cursor} {p q r : List Label} {cs cs' : List Chain}

/-- Wirings one after the other are a wiring. -/
lemma trans (h : Wiring s p cs t q) (h' : Wiring t q cs' u r) : Wiring s p (cs ++ cs') u r := by
  induction h' with
  | refl => simpa using h
  | input _ hpads ih => exact ih.input hpads
  | chain filter stream _ ih =>
    rw [← List.append_assoc]
    exact ih.chain filter stream
  | perm _ hq ih => exact ih.perm hq

/-- Labels that wait beside those of a wiring go on waiting. -/
lemma frame (h : Wiring s p cs t q) (r : List Label) : Wiring s (p ++ r) cs t (q ++ r) := by
  induction h with
  | refl => exact .refl
  | @input cs t q pads _ hpads ih =>
    refine (ih.input hpads).perm ?_
    rw [List.append_assoc, List.append_assoc]
    exact List.perm_append_comm.append_left q
  | chain filter stream _ ih =>
    rw [List.append_assoc] at ih
    exact ih.chain filter stream
  | perm _ hq ih => exact ih.perm (hq.append_right r)

end Wiring

/-! ### Steps of a walk are wirings -/

namespace Fragment

/-- The labels that a fragment leaves to be read. -/
def waiting (f : Fragment) : List Label := f.picture.toList ++ f.sound.toList

/-- A fragment is wired when its chains come from a wiring that leaves its streams. -/
def Wired (f : Fragment) (start : Cursor) (p : List Label) : Prop :=
  Wiring start p f.chains (f.after start) f.waiting

variable {f : Fragment} {start : Cursor} {p rest : List Label}

/-- A new chain reads labels that wait, and its output waits instead. -/
lemma wiring_emit (reads : List Label) (filter : Filter) (stream : Stream)
    (h : Wiring start p f.chains (f.after start) (reads ++ rest)) :
    Wiring start p (f.emit start stream reads filter).chains
      ((f.emit start stream reads filter).after start) (f.next start stream :: rest) :=
  h.chain filter stream

/-- A picture made out of labels that wait. -/
lemma wired_withPicture {reads : List Label} (filter : Filter)
    (h : Wiring start p f.chains (f.after start) (reads ++ f.sound.toList)) :
    (f.withPicture start reads filter).Wired start p :=
  wiring_emit reads filter .picture h

/-- A sound made out of labels that wait. -/
lemma wired_withSound {reads : List Label} (filter : Filter)
    (h : Wiring start p f.chains (f.after start) (reads ++ f.picture.toList)) :
    (f.withSound start reads filter).Wired start p :=
  (wiring_emit reads filter .sound h).perm (List.perm_append_singleton _ _).symm

/-- Passing a picture through a filter keeps a fragment wired. -/
lemma Wired.viaPicture (h : f.Wired start p) (filter : Filter) :
    (f.viaPicture start filter).Wired start p := by
  unfold Fragment.viaPicture
  cases hp : f.picture with
  | none => exact h
  | some label =>
    unfold Wired waiting at h
    rw [hp] at h
    exact wired_withPicture filter h

/-- Passing a sound through a filter keeps a fragment wired. -/
lemma Wired.viaSound (h : f.Wired start p) (filter : Filter) :
    (f.viaSound start filter).Wired start p := by
  unfold Fragment.viaSound
  cases hs : f.sound with
  | none => exact h
  | some label =>
    unfold Wired waiting at h
    rw [hs] at h
    exact wired_withSound filter (h.perm List.perm_append_comm)

/-- Fragments one after the other are a wiring; what the first one leaves goes on waiting. -/
lemma Wired.trans {g : Fragment} (hf : f.Wired start p) (hg : g.Wired (f.after start) []) :
    Wiring start p (f.chains ++ g.chains) (g.after (f.after start)) (g.waiting ++ f.waiting) :=
  Wiring.trans hf (hg.frame f.waiting)

/-- The cursor after two fragments is the same whether they are put together or not. -/
lemma after_append (f g : Fragment) (start : Cursor) (picture sound : Option Label) :
    (f.append g picture sound).after start = g.after (f.after start) := by
  simp [append, after, Nat.add_assoc]

end Fragment

variable {start : Cursor} {d : Demand} {f : Fragment} {p : List Label}

/-- A source is wired: it opens one input. -/
lemma wired_sourceFragment (d : Demand) (medium : Medium) (path : Path) (limit : Option Seconds)
    (start : Cursor) : (sourceFragment d medium path limit start).Wired start [] := by
  have hpads : (sourceFragment d medium path limit start).waiting.Sublist
      [.pad start.inputs .picture, .pad start.inputs .sound] := by
    obtain ⟨picture, sound⟩ := d
    cases picture <;> cases sound <;> simp [sourceFragment, Fragment.waiting]
  exact Wiring.refl.input hpads

/-- Scaling keeps a fragment wired. -/
lemma wired_scaleFragment (h : f.Wired start p) (width height : Option UInt32) :
    (scaleFragment width height start f).Wired start p := by
  unfold scaleFragment
  split
  · exact h
  · exact h.viaPicture _

/-- Ending a sound early keeps a fragment wired. -/
lemma wired_limitSound (h : f.Wired start p) (duration : Option Seconds) :
    (limitSound duration start f).Wired start p := by
  unfold limitSound
  cases duration with
  | none => exact h
  | some duration => exact h.viaSound _

/-- Ending a sound early leaves the picture as it is. -/
lemma picture_limitSound (duration : Option Seconds) (start : Cursor) (f : Fragment) :
    (limitSound duration start f).picture = f.picture := by
  unfold limitSound Fragment.viaSound
  cases duration with
  | none => rfl
  | some duration => cases f.sound <;> rfl

/-- Silence keeps a fragment wired. -/
lemma wired_fillSilence {duration : Option Seconds} {g : Fragment} (h : f.Wired start p)
    (hg : fillSilence d duration start f = .ok g) : g.Wired start p := by
  rcases fillSilence_eq_ok.1 hg with ⟨-, hnone, s, -, rfl⟩ | ⟨-, rfl⟩
  · refine Fragment.wired_withSound (.silence s) ?_
    unfold Fragment.Wired Fragment.waiting at h
    simpa [hnone] using h
  · exact h

/-- A canvas is wired: it reads nothing. -/
lemma wired_canvasFragment {size : Canvas} {duration : Option Seconds} {canvas : Fragment}
    (h : canvasFragment d size duration start = .ok canvas) : canvas.Wired start [] := by
  rcases canvasFragment_eq_ok.1 h with ⟨-, s, -, rfl⟩ | ⟨-, rfl⟩
  · exact Fragment.wired_withPicture (.black size s) Wiring.refl
  · exact Wiring.refl

/-- A layer that is put on a picture is wired when that picture waits beside it; without a picture
below, the layer has none either. -/
lemma wired_overlayFragment {below : Option Label} (offset : Placement) (h : f.Wired start [])
    (hbelow : below = none → f.picture = none) :
    (overlayFragment below offset start f).Wired start below.toList := by
  have hwaiting : Wiring start below.toList f.chains (f.after start)
      (below.toList ++ f.waiting) := (h.frame below.toList).perm List.perm_append_comm
  unfold overlayFragment
  cases below with
  | none =>
    have hp : f.picture = none := hbelow rfl
    simpa [Fragment.Wired, Fragment.waiting, Fragment.after, hp] using hwaiting
  | some below =>
    unfold Fragment.waiting at hwaiting
    cases hp : f.picture with
    | none =>
      rw [hp] at hwaiting
      exact hwaiting
    | some picture =>
      rw [hp] at hwaiting
      exact Fragment.wired_withPicture (.overlay offset) hwaiting

/-- Joining the streams of a sequence keeps it wired; what is not demanded is not there. -/
lemma wired_joinBundle {b : Bundle}
    (h : Wiring start p b.chains (b.toFragment.after start) (b.pictures ++ b.sounds))
    (hpictures : d.picture = false → b.pictures = []) (hsounds : d.sound = false → b.sounds = []) :
    (joinBundle d start b).Wired start p := by
  dsimp only [joinBundle]
  -- The picture is joined first; the sounds of the parts still wait beside it.
  generalize hf : (if d.picture = true then b.toFragment.withPicture start b.pictures
    (.concat b.pictures.length .picture) else b.toFragment) = f
  have hwiring : Wiring start p f.chains (f.after start) (f.picture.toList ++ b.sounds) := by
    split at hf
    · subst hf
      exact Fragment.wiring_emit b.pictures _ .picture h
    · rename_i hidden
      subst hf
      rw [hpictures (Bool.eq_false_iff.2 hidden)] at h
      exact h
  have hsound : f.sound = none := by
    split at hf <;> exact hf ▸ rfl
  split
  · exact Fragment.wired_withSound _ (hwiring.perm List.perm_append_comm)
  · rename_i hsilent
    rw [hsounds (Bool.eq_false_iff.2 hsilent)] at hwiring
    unfold Fragment.Wired Fragment.waiting
    rw [hsound]
    exact hwiring

/-- Mixing the sounds of layers keeps a fragment wired; without a demand there are none. -/
lemma wired_mixSounds {sounds : List Label}
    (h : Wiring start p f.chains (f.after start) (f.picture.toList ++ sounds))
    (hsound : f.sound = none) (hsounds : d.sound = false → sounds = []) :
    (mixSounds d start sounds f).Wired start p := by
  unfold mixSounds
  split
  · split
    · exact h
    · exact Fragment.wired_withSound _ (h.perm List.perm_append_comm)
  · rename_i hsilent
    have hnone : sounds = [] := hsounds (Bool.eq_false_iff.2 hsilent)
    simpa [Fragment.Wired, Fragment.waiting, hsound, hnone] using h

/-! ### Every walk is a wiring -/

/-- Silence is given only where sound is demanded. -/
lemma given_fillSilence_le {duration : Option Seconds} {g : Fragment} (h : f.given ≤ d)
    (hg : fillSilence d duration start f = .ok g) : g.given ≤ d := by
  rcases fillSilence_eq_ok.1 hg with ⟨hdemanded, -, s, -, rfl⟩ | ⟨-, rfl⟩
  · exact ⟨h.1, fun _ => hdemanded⟩
  · exact h

/-- A layer keeps its own sound. -/
lemma sound_overlayFragment (below : Option Label) (offset : Placement) (start : Cursor)
    (f : Fragment) : (overlayFragment below offset start f).sound = f.sound := by
  unfold overlayFragment
  split <;> rfl

/-- The walk over parts gives only streams that are demanded. -/
lemma demanded_of_assembleParts {cs : List Clip} {b : Bundle}
    (h : assembleParts cs d start = .ok b) :
    (d.picture = false → b.pictures = []) ∧ (d.sound = false → b.sounds = []) := by
  induction cs generalizing start b with
  | nil =>
    rw [assembleParts_nil_eq_ok.1 h]
    exact ⟨fun _ => rfl, fun _ => rfl⟩
  | cons c cs ih =>
    obtain ⟨g, f, rest, hg, hf, hrest, rfl⟩ := assembleParts_cons_eq_ok.1 h
    have hgiven : f.given ≤ d := given_fillSilence_le (given_le_of_assemble hg) hf
    constructor
    · intro hd
      simp [Bundle.cons, Fragment.picture_eq_none hgiven hd, (ih hrest).1 hd]
    · intro hd
      simp [Bundle.cons, Fragment.sound_eq_none hgiven hd, (ih hrest).2 hd]

/-- The walk over layers gives sounds only when they are demanded. -/
lemma demanded_of_assembleLayers {cs : List Clip} {below : Option Label} {stack : Fragment}
    {sounds : List Label} (h : assembleLayers cs d below start = .ok (stack, sounds))
    (hd : d.sound = false) : sounds = [] := by
  induction cs generalizing below start stack sounds with
  | nil => exact (assembleLayers_nil_eq_ok.1 h).2
  | cons c cs ih =>
    obtain ⟨g, f, upper, others, hg, rfl, hupper, rfl, rfl⟩ := assembleLayers_cons_eq_ok.1 h
    have hs : g.sound = none := Fragment.sound_eq_none (given_le_of_assemble hg) hd
    simp [sound_overlayFragment, hs, ih hupper]

/-- Two pairs of lists of labels, put together by their places. -/
lemma perm_interleave (a b c d : List Label) :
    ((a ++ b) ++ (c ++ d)).Perm ((c ++ a) ++ (d ++ b)) := by
  refine List.perm_append_comm.trans ?_
  rw [List.append_assoc, List.append_assoc]
  exact (List.perm_append_comm_assoc d a b).append_left c

/-- The walk over parts is a wiring when the walks over the single parts are. -/
lemma wiring_assembleParts {cs : List Clip} {b : Bundle}
    (hcs : ∀ c ∈ cs, ∀ {start : Cursor} {f : Fragment}, assemble c d start = .ok f →
      f.Wired start [])
    (h : assembleParts cs d start = .ok b) :
    Wiring start [] b.chains (b.toFragment.after start) (b.pictures ++ b.sounds) := by
  induction cs generalizing start b with
  | nil =>
    rw [assembleParts_nil_eq_ok.1 h]
    exact .refl
  | cons c cs ih =>
    obtain ⟨g, f, rest, hg, hf, hrest, rfl⟩ := assembleParts_cons_eq_ok.1 h
    obtain ⟨hc, hcs⟩ := List.forall_mem_cons.1 hcs
    have hfirst : f.Wired start [] := wired_fillSilence (hc hg) hf
    have hboth := Wiring.trans hfirst ((ih hcs hrest).frame f.waiting)
    have hafter : (Bundle.cons f f.picture.toList f.sound.toList rest).toFragment.after start =
        rest.toFragment.after (f.after start) :=
      Fragment.after_append f rest.toFragment start none none
    rw [hafter]
    exact hboth.perm (perm_interleave _ _ _ _)

/-- The walk over layers is a wiring when the walks over the single layers are. -/
lemma wiring_assembleLayers {cs : List Clip} {below : Option Label} {stack : Fragment}
    {sounds : List Label}
    (hcs : ∀ c ∈ cs, ∀ {start : Cursor} {f : Fragment}, assemble c d start = .ok f →
      f.Wired start [])
    (hbelow : below = none → d.picture = false)
    (h : assembleLayers cs d below start = .ok (stack, sounds)) :
    Wiring start below.toList stack.chains (stack.after start)
      (stack.picture.toList ++ sounds) := by
  induction cs generalizing below start stack sounds with
  | nil =>
    obtain ⟨rfl, rfl⟩ := assembleLayers_nil_eq_ok.1 h
    rw [List.append_nil]
    exact .refl
  | cons c cs ih =>
    obtain ⟨g, f, upper, others, hg, rfl, hupper, rfl, rfl⟩ := assembleLayers_cons_eq_ok.1 h
    obtain ⟨hc, hcs⟩ := List.forall_mem_cons.1 hcs
    have hlower : (overlayFragment below c.offset start g).Wired start below.toList :=
      wired_overlayFragment c.offset (hc hg) fun hnone =>
        Fragment.picture_eq_none (given_le_of_assemble hg) (hbelow hnone)
    have hnext : (overlayFragment below c.offset start g).picture = none → d.picture = false := by
      intro hnone
      have hsame := isSome_overlayFragment below c.offset start g
      rw [hnone] at hsame
      exact hbelow (Option.not_isSome_iff_eq_none.1 (by simp [← hsame]))
    have hboth := Wiring.trans hlower ((ih hcs hnext hupper).frame _)
    rw [Fragment.after_append, Fragment.append]
    refine hboth.perm ?_
    rw [List.append_assoc]
    exact List.perm_append_comm.append_left _

/-- The walk over a clip is a wiring that starts with nothing to be read. -/
theorem wired_assemble {c : Clip} (h : assemble c d start = .ok f) : f.Wired start [] := by
  induction c generalizing d start f with
  | source t medium path limit =>
    rw [assemble_source_eq_ok.1 h]
    exact wired_sourceFragment _ medium path limit start
  | resized t input width height ih =>
    obtain ⟨g, hg, rfl⟩ := assemble_resized_eq_ok.1 h
    exact wired_scaleFragment (ih hg) width height
  | framed t input margin color opacity ih =>
    obtain ⟨g, hg, rfl⟩ := assemble_framed_eq_ok.1 h
    exact (ih hg).viaPicture _
  | placed t input ih =>
    rw [assemble_placed] at h
    exact ih h
  | joined t parts ih =>
    obtain ⟨b, hb, rfl⟩ := assemble_joined_eq_ok.1 h
    obtain ⟨hpictures, hsounds⟩ := demanded_of_assembleParts hb
    exact wired_joinBundle (wiring_assembleParts (fun c hc => ih c hc) hb) hpictures hsounds
  | layered t layers size ih =>
    obtain ⟨canvas, stack, sounds, hcanvas, hlayers, rfl⟩ := assemble_layered_eq_ok.1 h
    obtain ⟨hcovered, hsilent⟩ := streams_canvasFragment hcanvas
    have hbelow : canvas.picture = none → (d.within t).picture = false := by
      intro hnone
      rw [← hcovered, hnone]
      rfl
    have hstack := wiring_assembleLayers (fun c hc => ih c hc) hbelow hlayers
    have hboth := Wiring.trans (wired_canvasFragment hcanvas) (hstack.frame canvas.sound.toList)
    rw [hsilent, Option.toList_none, List.append_nil] at hboth
    refine wired_mixSounds ?_ rfl (demanded_of_assembleLayers hlayers)
    rw [Fragment.after_append]
    exact hboth
  | scored t picture sound ihp ihs =>
    obtain ⟨p, s, hp, hs, rfl⟩ := assemble_scored_eq_ok.1 h
    have hpicture : p.Wired start [] ∧ p.sound = none := by
      rcases assembleIf_eq_ok.1 hp with ⟨-, hp⟩ | ⟨-, rfl⟩
      · exact ⟨ihp hp, Fragment.sound_eq_none (given_le_of_assemble hp) rfl⟩
      · exact ⟨.refl, rfl⟩
    have hsound : s.Wired (p.after start) [] ∧ s.picture = none := by
      rcases assembleIf_eq_ok.1 hs with ⟨-, hs⟩ | ⟨-, rfl⟩
      · exact ⟨ihs hs, Fragment.picture_eq_none (given_le_of_assemble hs) rfl⟩
      · exact ⟨.refl, rfl⟩
    have hlimited := wired_limitSound hsound.1 picture.duration
    have hidden : (limitSound picture.duration (p.after start) s).picture = none :=
      (picture_limitSound picture.duration (p.after start) s).trans hsound.2
    have hboth := Fragment.Wired.trans hpicture.1 hlimited
    unfold Fragment.Wired
    rw [Fragment.after_append]
    refine hboth.perm ?_
    simpa [Fragment.waiting, Fragment.append, hpicture.2, hidden] using List.perm_append_comm
  | trimmed t input begins stop ih =>
    obtain ⟨g, hg, rfl⟩ := assemble_trimmed_eq_ok.1 h
    exact ((ih hg).viaPicture _).viaSound _

end Montage.Filtergraph
