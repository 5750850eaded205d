import Montage.Proofs.Filtergraph.Meaning
import Montage.Proofs.Filtergraph.Visits

/-!
# Counts

A clip records at its root whether it has a picture and sound, and the walk over it finds this out
anew.  The two agree for every coherent clip (`tallies_of_coherent`): the graph has the streams that
the clip records, a chain that plays streams one after another reads one from each part of its
sequence, and a chain that plays sounds together reads two at least.

`Tallied` is what a walk keeps up on the way: the chains that play streams one after another are
those of the sequences that were visited, and every count is right.
-/

namespace Montage

/-! ### Streams of coherent clips -/

/-- A coherent clip has a picture or sound. -/
lemma Clip.Coherent.hasStream {c : Clip} (hc : c.Coherent) :
    c.hasPicture = true ∨ c.hasSound = true := by
  induction hc with
  | image path duration size => exact .inl rfl
  | video path limit probed hasSound size => exact .inl rfl
  | audio path limit probed => exact .inr rfl
  | resized width height hinput hpicture ih => exact ih
  | framed margin color opacity hinput hpicture ih => exact ih
  | placed offset hinput hpicture ih => exact ih
  | @joined c cs hparts hpictures ih =>
    refine (ih c List.mem_cons_self).imp_right fun hsound => ?_
    exact List.any_eq_true.2 ⟨c, List.mem_cons_self, hsound⟩
  | layered size hlayers hsome ih => exact .inl rfl
  | scored hpicture hsound hseen hheard ihp ihs => exact .inr rfl
  | trimmed start stop hinput hstop hstart ih => exact ih

namespace Filtergraph

/-! ### Counts of chains -/

/-- The filter neither plays streams one after another nor together. -/
def Filter.IsSingle : Filter → Prop
  | .concat _ _ => False
  | .mix _ => False
  | _ => True

namespace Chain

variable {ch : Chain}

/-- How many streams the chain plays one after another, and of which kind, if it does. -/
def sequence? (ch : Chain) : Option (Nat × Stream) :=
  match ch.filter with
  | .concat count stream => some (count, stream)
  | _ => none

/-- The count in the filter is that of the streams that the chain reads: at least one to be played
one after another, and at least two to be played together. -/
def Counted (ch : Chain) : Prop :=
  match ch.filter with
  | .concat count _ => ch.inputs.length = count ∧ 1 ≤ count
  | .mix count => ch.inputs.length = count ∧ 2 ≤ count
  | _ => True

/-- A chain with another filter plays no sequence. -/
lemma sequence?_eq_none (h : ch.filter.IsSingle) : ch.sequence? = none := by
  unfold sequence?
  split
  · rename_i heq
    rw [heq] at h
    exact h.elim
  · rfl

/-- A chain with another filter has nothing to count. -/
lemma counted_of_isSingle (h : ch.filter.IsSingle) : ch.Counted := by
  unfold Counted
  split
  · rename_i heq
    rw [heq] at h
    exact h.elim
  · rename_i heq
    rw [heq] at h
    exact h.elim
  · trivial

end Chain

/-- Of some chains, those that play streams one after another have these counts and streams, in
order, and all counts are right. -/
structure Tallied (cs : List Chain) (ns : List (Nat × Stream)) : Prop where
  sequences : cs.filterMap Chain.sequence? = ns
  counted : ∀ ch ∈ cs, ch.Counted

namespace Tallied

variable {cs cs' : List Chain} {ns ns' : List (Nat × Stream)}

/-- Chains with other filters have nothing to count. -/
lemma of_isSingle (h : ∀ ch ∈ cs, ch.filter.IsSingle) : Tallied cs [] where
  sequences := List.filterMap_eq_nil_iff.2 fun ch hch => Chain.sequence?_eq_none (h ch hch)
  counted ch hch := Chain.counted_of_isSingle (h ch hch)

/-- Without chains there is nothing to count. -/
lemma nil : Tallied [] [] := of_isSingle (List.forall_mem_nil _)

/-- The counts of chains after one another. -/
lemma append (h : Tallied cs ns) (h' : Tallied cs' ns') : Tallied (cs ++ cs') (ns ++ ns') where
  sequences := by rw [List.filterMap_append, h.sequences, h'.sequences]
  counted ch hch := (List.mem_append.1 hch).elim (h.counted ch) (h'.counted ch)

/-- A further chain with another filter. -/
lemma single (h : Tallied cs ns) {ch : Chain} (hfilter : ch.filter.IsSingle) :
    Tallied (cs ++ [ch]) ns := by
  have hboth := h.append (of_isSingle (List.forall_mem_singleton.2 hfilter))
  rwa [List.append_nil] at hboth

/-- A further chain that plays some streams one after another. -/
lemma concat (h : Tallied cs ns) {reads : List Label} {n : Nat} (hn : reads.length = n)
    (hpos : 1 ≤ n) (stream : Stream) (output : Label) :
    Tallied (cs ++ [⟨reads, .concat reads.length stream, output⟩]) (ns ++ [(n, stream)]) := by
  subst hn
  exact h.append ⟨rfl, List.forall_mem_singleton.2 ⟨rfl, hpos⟩⟩

/-- A further chain that plays at least two sounds together. -/
lemma mix (h : Tallied cs ns) {reads : List Label} (htwo : 2 ≤ reads.length) (output : Label) :
    Tallied (cs ++ [⟨reads, .mix reads.length, output⟩]) ns := by
  have hone : Tallied [⟨reads, .mix reads.length, output⟩] [] :=
    ⟨rfl, List.forall_mem_singleton.2 ⟨rfl, htwo⟩⟩
  have hboth := h.append hone
  rwa [List.append_nil] at hboth

end Tallied

/-- The streams that are demanded. -/
def Demand.streams (d : Demand) : List Stream :=
  (if d.picture then [.picture] else []) ++ if d.sound then [.sound] else []

/-- What a visit of a sequence plays one after another: as many parts as the sequence has, for each
stream that is demanded. -/
def Visit.sequences (v : Visit) : List (Nat × Stream) :=
  match v.node with
  | .joined _ parts => v.demand.streams.map fun stream => (parts.length, stream)
  | _ => []

/-- A visit of a node that is no sequence plays nothing one after another. -/
lemma flatMap_sequences_concat (vs : List Visit) {v : Visit} (hv : v.sequences = []) :
    (vs ++ [v]).flatMap Visit.sequences = vs.flatMap Visit.sequences := by
  rw [List.flatMap_append, List.flatMap_singleton, hv, List.append_nil]

/-! ### Steps of the walk -/

section Steps

variable {start : Cursor} {d : Demand} {f g : Fragment} {ns : List (Nat × Stream)}

/-- Passing a picture through a filter plays nothing one after another. -/
lemma Tallied.viaPicture (h : Tallied f.chains ns) {filter : Filter} (hfilter : filter.IsSingle) :
    Tallied (f.viaPicture start filter).chains ns := by
  unfold Fragment.viaPicture
  split
  · exact h
  · exact h.single hfilter

/-- Passing a sound through a filter plays nothing one after another. -/
lemma Tallied.viaSound (h : Tallied f.chains ns) {filter : Filter} (hfilter : filter.IsSingle) :
    Tallied (f.viaSound start filter).chains ns := by
  unfold Fragment.viaSound
  split
  · exact h
  · exact h.single hfilter

/-- Scaling plays nothing one after another. -/
lemma tallied_scaleFragment (h : Tallied f.chains ns) (width height : Option UInt32) :
    Tallied (scaleFragment width height start f).chains ns := by
  unfold scaleFragment
  split
  · exact h
  · exact h.viaPicture trivial

/-- Ending a sound early plays nothing one after another. -/
lemma tallied_limitSound (h : Tallied f.chains ns) (duration : Option Seconds) :
    Tallied (limitSound duration start f).chains ns := by
  unfold limitSound
  cases duration with
  | none => exact h
  | some duration => exact h.viaSound trivial

/-- Silence plays nothing one after another. -/
lemma tallied_fillSilence {duration : Option Seconds} (h : Tallied f.chains ns)
    (hg : fillSilence d duration start f = .ok g) : Tallied g.chains ns := by
  rcases fillSilence_eq_ok.1 hg with ⟨-, -, s, -, rfl⟩ | ⟨-, rfl⟩
  · exact h.single trivial
  · exact h

/-- A canvas plays nothing one after another. -/
lemma tallied_canvasFragment {size : Canvas} {duration : Option Seconds}
    (h : canvasFragment d size duration start = .ok f) : Tallied f.chains [] := by
  rcases canvasFragment_eq_ok.1 h with ⟨-, s, -, rfl⟩ | ⟨-, rfl⟩
  · exact Tallied.nil.single trivial
  · exact .nil

/-- A layer plays nothing one after another. -/
lemma tallied_overlayFragment (h : Tallied f.chains ns) (below : Option Label)
    (offset : Placement) : Tallied (overlayFragment below offset start f).chains ns := by
  unfold overlayFragment
  split
  · exact h.single trivial
  · exact h

/-- Several sounds are mixed, and at least one is there when sound is demanded. -/
lemma tallied_mixSounds {sounds : List Label} (h : Tallied f.chains ns)
    (hsounds : d.sound = true → sounds ≠ []) :
    Tallied (mixSounds d start sounds f).chains ns := by
  unfold mixSounds
  split
  · rename_i hd
    match sounds, hsounds hd with
    | [sound], _ => exact h
    | first :: second :: others, _ => exact h.mix (by simp) _
  · exact h

/-- A sequence plays each stream that is demanded, from as many parts as there are. -/
lemma tallied_joinBundle {b : Bundle} {n : Nat} (h : Tallied b.chains ns) (hpos : 1 ≤ n)
    (hpictures : d.picture = true → b.pictures.length = n)
    (hsounds : d.sound = true → b.sounds.length = n) :
    Tallied (joinBundle d start b).chains (ns ++ d.streams.map fun stream => (n, stream)) := by
  unfold joinBundle Demand.streams
  rw [List.map_append, ← List.append_assoc]
  dsimp only
  generalize hf : (if d.picture = true then b.toFragment.withPicture start b.pictures
    (.concat b.pictures.length .picture) else b.toFragment) = f
  have hpicture : Tallied f.chains (ns ++
      (if d.picture = true then [Stream.picture] else []).map fun stream => (n, stream)) := by
    split at hf
    · rename_i hd
      subst hf
      rw [if_pos hd]
      exact h.concat (hpictures hd) hpos .picture _
    · rename_i hd
      subst hf
      rw [if_neg hd, List.map_nil, List.append_nil]
      exact h
  split
  · rename_i hd
    exact hpicture.concat (hsounds hd) hpos .sound _
  · rw [List.map_nil, List.append_nil]
    exact hpicture

end Steps

/-! ### The walk -/

section Walk

variable {start : Cursor} {d : Demand} {f : Fragment} {cs : List Clip}

/-- Every part gives a picture where one is demanded and all have one, and every part gives a sound
where one is demanded. -/
lemma length_of_assembleParts {b : Bundle} (hcs : ∀ c ∈ cs, c.Coherent)
    (h : assembleParts cs d start = .ok b) :
    (d.picture = true → (∀ c ∈ cs, c.hasPicture = true) → b.pictures.length = cs.length) ∧
      (d.sound = true → b.sounds.length = cs.length) := by
  induction cs generalizing start b with
  | nil =>
    rw [assembleParts_nil_eq_ok.1 h]
    exact ⟨fun _ _ => rfl, fun _ => rfl⟩
  | cons c cs ih =>
    obtain ⟨g, f, rest, hg, hf, hrest, rfl⟩ := assembleParts_cons_eq_ok.1 h
    obtain ⟨hc, hcs⟩ := List.forall_mem_cons.1 hcs
    obtain ⟨hpictures, hsounds⟩ := ih hcs hrest
    have hgiven : g.given = d.within c.traits := given_assemble hc hg
    constructor
    · intro hd hall
      obtain ⟨hseen, hall⟩ := List.forall_mem_cons.1 hall
      have hsame : f.picture = g.picture := by
        rcases fillSilence_eq_ok.1 hf with ⟨-, -, s, -, rfl⟩ | ⟨-, rfl⟩ <;> rfl
      have hsome : f.picture.isSome = true := by
        rw [hsame]
        exact (congrArg Demand.picture hgiven).trans (Bool.and_eq_true_iff.2 ⟨hd, hseen⟩)
      obtain ⟨label, hlabel⟩ := Option.isSome_iff_exists.1 hsome
      rw [Bundle.cons, hlabel, List.length_append, hpictures hd hall, List.length_cons,
        Nat.add_comm]
      rfl
    · intro hd
      have hsome : f.sound.isSome = true := by
        rcases fillSilence_eq_ok.1 hf with ⟨-, -, s, -, rfl⟩ | ⟨hsome, rfl⟩
        · rfl
        · exact hsome hd
      obtain ⟨label, hlabel⟩ := Option.isSome_iff_exists.1 hsome
      rw [Bundle.cons, hlabel, List.length_append, hsounds hd, List.length_cons, Nat.add_comm]
      rfl

/-- The chains of parts are those of the single parts. -/
lemma tallied_assembleParts {b : Bundle}
    (hcs : ∀ c ∈ cs, ∀ {start f}, assemble c d start = .ok f →
      Tallied f.chains ((visits c d).flatMap Visit.sequences))
    (h : assembleParts cs d start = .ok b) :
    Tallied b.chains ((visitsAll cs d).flatMap Visit.sequences) := by
  induction cs generalizing start b with
  | nil =>
    rw [assembleParts_nil_eq_ok.1 h]
    exact .nil
  | cons c cs ih =>
    obtain ⟨g, f, rest, hg, hf, hrest, rfl⟩ := assembleParts_cons_eq_ok.1 h
    obtain ⟨hc, hcs⟩ := List.forall_mem_cons.1 hcs
    rw [visitsAll, List.flatMap_append]
    exact (tallied_fillSilence (hc hg) hf).append (ih hcs hrest)

/-- The chains of layers are those of the single layers. -/
lemma tallied_assembleLayers {below : Option Label} {stack : Fragment} {sounds : List Label}
    (hcs : ∀ c ∈ cs, ∀ {start f}, assemble c d start = .ok f →
      Tallied f.chains ((visits c d).flatMap Visit.sequences))
    (h : assembleLayers cs d below start = .ok (stack, sounds)) :
    Tallied stack.chains ((visitsAll cs d).flatMap Visit.sequences) := by
  induction cs generalizing start below stack sounds with
  | nil =>
    obtain ⟨rfl, -⟩ := assembleLayers_nil_eq_ok.1 h
    exact .nil
  | cons c cs ih =>
    obtain ⟨g, f, upper, others, hg, rfl, hupper, rfl, -⟩ := assembleLayers_cons_eq_ok.1 h
    obtain ⟨hc, hcs⟩ := List.forall_mem_cons.1 hcs
    rw [visitsAll, List.flatMap_append]
    exact (tallied_overlayFragment (hc hg) below c.offset).append (ih hcs hupper)

/-- Where sound is demanded and a layer has sound, there is a sound to be mixed. -/
lemma sounds_ne_nil {below : Option Label} {stack : Fragment} {sounds : List Label}
    (hcs : ∀ c ∈ cs, c.Coherent) (hd : d.sound = true) (hsound : cs.any Clip.hasSound = true)
    (h : assembleLayers cs d below start = .ok (stack, sounds)) : sounds ≠ [] := by
  induction cs generalizing start below stack sounds with
  | nil => cases hsound
  | cons c cs ih =>
    obtain ⟨g, f, upper, others, hg, rfl, hupper, rfl, rfl⟩ := assembleLayers_cons_eq_ok.1 h
    obtain ⟨hc, hcs⟩ := List.forall_mem_cons.1 hcs
    rw [sound_overlayFragment]
    rw [List.any_cons, Bool.or_eq_true] at hsound
    rcases hsound with hfirst | hrest
    · have hsome : g.sound.isSome = true :=
        (congrArg Demand.sound (given_assemble hc hg)).trans
          (Bool.and_eq_true_iff.2 ⟨hd, hfirst⟩)
      obtain ⟨label, hlabel⟩ := Option.isSome_iff_exists.1 hsome
      rw [hlabel]
      exact List.cons_ne_nil _ _
    · exact List.append_ne_nil_of_right_ne_nil _ (ih hcs hrest hupper)

/-- A walk that only takes place for a demand plays nothing without it. -/
lemma tallied_assembleIf {demanded : Bool} {c : Clip}
    (hc : ∀ {start f}, assemble c d start = .ok f →
      Tallied f.chains ((visits c d).flatMap Visit.sequences))
    (h : assembleIf demanded c d start = .ok f) :
    Tallied f.chains ((if demanded then visits c d else []).flatMap Visit.sequences) := by
  rcases assembleIf_eq_ok.1 h with ⟨rfl, h⟩ | ⟨rfl, rfl⟩
  · exact hc h
  · exact .nil

/-- The chains of a walk over a coherent clip play the sequences that it visits one after another,
and the counts of all chains are right. -/
theorem tallied_assemble {c : Clip} (hc : c.Coherent) (h : assemble c d start = .ok f) :
    Tallied f.chains ((visits c d).flatMap Visit.sequences) := by
  induction hc generalizing d start f with
  | image path duration size =>
    rw [assemble_source_eq_ok.1 h]
    exact .nil
  | video path limit probed hasSound size =>
    rw [assemble_source_eq_ok.1 h]
    exact .nil
  | audio path limit probed =>
    rw [assemble_source_eq_ok.1 h]
    exact .nil
  | resized width height hinput hpicture ih =>
    obtain ⟨g, hg, rfl⟩ := assemble_resized_eq_ok.1 h
    rw [visits, flatMap_sequences_concat _ rfl]
    exact tallied_scaleFragment (ih hg) width height
  | framed margin color opacity hinput hpicture ih =>
    obtain ⟨g, hg, rfl⟩ := assemble_framed_eq_ok.1 h
    rw [visits, flatMap_sequences_concat _ rfl]
    exact (ih hg).viaPicture trivial
  | placed offset hinput hpicture ih =>
    rw [assemble_placed] at h
    rw [visits, flatMap_sequences_concat _ rfl]
    exact ih h
  | @joined c cs hparts hpictures ih =>
    obtain ⟨b, hb, rfl⟩ := assemble_joined_eq_ok.1 h
    obtain ⟨hseen, hheard⟩ := length_of_assembleParts hparts hb
    have hjoined := tallied_assembleParts (fun c hc => ih c hc) hb
    rw [visits, List.flatMap_append, List.flatMap_singleton]
    refine tallied_joinBundle hjoined (by simp) (fun hd => hseen hd ?_) hheard
    have hfirst : c.hasPicture = true := (Bool.and_eq_true_iff.1 hd).2
    exact List.forall_mem_cons.2 ⟨hfirst, fun d hd => (hpictures d hd).trans hfirst⟩
  | layered size hlayers hsome ih =>
    obtain ⟨canvas, stack, sounds, hcanvas, hstack, rfl⟩ := assemble_layered_eq_ok.1 h
    rw [visits, flatMap_sequences_concat _ rfl]
    refine tallied_mixSounds ?_ fun hd =>
      sounds_ne_nil hlayers hd (Bool.and_eq_true_iff.1 hd).2 hstack
    exact (tallied_canvasFragment hcanvas).append
      (tallied_assembleLayers (fun c hc => ih c hc) hstack)
  | @scored picture sound hpicture hsound hseen hheard ihp ihs =>
    obtain ⟨p, s, hp, hs, rfl⟩ := assemble_scored_eq_ok.1 h
    rw [visits, flatMap_sequences_concat _ rfl, List.flatMap_append]
    exact (tallied_assembleIf (fun hc => ihp hc) hp).append
      (tallied_limitSound (tallied_assembleIf (fun hc => ihs hc) hs) picture.duration)
  | trimmed begins stop hinput hstop hstart ih =>
    obtain ⟨g, hg, rfl⟩ := assemble_trimmed_eq_ok.1 h
    rw [visits, flatMap_sequences_concat _ rfl]
    refine Tallied.viaSound ?_ trivial
    exact (ih hg).viaPicture trivial

end Walk

/-! ### The graph -/

/-- The streams and counts of a graph are those that a clip records. -/
structure Tallies (c : Clip) (g : Filtergraph) : Prop where
  picture : g.picture.map Label.text = if c.hasPicture then some "vout" else none
  sound : g.sound.map Label.text = if c.hasSound then some "aout" else none
  /-- Each chain that plays streams one after another belongs to a sequence that is visited, and its
  count is the number of parts of this sequence. -/
  sequences : g.chains.filterMap Chain.sequence? =
    (visits c ⟨c.hasPicture, c.hasSound⟩).flatMap Visit.sequences
  counted : ∀ ch ∈ g.chains, ch.Counted

/-- Closing a fragment plays nothing one after another. -/
lemma tallied_close {f : Fragment} {ns : List (Nat × Stream)} (h : Tallied f.chains ns) :
    Tallied f.close.chains ns := by
  have hexits : ∀ ch ∈ f.exits, ch.filter.IsSingle := by
    intro ch hch
    unfold Fragment.exits at hch
    rcases List.mem_append.1 hch with hch | hch
    · obtain ⟨label, -, rfl⟩ := Option.map_eq_some_iff.1 (Option.mem_toList.1 hch)
      trivial
    · obtain ⟨label, -, rfl⟩ := Option.map_eq_some_iff.1 (Option.mem_toList.1 hch)
      trivial
  have hboth := h.append (Tallied.of_isSingle hexits)
  rwa [List.append_nil] at hboth

/-- A coherent clip and its graph agree. -/
lemma tallies_of_coherent {c : Clip} {g : Filtergraph} (hc : c.Coherent) (hg : ofClip c = .ok g) :
    Tallies c g := by
  obtain ⟨f, hf, rfl⟩ := ofClip_eq_ok.1 hg
  have hgiven : f.given = ⟨c.hasPicture && c.hasPicture, c.hasSound && c.hasSound⟩ :=
    given_assemble hc hf
  have hpicture : f.picture.isSome = c.hasPicture :=
    (congrArg Demand.picture hgiven).trans (Bool.and_self _)
  have hsound : f.sound.isSome = c.hasSound :=
    (congrArg Demand.sound hgiven).trans (Bool.and_self _)
  have htallied := tallied_close (tallied_assemble hc hf)
  refine ⟨?_, ?_, htallied.sequences, htallied.counted⟩
  · rw [← hpicture]
    unfold Fragment.close
    cases f.picture <;> rfl
  · rw [← hsound]
    unfold Fragment.close
    cases f.sound <;> rfl

end Filtergraph

end Montage
