import Montage.Proofs.Clip.Leaves

/-!
# Known lengths

The length of a clip may not be known, since a prober need not say how long a file is.  A sum of
lengths is known when each of them is, and so is the largest of them when there are any.  The length
of a part is known whenever its end is given, even if that of the whole clip is not.

So a clip all of whose source files have a known length has one itself
(`Coherent.isSome_duration`).  The converse fails: a part with an end has a known length, whatever
it is cut from, and so has a scored clip whose picture has one.
-/

namespace Montage

/-- Values are known together exactly when each of them is. -/
lemma isSome_mapM_id {α : Type} {xs : List (Option α)} :
    (xs.mapM id).isSome = true ↔ ∀ x ∈ xs, x.isSome = true := by
  induction xs with
  | nil => simp
  | cons x xs ih =>
    rw [List.forall_mem_cons, ← ih, List.mapM_cons]
    cases x <;> cases xs.mapM id <;> simp

namespace Seconds

variable {xs : List (Option Seconds)}

/-- A sum is known exactly when each of its terms is. -/
lemma isSome_sumKnown : (sumKnown xs).isSome = true ↔ ∀ x ∈ xs, x.isSome = true := by
  rw [sumKnown, Option.isSome_map, isSome_mapM_id]

/-- The largest of some lengths is known exactly when there are any and each of them is known. -/
lemma isSome_maximumKnown :
    (maximumKnown xs).isSome = true ↔ xs ≠ [] ∧ ∀ x ∈ xs, x.isSome = true := by
  rw [maximumKnown, ← isSome_mapM_id]
  cases xs with
  | nil => simp [maximum?]
  | cons x xs =>
    rw [List.mapM_cons]
    cases x <;> cases xs.mapM id <;> simp [maximum?]

end Seconds

namespace Clip

/-- The length of a part is known exactly when its end is given or the length of the whole is
known. -/
lemma isSome_trimmedDuration {start : Seconds} {stop total : Option Seconds} :
    (trimmedDuration start stop total).isSome = true ↔
      stop.isSome = true ∨ total.isSome = true := by
  cases stop <;> cases total <;> simp [trimmedDuration]

/-- Each source file at a leaf of the clip has a known length. -/
def Timed (c : Clip) : Prop := ∀ l ∈ c.leaves, l.traits.duration.isSome = true

/-- Clips whose leaves make up those of another are timed when that one is. -/
lemma Timed.of_mem {c d : Clip} {cs : List Clip} (hc : c.Timed)
    (hleaves : c.leaves = leavesOfAll cs) (hd : d ∈ cs) : d.Timed := by
  intro l hl
  refine hc l ?_
  rw [hleaves, leavesOfAll_eq]
  exact List.mem_flatMap_of_mem hd hl

/-- A clip all of whose source files have a known length has a known length itself. -/
theorem Coherent.isSome_duration {c : Clip} (hc : c.Coherent) (htimed : c.Timed) :
    c.duration.isSome = true := by
  induction hc with
  | image path duration size => rfl
  | video path limit probed hasSound size => exact htimed _ (List.mem_singleton_self _)
  | audio path limit probed => exact htimed _ (List.mem_singleton_self _)
  | resized width height hinput hpicture ih => exact ih htimed
  | framed margin color opacity hinput hpicture ih => exact ih htimed
  | placed offset hinput hpicture ih => exact ih htimed
  | joined hparts hpictures ih =>
    refine Seconds.isSome_sumKnown.2 (List.forall_mem_map.2 fun d hd => ih d hd ?_)
    exact htimed.of_mem rfl hd
  | layered size hlayers hsome ih =>
    refine Seconds.isSome_maximumKnown.2 ⟨mt List.map_eq_nil_iff.1 hsome, ?_⟩
    refine List.forall_mem_map.2 fun d hd => ih d hd ?_
    exact htimed.of_mem rfl hd
  | scored hpicture hsound hseen hheard ihp ihs =>
    exact ihp fun l hl => htimed l (List.mem_append_left _ hl)
  | trimmed start stop hinput hstop hstart ih =>
    exact isSome_trimmedDuration.2 (.inr (ih htimed))

end Clip

end Montage
