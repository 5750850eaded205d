import Mathlib.Data.List.Sort
import Montage.Bindings
import Montage.Proofs.Outcome

/-!
# Looking up bound names

Binding a name changes what is found under this name, and nothing else.  `Bindings.get` fails
exactly for the names that are not bound, and then it says which.  A name is listed when it is
bound, once and in the order of names.
-/

namespace Montage.Bindings

variable {γ : Type} {bs : Bindings γ} {name kind : String} {line : Nat}

/-- Looking up a name stops at the first entry with this name. -/
lemma lookup_cons (e : String × γ) (es : List (String × γ)) (name : String) :
    (e :: es).lookup name = if name = e.1 then some e.2 else es.lookup name := by
  rw [List.lookup_cons]
  by_cases h : name = e.1
  · rw [if_pos h, beq_iff_eq.2 h]
  · rw [if_neg h, beq_eq_false_iff_ne.2 h]

/-- An inserted entry is found under its name; under other names the list is as before. -/
lemma lookup_insertEntry (name : String) (clip : γ) (es : List (String × γ)) (other : String) :
    (insertEntry name clip es).lookup other =
      if other = name then some clip else es.lookup other := by
  induction es with
  | nil => exact lookup_cons (name, clip) [] other
  | cons e es ih =>
    rw [insertEntry]
    split
    · exact lookup_cons (name, clip) (e :: es) other
    · split
      · rename_i heq
        rw [lookup_cons, lookup_cons, ← heq]
        split <;> rfl
      · rename_i hne
        rw [lookup_cons, lookup_cons, ih]
        by_cases h : other = name
        · rw [if_pos h, if_neg (h ▸ hne), if_pos h]
        · rw [if_neg h, if_neg h]

/-- What is found under a name is the clip that it was bound to last. -/
theorem lookup?_bind (bs : Bindings γ) (name : String) (clip : γ) (other : String) :
    (bs.bind name clip).lookup? other = if other = name then some clip else bs.lookup? other :=
  lookup_insertEntry name clip bs.entries other

/-- A name is bound when something is found under it. -/
lemma contains_iff : bs.contains name = true ↔ ∃ clip, bs.lookup? name = some clip :=
  Option.isSome_iff_exists

/-- No name is bound before anything is. -/
@[simp] lemma contains_empty (name : String) : (empty : Bindings γ).contains name = false := rfl

/-- Binding a name leaves it bound beside the names that were bound before. -/
lemma contains_bind {clip : γ} {other : String} :
    (bs.bind name clip).contains other = true ↔ other = name ∨ bs.contains other = true := by
  unfold contains
  rw [lookup?_bind]
  by_cases h : other = name <;> simp [h]

/-- The names that are bound are the names of the entries. -/
lemma contains_iff_mem_names : bs.contains name = true ↔ name ∈ bs.names := by
  unfold contains lookup? names
  induction bs.entries with
  | nil => simp
  | cons e es ih =>
    rw [lookup_cons, List.map_cons, List.mem_cons]
    by_cases h : name = e.1
    · simp [h]
    · rw [if_neg h, ih]
      simp [h]

/-- The names are listed in order. -/
lemma pairwise_names (bs : Bindings γ) : bs.names.Pairwise (· < ·) :=
  List.pairwise_map.2 bs.sorted

/-- Each name is listed once. -/
lemma nodup_names (bs : Bindings γ) : bs.names.Nodup := bs.pairwise_names.imp String.ne_of_lt

/-- There are as many entries as names. -/
lemma length_names (bs : Bindings γ) : bs.names.length = bs.size := List.length_map _

/-- No name is bound exactly when the number of bound names is zero. -/
lemma isEmpty_iff : bs.isEmpty = true ↔ bs.size = 0 := by
  rw [isEmpty, size, List.isEmpty_iff, List.length_eq_zero_iff]

/-- Collections in which the same names are bound list them in the same way. -/
theorem names_eq_of_contains {δ : Type} {cs : Bindings δ}
    (h : ∀ name, bs.contains name = true ↔ cs.contains name = true) : bs.names = cs.names := by
  refine bs.pairwise_names.eq_of_mem_iff cs.pairwise_names fun name => ?_
  rw [← contains_iff_mem_names, ← contains_iff_mem_names, h]

/-- In a list that is sorted by name, what is found under a name is the clip of its entry. -/
lemma mem_iff_lookup {es : List (String × γ)} (hsorted : es.Pairwise fun a b => a.1 < b.1)
    {clip : γ} : (name, clip) ∈ es ↔ es.lookup name = some clip := by
  induction es with
  | nil => simp
  | cons e es ih =>
    obtain ⟨hfirst, hsorted⟩ := List.pairwise_cons.1 hsorted
    rw [List.mem_cons, lookup_cons]
    by_cases h : name = e.1
    · have hlater : (name, clip) ∉ es := fun hmem => String.lt_irrefl _ (h ▸ hfirst _ hmem)
      rw [or_iff_left hlater, if_pos h, Option.some.injEq, Prod.ext_iff, and_iff_right h, eq_comm]
    · rw [if_neg h, ih hsorted, or_iff_right]
      rintro rfl
      exact h rfl

/-- Collections in which the same clips are found are the same. -/
theorem ext_of_lookup? {cs : Bindings γ} (h : ∀ name, bs.lookup? name = cs.lookup? name) :
    bs = cs := by
  have hentries : bs.entries = cs.entries := by
    let before (a b : String × γ) : Prop := a.1 < b.1
    have hirrefl : Std.Irrefl before := ⟨fun a => String.lt_irrefl a.1⟩
    have hantisymm : Std.Antisymm before :=
      ⟨fun a b hab hba => absurd (String.lt_trans hab hba) (String.lt_irrefl a.1)⟩
    refine List.Pairwise.eq_of_mem_iff (r := before) bs.sorted cs.sorted fun e => ?_
    rw [mem_iff_lookup bs.sorted, mem_iff_lookup cs.sorted]
    exact iff_of_eq (congrArg (· = some e.2) (h e.1))
  cases bs
  cases cs
  cases hentries
  rfl

/-- Two names can be bound in either order. -/
lemma bind_comm (bs : Bindings γ) {other : String} (hne : name ≠ other) (c d : γ) :
    (bs.bind name c).bind other d = (bs.bind other d).bind name c := by
  refine ext_of_lookup? fun x => ?_
  simp only [lookup?_bind]
  by_cases hx : x = name
  · rw [if_pos hx, if_pos hx, if_neg (hx ▸ hne)]
  · rw [if_neg hx, if_neg hx]

/-- Asking for a name gives the clip that is found under it. -/
lemma get_eq_ok {clip : γ} : bs.get name kind line = .ok clip ↔ bs.lookup? name = some clip := by
  unfold get
  cases bs.lookup? name <;> simp

/-- Asking for a name fails when it is not bound. -/
lemma get_eq_error {e : Error} :
    bs.get name kind line = .error e ↔ bs.contains name = false ∧
      e = .undefinedClip name kind line := by
  unfold get contains
  cases bs.lookup? name <;> simp [eq_comm]

end Montage.Bindings
