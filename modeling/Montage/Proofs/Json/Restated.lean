import Mathlib.Data.List.Nodup
import Mathlib.Tactic.Lemma
import Montage.Json.Record

/-!
# JSON values in other words

A value that was written as JSON may reach its reader with some freedom: `Json.Restates` lets each
object in it have its fields in another order, leave fields out that are `null`, and have further
fields.

Readers of records do not see the difference.  The fields of an object still offer what was written
(`exists_offers_of_restates`), and what each of them offers is read as before
(`Offers.required`, `Offers.omitted`).  `Json.Reads` says this of a reader and one value; it holds
of a record when it holds of its fields (`reads_object`).
-/

namespace Montage.Json

variable {α : Type}

/-! ### Restated values -/

/-- The fields `kept` are `own` without some that are `null`, the values of the others restated. -/
inductive Keeps (R : Json String → Json String → Prop) :
    List (String × Json String) → List (String × Json String) → Prop where
  | nil : Keeps R [] []
  | keep {name : String} {form j : Json String} {own kept : List (String × Json String)} :
      R form j → Keeps R own kept → Keeps R ((name, form) :: own) ((name, j) :: kept)
  | drop {name : String} {own kept : List (String × Json String)} :
      Keeps R own kept → Keeps R ((name, .null) :: own) kept

/-- The second value is the first one in other words: each object may have its fields in any order,
without some that are `null`, and with further ones of other names. -/
inductive Restates : Json String → Json String → Prop where
  | same (j : Json String) : Restates j j
  | object {own kept extra fields : List (String × Json String)} :
      Keeps Restates own kept → (∀ f ∈ extra, f.1 ∉ own.map Prod.fst) →
      fields.Perm (kept ++ extra) → Restates (.object own) (.object fields)

/-- A value that is no object is only restated by itself. -/
lemma Restates.eq_of_not_object {form j : Json String} (h : Restates form j)
    (hform : ∀ own, form ≠ .object own) : j = form := by
  cases h with
  | same => rfl
  | object => exact absurd rfl (hform _)

/-- A value is restated as `null` only if it is `null`. -/
lemma Restates.ne_null {form j : Json String} (h : Restates form j) (hform : form ≠ .null) :
    j ≠ .null := by
  cases h with
  | same => exact hform
  | object =>
    intro heq
    cases heq

/-! ### Fields by name -/

section Fields

variable {name : String} {j : Json String} {fields own kept : List (String × Json String)}

/-- A value is found under its name. -/
lemma mem_of_lookupLast (h : lookupLast name fields = some j) : (name, j) ∈ fields := by
  obtain ⟨before, after, heq, -⟩ := List.lookup_eq_some_iff.1 h
  refine List.mem_reverse.1 ?_
  rw [heq]
  exact List.mem_append_right before List.mem_cons_self

/-- Nothing is found under a name that no field has. -/
lemma lookupLast_eq_none (h : name ∉ fields.map Prod.fst) : lookupLast name fields = none := by
  refine List.lookup_eq_none_iff.2 fun f hf => bne_iff_ne.2 ?_
  rintro rfl
  exact h (List.mem_map_of_mem (List.mem_reverse.1 hf))

/-- The only value under a name is found. -/
lemma lookupLast_eq_some (hmem : (name, j) ∈ fields) (honly : ∀ j', (name, j') ∈ fields → j' = j) :
    lookupLast name fields = some j := by
  cases hfound : lookupLast name fields with
  | none =>
    have hne := List.lookup_eq_none_iff.1 hfound (name, j) (List.mem_reverse.2 hmem)
    exact absurd rfl (bne_iff_ne.1 hne)
  | some j' => rw [honly j' (mem_of_lookupLast hfound)]

/-- The names of kept fields are among those there were. -/
lemma Keeps.sublist {R : Json String → Json String → Prop} (h : Keeps R own kept) :
    (kept.map Prod.fst).Sublist (own.map Prod.fst) := by
  induction h with
  | nil => exact .slnil
  | keep _ _ ih => exact ih.cons_cons _
  | drop _ ih => exact ih.cons _

/-- A field is kept and its value restated, unless it is `null` and left out. -/
lemma Keeps.mem {R : Json String → Json String → Prop} (h : Keeps R own kept)
    (hnodup : (own.map Prod.fst).Nodup) (hmem : (name, j) ∈ own) :
    (∃ j', (name, j') ∈ kept ∧ R j j') ∨ (j = .null ∧ name ∉ kept.map Prod.fst) := by
  induction h with
  | nil => cases hmem
  | @keep first form j₀ own kept hform hkeeps ih =>
    obtain ⟨hfirst, hrest⟩ := List.nodup_cons.1 hnodup
    rcases List.mem_cons.1 hmem with heq | hin
    · cases heq
      exact .inl ⟨j₀, List.mem_cons_self, hform⟩
    · rcases ih hrest hin with ⟨j', hj', hR⟩ | ⟨hnull, habsent⟩
      · exact .inl ⟨j', List.mem_cons_of_mem _ hj', hR⟩
      · refine .inr ⟨hnull, ?_⟩
        rw [List.map_cons, List.mem_cons, not_or]
        refine ⟨?_, habsent⟩
        rintro rfl
        exact hfirst (List.mem_map.2 ⟨_, hin, rfl⟩)
  | @drop first own kept hkeeps ih =>
    obtain ⟨hfirst, hrest⟩ := List.nodup_cons.1 hnodup
    rcases List.mem_cons.1 hmem with heq | hmem
    · cases heq
      exact .inr ⟨rfl, fun hin => hfirst (hkeeps.sublist.subset hin)⟩
    · exact ih hrest hmem

end Fields

/-! ### What fields offer -/

/-- Under a name there is the given value in some words, or nothing when it is `null`. -/
def Offers (f : String → Option (Json String)) (name : String) (form : Json String) : Prop :=
  (∃ j, f name = some j ∧ Restates form j) ∨ (form = .null ∧ f name = none)

/-- The object that restates another one offers each of its fields. -/
lemma Restates.offers {own : List (String × Json String)} {j : Json String}
    (h : Restates (.object own) j) (hnodup : (own.map Prod.fst).Nodup) :
    ∃ fields, j = .object fields ∧
      ∀ f ∈ own, Offers (fun name => lookupLast name fields) f.1 f.2 := by
  cases h with
  | same =>
    refine ⟨own, rfl, fun f hf => .inl ⟨f.2, lookupLast_eq_some hf fun j' hj' => ?_, .same _⟩⟩
    have heq := List.inj_on_of_nodup_map hnodup hj' hf rfl
    exact congrArg Prod.snd heq
  | @object _ kept extra fields hkeeps hextra hperm =>
    refine ⟨fields, rfl, fun ⟨name, form⟩ hf => ?_⟩
    have hown : name ∈ own.map Prod.fst := List.mem_map.2 ⟨_, hf, rfl⟩
    have hfields (j : Json String) : (name, j) ∈ fields ↔ (name, j) ∈ kept := by
      rw [hperm.mem_iff, List.mem_append]
      exact or_iff_left fun hin => hextra _ hin hown
    rcases hkeeps.mem hnodup hf with ⟨j, hj, hform⟩ | ⟨hnull, habsent⟩
    · refine .inl ⟨j, lookupLast_eq_some ((hfields j).2 hj) fun j' hj' => ?_, hform⟩
      have hkept : (kept.map Prod.fst).Nodup := hnodup.sublist hkeeps.sublist
      have heq := List.inj_on_of_nodup_map hkept ((hfields j').1 hj') hj rfl
      exact congrArg Prod.snd heq
    · refine .inr ⟨hnull, lookupLast_eq_none fun hin => ?_⟩
      obtain ⟨⟨name, j⟩, hj, rfl⟩ := List.mem_map.1 hin
      exact habsent (List.mem_map.2 ⟨_, (hfields j).1 hj, rfl⟩)

/-! ### Readers -/

/-- The reader reads a value, and any other that restates it, as `a`; the value is not `null`. -/
def Reads (item : Json String → Option α) (form : Json String) (a : α) : Prop :=
  form ≠ .null ∧ ∀ j, Restates form j → item j = some a

/-- A value that is no object is read in other words if it is read. -/
lemma reads_of_eq {item : Json String → Option α} {form : Json String} {a : α}
    (hnull : form ≠ .null) (hform : ∀ own, form ≠ .object own) (h : item form = some a) :
    Reads item form a := by
  refine ⟨hnull, fun j hj => ?_⟩
  rw [hj.eq_of_not_object hform, h]

/-- A record is read in other words if it is read from any fields that offer its own. -/
lemma reads_object {item : Json String → Option α} {own : List (String × Json String)} {a : α}
    (hnodup : (own.map Prod.fst).Nodup)
    (h : ∀ fields, (∀ f ∈ own, Offers (fun name => lookupLast name fields) f.1 f.2) →
      item (.object fields) = some a) : Reads item (.object own) a := by
  refine ⟨nofun, fun j hj => ?_⟩
  obtain ⟨fields, rfl, hoffers⟩ := hj.offers hnodup
  exact h fields hoffers

section Offers

variable {f : String → Option (Json String)} {name : String} {item : Json String → Option α}

/-- A field that must be present is read. -/
lemma Offers.required {form : Json String} {a : α} (h : Offers f name form)
    (hitem : Reads item form a) : required? f name item = some a := by
  obtain ⟨hnull, hread⟩ := hitem
  rcases h with ⟨j, hj, hform⟩ | ⟨hnone, -⟩
  · unfold required?
    rw [hj]
    exact hread j hform
  · exact absurd hnone hnull

/-- A field that may be missing or `null` is read. -/
lemma Offers.omitted {encode : α → Json String} {value : Option α}
    (h : Offers f name (optional encode value)) (hitem : ∀ a ∈ value, Reads item (encode a) a) :
    omitted? f name item = some value := by
  unfold omitted?
  cases value with
  | none =>
    rcases h with ⟨j, hj, hform⟩ | ⟨-, hnone⟩
    · rw [hj, hform.eq_of_not_object nofun]
      rfl
    · rw [hnone]
  | some a =>
    obtain ⟨hnull, hread⟩ := hitem a rfl
    rcases h with ⟨j, hj, hform⟩ | ⟨hnone, -⟩
    · rw [hj]
      dsimp only
      unfold optional?
      split
      · exact absurd rfl (hform.ne_null hnull)
      · rw [hread j hform, Option.map_some]
    · exact absurd hnone hnull

end Offers

/-! ### Values without fields -/

/-- A string is read. -/
lemma reads_string (s : String) : Reads string? (.string s) s :=
  reads_of_eq nofun nofun rfl

/-- A truth value is read. -/
lemma reads_bool (b : Bool) : Reads bool? (.bool b) b := reads_of_eq nofun nofun rfl

/-- A list of strings is read. -/
lemma reads_strings (ss : List String) : Reads strings? (strings ss) ss := by
  refine reads_of_eq nofun nofun ?_
  change (ss.map Json.string).mapM string? = some ss
  induction ss with
  | nil => rfl
  | cons s ss ih => rw [List.map_cons, List.mapM_cons, ih]; rfl

/-- A natural number below a limit is read. -/
lemma reads_natBelow {limit n : Nat} (h : n < limit) : Reads (natBelow? limit) (.nat n) n := by
  refine reads_of_eq nofun nofun ?_
  unfold natBelow?
  rw [nat?_nat, Option.filter_some, if_pos (decide_eq_true h)]

end Montage.Json
