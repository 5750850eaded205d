import Mathlib.Data.List.Forall2
import Mathlib.Tactic.Lemma

/-!
# Outcomes

Computations that may fail are chained in `Except`.  These are the laws by which later proofs take a
chain apart: it succeeds exactly when each of its links does, and it fails with the first failure.

`SameOutcome` compares two computations: they fail in the same way, or both succeed with results
that are related.  Chains keep this link by link (`SameOutcome.bind`).
-/

namespace Montage

variable {ε α β : Type}

/-- A plain value succeeds with itself. -/
lemma pure_eq_ok {a b : α} : (pure a : Except ε α) = .ok b ↔ b = a := by
  simp [pure, Except.pure, eq_comm]

/-- A failure does not succeed. -/
lemma throw_eq_ok {e : ε} {a : α} : (throw e : Except ε α) = .ok a ↔ False := by
  simp [throw, throwThe, MonadExceptOf.throw]

/-- A chain of two computations succeeds exactly when both do, the second on the first's result. -/
lemma bind_eq_ok {x : Except ε α} {f : α → Except ε β} {b : β} :
    x >>= f = .ok b ↔ ∃ a, x = .ok a ∧ f a = .ok b := by
  cases x with
  | error e => simp [bind, Except.bind]
  | ok a => simp [bind, Except.bind]

/-- A chain of two computations fails with the first failure. -/
lemma bind_eq_error {x : Except ε α} {f : α → Except ε β} {e : ε} :
    x >>= f = .error e ↔ x = .error e ∨ ∃ a, x = .ok a ∧ f a = .error e := by
  cases x with
  | error e' => simp [bind, Except.bind]
  | ok a => simp [bind, Except.bind]

/-- A computation for each entry of a list succeeds exactly when each of them does. -/
lemma mapM_eq_ok {f : α → Except ε β} {xs : List α} {ys : List β} :
    xs.mapM f = .ok ys ↔ List.Forall₂ (fun x y => f x = .ok y) xs ys := by
  induction xs generalizing ys with
  | nil => simp [pure_eq_ok]
  | cons x xs ih =>
    simp only [List.mapM_cons, bind_eq_ok, pure_eq_ok, ih, List.forall₂_cons_left_iff]
    constructor
    · rintro ⟨y, hy, zs, hzs, rfl⟩
      exact ⟨y, zs, hy, hzs, rfl⟩
    · rintro ⟨y, zs, hy, hzs, rfl⟩
      exact ⟨y, hy, zs, hzs, rfl⟩

/-- A computation for each entry of a list succeeds exactly when it does before an entry, for the
entry and after it. -/
lemma mapM_append_cons_eq_ok {f : α → Except ε β} {xs ys : List α} {x : α} {zs : List β} :
    (xs ++ x :: ys).mapM f = .ok zs ↔ ∃ as b cs, xs.mapM f = .ok as ∧ f x = .ok b ∧
      ys.mapM f = .ok cs ∧ zs = as ++ b :: cs := by
  simp only [List.mapM_append, List.mapM_cons, bind_eq_ok, pure_eq_ok]
  constructor
  · rintro ⟨as, has, _, ⟨b, hb, cs, hcs, rfl⟩, rfl⟩
    exact ⟨as, b, cs, has, hb, hcs, rfl⟩
  · rintro ⟨as, b, cs, has, hb, hcs, rfl⟩
    exact ⟨as, has, _, ⟨b, hb, cs, hcs, rfl⟩, rfl⟩

/-- When a computation for each entry of a list succeeds, it gives one of the results for each entry
on its own. -/
lemma exists_mem_of_mapM {f : α → Except ε β} {xs : List α} {ys : List β}
    (h : xs.mapM f = .ok ys) : ∀ x ∈ xs, ∃ y ∈ ys, f x = .ok y := by
  induction mapM_eq_ok.1 h with
  | nil => simp
  | @cons x y xs ys hx hxs ih =>
    refine List.forall_mem_cons.2 ⟨⟨y, List.mem_cons_self, hx⟩, fun x' hx' => ?_⟩
    obtain ⟨y', hy', heq⟩ := ih (mapM_eq_ok.2 hxs) x' hx'
    exact ⟨y', List.mem_cons_of_mem _ hy', heq⟩

/-- When a computation for each entry of a list succeeds, it does so for each entry on its own. -/
lemma exists_eq_ok_of_mapM {f : α → Except ε β} {xs : List α} {ys : List β}
    (h : xs.mapM f = .ok ys) : ∀ x ∈ xs, ∃ y, f x = .ok y := by
  intro x hx
  obtain ⟨y, -, hy⟩ := exists_mem_of_mapM h x hx
  exact ⟨y, hy⟩

/-- When a computation for each entry of a list succeeds, each of the results is that of an entry,
with the results before it and after it those of the entries before and after. -/
lemma exists_of_mapM_append_cons {f : α → Except ε β} {xs : List α} {ys zs : List β} {z : β}
    (h : xs.mapM f = .ok (ys ++ z :: zs)) : ∃ before x after, xs = before ++ x :: after ∧
      before.mapM f = .ok ys ∧ f x = .ok z ∧ after.mapM f = .ok zs := by
  simp only [mapM_eq_ok] at h ⊢
  induction ys generalizing xs with
  | nil =>
    obtain ⟨x, after, hx, hafter, rfl⟩ := List.forall₂_cons_right_iff.1 h
    exact ⟨[], x, after, rfl, .nil, hx, hafter⟩
  | cons y ys ih =>
    obtain ⟨x', rest, hx', hrest, rfl⟩ := List.forall₂_cons_right_iff.1 h
    obtain ⟨before, x, after, rfl, hbefore, hx, hafter⟩ := ih hrest
    exact ⟨x' :: before, x, after, rfl, .cons hx' hbefore, hx, hafter⟩

/-- When a computation succeeds for each entry of a list, it does so for the whole list. -/
lemma exists_mapM_of_forall {f : α → Except ε β} {xs : List α} (h : ∀ x ∈ xs, ∃ y, f x = .ok y) :
    ∃ ys, xs.mapM f = .ok ys := by
  induction xs with
  | nil => exact ⟨[], rfl⟩
  | cons x xs ih =>
    obtain ⟨⟨y, hy⟩, hxs⟩ := List.forall_mem_cons.1 h
    obtain ⟨ys, hys⟩ := ih hxs
    exact ⟨y :: ys, mapM_eq_ok.2 (.cons hy (mapM_eq_ok.1 hys))⟩

/-- A computation for each entry of a list fails with the first entry for which it does. -/
lemma mapM_eq_error {f : α → Except ε β} {xs : List α} {e : ε} :
    xs.mapM f = .error e ↔ ∃ before x after, xs = before ++ x :: after ∧
      (∀ y ∈ before, ∃ z, f y = .ok z) ∧ f x = .error e := by
  induction xs with
  | nil => simp [pure, Except.pure]
  | cons x xs ih =>
    rw [List.mapM_cons, bind_eq_error]
    constructor
    · rintro (hx | ⟨y, hy, hrest⟩)
      · exact ⟨[], x, xs, rfl, by simp, hx⟩
      · rcases bind_eq_error.1 hrest with hrest | ⟨ys, -, hpure⟩
        · obtain ⟨before, x', after, rfl, hbefore, hx'⟩ := ih.1 hrest
          exact ⟨x :: before, x', after, rfl, List.forall_mem_cons.2 ⟨⟨y, hy⟩, hbefore⟩, hx'⟩
        · cases hpure
    · rintro ⟨before, x', after, heq, hbefore, hx'⟩
      cases before with
      | nil =>
        cases heq
        exact .inl hx'
      | cons y before =>
        cases heq
        obtain ⟨⟨z, hz⟩, hbefore⟩ := List.forall_mem_cons.1 hbefore
        exact .inr ⟨z, hz, bind_eq_error.2 (.inl (ih.2 ⟨before, x', after, rfl, hbefore, hx'⟩))⟩

/-- A computation whose result is passed through a function succeeds exactly when it does. -/
lemma map_eq_ok {x : Except ε α} {f : α → β} {b : β} :
    x.map f = .ok b ↔ ∃ a, x = .ok a ∧ f a = b := by
  cases x with
  | error e => simp [Except.map]
  | ok a => simp [Except.map]

/-- A computation whose result is passed through a function fails exactly when it does. -/
lemma map_eq_error {x : Except ε α} {f : α → β} {e : ε} :
    x.map f = .error e ↔ x = .error e := by
  cases x <;> simp [Except.map]

/-- A change of results goes through a chain when it goes through the second link. -/
lemma map_bind_map {α' β' : Type} {x : Except ε α} {f : α → α'} {g : β → β'} {k : α → Except ε β}
    {k' : α' → Except ε β'} (h : ∀ a, k' (f a) = (k a).map g) :
    x.map f >>= k' = (x >>= k).map g := by
  cases x with
  | error e => rfl
  | ok a => exact h a

/-- A computation whose failure is passed through a function fails exactly when it does. -/
lemma mapError_eq_error {ε' : Type} {x : Except ε α} {f : ε → ε'} {e : ε'} :
    x.mapError f = .error e ↔ ∃ e', x = .error e' ∧ f e' = e := by
  cases x <;> simp [Except.mapError]

/-- The failure of a chain is passed through a function where it occurs. -/
lemma mapError_bind {ε' : Type} (x : Except ε α) (k : α → Except ε β) (f : ε → ε') :
    (x >>= k).mapError f = x.mapError f >>= fun a => (k a).mapError f := by
  cases x <;> rfl

/-- What is left of an outcome without its failure is the result of a success. -/
lemma toOption_eq_some {x : Except ε α} {a : α} : x.toOption = some a ↔ x = .ok a := by
  cases x <;> simp [Except.toOption]

/-! ### Two computations -/

/-- Both computations fail with the same failure, or both succeed and the results are related. -/
inductive SameOutcome {ε α β : Type} (R : α → β → Prop) : Except ε α → Except ε β → Prop
  | ok {a : α} {b : β} (h : R a b) : SameOutcome R (.ok a) (.ok b)
  | error (e : ε) : SameOutcome R (.error e) (.error e)

namespace SameOutcome

variable {γ δ : Type} {R : α → β → Prop} {S : γ → δ → Prop} {x : Except ε α} {y : Except ε β}

/-- A computation has the outcome that it has. -/
lemma refl {R : α → α → Prop} (hrefl : ∀ a, R a a) (x : Except ε α) : SameOutcome R x x := by
  cases x with
  | error e => exact .error e
  | ok a => exact .ok (hrefl a)

/-- Chains have the same outcome when their links do. -/
lemma bind {f : α → Except ε γ} {g : β → Except ε δ} (h : SameOutcome R x y)
    (hfg : ∀ a b, R a b → SameOutcome S (f a) (g b)) : SameOutcome S (x >>= f) (y >>= g) := by
  cases h with
  | ok h => exact hfg _ _ h
  | error e => exact .error e

/-- What can be said of related results alike makes the outcomes equal. -/
lemma map_eq {f : α → γ} {g : β → γ} (h : SameOutcome R x y) (hfg : ∀ a b, R a b → f a = g b) :
    x.map f = y.map g := by
  cases h with
  | ok h => exact congrArg Except.ok (hfg _ _ h)
  | error e => rfl

/-- The same outcomes are the same after a change of the failures. -/
lemma mapError {ε' : Type} (h : SameOutcome R x y) (f : ε → ε') :
    SameOutcome R (x.mapError f) (y.mapError f) := by
  cases h with
  | ok h => exact .ok h
  | error e => exact .error (f e)

end SameOutcome

end Montage
