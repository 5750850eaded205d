import Montage.Error

/-!
# Bindings

`Bindings γ` maps names to clips of type `γ`.  The entries are kept in the order of their names,
with each name once, so that two collections with the same look-ups are equal.  Binding a name again
replaces its clip.
-/

namespace Montage

namespace Bindings

variable {γ : Type}

/-- Puts an entry at its place in a sorted list, instead of an entry with the same name. -/
def insertEntry (name : String) (clip : γ) : List (String × γ) → List (String × γ)
  | [] => [(name, clip)]
  | e :: es =>
    if name < e.1 then (name, clip) :: e :: es
    else if name = e.1 then (name, clip) :: es
    else e :: insertEntry name clip es

/-- Inserting adds no other name than the given one. -/
theorem mem_insertEntry {name : String} {clip : γ} {es : List (String × γ)} {e : String × γ}
    (h : e ∈ insertEntry name clip es) : e = (name, clip) ∨ e ∈ es := by
  induction es with
  | nil => simpa [insertEntry] using h
  | cons d ds ih =>
    rw [insertEntry] at h
    split at h
    · simpa using h
    · split at h
      · rcases List.mem_cons.1 h with h | h
        · exact .inl h
        · exact .inr (List.mem_cons_of_mem _ h)
      · rcases List.mem_cons.1 h with h | h
        · exact .inr (h ▸ List.mem_cons_self)
        · rcases ih h with h | h
          · exact .inl h
          · exact .inr (List.mem_cons_of_mem _ h)

/-- Inserting keeps a list sorted by name. -/
theorem pairwise_insertEntry (name : String) (clip : γ) {es : List (String × γ)}
    (h : es.Pairwise fun a b => a.1 < b.1) :
    (insertEntry name clip es).Pairwise fun a b => a.1 < b.1 := by
  induction es with
  | nil => simp [insertEntry]
  | cons e es ih =>
    obtain ⟨first, rest⟩ := List.pairwise_cons.1 h
    rw [insertEntry]
    split
    · rename_i lt
      refine List.pairwise_cons.2 ⟨fun a ha => ?_, h⟩
      rcases List.mem_cons.1 ha with rfl | ha
      · exact lt
      · exact String.lt_trans lt (first a ha)
    · rename_i notLt
      split
      · rename_i eq
        exact List.pairwise_cons.2 ⟨fun a ha => eq ▸ first a ha, rest⟩
      · rename_i ne
        refine List.pairwise_cons.2 ⟨fun a ha => ?_, ih rest⟩
        rcases mem_insertEntry ha with rfl | ha
        · exact Decidable.byContradiction fun notGt =>
            ne (String.le_antisymm (String.not_lt.1 notGt) (String.not_lt.1 notLt))
        · exact first a ha

end Bindings

/-- Names bound to clips, sorted by name. -/
structure Bindings (γ : Type) where
  entries : List (String × γ)
  sorted : entries.Pairwise fun a b => a.1 < b.1

namespace Bindings

variable {γ : Type}

/-- Nothing bound. -/
def empty : Bindings γ := ⟨[], .nil⟩

/-- Binds a name to a clip, instead of the clip that it was bound to before. -/
def bind (bs : Bindings γ) (name : String) (clip : γ) : Bindings γ :=
  ⟨insertEntry name clip bs.entries, pairwise_insertEntry name clip bs.sorted⟩

/-- The clip that a name is bound to. -/
def lookup? (bs : Bindings γ) (name : String) : Option γ := bs.entries.lookup name

/-- The clip that a name is bound to, on behalf of a block of a kind. -/
def get (bs : Bindings γ) (name kind : String) (line : Nat) : Except Error γ :=
  match bs.lookup? name with
  | some clip => .ok clip
  | none => .error (.undefinedClip name kind line)

/-- A name is bound. -/
def contains (bs : Bindings γ) (name : String) : Bool := (bs.lookup? name).isSome

/-- The number of bound names. -/
def size (bs : Bindings γ) : Nat := bs.entries.length

/-- No name is bound. -/
def isEmpty (bs : Bindings γ) : Bool := bs.entries.isEmpty

/-- The bound names, in order. -/
def names (bs : Bindings γ) : List String := bs.entries.map (·.1)

end Bindings

end Montage
