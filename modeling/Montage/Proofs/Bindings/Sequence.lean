import Mathlib.Data.Finset.Card
import Montage.Proofs.Bindings
import Montage.Proofs.Text.ByteOrder

/-!
# Binding names in sequence

Names are bound to clips one after another, and a name can be bound more than once (`ofList`).
Afterwards the clip of a name is the one that it was bound to last: its earlier clips do not count,
nor does what was bound to other names in between (`lookup?_ofList`).  A name is bound when it was
bound at some time, and it is listed once, however often that was (`mem_names_ofList`,
`size_ofList`).

`lastWins_ofList` says this for all the ways of asking.  The order of names is the order of their
bytes in UTF-8, by `Text.bytesOf_lt_iff`.
-/

namespace Montage.Bindings

variable {γ : Type} {ws : List (String × γ)} {name : String}

/-- Binds names to clips one after another, where nothing was bound before. -/
def ofList (ws : List (String × γ)) : Bindings γ := ws.foldl (fun bs w => bs.bind w.1 w.2) empty

/-- One more name is bound in the end. -/
lemma ofList_concat (ws : List (String × γ)) (w : String × γ) :
    ofList (ws ++ [w]) = (ofList ws).bind w.1 w.2 :=
  List.foldl_concat _ _ _ _

/-! ### The clips of a name -/

/-- The clips that a name is bound to, in the order in which it is. -/
def clipsOf (ws : List (String × γ)) (name : String) : List γ :=
  (ws.filter fun w => w.1 = name).map (·.2)

/-- What is bound in the end is the last clip of its name; the clips of other names stay. -/
lemma clipsOf_concat (ws : List (String × γ)) (w : String × γ) (name : String) :
    clipsOf (ws ++ [w]) name =
      if name = w.1 then clipsOf ws name ++ [w.2] else clipsOf ws name := by
  unfold clipsOf
  rw [List.filter_append, List.map_append]
  split
  · rename_i h
    rw [List.filter_cons_of_pos (by simp [h]), List.filter_nil, List.map_singleton]
  · rename_i h
    rw [List.filter_cons_of_neg (by simpa using Ne.symm h), List.filter_nil, List.map_nil,
      List.append_nil]

/-- What is found under a name is the last of its clips. -/
theorem lookup?_ofList (ws : List (String × γ)) (name : String) :
    (ofList ws).lookup? name = (clipsOf ws name).getLast? := by
  -- The induction takes the bindings from the end, since the last one decides.
  induction ws using List.reverseRecOn with
  | nil => rfl
  | append_singleton ws w ih =>
    rw [ofList_concat, lookup?_bind, clipsOf_concat]
    split
    · exact List.getLast?_concat.symm
    · exact ih

/-! ### The bound names -/

/-- The names that were bound at some time are bound. -/
theorem contains_ofList : (ofList ws).contains name = true ↔ name ∈ ws.map (·.1) := by
  induction ws using List.reverseRecOn with
  | nil => simp [ofList]
  | append_singleton ws w ih =>
    rw [ofList_concat, contains_bind, ih, List.map_append, List.mem_append, List.map_singleton,
      List.mem_singleton, or_comm]

/-- The names that are listed are those that were bound. -/
lemma mem_names_ofList : name ∈ (ofList ws).names ↔ name ∈ ws.map (·.1) := by
  rw [← contains_iff_mem_names, contains_ofList]

/-- A name counts once, however often it was bound. -/
lemma size_ofList (ws : List (String × γ)) : (ofList ws).size = (ws.map (·.1)).toFinset.card := by
  have hsame : (ofList ws).names.toFinset = (ws.map (·.1)).toFinset := by
    ext name
    rw [List.mem_toFinset, List.mem_toFinset, mem_names_ofList]
  rw [← hsame, List.toFinset_card_of_nodup (nodup_names _), length_names]

/-! ### All ways of asking -/

/-- A collection answers as a sequence of bindings demands, of which the last one wins. -/
structure LastWins (ws : List (String × γ)) (bs : Bindings γ) : Prop where
  /-- The last clip of a name is found. -/
  found : ∀ name, bs.lookup? name = (clipsOf ws name).getLast?
  /-- Nothing is found exactly under the names that were never bound. -/
  missing : ∀ name, bs.lookup? name = none ↔ name ∉ ws.map (·.1)
  /-- A block that asks for a name gets its last clip. -/
  given : ∀ name kind line clip,
    bs.get name kind line = .ok clip ↔ (clipsOf ws name).getLast? = some clip
  /-- A block that asks for a name that was never bound is refused, and the error says which name,
  for which kind of block and at which line. -/
  refused : ∀ name kind line e,
    bs.get name kind line = .error e ↔ name ∉ ws.map (·.1) ∧ e = .undefinedClip name kind line
  /-- A name is bound when something is found under it. -/
  bound : ∀ name, bs.contains name = true ↔ ∃ clip, bs.lookup? name = some clip
  /-- The different names are counted. -/
  size : bs.size = (ws.map (·.1)).toFinset.card
  isEmpty : bs.isEmpty = true ↔ bs.size = 0
  /-- The names are in the order of their bytes, each once. -/
  ordered : bs.names.Pairwise fun n m => Json.bytesOf n < Json.bytesOf m
  /-- The names are those that were bound. -/
  listed : ∀ name, name ∈ bs.names ↔ name ∈ ws.map (·.1)

/-- When names are bound in sequence, the last clip of each name wins. -/
theorem lastWins_ofList (ws : List (String × γ)) : LastWins ws (ofList ws) where
  found := lookup?_ofList ws
  missing name := by
    rw [← contains_ofList, contains, Option.not_isSome_iff_eq_none]
  given name kind line clip := by
    rw [get_eq_ok, lookup?_ofList]
  refused name kind line e := by
    rw [get_eq_error, ← contains_ofList, Bool.not_eq_true]
  bound name := contains_iff
  size := size_ofList ws
  isEmpty := isEmpty_iff
  ordered := (pairwise_names _).imp Text.bytesOf_lt_iff.2
  listed name := mem_names_ofList

example :
    let bs := ofList [("étude", 1), ("zoom", 2), ("étude", 3)]
    bs.lookup? "étude" = some 3 ∧ bs.size = 2 ∧ bs.names = ["zoom", "étude"] := by
  decide

end Montage.Bindings
