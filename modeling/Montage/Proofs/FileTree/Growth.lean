import Mathlib.Tactic.ByContra
import Montage.FileTree
import Montage.Proofs.Outcome

/-!
# How file trees grow

A path names one location, whatever the tree (`location_of_locate`); the tree only decides whether
the walk gets there.  What a tree is turned into is compared with it location by location: it
`Extends` the earlier tree when nothing that was there is lost or changed, and it
`GainsDirectories` when all that is new are directories; `GainsWithin` also says where they may be.

Making a directory, with all those that it is in, only gains these directories
(`gainsWithin_ensureDirectory`), and writing a file puts one node at the location of its path
(`write?_eq_some`).
-/

namespace Montage.FileTree

variable {t t' t'' : FileTree} {p : Path} {l l' : Location} {n : Node} {content : Content}

/-! ### Nodes -/

/-- What is no directory has a name. -/
lemma names_ne_nil (h : t.node? l ≠ some .directory) : l.names ≠ [] := by
  intro hnil
  exact h (if_pos hnil)

/-- An entry that is left out is not looked up. -/
lemma lookup_filter_of_ne (h : l' ≠ l) (entries : List (Location × Node)) :
    (entries.filter fun e => !(e.1 == l)).lookup l' = entries.lookup l' := by
  induction entries with
  | nil => rfl
  | cons e entries ih =>
    obtain ⟨k, m⟩ := e
    by_cases hk : k = l
    · subst hk
      have hother : (l' == k) = false := beq_false_of_ne h
      simpa [List.lookup_cons, hother] using ih
    · simp [hk, List.lookup_cons, ih]

/-- A node that is put at a location is there, unless the location is an anchor. -/
lemma node?_insert_self (h : l.names ≠ []) : (t.insert l n).node? l = some n := by
  unfold node? insert
  rw [if_neg h, List.lookup_cons_self]

/-- A node that is put at a location leaves all others as they are. -/
lemma node?_insert_of_ne (h : l' ≠ l) : (t.insert l n).node? l' = t.node? l' := by
  have hother : (l' == l) = false := beq_false_of_ne h
  unfold node? insert
  split
  · rfl
  · rw [List.lookup_cons, hother]
    exact lookup_filter_of_ne h t.entries

/-- A node that is put at a free location is there. -/
lemma node?_insert_of_free (hfree : t.node? l = none) : (t.insert l n).node? l = some n :=
  node?_insert_self (names_ne_nil (t := t) (by simp [hfree]))

/-! ### Where paths lead -/

/-- A walk that gets to an end gets to where its segments lead. -/
lemma location_of_walk {segments : List String} (h : t.walk l segments = .ok l') :
    l' = segments.foldl Location.step l := by
  induction segments generalizing l with
  | nil => exact (Except.ok.inj h).symm
  | cons segment segments ih =>
    unfold walk at h
    split at h
    · cases h
    · cases h
    · split at h
      · cases h
      · exact ih h

/-- A path names one location, whatever the tree. -/
theorem location_of_locate (h : t.locate p = .ok l) : l = Location.ofPath p := by
  unfold locate at h
  split at h
  · cases h
  · split at h
    · cases h
    · split at h
      · cases h
      · exact location_of_walk h

/-- A path leads to a node that is at its location. -/
lemma find_eq_ok : t.find p = .ok n ↔ ∃ l, t.locate p = .ok l ∧ t.node? l = some n := by
  unfold find
  rw [bind_eq_ok]
  refine exists_congr fun l => and_congr_right fun _ => ?_
  cases t.node? l with
  | none => simp [throw_eq_ok]
  | some m => rw [pure_eq_ok, Option.some.injEq, eq_comm]

/-- A path leads to a file that is at its location. -/
lemma file?_eq_some :
    t.file? p = some content ↔ ∃ l, t.locate p = .ok l ∧ t.node? l = some (.file content) := by
  rw [← find_eq_ok]
  unfold file?
  split
  · rename_i content' h
    simp [h]
  · rename_i h
    simp only [reduceCtorEq, false_iff]
    exact h content

/-- A path leads to something when there is something at its location. -/
lemma isPresent_iff :
    t.isPresent p = true ↔ ∃ l n, t.locate p = .ok l ∧ t.node? l = some n := by
  simp only [exists_comm (α := Location), ← find_eq_ok]
  unfold isPresent
  cases t.find p <;> simp [Except.isOk, Except.toBool]

/-! ### Trees that lose nothing -/

/-- Nothing that is in the first tree is lost or changed in the second. -/
def Extends (t t' : FileTree) : Prop := ∀ l n, t.node? l = some n → t'.node? l = some n

namespace Extends

/-- A tree loses nothing when it stays as it is. -/
lemma refl (t : FileTree) : t.Extends t := fun _ _ h => h

/-- What is kept twice is kept. -/
lemma trans (h : t.Extends t') (h' : t'.Extends t'') : t.Extends t'' :=
  fun l n hn => h' l n (h l n hn)

/-- A walk that gets to an end gets there in a tree that has lost nothing. -/
lemma walk (h : t.Extends t') {segments : List String} (hwalk : t.walk l segments = .ok l') :
    t'.walk l segments = .ok l' := by
  induction segments generalizing l with
  | nil => exact hwalk
  | cons segment segments ih =>
    unfold FileTree.walk at hwalk ⊢
    split at hwalk
    · cases hwalk
    · cases hwalk
    · rename_i hdirectory
      rw [h l _ hdirectory]
      dsimp only
      split at hwalk
      · cases hwalk
      · rename_i hshort
        rw [if_neg hshort]
        exact ih hwalk

/-- A path that leads somewhere leads there in a tree that has lost nothing. -/
lemma locate (h : t.Extends t') (hl : t.locate p = .ok l) : t'.locate p = .ok l := by
  unfold FileTree.locate at hl ⊢
  split at hl
  · cases hl
  · rename_i hnull
    rw [if_neg hnull]
    split at hl
    · cases hl
    · rename_i hshort
      rw [if_neg hshort]
      split at hl
      · cases hl
      · rename_i hsome
        rw [if_neg hsome]
        exact h.walk hl

/-- A path that leads to a file leads to it in a tree that has lost nothing. -/
lemma file? (h : t.Extends t') (hfile : t.file? p = some content) : t'.file? p = some content := by
  obtain ⟨l, hl, hnode⟩ := file?_eq_some.1 hfile
  exact file?_eq_some.2 ⟨l, h.locate hl, h l _ hnode⟩

end Extends

/-- Nothing is lost where a node is put at a free location. -/
lemma extends_insert (hfree : t.node? l = none) (n : Node) : t.Extends (t.insert l n) := by
  intro l' m hm
  rw [node?_insert_of_ne]
  · exact hm
  · rintro rfl
    cases hfree.symm.trans hm

/-! ### Trees that gain directories -/

/-- All that the second tree has beyond the first are directories. -/
def GainsDirectories (t t' : FileTree) : Prop :=
  ∀ l, t'.node? l = t.node? l ∨ t.node? l = none ∧ t'.node? l = some .directory

namespace GainsDirectories

/-- A tree gains no more than directories when it stays as it is. -/
lemma refl (t : FileTree) : t.GainsDirectories t := fun _ => .inl rfl

/-- A tree that gains directories loses nothing. -/
lemma toExtends (h : t.GainsDirectories t') : t.Extends t' := by
  intro l n hn
  rcases h l with hsame | ⟨hnone, -⟩
  · rw [hsame, hn]
  · cases hnone.symm.trans hn

/-- A tree that gains directories gains no files. -/
lemma node?_eq_file (h : t.GainsDirectories t') :
    t'.node? l = some (.file content) ↔ t.node? l = some (.file content) := by
  refine ⟨fun hfile => ?_, h.toExtends l _⟩
  rcases h l with hsame | ⟨-, hdirectory⟩
  · rw [← hsame, hfile]
  · cases hdirectory.symm.trans hfile

end GainsDirectories

/-- One more directory is made where there is nothing. -/
lemma makeDirectory_eq_ok :
    t.makeDirectory p = .ok t' ↔
      ∃ l, t.locate p = .ok l ∧ t.node? l = none ∧ t' = t.insert l .directory := by
  unfold makeDirectory
  rw [bind_eq_ok]
  refine exists_congr fun l => and_congr_right fun _ => ?_
  cases t.node? l <;> simp [pure_eq_ok, throw_eq_ok]

/-! ### Where directories are made -/

/-- All that the second tree has beyond the first are directories at some of the given places. -/
def GainsWithin (places : Location → Prop) (t t' : FileTree) : Prop :=
  ∀ l, t'.node? l = t.node? l ∨ places l ∧ t.node? l = none ∧ t'.node? l = some .directory

namespace GainsWithin

variable {places places' : Location → Prop}

/-- A tree gains nothing when it stays as it is. -/
lemma refl (places : Location → Prop) (t : FileTree) : GainsWithin places t t := fun _ => .inl rfl

/-- Directories that are gained at some places are directories. -/
lemma toGainsDirectories (h : GainsWithin places t t') : t.GainsDirectories t' :=
  fun l => (h l).imp_right And.right

/-- What is gained at some places is gained at more of them. -/
lemma mono (h : GainsWithin places t t') (hplaces : ∀ l, places l → places' l) :
    GainsWithin places' t t' :=
  fun l => (h l).imp_right fun ⟨hl, hnew⟩ => ⟨hplaces l hl, hnew⟩

/-- Directories that are gained one after another are gained. -/
lemma trans (h : GainsWithin places t t') (h' : GainsWithin places t' t'') :
    GainsWithin places t t'' := by
  intro l
  rcases h' l with hsame | ⟨hl, hnone, hnew⟩
  · rw [hsame]
    exact h l
  · rcases h l with hsame | ⟨-, -, hdirectory⟩
    · exact .inr ⟨hl, hsame ▸ hnone, hnew⟩
    · cases hnone.symm.trans hdirectory

end GainsWithin

/-- One more directory is a gain at the location of its path. -/
lemma gainsWithin_makeDirectory (h : t.makeDirectory p = .ok t') :
    GainsWithin (· = Location.ofPath p) t t' := by
  obtain ⟨l, hl, hfree, rfl⟩ := makeDirectory_eq_ok.1 h
  intro l'
  by_cases heq : l' = l
  · subst heq
    exact .inr ⟨location_of_locate hl, hfree, node?_insert_of_free hfree⟩
  · exact .inl (node?_insert_of_ne heq)

/-- A directory whose parent is there is a gain, unless it is there already. -/
lemma gainsWithin_ensureLast (h : t.ensureLast p = .ok t') :
    GainsWithin (· = Location.ofPath p) t t' := by
  unfold ensureLast at h
  split at h
  · rename_i hmade
    cases h
    exact gainsWithin_makeDirectory hmade
  · split at h
    · cases h
      exact .refl _ t
    · cases h

/-- Directories that are made one inside the other are gains at the locations of their paths,
whether or not the last one can be made. -/
lemma gainsWithin_ensureChain (t : FileTree) (ps : List Path) :
    GainsWithin (fun l => ∃ p ∈ ps, l = Location.ofPath p) t (t.ensureChain ps).2 := by
  induction ps generalizing t with
  | nil => exact .refl _ t
  | cons p ancestors ih =>
    have hfirst (l : Location) (hl : l = Location.ofPath p) :
        ∃ q ∈ p :: ancestors, l = Location.ofPath q := ⟨p, List.mem_cons_self, hl⟩
    have hancestors := (ih t).mono fun l ⟨q, hq, hl⟩ =>
      (⟨q, List.mem_cons_of_mem p hq, hl⟩ : ∃ q ∈ p :: ancestors, l = Location.ofPath q)
    unfold ensureChain
    split
    · rename_i hmade
      exact (gainsWithin_makeDirectory hmade).mono hfirst
    · split
      · rename_i hchain
        rwa [hchain] at hancestors
      · rename_i hchain
        rw [hchain] at hancestors
        split
        · rename_i hlast
          exact hancestors.trans ((gainsWithin_ensureLast hlast).mono hfirst)
        · exact hancestors
    · split <;> exact .refl _ t

/-- Making a directory, with all those that it is in, only gains these directories. -/
theorem gainsWithin_ensureDirectory (t : FileTree) (p : Path) :
    GainsWithin (fun l => ∃ q ∈ p.ancestors, l = Location.ofPath q) t (t.ensureDirectory p).2 :=
  gainsWithin_ensureChain t p.ancestors

/-! ### Written files -/

/-- A file is written at the location of its path, unless there is a directory. -/
lemma write?_eq_some :
    t.write? p content = some t' ↔ ∃ l, t.locate p = .ok l ∧ t.node? l ≠ some .directory ∧
      t' = t.insert l (.file content) := by
  unfold write?
  split
  · rename_i e he
    simp [he]
  · rename_i l hl
    simp [hl, eq_comm]

end Montage.FileTree
