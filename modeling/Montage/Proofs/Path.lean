import Mathlib.Data.List.Basic
import Mathlib.Data.List.Infix
import Montage.FileTree
import Montage.Proofs.Text.Cutting

/-!
# Where paths lead

The segments of a path lead from the root or the working directory, one by one, to its location.  A
place is on the way of a path when some of its first segments lead there and there is still a name
to come (`Location.OnWay`).

A path is cut into a start and further segments, and put together again from fewer of them
(`Path.split_ofSplit`).  So the directory of a destination, and everything that this directory is
in, are on the way of the destination (`Location.onWay_of_mem_ancestors`).
-/

namespace Montage

namespace Path

variable {p : Path} {start : String} {rest rest' : List String}

/-! ### Segments -/

/-- The text has no slash. -/
def Slashless (s : String) : Prop := ∀ c ∈ s.toList, (decide (c = '/')) = false

/-- The segments of a path have no slashes. -/
lemma slashless_of_mem_segments : ∀ s ∈ p.segments, Slashless s := by
  intro s hs
  obtain ⟨piece, hpiece, rfl⟩ := List.mem_map.1 hs
  unfold Slashless
  rw [String.toList_ofList]
  exact Text.separator_notMem (fun c => decide (c = '/')) p.text.toList piece hpiece

/-- Segments that are joined by slashes are the segments of their path. -/
lemma segments_intercalate {ss : List String} (hne : ss ≠ []) (hplain : ∀ s ∈ ss, Slashless s) :
    segments ⟨"/".intercalate ss⟩ = ss := by
  have hslash : "/".toList = ['/'] := rfl
  unfold segments
  rw [String.toList_intercalate, hslash, Text.splitAll_intercalate (by decide) (by simpa using hne)]
  · simp
  · intro w hw
    obtain ⟨s, hs, rfl⟩ := List.mem_map.1 hw
    exact hplain s hs

/-- A path is absolute when its first segment is empty and not its only one. -/
lemma isAbsolute_iff : p.isAbsolute = true ↔ ∃ rest, p.segments = "" :: rest ∧ rest ≠ [] := by
  unfold isAbsolute segments
  rw [decide_eq_true_eq]
  cases p.text.toList with
  | nil => simp [Text.splitAll]
  | cons c cs =>
    obtain ⟨piece, pieces, hpieces⟩ :=
      List.exists_cons_of_ne_nil (Text.splitAll_ne_nil (fun c => decide (c = '/')) cs)
    by_cases hc : c = '/'
    · simp [Text.splitAll, hc, hpieces]
    · simp [Text.splitAll, hc, hpieces]

/-! ### Starts -/

/-- The segments that stand for a start. -/
def lead (start : String) : List String :=
  if start = "/" then [""] else if start = "." then ["."] else []

/-- The start and the segments are parts of a path: the root, the working directory by name, or
nothing before a segment that is neither empty nor a dot. -/
inductive Parts : String → List String → Prop
  | root {rest : List String} (plain : ∀ s ∈ rest, Slashless s) : Parts "/" rest
  | dot {rest : List String} (plain : ∀ s ∈ rest, Slashless s) : Parts "." rest
  | none : Parts "" []
  | named {s : String} {rest : List String} (plain : ∀ t ∈ s :: rest, Slashless t)
      (busy : isIdle s = false) : Parts "" (s :: rest)

/-- A path is cut into its parts. -/
lemma parts_split (p : Path) : Parts p.split.1 p.split.2 := by
  have hplain := slashless_of_mem_segments (p := p)
  unfold split
  split
  · exact .none
  · rename_i rest _ heq
    exact .root fun s hs => hplain s (by simp [heq, hs])
  · rename_i rest heq
    exact .dot fun s hs => hplain s (by simp [heq, hs])
  · rename_i hempty hroot hdot
    cases heq : p.segments with
    | nil => exact .none
    | cons s rest =>
      refine .named (heq ▸ hplain) ?_
      unfold isIdle
      simp only [Bool.or_eq_false_iff, decide_eq_false_iff_not]
      exact ⟨fun hs => hroot rest (hs ▸ heq), fun hs => hdot rest (hs ▸ heq)⟩

/-- The first segments of the parts of a path are parts of a path. -/
lemma Parts.shorten (h : Parts start rest) (hshort : rest' <+: rest) : Parts start rest' := by
  cases h with
  | root plain => exact .root fun s hs => plain s (hshort.mem hs)
  | dot plain => exact .dot fun s hs => plain s (hshort.mem hs)
  | none =>
    rw [List.prefix_nil.1 hshort]
    exact .none
  | named plain busy =>
    cases rest' with
    | nil => exact .none
    | cons t rest' =>
      obtain ⟨rfl, hrest⟩ := List.cons_prefix_cons.1 hshort
      exact .named (fun u hu => plain u (hshort.mem hu)) busy

/-- A path that is put together from parts has their segments, after those that stand for its
start. -/
lemma segments_ofSplit (h : Parts start rest) (hne : rest ≠ []) :
    (ofSplit start rest).segments = lead start ++ rest := by
  cases h with
  | root plain =>
    have hpath : ofSplit "/" rest = ⟨"/".intercalate ("" :: rest)⟩ := by
      rw [String.intercalate_cons_of_ne_nil hne]
      rfl
    rw [hpath]
    exact segments_intercalate (by simp) (List.forall_mem_cons.2 ⟨by simp [Slashless], plain⟩)
  | dot plain =>
    have hpath : ofSplit "." rest = ⟨"/".intercalate ("." :: rest)⟩ := by
      rw [String.intercalate_cons_of_ne_nil hne]
      cases rest with
      | nil => exact absurd rfl hne
      | cons s rest => rfl
    rw [hpath]
    exact segments_intercalate (by simp) (List.forall_mem_cons.2 ⟨by simp [Slashless], plain⟩)
  | none => exact absurd rfl hne
  | named plain busy => exact segments_intercalate hne plain

/-- A path that is put together from parts, with a segment at least, is cut into them again. -/
lemma split_ofSplit (h : Parts start rest) (hne : rest ≠ []) :
    (ofSplit start rest).split = (start, rest) := by
  have hsegments := segments_ofSplit h hne
  unfold split
  rw [hsegments]
  cases h with
  | root plain =>
    cases rest with
    | nil => exact absurd rfl hne
    | cons s rest => rfl
  | dot plain => rfl
  | none => exact absurd rfl hne
  | @named s rest plain busy =>
    simp only [isIdle, Bool.or_eq_false_iff, decide_eq_false_iff_not] at busy
    simp [lead, busy]

/-- A path begins with idle segments for its start, and goes on with its further segments. -/
lemma exists_first (p : Path) :
    ∃ first, p.segments = first ++ p.split.2 ∧ ∀ s ∈ first, isIdle s = true := by
  unfold split
  split
  · rename_i heq
    exact ⟨[""], heq, by decide⟩
  · rename_i rest _ heq
    exact ⟨[""], heq, by decide⟩
  · rename_i rest heq
    exact ⟨["."], heq, by decide⟩
  · exact ⟨[], rfl, by simp⟩

/-- A path is absolute when it starts from the root. -/
lemma isAbsolute_iff_split : p.isAbsolute = true ↔ p.split.1 = "/" := by
  rw [isAbsolute_iff]
  unfold split
  split
  · rename_i heq
    simp [heq]
  · rename_i rest hne heq
    simp only [heq, List.cons.injEq, true_and, exists_eq_left', iff_true]
    exact fun hnil => hne hnil
  · rename_i rest heq
    simp [heq]
  · rename_i hroot _
    simp only [String.reduceEq, iff_false]
    rintro ⟨rest, heq, -⟩
    exact hroot rest heq

/-! ### Ancestors -/

/-- The paths that reversed segments lead to are put together from the first ones of the
segments. -/
lemma exists_prefix_of_mem_ancestorsOf {q : Path} {start : String} {reversed : List String}
    (hq : q ∈ ancestorsOf start reversed) :
    ∃ rest, rest <+: reversed.reverse ∧ q = ofSplit start rest := by
  induction reversed with
  | nil =>
    unfold ancestorsOf at hq
    split at hq
    · cases hq
    · refine ⟨[], List.nil_prefix, ?_⟩
      rw [List.mem_singleton.1 hq]
      by_cases hroot : start = "/"
      · subst hroot
        rfl
      · simp [ofSplit]
  | cons s reversed ih =>
    have hshorter : reversed.reverse <+: (s :: reversed).reverse := by
      rw [List.reverse_cons]
      exact List.prefix_append _ _
    have hrest (hq : q ∈ ancestorsOf start reversed) :
        ∃ rest, rest <+: (s :: reversed).reverse ∧ q = ofSplit start rest := by
      obtain ⟨rest, hrest, heq⟩ := ih hq
      exact ⟨rest, hrest.trans hshorter, heq⟩
    unfold ancestorsOf at hq
    split at hq
    · exact hrest hq
    · rcases List.mem_cons.1 hq with heq | hq
      · exact ⟨_, List.prefix_rfl, heq⟩
      · exact hrest hq

/-- A path that is put together from parts is in paths that are put together from the first ones of
its segments. -/
lemma exists_prefix_of_mem_ancestors {q : Path} (h : Parts start rest)
    (hq : q ∈ (ofSplit start rest).ancestors) :
    ∃ rest', rest' <+: rest ∧ q = ofSplit start rest' := by
  by_cases hne : rest = []
  · subst hne
    refine ⟨[], List.prefix_rfl, ?_⟩
    cases h with
    | root plain => exact List.mem_singleton.1 hq
    | dot plain => exact List.mem_singleton.1 hq
    | none => cases hq
  · unfold ancestors at hq
    rw [split_ofSplit h hne] at hq
    obtain ⟨rest', hrest', heq⟩ := exists_prefix_of_mem_ancestorsOf hq
    exact ⟨rest', by simpa using hrest', heq⟩

/-- Without idle segments at their end, the first ones of some segments are left. -/
lemma dropIdle_prefix (ss : List String) : dropIdle ss <+: ss := by
  unfold dropIdle
  rw [← List.reverse_suffix, List.reverse_reverse]
  exact List.dropWhile_suffix isIdle

/-- The last segment that is left is not idle. -/
lemma isIdle_getLast_dropIdle (ss : List String) :
    ∀ s ∈ (dropIdle ss).getLast?, isIdle s = false := by
  unfold dropIdle
  rw [List.getLast?_reverse]
  exact Text.head?_dropWhile isIdle ss.reverse

/-- The parent of a path is put together from the first segments of the path, and leaves out a name.
Only a path that names the working directory has another parent, which is empty. -/
lemma exists_of_parent? {d : Path} (h : p.parent? = some d) : d = .empty ∨
    ∃ rest rest', p.split.2 = rest ++ rest' ∧ (∃ s ∈ rest', isIdle s = false) ∧
      d = ofSplit p.split.1 rest := by
  unfold parent? at h
  dsimp only at h
  have hshort := dropIdle_prefix p.split.2
  have hlast := isIdle_getLast_dropIdle p.split.2
  split at h
  · split at h
    · exact .inl (Option.some.inj h).symm
    · cases h
  · rename_i hne
    have hnamed : dropIdle p.split.2 ≠ [] := hne
    obtain ⟨last, hsome⟩ := Option.ne_none_iff_exists'.1 (mt List.getLast?_eq_none_iff.1 hnamed)
    have hconcat := List.dropLast_append_getLast? last hsome
    obtain ⟨shorter, hshorter⟩ := dropIdle_prefix (dropIdle p.split.2).dropLast
    obtain ⟨idle, hidle⟩ := hshort
    refine .inr ⟨dropIdle (dropIdle p.split.2).dropLast, shorter ++ [last] ++ idle, ?_,
      ⟨last, by simp, hlast last hsome⟩, (Option.some.inj h).symm⟩
    calc p.split.2 = (dropIdle p.split.2).dropLast ++ [last] ++ idle := by rw [hconcat, hidle]
      _ = _ := by
        rw [List.append_assoc, List.append_assoc, ← List.append_assoc _ shorter, hshorter]

end Path

/-! ### Locations -/

namespace Location

open Montage.Path

variable {p q d : Path} {start : String} {rest : List String} {l : Location}

/-- The place that a start stands for. -/
def origin (start : String) : Location :=
  if start = "/" then ⟨.root, []⟩ else .workingDirectory

/-- A path starts from the place that its start stands for. -/
lemma base_eq_origin (p : Path) : base p = origin p.split.1 := by
  unfold base origin
  by_cases h : p.isAbsolute = true
  · rw [if_pos h, if_pos (isAbsolute_iff_split.1 h)]
  · rw [if_neg h, if_neg (mt isAbsolute_iff_split.2 h)]

/-- Idle segments lead nowhere. -/
lemma foldl_step_of_idle {ss : List String} (h : ∀ s ∈ ss, isIdle s = true) (l : Location) :
    ss.foldl step l = l := by
  induction ss generalizing l with
  | nil => rfl
  | cons s ss ih =>
    obtain ⟨hs, hss⟩ := List.forall_mem_cons.1 h
    rw [List.foldl_cons, step, if_pos hs]
    exact ih hss l

/-- The location of a path that is put together from parts. -/
lemma ofPath_ofSplit (h : Parts start rest) :
    ofPath (ofSplit start rest) = rest.foldl step (origin start) := by
  by_cases hne : rest = []
  · subst hne
    cases h with
    | root plain => rfl
    | dot plain => rfl
    | none => rfl
  · have hsplit := split_ofSplit h hne
    obtain ⟨first, hfirst, hidle⟩ := exists_first (ofSplit start rest)
    rw [ofPath, hfirst, base_eq_origin, hsplit, List.foldl_append, foldl_step_of_idle hidle]

/-- The place is on the way of a path: some of its first segments lead there, and there is still a
name to come. -/
def OnWay (p : Path) (l : Location) : Prop :=
  ∃ before after, p.segments = before ++ after ∧ (∃ s ∈ after, isIdle s = false) ∧
    l = before.foldl step (base p)

/-- The parent of a path, and everything that it is in, are on the way of the path. -/
theorem onWay_of_mem_ancestors (hd : p.parent? = some d) (hq : q ∈ d.ancestors) :
    OnWay p (ofPath q) := by
  rcases exists_of_parent? hd with rfl | ⟨rest, rest', hrest, hname, rfl⟩
  · cases hq
  · have hparts := (parts_split p).shorten ⟨rest', hrest.symm⟩
    obtain ⟨shorter, ⟨tail, htail⟩, rfl⟩ := exists_prefix_of_mem_ancestors hparts hq
    obtain ⟨first, hfirst, hidle⟩ := exists_first p
    refine ⟨first ++ shorter, tail ++ rest', ?_, ?_, ?_⟩
    · rw [hfirst, hrest, ← htail]
      simp
    · obtain ⟨s, hs, hbusy⟩ := hname
      exact ⟨s, List.mem_append_right _ hs, hbusy⟩
    · rw [ofPath_ofSplit (hparts.shorten ⟨tail, htail⟩), List.foldl_append,
        foldl_step_of_idle hidle, base_eq_origin]

end Location

end Montage
