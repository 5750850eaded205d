import Montage.Proofs.Script.Concatenation

/-!
# Lines that do not matter

A blank line or a comment can stand anywhere in a script, and outside of blocks so can every line
that opens none: the blocks are the same without it (`readAll_insert`).  So the script is read in
the same way, but for the numbers of the lines below (`steps_insert`; for a line that is put between
two parts of a text, `steps_insert_text`).
-/

namespace Montage

/-! ### Numbers of lines -/

namespace Line

variable {r : Nat → Nat}

/-- Numbered lines get other consecutive numbers. -/
lemma numbered_renumbered {first first' : Nat} {ls : List String}
    (h : ∀ i < ls.length, r (first + i) = first' + i) :
    (numbered first ls).map (renumbered r) = numbered first' ls := by
  induction ls generalizing first first' with
  | nil => rfl
  | cons l ls ih =>
    have hfirst : r first = first' := h 0 (Nat.succ_pos _)
    have hrest : ∀ i < ls.length, r (first + 1 + i) = first' + 1 + i := by
      intro i hi
      have hnext := h (i + 1) (Nat.succ_lt_succ hi)
      rwa [Nat.add_assoc, Nat.add_comm 1 i, Nat.add_assoc first', Nat.add_comm 1 i]
    rw [numbered_cons, List.map_cons, ih hrest, numbered_cons, ← hfirst]
    rfl

/-- A line of which only the text is looked at. -/
def unnumbered (text : String) : Line := ⟨0, text⟩

/-- The numbers of lines after a line is put below line `k`. -/
def below (k n : Nat) : Nat := if n ≤ k then n else n + 1

/-- The numbers of lines after the line below line `k` is taken out. -/
def above (k n : Nat) : Nat := if n ≤ k then n else n - 1

/-- To put a line in and to take it out again leaves the numbers as they were. -/
lemma above_below (k n : Nat) : above k (below k n) = n := by
  unfold above below
  by_cases hn : n ≤ k
  · rw [if_pos hn, if_pos hn]
  · rw [if_neg hn, if_neg (by omega)]
    omega

/-- The lines around a line that is put in are the lines without it, with other numbers. -/
lemma numbered_insert (before after : List String) :
    (numbered 1 (before ++ after)).map (renumbered (below before.length)) =
      numbered 1 before ++ numbered (before.length + 2) after := by
  rw [numbered_append, List.map_append]
  congr 1
  · refine numbered_renumbered fun i hi => ?_
    unfold below
    exact if_pos (by omega)
  · refine numbered_renumbered fun i _ => ?_
    unfold below
    rw [if_neg (by omega)]
    omega

end Line

/-! ### Blocks -/

namespace Block

variable {l : Line} {ls ms : List Line}

/-- When a block is closed by some lines, its end is found in them. -/
lemma interior_append_of_closed (h : ending ls ≠ []) (ms : List Line) :
    interior (ls ++ ms) = interior ls ∧ ending (ls ++ ms) = ending ls ++ ms := by
  obtain ⟨closer, rest, hcloser⟩ := List.exists_cons_of_ne_nil h
  obtain ⟨hcloses, hopen⟩ := closes_of_ending hcloser
  have hopen' : ∀ l ∈ interior ls, (!l.closes) = true := by simpa using hopen
  have hls : ls ++ ms = interior ls ++ closer :: (rest ++ ms) := by
    rw [← List.cons_append, ← hcloser, ← List.append_assoc, interior_append_ending]
  have hcloser' : ∀ l ∈ (closer :: (rest ++ ms)).head?, (!l.closes) = false := by simp [hcloses]
  rw [hls, hcloser]
  exact Text.span_append hopen' hcloser'

/-- When a block is not closed by some lines, its end is looked for in the lines after them. -/
lemma interior_append_of_open (h : ending ls = []) (ms : List Line) :
    interior (ls ++ ms) = ls ++ interior ms ∧ ending (ls ++ ms) = ending ms := by
  have hopen : ∀ l ∈ ls, (!l.closes) = true := by simpa [ending] using h
  exact ⟨List.takeWhile_append_of_pos hopen, List.dropWhile_append_of_pos hopen⟩

/-- A line that carries nothing opens no block. -/
lemma opening?_of_carriesNothing (h : l.carriesNothing = true) : l.opening? = none := by
  rw [← Option.not_isSome_iff_eq_none, Line.isSome_opening?_iff]
  intro hopens
  rw [Line.carriesNothing_of_opens hopens] at h
  cases h

/-- A line that carries nothing closes no block. -/
lemma closes_of_carriesNothing (h : l.carriesNothing = true) : l.closes = false := by
  rw [Bool.eq_false_iff]
  intro hcloses
  obtain ⟨rest, hrest⟩ := Line.exists_mark_of_closes hcloses
  rw [Line.carriesNothing_of_mark hrest] at h
  cases h

/-- The blocks of lines are the same without a line that carries nothing. -/
lemma readAll_append_nothing (h : l.carriesNothing = true) (ls ms : List Line) :
    readAll (ls ++ l :: ms) = readAll (ls ++ ms) := by
  induction ls using readAll.induct with
  | case1 => exact readAll_cons_of_none (opening?_of_carriesNothing h)
  | case2 x ls hnone ih =>
    rw [List.cons_append, List.cons_append, readAll_cons_of_none hnone, readAll_cons_of_none hnone,
      ih]
  | case3 x ls kind hsome ih =>
    rw [List.cons_append, List.cons_append, readAll_cons_of_some hsome,
      readAll_cons_of_some hsome]
    by_cases hend : ending ls = []
    · -- the line stands inside the block, which does not keep it
      obtain ⟨hinterior, hending⟩ := interior_append_of_open hend ms
      have hopen : ending (ls ++ [l]) = [] := by
        obtain ⟨-, hnil⟩ := interior_append_of_open hend [l]
        rw [hnil]
        simp [ending, closes_of_carriesNothing h]
      obtain ⟨hinterior', hending'⟩ := interior_append_of_open hopen ms
      rw [← List.append_cons] at hinterior' hending'
      rw [hinterior, hending, hinterior', hending']
      simp [h]
    · -- the line stands below the end of the block
      obtain ⟨hinterior, hending⟩ := interior_append_of_closed hend ms
      obtain ⟨hinterior', hending'⟩ := interior_append_of_closed hend (l :: ms)
      obtain ⟨closer, rest, hcloser⟩ := List.exists_cons_of_ne_nil hend
      rw [hcloser, List.tail_cons] at ih
      rw [hinterior, hending, hinterior', hending', hcloser, List.cons_append, List.cons_append,
        List.tail_cons, List.tail_cons, ih]
      rfl

/-- The blocks of lines are the same without a line that carries nothing, and also without a line
that opens no block and stands outside of blocks. -/
theorem readAll_insert
    (h : l.carriesNothing = true ∨ ¬ l.Opens ∧ ∀ b ∈ readAll ls, b.terminated = true)
    (ms : List Line) : readAll (ls ++ l :: ms) = readAll (ls ++ ms) := by
  rcases h with hnothing | ⟨hcommentary, hclosed⟩
  · exact readAll_append_nothing hnothing ls ms
  · have hnone : l.opening? = none := by
      rwa [← Option.not_isSome_iff_eq_none, Line.isSome_opening?_iff]
    rw [readAll_append hclosed, readAll_append hclosed, readAll_cons_of_none hnone]

end Block

/-! ### Scripts -/

namespace Script

variable {x : Except Error (List Step)}

/-- The lines of a script. -/
def lines (t : String) : List String := (Text.lines t.toList).map String.ofList

/-- No block is open after the lines. -/
def Closed (ls : List String) : Prop :=
  ∀ b ∈ Block.readAll (Line.numbered 1 ls), b.terminated = true

/-- Steps, or an error, with other numbers of lines. -/
def renumbered (r : Nat → Nat) : Except Error (List Step) → Except Error (List Step) :=
  renumberedOutcome r (List.map (Step.renumbered r))

/-- The steps of a script are those of the blocks of its lines. -/
lemma steps_read (t : String) :
    (read t).steps = (Block.readAll (Line.numbered 1 (lines t))).mapM Block.step := by
  have hblocks : Block.ofText t = Block.readAll (Line.numbered 1 (lines t)) :=
    congrArg Block.readAll (Line.ofText_eq_numbered t)
  rw [← hblocks]
  exact steps_readBlocks _

/-- When the numbers are changed back, the steps or the error are as they were. -/
lemma renumbered_renumbered {r r' : Nat → Nat} (h : ∀ n, r' (r n) = n) :
    renumbered r' (renumbered r x) = x := by
  cases x with
  | ok steps =>
    have hsteps : (steps.map (Step.renumbered r)).map (Step.renumbered r') = steps := by
      rw [List.map_map]
      exact (List.map_congr_left fun s _ => by simp [Step.renumbered, h]).trans (List.map_id steps)
    exact congrArg Except.ok hsteps
  | error e => cases e <;> simp [renumbered, renumberedOutcome, Error.renumbered, h]

/-- A script with another line, which carries nothing, or opens no block and stands outside of
blocks, is read like the script without it, but for the numbers of the lines below. -/
theorem steps_insert {t t' : String} {before after : List String} {l : String}
    (ht : lines t = before ++ after) (ht' : lines t' = before ++ l :: after)
    (hl : (Line.unnumbered l).carriesNothing = true ∨
      ¬ (Line.unnumbered l).Opens ∧ Closed before) :
    (read t').steps = renumbered (Line.below before.length) (read t).steps ∧
      (read t).steps = renumbered (Line.above before.length) (read t').steps := by
  have hread : (read t').steps = renumbered (Line.below before.length) (read t).steps := by
    have hblocks (after : List Line) :
        Block.readAll (Line.numbered 1 before ++ ⟨before.length + 1, l⟩ :: after) =
          Block.readAll (Line.numbered 1 before ++ after) :=
      Block.readAll_insert (l := ⟨before.length + 1, l⟩) hl after
    rw [steps_read, steps_read, ht, ht', Line.numbered_append, Line.numbered_cons,
      Nat.add_comm 1 before.length, hblocks, ← Line.numbered_insert, Block.readAll_renumbered]
    exact mapM_map_renumbered Block.step_renumbered _
  refine ⟨hread, ?_⟩
  rw [hread, renumbered_renumbered (Line.above_below before.length)]

/-- A text that ends with a line feed has its lines before those of the next text. -/
lemma lines_append {a : String} (ha : Text.Ended a.toList) (b : String) :
    lines (a ++ b) = lines a ++ lines b := by
  unfold lines
  rw [String.toList_append, Text.lines_append ha, List.map_append]

/-- A line with a line feed has its text before the lines of the next text. -/
lemma lines_line {l : String} (hl : Text.Fits l.toList) (b : String) :
    lines (l ++ "\n" ++ b) = l :: lines b := by
  have hlist : (l ++ "\n" ++ b).toList = l.toList ++ '\n' :: b.toList := by simp
  unfold lines
  rw [hlist, Text.lines_append_cons hl, List.map_cons, String.ofList_toList]

/-- A line that is put between two parts of a text, the first of which is empty or ends with a line
feed, only changes the numbers of the lines after it, when it carries nothing, or opens no block and
stands outside of blocks. -/
theorem steps_insert_text {a l : String} (ha : Text.Ended a.toList) (hfits : Text.Fits l.toList)
    (hl : (Line.unnumbered l).carriesNothing = true ∨
      ¬ (Line.unnumbered l).Opens ∧ Closed (lines a)) (b : String) :
    (read (a ++ (l ++ "\n" ++ b))).steps =
        renumbered (Line.below (a.toList.count '\n')) (read (a ++ b)).steps ∧
      (read (a ++ b)).steps =
        renumbered (Line.above (a.toList.count '\n')) (read (a ++ (l ++ "\n" ++ b))).steps := by
  have hinserted : lines (a ++ (l ++ "\n" ++ b)) = lines a ++ l :: lines b := by
    rw [lines_append ha, lines_line hfits]
  have hlength : (lines a).length = a.toList.count '\n' := by
    unfold lines
    rw [List.length_map, Text.length_lines ha]
  rw [← hlength]
  exact steps_insert (lines_append ha b) hinserted hl

end Script

end Montage
