import Mathlib.Data.List.TakeWhile
import Mathlib.Tactic.Lemma
import Montage.Proofs.Outcome
import Montage.Proofs.Text.Cutting
import Montage.Script

/-!
# Lines that open blocks

A block runs to the next line that closes one, so a line that begins with `#do` may stand inside a
block.  It never does in a script that can be read: such a line is neither blank nor a comment, so
the block keeps it (`carriesNothing_of_opens`), and it assigns nothing, so the block stands for no
operation (`not_opens_of_ofBlock`).

Hence the steps of a script that can be read are one for each line that begins with `#do`, and a
script with such a line inside an open block cannot be read (`opening_lines_of_read`).
-/

namespace Montage

/-! ### Lines -/

namespace Line

variable {l : Line} {ls : List Line}

/-- The line begins with `#do`. -/
def Opens (l : Line) : Prop := ['#', 'd', 'o'] <+: l.text.toList

/-- Whether a line begins with `#do` can be computed. -/
instance : DecidablePred Opens := fun l =>
  inferInstanceAs (Decidable (['#', 'd', 'o'] <+: l.text.toList))

/-- The text of a line that begins with `#do`. -/
lemma opens_iff : l.Opens ↔ ∃ rest, l.text.toList = '#' :: 'd' :: 'o' :: rest := by
  constructor
  · rintro ⟨rest, hrest⟩
    exact ⟨rest, hrest.symm⟩
  · rintro ⟨rest, hrest⟩
    exact ⟨rest, hrest.symm⟩

/-- A line opens a block exactly when it begins with `#do`. -/
lemma isSome_opening?_iff : l.opening?.isSome = true ↔ l.Opens := by
  rw [opens_iff]
  unfold opening?
  constructor
  · intro h
    split at h
    · rename_i rest hrest
      exact ⟨rest, hrest⟩
    · cases h
  · rintro ⟨rest, hrest⟩
    rw [hrest]
    rfl

/-- A line that begins with `#do` closes no block. -/
lemma closes_of_opens (h : l.Opens) : l.closes = false := by
  obtain ⟨rest, hrest⟩ := opens_iff.1 h
  unfold closes
  rw [hrest]
  rfl

/-- The mark of opening and closing lines is no blank. -/
lemma isBlank_mark : Text.isBlank '#' = false := by decide

/-- The mark of opening and closing lines is no word character. -/
lemma isWord_mark : Text.isWord '#' = false := by decide +kernel

/-- A line that closes a block begins with the mark. -/
lemma exists_mark_of_closes (h : l.closes = true) : ∃ rest, l.text.toList = '#' :: rest := by
  unfold closes at h
  split at h
  · rename_i rest hrest
    exact ⟨_, hrest⟩
  · cases h

/-- A line that begins with the mark is neither blank nor a comment. -/
lemma carriesNothing_of_mark {rest : List Char} (h : l.text.toList = '#' :: rest) :
    l.carriesNothing = false := by
  have htrim : Text.trimStart ('#' :: rest) = '#' :: rest :=
    Text.trimStart_cons_of_not_isBlank isBlank_mark _
  unfold carriesNothing
  rw [h, htrim]
  rfl

/-- A line that begins with no word character, apart from blanks, assigns nothing. -/
lemma split?_of_not_isWord {c : Char} {rest : List Char}
    (h : Text.trimStart l.text.toList = c :: rest) (hc : Text.isWord c = false) :
    Attribute.split? l.text.toList = none := by
  have hkey : (c :: rest).takeWhile Text.isWord = [] :=
    List.takeWhile_cons_of_neg (by simp [hc])
  unfold Attribute.split?
  rw [h]
  dsimp only
  rw [hkey]
  split
  · exact if_neg fun hall => hall.1 rfl
  · rfl

/-- A line that begins with the mark assigns nothing. -/
lemma split?_of_mark {rest : List Char} (h : l.text.toList = '#' :: rest) :
    Attribute.split? l.text.toList = none := by
  have htrim : Text.trimStart l.text.toList = '#' :: rest := by
    rw [h, Text.trimStart_cons_of_not_isBlank isBlank_mark]
  exact split?_of_not_isWord htrim isWord_mark

/-- A line that begins with `#do` is neither blank nor a comment. -/
lemma carriesNothing_of_opens (h : l.Opens) : l.carriesNothing = false := by
  obtain ⟨rest, hrest⟩ := opens_iff.1 h
  exact carriesNothing_of_mark hrest

/-- A line that begins with `#do` assigns nothing. -/
lemma split?_of_opens (h : l.Opens) : Attribute.split? l.text.toList = none := by
  obtain ⟨rest, hrest⟩ := opens_iff.1 h
  exact split?_of_mark hrest

end Line

/-! ### Blocks that stand for steps -/

variable {b : Block} {step : Step} {events : List Event}

/-- A step has the line that opens its block. -/
lemma line_of_ofBlock (h : Step.ofBlock b = .ok (step, events)) : step.line = b.line := by
  unfold Step.ofBlock at h
  split at h
  · cases h
  · obtain ⟨attributes, -, h⟩ := bind_eq_ok.1 h
    obtain ⟨⟨operation, left⟩, -, h⟩ := bind_eq_ok.1 h
    cases h
    rfl

/-- A block that stands for a step has no line inside that begins with `#do`. -/
lemma not_opens_of_ofBlock (h : Step.ofBlock b = .ok (step, events)) :
    ∀ l ∈ b.lines, ¬ l.Opens := by
  unfold Step.ofBlock at h
  split at h
  · cases h
  · obtain ⟨attributes, hattributes, -⟩ := bind_eq_ok.1 h
    obtain ⟨entries, hentries, -⟩ := bind_eq_ok.1 hattributes
    intro l hl hopens
    obtain ⟨a, ha⟩ := exists_eq_ok_of_mapM hentries l hl
    unfold Attribute.ofLine at ha
    rw [Line.split?_of_opens hopens] at ha
    cases ha

/-- The steps of a script are those of its blocks, one for each, in order. -/
theorem readBlocks_eq_ok {bs : List Block} {steps : List Step} :
    (Script.readBlocks bs).steps = .ok steps ↔
      List.Forall₂ (fun b step => ∃ events, Step.ofBlock b = .ok (step, events)) bs steps := by
  induction bs generalizing steps with
  | nil => simp [Script.readBlocks, eq_comm]
  | cons b bs ih =>
    rw [List.forall₂_cons_left_iff, Script.readBlocks]
    cases hb : Step.ofBlock b with
    | error e => simp
    | ok read =>
      obtain ⟨step, events⟩ := read
      simp only [map_eq_ok, ih]
      constructor
      · rintro ⟨rest, hrest, rfl⟩
        exact ⟨step, rest, ⟨events, rfl⟩, hrest, rfl⟩
      · rintro ⟨step', rest, ⟨events', heq⟩, hrest, rfl⟩
        cases heq
        exact ⟨rest, hrest, rfl⟩

/-- In a script that can be read, the steps have the lines that open the blocks, and no line inside
a block begins with `#do`. -/
lemma lines_of_readBlocks {bs : List Block} {steps : List Step}
    (h : (Script.readBlocks bs).steps = .ok steps) :
    steps.map (·.line) = bs.map (·.line) ∧ ∀ b ∈ bs, ∀ l ∈ b.lines, ¬ l.Opens := by
  induction readBlocks_eq_ok.1 h with
  | nil => simp
  | cons hb hbs ih =>
    obtain ⟨events, hb⟩ := hb
    obtain ⟨hlines, hinside⟩ := ih (readBlocks_eq_ok.2 hbs)
    refine ⟨?_, List.forall_mem_cons.2 ⟨not_opens_of_ofBlock hb, hinside⟩⟩
    rw [List.map_cons, List.map_cons, line_of_ofBlock hb, hlines]

/-! ### The blocks of a text -/

namespace Block

variable {l : Line} {ls : List Line} {kind : String}

/-- A line that opens no block, outside of blocks, is commentary. -/
lemma readAll_cons_of_none (h : l.opening? = none) : readAll (l :: ls) = readAll ls := by
  rw [readAll, h]

/-- A line that opens a block is followed by the lines of the block and the line that closes it. -/
lemma readAll_cons_of_some (h : l.opening? = some kind) :
    readAll (l :: ls) =
      { kind := kind
        line := l.number
        lines := (interior ls).filter fun l => !l.carriesNothing
        terminated := !(ending ls).isEmpty } :: readAll (ending ls).tail := by
  rw [readAll, h]

/-- Lines that are followed by a block are the ones before its end and its end. -/
lemma interior_append_ending (ls : List Line) : interior ls ++ ending ls = ls :=
  List.takeWhile_append_dropWhile

/-- The end of a block is a line that closes it, unless there is none. -/
lemma not_opens_of_mem_head?_ending (h : l ∈ (ending ls).head?) : ¬ l.Opens := by
  have hhead := Text.head?_dropWhile (fun l : Line => !l.closes) ls l h
  intro hopens
  simp [Line.closes_of_opens hopens] at hhead

/-- A line inside a block that begins with `#do` is one of the lines that the block keeps. -/
lemma mem_lines_of_opens (hl : l ∈ interior ls) (hopens : l.Opens) :
    l ∈ (interior ls).filter fun l => !l.carriesNothing := by
  simp [hl, Line.carriesNothing_of_opens hopens]

/-- When no line inside a block begins with `#do`, the lines that do are those that open blocks. -/
theorem lines_readAll (h : ∀ b ∈ readAll ls, ∀ l ∈ b.lines, ¬ l.Opens) :
    (readAll ls).map (·.line) = (ls.filter fun l => decide l.Opens).map (·.number) := by
  induction ls using readAll.induct with
  | case1 => simp [readAll]
  | case2 l ls hnone ih =>
    have hopens : ¬ l.Opens := by simp [← Line.isSome_opening?_iff, hnone]
    rw [readAll_cons_of_none hnone] at h ⊢
    rw [ih h, List.filter_cons_of_neg (by simpa using hopens)]
  | case3 l ls kind hsome ih =>
    have hopens : l.Opens := by simp [← Line.isSome_opening?_iff, hsome]
    rw [readAll_cons_of_some hsome] at h ⊢
    obtain ⟨hinside, hrest⟩ := List.forall_mem_cons.1 h
    have hinterior : (interior ls).filter (fun l => decide l.Opens) = [] := by
      refine List.filter_eq_nil_iff.2 fun x hx => ?_
      simpa using fun hx' => hinside x (mem_lines_of_opens hx hx') hx'
    have hending : (ending ls).filter (fun l => decide l.Opens) =
        (ending ls).tail.filter fun l => decide l.Opens := by
      cases hls : ending ls with
      | nil => rfl
      | cons c rest =>
        have hc : ¬ c.Opens := not_opens_of_mem_head?_ending (by rw [hls]; rfl)
        rw [List.filter_cons_of_neg (by simpa using hc), List.tail_cons]
    rw [List.map_cons, ih hrest, List.filter_cons_of_pos (by simpa using hopens), List.map_cons]
    conv_rhs => rw [← interior_append_ending ls]
    rw [List.filter_append, hinterior, List.nil_append, hending]

end Block

/-! ### Blocks that are not closed before the next one -/

/-- Two of the lines begin with `#do`, and no line between them closes a block. -/
def Line.Nested (ls : List Line) : Prop :=
  ∃ before opener inside inner after, ls = before ++ opener :: (inside ++ inner :: after) ∧
    opener.Opens ∧ inner.Opens ∧ ∀ l ∈ inside, l.closes = false

/-- Up to a line that begins with `#do` and is not preceded by a closing one, all is inside. -/
lemma Block.mem_interior {before after : List Line} {l : Line}
    (hbefore : ∀ x ∈ before, x.closes = false) (hl : l.Opens) :
    l ∈ interior (before ++ l :: after) := by
  unfold interior
  rw [List.takeWhile_append_of_pos (by simpa using hbefore),
    List.takeWhile_cons_of_pos (by simp [Line.closes_of_opens hl])]
  simp

/-- What follows the end of a block is the rest of the text after a line that closes one. -/
lemma Block.exists_tail_ending {before after : List Line}
    (h : ∃ x ∈ before, x.closes = true) :
    ∃ rest, (ending (before ++ after)).tail = rest ++ after := by
  have hne : before.dropWhile (fun l => !l.closes) ≠ [] := by
    rw [Ne, List.dropWhile_eq_nil_iff]
    simpa using h
  obtain ⟨c, rest, hrest⟩ := List.exists_cons_of_ne_nil hne
  refine ⟨rest, ?_⟩
  unfold ending
  rw [List.dropWhile_append, hrest]
  rfl

/-- A line that begins with `#do` while a block is open stands inside a block. -/
theorem Block.exists_opens_of_nested {ls : List Line} (h : Line.Nested ls) :
    ∃ b ∈ readAll ls, ∃ l ∈ b.lines, l.Opens := by
  induction ls using readAll.induct with
  | case1 =>
    obtain ⟨before, opener, inside, inner, after, heq, -⟩ := h
    simp at heq
  | case2 l ls hnone ih =>
    obtain ⟨before, opener, inside, inner, after, heq, hopener, hrest⟩ := h
    rw [readAll_cons_of_none hnone]
    cases before with
    | nil =>
      cases heq
      simp [← Line.isSome_opening?_iff, hnone] at hopener
    | cons first before =>
      cases heq
      exact ih ⟨before, opener, inside, inner, after, rfl, hopener, hrest⟩
  | case3 l ls kind hsome ih =>
    obtain ⟨before, opener, inside, inner, after, heq, hopener, hinner, hinside⟩ := h
    rw [readAll_cons_of_some hsome]
    -- the first line that begins with `#do` after `l` is inside the block that `l` opens, unless
    -- that block is closed before
    cases before with
    | nil =>
      cases heq
      exact ⟨_, List.mem_cons_self, inner, mem_lines_of_opens (mem_interior hinside hinner) hinner,
        hinner⟩
    | cons first before =>
      rw [List.cons_append, List.cons.injEq] at heq
      obtain ⟨rfl, rfl⟩ := heq
      by_cases hclosed : ∃ x ∈ before, x.closes = true
      · obtain ⟨rest, hrest⟩ : ∃ rest,
            (ending (before ++ opener :: (inside ++ inner :: after))).tail =
              rest ++ opener :: (inside ++ inner :: after) := exists_tail_ending hclosed
        rw [hrest] at ih ⊢
        obtain ⟨b, hb, hlines⟩ :=
          ih ⟨rest, opener, inside, inner, after, rfl, hopener, hinner, hinside⟩
        exact ⟨b, List.mem_cons_of_mem _ hb, hlines⟩
      · have hopen : ∀ x ∈ before, x.closes = false := by simpa using hclosed
        exact ⟨_, List.mem_cons_self, opener,
          mem_lines_of_opens (mem_interior hopen hopener) hopener, hopener⟩

/-! ### Scripts -/

namespace Script

/-- The numbers of the lines of a text that begin with `#do`; the first line has number 1. -/
def openingLines (text : String) : List Nat :=
  (((Text.lines text.toList).zipIdx 1).filter fun l => ['#', 'd', 'o'].isPrefixOf l.1).map (·.2)

/-- These numbers increase. -/
lemma pairwise_openingLines (text : String) : (openingLines text).Pairwise (· < ·) := by
  have hall : (((Text.lines text.toList).zipIdx 1).map (·.2)).Pairwise (· < ·) := by
    rw [List.zipIdx_map_snd]
    exact List.pairwise_lt_range'
  exact hall.sublist (List.filter_sublist.map _)

/-- They are the numbers of the numbered lines that begin with `#do`. -/
lemma openingLines_eq (text : String) : openingLines text =
    ((Line.ofText text).filter fun l => decide l.Opens).map (·.number) := by
  unfold openingLines Line.ofText
  rw [List.filter_map, List.map_map]
  congr 1
  refine List.filter_congr fun l _ => ?_
  rw [Bool.eq_iff_iff]
  simp [Line.Opens]

/-- The steps of a script that can be read have the numbers of the lines that begin with `#do`, all
of them, in the order of the script.  A script in which such a line follows another one, before the
block is closed, cannot be read. -/
theorem opening_lines_of_read (text : String) :
    (∀ steps, (read text).steps = .ok steps →
      steps.map (·.line) = openingLines text ∧ (steps.map (·.line)).Pairwise (· < ·)) ∧
    (Line.Nested (Line.ofText text) → ∃ e, (read text).steps = .error e) := by
  constructor
  · intro steps h
    obtain ⟨hlines, hinside⟩ := lines_of_readBlocks h
    have hall : steps.map (·.line) = openingLines text := by
      rw [hlines, openingLines_eq]
      exact Block.lines_readAll hinside
    exact ⟨hall, hall ▸ pairwise_openingLines text⟩
  · intro hnested
    cases hread : (read text).steps with
    | error e => exact ⟨e, rfl⟩
    | ok steps =>
      obtain ⟨-, hinside⟩ := lines_of_readBlocks hread
      obtain ⟨b, hb, l, hl, hopens⟩ := Block.exists_opens_of_nested hnested
      exact absurd hopens (hinside b hb l hl)

end Script

end Montage
