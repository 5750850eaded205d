import Montage.Proofs.Script.Renumbered
import Montage.Proofs.Script.RoundTrip

/-!
# Scripts after one another

A script that stands after another one is read as it is alone, only further down, provided that the
first script ends with a line feed and closes its blocks (`read_append`).

The three steps of reading agree on this one after the other: the lines of both texts are those of
the first and then those of the second, counted on (`ofText_append`); the blocks are those of the
first and then those of the second (`readAll_append`); and the steps are those of the blocks, up to
the first one that stands for no operation (`steps_readBlocks`).
-/

namespace Montage

/-! ### Lines -/

namespace Text

/-- The text is empty or ends with a line feed. -/
def Ended (cs : List Char) : Prop := ∀ c ∈ cs.getLast?, c = '\n'

instance : DecidablePred Ended := fun cs =>
  decidable_of_iff (cs.getLast?.all (· == '\n') = true) (by simp [Ended, Option.all_eq_true])

/-- What follows the first character of a text that ends with a line feed does so too. -/
lemma Ended.tail {c : Char} {cs : List Char} (h : Ended (c :: cs)) : Ended cs := by
  intro d hd
  refine h d ?_
  rw [List.getLast?_cons, Option.mem_def.1 hd, Option.getD_some]
  exact Option.mem_some_self d

/-- A text that ends with a line feed, and does not begin with one, has more than one character. -/
lemma Ended.ne_nil {c : Char} {cs : List Char} (h : Ended (c :: cs)) (hc : c ≠ '\n') : cs ≠ [] := by
  rintro rfl
  exact hc (h c rfl)

/-- A text has lines unless it is empty. -/
lemma lines_ne_nil {cs : List Char} (h : cs ≠ []) : lines cs ≠ [] := by
  fun_cases lines cs <;> simp_all

/-- A character that ends no line stands at the beginning of the first line. -/
lemma lines_cons {c : Char} {cs : List Char} {l : List Char} {ls : List (List Char)}
    (hreturn : ∀ ds, c = '\r' → cs = '\n' :: ds → False) (hfeed : c ≠ '\n')
    (h : lines cs = l :: ls) : lines (c :: cs) = (c :: l) :: ls := by
  rw [lines.eq_4 c cs hreturn hfeed, h]

/-- The lines of a text that ends with a line feed are followed by those of the next text. -/
lemma lines_append {cs : List Char} (h : Ended cs) (ds : List Char) :
    lines (cs ++ ds) = lines cs ++ lines ds := by
  fun_induction lines cs with
  | case1 => rfl
  | case2 cs ih => exact congrArg ([] :: ·) (ih h.tail.tail)
  | case3 cs ih =>
    rw [List.cons_append, lines.eq_3, ih h.tail, List.cons_append]
  | case4 c cs hreturn hfeed hnil ih => exact absurd hnil (lines_ne_nil (h.ne_nil hfeed))
  | case5 c cs hreturn hfeed l ls heq ih =>
    have hlines : lines (cs ++ ds) = l :: (ls ++ lines ds) := by
      rw [ih h.tail, heq, List.cons_append]
    refine lines_cons ?_ hfeed hlines
    intro es hc hes
    cases cs with
    | nil => exact h.ne_nil hfeed rfl
    | cons d cs =>
      obtain ⟨rfl, -⟩ := List.cons.inj hes
      exact hreturn cs hc rfl

/-- A text that ends with a line feed has one line for each. -/
lemma length_lines {cs : List Char} (h : Ended cs) : (lines cs).length = cs.count '\n' := by
  fun_induction lines cs with
  | case1 => rfl
  | case2 cs ih => simp [ih h.tail.tail]
  | case3 cs ih => simp [ih h.tail]
  | case4 c cs hreturn hfeed hnil ih => exact absurd hnil (lines_ne_nil (h.ne_nil hfeed))
  | case5 c cs hreturn hfeed l ls heq ih =>
    rw [List.count_cons_of_ne hfeed, ← ih h.tail, heq, List.length_cons, List.length_cons]

end Text

namespace Line

variable {n : Nat}

/-- Lines that are counted from further down are the same lines, further down. -/
lemma numbered_add (first n : Nat) (ls : List String) :
    numbered (first + n) ls = (numbered first ls).map (renumbered (· + n)) := by
  induction ls generalizing first with
  | nil => rfl
  | cons l ls ih =>
    rw [numbered_cons, numbered_cons, List.map_cons, ← ih, Nat.add_right_comm]
    rfl

/-- The lines of a text after one that ends with a line feed are counted on. -/
lemma ofText_append {a : String} (h : Text.Ended a.toList) (b : String) :
    ofText (a ++ b) = ofText a ++ (ofText b).map (renumbered (· + a.toList.count '\n')) := by
  rw [ofText_eq_numbered, ofText_eq_numbered, ofText_eq_numbered, String.toList_append,
    Text.lines_append h, List.map_append, numbered_append, List.length_map, Text.length_lines h,
    numbered_add]

end Line

/-! ### Blocks -/

namespace Block

variable {ls ms : List Line}

/-- The end of a block begins with the first line that closes it. -/
lemma closes_of_ending {closer : Line} {rest : List Line} (h : ending ls = closer :: rest) :
    closer.closes = true ∧ ∀ l ∈ interior ls, l.closes = false := by
  constructor
  · have hhead := List.head?_dropWhile_not (fun l : Line => !l.closes) ls
    unfold ending at h
    rw [h] at hhead
    simpa using hhead
  · intro l hl
    simpa using List.mem_takeWhile_imp hl

/-- When the blocks of lines are closed, the blocks of further lines follow them. -/
lemma readAll_append (h : ∀ b ∈ readAll ls, b.terminated = true) :
    readAll (ls ++ ms) = readAll ls ++ readAll ms := by
  induction ls using readAll.induct with
  | case1 => simp [readAll]
  | case2 l ls hnone ih =>
    rw [readAll_cons_of_none hnone] at h
    rw [List.cons_append, readAll_cons_of_none hnone, readAll_cons_of_none hnone, ih h]
  | case3 l ls kind hsome ih =>
    rw [readAll_cons_of_some hsome] at h
    obtain ⟨hclosed, hrest⟩ := List.forall_mem_cons.1 h
    have hending : ending ls ≠ [] := by simpa using hclosed
    obtain ⟨closer, rest, heq⟩ := List.exists_cons_of_ne_nil hending
    obtain ⟨hcloser, hinside⟩ := closes_of_ending heq
    rw [heq, List.tail_cons] at hrest ih
    rw [← interior_append_ending ls, heq, List.cons_append, List.append_assoc, List.cons_append,
      readAll_closed hsome hinside hcloser, readAll_closed hsome hinside hcloser, ih hrest,
      List.cons_append]

end Block

/-! ### Scripts -/

namespace Script

/-- The steps of blocks are read one after the other, up to the first failure. -/
lemma steps_readBlocks (bs : List Block) : (readBlocks bs).steps = bs.mapM Block.step := by
  induction bs with
  | nil => rfl
  | cons b bs ih =>
    rw [readBlocks, List.mapM_cons, ← ih, Block.step]
    cases Step.ofBlock b <;> rfl

variable {a b : String}

/-- A script after one that ends with a line feed and closes its blocks is read further down, once
the first one has been read. -/
lemma steps_read_append (hend : Text.Ended a.toList)
    (hclosed : ∀ block ∈ Block.ofText a, block.terminated = true) (b : String) :
    (read (a ++ b)).steps = (do
      let s ← (read a).steps
      let t ← renumberedOutcome (· + a.toList.count '\n')
        (List.map (Step.renumbered (· + a.toList.count '\n'))) (read b).steps
      return s ++ t) := by
  have hblocks : Block.ofText (a ++ b) =
      Block.ofText a ++ (Block.ofText b).map (Block.renumbered (· + a.toList.count '\n')) := by
    unfold Block.ofText
    rw [Line.ofText_append hend, Block.readAll_append hclosed, Block.readAll_renumbered]
  have hsteps (text : String) : (read text).steps = (Block.ofText text).mapM Block.step :=
    steps_readBlocks _
  rw [hsteps, hsteps, hsteps, hblocks, List.mapM_append,
    mapM_map_renumbered Block.step_renumbered]

/-- A script after one that is empty or ends with a line feed, and that closes its blocks: when the
first one cannot be read, neither can the whole, with the same error.  When it can, the whole has
its steps and then those of the second script, with every line larger by the number of line feeds in
the first; or the error of the second script, with its line larger by this number. -/
theorem read_append (hend : a = "" ∨ a.toList.getLast? = some '\n')
    (hclosed : ∀ block ∈ Block.ofText a, block.terminated = true) (b : String) :
    (∀ e, (read a).steps = .error e → (read (a ++ b)).steps = .error e) ∧
      ∀ s, (read a).steps = .ok s →
        (∀ t, (read b).steps = .ok t →
          (read (a ++ b)).steps =
            .ok (s ++ t.map (Step.renumbered (· + a.toList.count '\n')))) ∧
        ∀ e, (read b).steps = .error e →
          (read (a ++ b)).steps = .error (e.renumbered (· + a.toList.count '\n')) := by
  have hended : Text.Ended a.toList := by
    rcases hend with rfl | hlast
    · intro c hc
      cases hc
    · intro c hc
      exact Option.some.inj (hc.symm.trans hlast)
  have hread := steps_read_append hended hclosed b
  refine ⟨fun e he => ?_, fun s hs => ⟨fun t ht => ?_, fun e he => ?_⟩⟩
  · rw [hread, he]
    rfl
  · rw [hread, hs, ht]
    rfl
  · rw [hread, hs, he]
    rfl

/-- A script of one block: a title card. -/
def slate : String := "#do define\nname = card\ntype = image\nsource = card.png\n#end\n"

/-- The step of the title card, when its block opens on the given line. -/
def slateStep (line : Nat) : Step :=
  ⟨line, .define ⟨"card", .image, ⟨"card.png"⟩, false, none, none⟩⟩

/-- After the title card, whose script has five lines, a second one has its step further down, and
a block of an unknown kind is reported further down. -/
theorem read_append_slate :
    (read (slate ++ slate)).steps = .ok [slateStep 1, slateStep 6] ∧
      (read (slate ++ "fade out\n#do fade\n#end\n")).steps = .error (.unknownKind "fade" 7) := by
  have hend : slate = "" ∨ slate.toList.getLast? = some '\n' := .inr (by decide +kernel)
  have hclosed : ∀ block ∈ Block.ofText slate, block.terminated = true := by decide +kernel
  have hslate : (read slate).steps = .ok [slateStep 1] := toOption_eq_some.1 (by decide +kernel)
  have hfade : (read "fade out\n#do fade\n#end\n").steps = .error (.unknownKind "fade" 2) := by
    decide +kernel
  have hfeeds : slate.toList.count '\n' = 5 := by decide +kernel
  constructor
  · have hread := ((read_append hend hclosed slate).2 _ hslate).1 _ hslate
    rw [hfeeds] at hread
    exact hread
  · have hread := ((read_append hend hclosed _).2 _ hslate).2 _ hfade
    rw [hfeeds] at hread
    exact hread

end Script

end Montage
