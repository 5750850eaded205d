import Mathlib.Data.List.Induction
import Montage.Proofs.Script.Concatenation

/-!
# How blocks divide a script

The span of a block begins at the line that opens it.  It runs to the first line below that begins
with `#end`, or to the end of the script when there is none (`Block.closer?`, `Block.lastLine`).
The spans of the blocks of a script follow one another and do not meet, a block has the lines inside
its span that are neither blank nor comments, and no line outside of all spans begins with `#do`
(`divides_ofText`).

Reading takes the lines off from the top, and each block sees only what the blocks before it have
left.  `Cuts` says how lines fall into gaps and blocks in this way, and the numbers of the lines
tell where that is in the whole script.
-/

namespace Montage

/-! ### Numbered lines -/

namespace Line

variable {l : Line} {ls : List Line}

/-- The line begins with `#end`. -/
def Closes (l : Line) : Prop := ['#', 'e', 'n', 'd'] <+: l.text.toList

/-- Whether a line begins with `#end` can be computed. -/
instance : DecidablePred Closes := fun l =>
  inferInstanceAs (Decidable (['#', 'e', 'n', 'd'] <+: l.text.toList))

/-- A line closes a block exactly when it begins with `#end`. -/
lemma closes_iff : l.closes = true ↔ l.Closes := by
  unfold closes Closes
  constructor
  · intro h
    split at h
    · rename_i rest hrest
      exact ⟨rest, hrest.symm⟩
    · cases h
  · rintro ⟨rest, hrest⟩
    rw [← hrest]
    rfl

/-- Each line has a larger number than those before it. -/
def Ascending (ls : List Line) : Prop := ls.Pairwise fun l l' => l.number < l'.number

/-- The numbers of the lines of a text count from 1. -/
lemma map_number_ofText (text : String) :
    (ofText text).map (·.number) = List.range' 1 (Text.lines text.toList).length := by
  unfold ofText
  rw [List.map_map]
  exact List.zipIdx_map_snd 1 _

/-- The lines of a text have larger and larger numbers. -/
lemma ascending_ofText (text : String) : Ascending (ofText text) := by
  rw [Ascending, ← List.pairwise_map (f := Line.number) (R := (· < ·)), map_number_ofText]
  exact List.pairwise_lt_range'

/-- The last line of a text has the number of its lines. -/
lemma getLast?_ofText (text : String) :
    (ofText text).getLast?.elim 0 (·.number) = (Text.lines text.toList).length := by
  have hlast : ((ofText text).map (·.number)).getLast? =
      (ofText text).getLast?.map (·.number) := List.getLast?_map
  rw [map_number_ofText] at hlast
  cases hls : (ofText text).getLast? with
  | none =>
    rw [hls, Option.map_none, List.getLast?_eq_none_iff, List.range'_eq_nil_iff] at hlast
    exact hlast.symm
  | some l =>
    rw [hls, Option.map_some, List.getLast?_range'] at hlast
    split at hlast
    · cases hlast
    · have hnumber := Option.some.inj hlast
      dsimp only [Option.elim]
      omega

/-- No line has a larger number than the last one. -/
lemma Ascending.number_le (h : Ascending ls) (hl : l ∈ ls) :
    l.number ≤ ls.getLast?.elim 0 (·.number) := by
  induction ls using List.reverseRecOn with
  | nil => cases hl
  | append_singleton ls last _ =>
    obtain ⟨-, -, hbefore⟩ := List.pairwise_append.1 h
    rw [List.getLast?_concat]
    rcases List.mem_append.1 hl with hl | hl
    · exact (hbefore l hl last (List.mem_singleton_self last)).le
    · rw [List.mem_singleton.1 hl]
      exact le_rfl

end Line

open Line

namespace Block

/-! ### Spans -/

/-- The line that closes a block: the first one below its opening line that begins with `#end`. -/
def closer? (ls : List Line) (b : Block) : Option Line :=
  ls.find? fun l => decide (b.line < l.number ∧ l.Closes)

/-- The number of the last line of a span: that of the line that closes the block or, when there is
none, that of the last line of all. -/
def lastLine (ls : List Line) (b : Block) : Nat :=
  ((b.closer? ls).or ls.getLast?).elim 0 (·.number)

/-- The line lies inside the span of a block: it is a line of the span, and neither the one that
opens the block nor the one that closes it. -/
def Encloses (ls : List Line) (b : Block) (l : Line) : Prop :=
  b.line < l.number ∧ l.number ≤ b.lastLine ls ∧ b.closer? ls ≠ some l

/-- Whether a line lies inside a span can be computed. -/
instance (ls : List Line) (b : Block) (l : Line) : Decidable (b.Encloses ls l) :=
  inferInstanceAs (Decidable (_ ∧ _ ∧ _))

/-- The block is what its span says: its line begins with `#do` and names its kind, it is terminated
when a line closes it, and it has the lines inside the span that are neither blank nor comments. -/
structure Occupies (ls : List Line) (b : Block) : Prop where
  opening : ∃ l ∈ ls, l.number = b.line ∧ ∃ rest, l.text.toList = '#' :: 'd' :: 'o' :: rest ∧
    b.kind = String.ofList (Text.trim rest)
  terminated : b.terminated = (b.closer? ls).isSome
  nonempty : b.line ≤ b.lastLine ls
  lines : b.lines = ls.filter fun l => decide (b.Encloses ls l) && !l.carriesNothing

/-! ### Reading cuts lines -/

/-- The block is read from a line, the lines inside, and what is left below these. -/
structure Fills (b : Block) (opener : Line) (inside below : List Line) : Prop where
  opening : opener.opening? = some b.kind
  line : b.line = opener.number
  unclosed : ∀ l ∈ inside, l.closes = false
  closing : ∀ l ∈ below.head?, l.closes = true
  terminated : b.terminated = below.head?.isSome
  lines : b.lines = inside.filter fun l => !l.carriesNothing

/-- The lines fall into gaps, in which no line begins with `#do`, and blocks. -/
inductive Cuts : List Line → List Block → Prop
  | done {gap : List Line} (hgap : ∀ l ∈ gap, ¬ l.Opens) : Cuts gap []
  | block {gap inside below : List Line} {opener : Line} {b : Block} {bs : List Block}
      (hgap : ∀ l ∈ gap, ¬ l.Opens) (hfills : b.Fills opener inside below)
      (hrest : Cuts below.tail bs) : Cuts (gap ++ opener :: (inside ++ below)) (b :: bs)

variable {b : Block} {bs : List Block} {all above ls inside below : List Line} {l opener : Line}

/-- A line that does not begin with `#do` widens the first gap. -/
lemma Cuts.cons (h : Cuts ls bs) (hl : ¬ l.Opens) : Cuts (l :: ls) bs := by
  cases h with
  | done hgap => exact .done (List.forall_mem_cons.2 ⟨hl, hgap⟩)
  | block hgap hfills hrest =>
    exact Cuts.block (List.forall_mem_cons.2 ⟨hl, hgap⟩) hfills hrest

/-- Reading cuts the lines. -/
theorem cuts_readAll (ls : List Line) : Cuts ls (readAll ls) := by
  induction ls using readAll.induct with
  | case1 => exact readAll.eq_1 ▸ .done (List.forall_mem_nil _)
  | case2 l ls hnone ih =>
    have hl : ¬ l.Opens := by simp [← isSome_opening?_iff, hnone]
    rw [readAll_cons_of_none hnone]
    exact ih.cons hl
  | case3 l ls kind hsome ih =>
    rw [readAll_cons_of_some hsome]
    have hlines : l :: ls = [] ++ l :: (interior ls ++ ending ls) := by
      rw [interior_append_ending, List.nil_append]
    rw [hlines]
    refine .block (List.forall_mem_nil _) ⟨hsome, rfl, fun x hx => ?_, fun c hc => ?_, ?_, rfl⟩ ih
    · simpa using List.mem_takeWhile_imp hx
    · simpa using Text.head?_dropWhile (fun l : Line => !l.closes) ls c hc
    · cases ending ls <;> rfl

/-! ### The place of a block in the whole script -/

/-- The lines around a block are numbered in their order. -/
structure Ordered (above : List Line) (opener : Line) (inside below : List Line) : Prop where
  above : ∀ l ∈ above, l.number < opener.number
  opener : ∀ l ∈ inside ++ below, opener.number < l.number
  inside : ∀ l ∈ inside, ∀ c ∈ below, l.number < c.number
  below : Ascending below

/-- Lines with larger and larger numbers are in order around a block. -/
lemma ordered_of_ascending (hall : all = above ++ opener :: (inside ++ below))
    (hasc : Ascending all) : Ordered above opener inside below := by
  subst hall
  obtain ⟨-, hlater, habove⟩ := List.pairwise_append.1 hasc
  obtain ⟨hopener, hlater⟩ := List.pairwise_cons.1 hlater
  obtain ⟨-, hbelow, hinside⟩ := List.pairwise_append.1 hlater
  exact ⟨fun l hl => habove l hl opener List.mem_cons_self, hopener, hinside, hbelow⟩

namespace Fills

/-- The line that closes a block is the first one that is left below it. -/
lemma closer?_eq (h : b.Fills opener inside below)
    (hall : all = above ++ opener :: (inside ++ below)) (hasc : Ascending all) :
    b.closer? all = below.head? := by
  have hordered := ordered_of_ascending hall hasc
  subst hall
  have hno (l : Line) (hl : l ∈ above ++ opener :: inside) :
      ¬ decide (b.line < l.number ∧ l.Closes) = true := by
    rw [decide_eq_true_eq, h.line]
    rintro ⟨hlt, hcloses⟩
    rcases List.mem_append.1 hl with hl | hl
    · exact hlt.asymm (hordered.above l hl)
    · rcases List.mem_cons.1 hl with rfl | hl
      · exact lt_irrefl _ hlt
      · exact Bool.false_ne_true ((h.unclosed l hl).symm.trans (closes_iff.2 hcloses))
  have hsplit : above ++ opener :: (inside ++ below) = (above ++ opener :: inside) ++ below := by
    simp
  unfold closer?
  rw [hsplit, List.find?_append, List.find?_eq_none.2 hno, Option.none_or]
  cases below with
  | nil => rfl
  | cons c rest =>
    have hc : b.line < c.number ∧ c.Closes :=
      ⟨h.line ▸ hordered.opener c (by simp), closes_iff.1 (h.closing c rfl)⟩
    exact List.find?_cons_of_pos (decide_eq_true hc)

/-- The span of a block that is closed ends at the line that closes it. -/
lemma lastLine_cons {c : Line} {rest : List Line} (h : b.Fills opener inside (c :: rest))
    (hall : all = above ++ opener :: (inside ++ c :: rest)) (hasc : Ascending all) :
    b.lastLine all = c.number := by
  rw [lastLine, h.closer?_eq hall hasc]
  rfl

/-- The span of a block that is not closed ends at the last line. -/
lemma lastLine_nil (h : b.Fills opener inside []) (hall : all = above ++ opener :: (inside ++ []))
    (hasc : Ascending all) : b.lastLine all = all.getLast?.elim 0 (·.number) := by
  rw [lastLine, h.closer?_eq hall hasc]
  rfl

/-- The lines of a span are those from the opening line on that are not left below, but for the one
that closes the block. -/
lemma number_le_lastLine (h : b.Fills opener inside below)
    (hall : all = above ++ opener :: (inside ++ below)) (hasc : Ascending all)
    (hl : l ∈ opener :: inside) : l.number ≤ b.lastLine all := by
  cases below with
  | nil =>
    rw [h.lastLine_nil hall hasc]
    exact hasc.number_le (by simp [hall, List.mem_cons.1 hl])
  | cons c rest =>
    have hordered := ordered_of_ascending hall hasc
    rw [h.lastLine_cons hall hasc]
    rcases List.mem_cons.1 hl with rfl | hl
    · exact (hordered.opener c (by simp)).le
    · exact (hordered.inside l hl c List.mem_cons_self).le

/-- The lines of a span are not above the line that opens the block. -/
lemma line_le (h : b.Fills opener inside below)
    (hall : all = above ++ opener :: (inside ++ below)) (hasc : Ascending all)
    (hl : l ∈ opener :: inside) : b.line ≤ l.number := by
  rw [h.line]
  rcases List.mem_cons.1 hl with rfl | hl
  · exact le_rfl
  · exact ((ordered_of_ascending hall hasc).opener l (List.mem_append_left _ hl)).le

/-- The lines that a block is read from lie inside its span. -/
lemma encloses_of_mem (h : b.Fills opener inside below)
    (hall : all = above ++ opener :: (inside ++ below)) (hasc : Ascending all) (hl : l ∈ inside) :
    b.Encloses all l := by
  have hordered := ordered_of_ascending hall hasc
  refine ⟨h.line ▸ hordered.opener l (List.mem_append_left _ hl),
    h.number_le_lastLine hall hasc (List.mem_cons_of_mem _ hl), fun hcloser => ?_⟩
  rw [h.closer?_eq hall hasc] at hcloser
  exact lt_irrefl _ (hordered.inside l hl l (List.mem_of_mem_head? hcloser))

/-- The lines above the inside of a block do not lie inside its span. -/
lemma not_encloses_of_above (h : b.Fills opener inside below)
    (hall : all = above ++ opener :: (inside ++ below)) (hasc : Ascending all)
    (hl : l ∈ above ++ [opener]) : ¬ b.Encloses all l := by
  rintro ⟨hlt, -, -⟩
  rw [h.line] at hlt
  rcases List.mem_append.1 hl with hl | hl
  · exact hlt.asymm ((ordered_of_ascending hall hasc).above l hl)
  · rw [List.mem_singleton.1 hl] at hlt
    exact lt_irrefl _ hlt

/-- The lines that are left below a block do not lie inside its span. -/
lemma not_encloses_of_below (h : b.Fills opener inside below)
    (hall : all = above ++ opener :: (inside ++ below)) (hasc : Ascending all) (hl : l ∈ below) :
    ¬ b.Encloses all l := by
  rintro ⟨-, hle, hne⟩
  cases below with
  | nil => cases hl
  | cons c rest =>
    rw [h.lastLine_cons hall hasc] at hle
    rcases List.mem_cons.1 hl with rfl | hl
    · exact hne (h.closer?_eq hall hasc)
    · have hbelow := (ordered_of_ascending hall hasc).below
      exact hle.not_gt ((List.pairwise_cons.1 hbelow).1 l hl)

/-- The lines inside the span of a block are those that it is read from. -/
lemma filter_encloses (h : b.Fills opener inside below)
    (hall : all = above ++ opener :: (inside ++ below)) (hasc : Ascending all) :
    all.filter (fun l => decide (b.Encloses all l)) = inside := by
  have hsplit : all = (above ++ [opener]) ++ (inside ++ below) := by simp [hall]
  have habove : (above ++ [opener]).filter (fun l => decide (b.Encloses all l)) = [] :=
    List.filter_eq_nil_iff.2 fun l hl => by simpa using h.not_encloses_of_above hall hasc hl
  have hinside : inside.filter (fun l => decide (b.Encloses all l)) = inside :=
    List.filter_eq_self.2 fun l hl => decide_eq_true (h.encloses_of_mem hall hasc hl)
  have hbelow : below.filter (fun l => decide (b.Encloses all l)) = [] :=
    List.filter_eq_nil_iff.2 fun l hl => by simpa using h.not_encloses_of_below hall hasc hl
  calc all.filter (fun l => decide (b.Encloses all l))
      = ((above ++ [opener]) ++ (inside ++ below)).filter fun l => decide (b.Encloses all l) :=
        congrArg (List.filter _) hsplit
    _ = inside := by
        rw [List.filter_append _ (inside ++ below), habove, List.nil_append, List.filter_append,
          hinside, hbelow, List.append_nil]

/-- A block that is read from lines of a script is what its span there says. -/
lemma occupies (h : b.Fills opener inside below)
    (hall : all = above ++ opener :: (inside ++ below)) (hasc : Ascending all) :
    b.Occupies all where
  opening := by
    have hopening := h.opening
    unfold opening? at hopening
    split at hopening
    · rename_i rest hrest
      exact ⟨opener, by simp [hall], h.line.symm, rest, hrest, (Option.some.inj hopening).symm⟩
    · cases hopening
  terminated := by rw [h.terminated, h.closer?_eq hall hasc]
  nonempty := h.line ▸ h.number_le_lastLine hall hasc List.mem_cons_self
  lines := by
    have hinside := congrArg (List.filter fun l => !l.carriesNothing) (h.filter_encloses hall hasc)
    rw [List.filter_filter] at hinside
    rw [h.lines, ← hinside]
    exact List.filter_congr fun l _ => Bool.and_comm _ _

/-- What is left below the line that closes a block is the end of the whole script. -/
lemma all_eq {above inside below : List Line} {opener : Line}
    (hall : all = above ++ opener :: (inside ++ below)) :
    all = (above ++ opener :: (inside ++ below.head?.toList)) ++ below.tail := by
  cases below <;> simp [hall]

/-- What is left below the line that closes a block lies below the span of the block. -/
lemma lastLine_lt (h : b.Fills opener inside below)
    (hall : all = above ++ opener :: (inside ++ below)) (hasc : Ascending all)
    (hl : l ∈ below.tail) : b.lastLine all < l.number := by
  cases below with
  | nil => cases hl
  | cons c rest =>
    have hbelow := (ordered_of_ascending hall hasc).below
    rw [h.lastLine_cons hall hasc]
    exact (List.pairwise_cons.1 hbelow).1 l hl

end Fills

/-! ### All blocks -/

namespace Cuts

/-- The blocks that lines are cut into are opened by these lines. -/
lemma exists_number (h : Cuts ls bs) : ∀ b ∈ bs, ∃ l ∈ ls, l.number = b.line := by
  induction h with
  | done hgap => simp
  | @block gap inside below opener b bs hgap hfills hrest ih =>
    refine List.forall_mem_cons.2 ⟨⟨opener, by simp, hfills.line.symm⟩, fun d hd => ?_⟩
    obtain ⟨l, hl, hnumber⟩ := ih d hd
    refine ⟨l, ?_, hnumber⟩
    simp [List.mem_of_mem_tail hl]

/-- Each block is what its span in the whole script says. -/
lemma occupies (h : Cuts ls bs) (hall : all = above ++ ls) (hasc : Ascending all) :
    ∀ b ∈ bs, b.Occupies all := by
  induction h generalizing above with
  | done hgap => simp
  | @block gap inside below opener b bs hgap hfills hrest ih =>
    rw [← List.append_assoc] at hall
    exact List.forall_mem_cons.2 ⟨hfills.occupies hall hasc, ih (Fills.all_eq hall)⟩

/-- The spans of the blocks follow one another. -/
lemma pairwise (h : Cuts ls bs) (hall : all = above ++ ls) (hasc : Ascending all) :
    bs.Pairwise fun b d => b.lastLine all < d.line := by
  induction h generalizing above with
  | done hgap => exact .nil
  | @block gap inside below opener b bs hgap hfills hrest ih =>
    rw [← List.append_assoc] at hall
    refine List.pairwise_cons.2 ⟨fun d hd => ?_, ih (Fills.all_eq hall)⟩
    obtain ⟨l, hl, hnumber⟩ := hrest.exists_number d hd
    rw [← hnumber]
    exact hfills.lastLine_lt hall hasc hl

/-- A line that begins with `#do` lies in the span of a block. -/
lemma exists_span (h : Cuts ls bs) (hall : all = above ++ ls) (hasc : Ascending all) :
    ∀ l ∈ ls, l.Opens → ∃ b ∈ bs, b.line ≤ l.number ∧ l.number ≤ b.lastLine all := by
  induction h generalizing above with
  | done hgap => exact fun l hl hopens => absurd hopens (hgap l hl)
  | @block gap inside below opener b bs hgap hfills hrest ih =>
    rw [← List.append_assoc] at hall
    intro l hl hopens
    -- the line is not in the gap, and the one that closes the block opens none
    have hgap' : l ∉ gap := fun hmem => hgap l hmem hopens
    have hcloser : l ∉ below.head? := fun hhead =>
      Bool.false_ne_true ((closes_of_opens hopens).symm.trans (hfills.closing l hhead))
    have hwhere : l ∈ opener :: inside ∨ l ∈ below.tail := by
      cases below with
      | nil => simpa [hgap'] using hl
      | cons c rest =>
        have hne : l ≠ c := fun heq => hcloser (heq ▸ rfl)
        simpa [hgap', hne, or_assoc] using hl
    rcases hwhere with hspan | hlater
    · exact ⟨b, List.mem_cons_self, hfills.line_le hall hasc hspan,
        hfills.number_le_lastLine hall hasc hspan⟩
    · obtain ⟨d, hd, hwithin⟩ := ih (Fills.all_eq hall) l hlater hopens
      exact ⟨d, List.mem_cons_of_mem _ hd, hwithin⟩

/-- A block that is not closed is the last one. -/
lemma getLast?_of_unterminated (h : Cuts ls bs) :
    ∀ b ∈ bs, b.terminated = false → bs.getLast? = some b := by
  induction h with
  | done hgap => simp
  | @block gap inside below opener b bs hgap hfills hrest ih =>
    refine List.forall_mem_cons.2 ⟨fun hopen => ?_, fun d hd hopen => ?_⟩
    · cases below with
      | cons c rest => cases hopen.symm.trans hfills.terminated
      | nil =>
        cases hrest' : bs with
        | nil => rfl
        | cons d ds =>
          rw [hrest'] at hrest
          obtain ⟨l, hl, -⟩ := hrest.exists_number d List.mem_cons_self
          cases hl
    · rw [List.getLast?_cons, ih d hd hopen, Option.getD_some]

end Cuts

/-- The spans of the blocks of a script follow one another without meeting, and each block is what
its span says.  Only the last block can be without a line that closes it, and then its span runs to
the last line of the script.  Every line that begins with `#do` lies in the span of a block. -/
theorem divides_ofText (text : String) :
    (ofText text).Pairwise (fun b d => b.lastLine (Line.ofText text) < d.line) ∧
    (∀ b ∈ ofText text, b.Occupies (Line.ofText text) ∧ (b.terminated = false →
      b.lastLine (Line.ofText text) = (Text.lines text.toList).length ∧
        (ofText text).getLast? = some b)) ∧
    ∀ l ∈ Line.ofText text, l.Opens → ∃ b ∈ ofText text,
      b.line ≤ l.number ∧ l.number ≤ b.lastLine (Line.ofText text) := by
  have hcuts : Cuts (Line.ofText text) (ofText text) := cuts_readAll _
  have hasc := ascending_ofText text
  have hall : Line.ofText text = [] ++ Line.ofText text := (List.nil_append _).symm
  refine ⟨hcuts.pairwise hall hasc, fun b hb => ?_, hcuts.exists_span hall hasc⟩
  have hoccupies := hcuts.occupies hall hasc b hb
  refine ⟨hoccupies, fun hopen => ⟨?_, hcuts.getLast?_of_unterminated b hb hopen⟩⟩
  have hnone : b.closer? (Line.ofText text) = none := by
    simpa [hopen] using hoccupies.terminated.symm
  rw [lastLine, hnone, Option.none_or, getLast?_ofText]

/-- A line of commentary, the block of a card with a comment in it, and a block that is not
closed. -/
def looseEnd : String :=
  "titles\n#do define\n// a card\nname = card\n#end\n#do dub\nclip = card\n"

example : (ofText looseEnd).map (fun b => (b.line, b.lastLine (Line.ofText looseEnd), b.lines)) =
    [(2, 5, [⟨4, "name = card"⟩]), (6, 7, [⟨7, "clip = card"⟩])] := by
  decide +kernel

end Block

end Montage
