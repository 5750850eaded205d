import Montage.Proofs.Script.Builders
import Montage.Proofs.Script.Openings

/-!
# Reading what was written

A script that was written for operations whose texts can be written is read as these operations
(`read_print`).  The text falls into the lines that were written (`ofText_print`), the lines into
one block for each operation (`readAll_lines`), and each block stands for its operation
(`ofBlock_block`): its lines assign what the operation has, and its kind builds the operation from
this.
-/

namespace Montage

/-! ### Numbered lines -/

namespace Line

/-- Lines with their numbers, when the first one has the given number. -/
def numbered (first : Nat) (ls : List String) : List Line :=
  (ls.zipIdx first).map fun l => ⟨l.2, l.1⟩

@[simp] lemma numbered_nil (first : Nat) : numbered first [] = [] := rfl

@[simp] lemma numbered_cons (first : Nat) (l : String) (ls : List String) :
    numbered first (l :: ls) = ⟨first, l⟩ :: numbered (first + 1) ls := rfl

/-- Lines after other lines are counted on. -/
lemma numbered_append (first : Nat) (ls ms : List String) :
    numbered first (ls ++ ms) = numbered first ls ++ numbered (first + ls.length) ms := by
  simp [numbered, List.zipIdx_append]

/-- The text of a numbered line is one of the texts. -/
lemma text_mem_of_mem_numbered {first : Nat} {ls : List String} {l : Line}
    (h : l ∈ numbered first ls) : l.text ∈ ls := by
  obtain ⟨p, hp, rfl⟩ := List.mem_map.1 h
  exact List.fst_mem_of_mem_zipIdx hp

/-- The lines of a text are counted from 1. -/
lemma ofText_eq_numbered (text : String) :
    ofText text = numbered 1 ((Text.lines text.toList).map String.ofList) := by
  simp [ofText, numbered, List.zipIdx_map]

/-! ### Lines that begin with a word -/

variable {l : Line} {c : Char} {rest : List Char}

/-- A line that begins with a word character closes no block. -/
lemma closes_of_isWord (hlist : l.text.toList = c :: rest) (hc : Text.isWord c = true) :
    l.closes = false := by
  unfold closes
  rw [hlist]
  split
  · rename_i heq
    obtain ⟨rfl, -⟩ := List.cons.inj heq
    simp [isWord_mark] at hc
  · rfl

/-- A line that begins with a word character is neither blank nor a comment. -/
lemma carriesNothing_of_isWord (hlist : l.text.toList = c :: rest) (hc : Text.isWord c = true) :
    l.carriesNothing = false := by
  have htrim : Text.trimStart (c :: rest) = c :: rest :=
    Text.trimStart_cons_of_not_isBlank (Text.isBlank_of_isWord hc) rest
  have hslash : Text.isWord '/' = false := by decide +kernel
  unfold carriesNothing
  rw [hlist, htrim]
  split
  · rename_i heq
    cases heq
  · rename_i heq
    obtain ⟨rfl, -⟩ := List.cons.inj heq
    simp [hslash] at hc
  · rfl

end Line

/-! ### The lines of a block -/

/-- A block that is closed has the lines before the first one that closes it. -/
lemma Block.readAll_closed {opener closer : Line} {inside : List Line} {kind : String}
    (hopener : opener.opening? = some kind) (hinside : ∀ l ∈ inside, l.closes = false)
    (hcloser : closer.closes = true) (rest : List Line) :
    readAll (opener :: (inside ++ closer :: rest)) =
      ⟨kind, opener.number, inside.filter fun l => !l.carriesNothing, true⟩ :: readAll rest := by
  have hopen : ∀ l ∈ inside, (!l.closes) = true := by simpa using hinside
  obtain ⟨hinterior, hending⟩ : interior (inside ++ closer :: rest) = inside ∧
      ending (inside ++ closer :: rest) = closer :: rest :=
    Text.span_append hopen (by simp [hcloser])
  rw [readAll_cons_of_some hopener, hinterior, hending]
  rfl

namespace Attribute

variable {a : String × Value}

/-- A line that assigns a value begins with a word character. -/
lemma exists_toList_assignmentLine (h : Writable a) :
    ∃ c rest, (Operation.assignmentLine a).toList = c :: rest ∧ Text.isWord c = true := by
  obtain ⟨⟨hne, hword, -⟩, -⟩ := h
  cases hkey : a.1.toList with
  | nil => exact absurd (String.toList_eq_nil_iff.1 hkey) hne
  | cons c rest =>
    rw [Operation.assignmentLine, toList_assignment, hkey]
    exact ⟨c, _, rfl, List.all_eq_true.1 hword c (hkey ▸ List.mem_cons_self)⟩

/-- What assigns a value can stand on a line. -/
lemma fits_assignmentLine (h : Writable a) : Text.Fits (Operation.assignmentLine a).toList := by
  obtain ⟨⟨-, hword, -⟩, htext⟩ := h
  have hlist : (Operation.assignmentLine a).toList =
      (a.1.toList ++ [' ', '=', ' ']) ++ a.2.written.toList := by
    simp [Operation.assignmentLine]
  rw [hlist]
  constructor
  · intro hmem
    rcases List.mem_append.1 hmem with hmem | hmem
    · rcases List.mem_append.1 hmem with hmem | hmem
      · exact absurd (Text.isBlank_of_isWord (List.all_eq_true.1 hword _ hmem)) (by decide)
      · exact absurd hmem (by decide)
    · exact htext.oneLine hmem
  · intro hlast
    rw [List.getLast?_append_of_ne_nil _ htext.toList_ne_nil] at hlast
    exact absurd (Text.isBlank_of_isValueChar (htext.last _ hlast)) (by decide)

/-- The lines that assign values are read as these assignments. -/
lemma exists_mapM_ofLine {as : List (String × Value)} (h : ∀ a ∈ as, Writable a) (first : Nat) :
    ∃ entries, (Line.numbered first (as.map Operation.assignmentLine)).mapM ofLine = .ok entries ∧
      entries.map (fun e => (e.key, e.value)) = as := by
  induction as generalizing first with
  | nil => exact ⟨[], rfl, rfl⟩
  | cons a as ih =>
    obtain ⟨ha, has⟩ := List.forall_mem_cons.1 h
    obtain ⟨entries, hentries, heq⟩ := ih has (first + 1)
    refine ⟨⟨a.1, a.2, first⟩ :: entries, ?_, ?_⟩
    · rw [List.map_cons, Line.numbered_cons, mapM_eq_ok]
      exact .cons (ofLine_assignmentLine ha first) (mapM_eq_ok.1 hentries)
    · rw [List.map_cons, heq]

end Attribute

namespace Operation

open Attribute

variable {op : Operation}

/-- The word of a kind has no blanks at its ends. -/
lemma trim_token (k : Kind) : Text.trim (' ' :: k.token.toList) = k.token.toList := by
  cases k <;> decide +kernel

/-- The first line of a block opens it. -/
lemma opening?_openingLine (op : Operation) (number : Nat) :
    Line.opening? ⟨number, op.openingLine⟩ = some op.kind.token := by
  have hlist : op.openingLine.toList = '#' :: 'd' :: 'o' :: ' ' :: op.kind.token.toList := by
    simp [openingLine, String.toList_append]
  unfold Line.opening?
  rw [hlist]
  change some (String.ofList (Text.trim (' ' :: op.kind.token.toList))) = _
  rw [trim_token, String.ofList_toList]

/-- What opens a block can stand on a line. -/
lemma fits_openingLine (op : Operation) : Text.Fits op.openingLine.toList := by
  unfold openingLine
  cases op.kind <;> exact ⟨by decide +kernel, by decide +kernel⟩

/-- The lines that are written for an operation are lines of a text. -/
lemma fits_of_mem_lines (h : op.Expressible) : ∀ l ∈ op.lines, Text.Fits l.toList := by
  intro l hl
  rw [lines, List.mem_cons, List.mem_append, List.mem_singleton] at hl
  rcases hl with rfl | hl | rfl
  · exact fits_openingLine op
  · obtain ⟨a, ha, rfl⟩ := List.mem_map.1 hl
    exact fits_assignmentLine (writable_of_mem_assignments h a ha)
  · exact ⟨by decide, by decide⟩

/-- The last line of a block closes it. -/
lemma closes_end (number : Nat) : Line.closes ⟨number, "#end"⟩ = true := by
  have hlist : "#end".toList = ['#', 'e', 'n', 'd'] := by decide
  unfold Line.closes
  rw [hlist]
  rfl

/-- The block that is written for an operation, when it opens on the given line. -/
def block (op : Operation) (first : Nat) : Block :=
  ⟨op.kind.token, first, Line.numbered (first + 1) (op.assignments.map assignmentLine), true⟩

/-- The lines inside the block that is written for an operation begin with word characters. -/
lemma exists_isWord_of_mem_block (h : op.Expressible) (first : Nat) :
    ∀ l ∈ (op.block first).lines, ∃ c rest, l.text.toList = c :: rest ∧ Text.isWord c = true := by
  intro l hl
  obtain ⟨a, ha, heq⟩ := List.mem_map.1 (Line.text_mem_of_mem_numbered hl)
  rw [← heq]
  exact exists_toList_assignmentLine (writable_of_mem_assignments h a ha)

/-- The lines that are written for an operation are read as its block. -/
theorem readAll_lines (h : op.Expressible) (first : Nat) (rest : List Line) :
    Block.readAll (Line.numbered first op.lines ++ rest) =
      op.block first :: Block.readAll rest := by
  have hopen : ∀ l ∈ (op.block first).lines, l.closes = false := by
    intro l hl
    obtain ⟨c, cs, hlist, hc⟩ := exists_isWord_of_mem_block h first l hl
    exact Line.closes_of_isWord hlist hc
  have hkept : ∀ l ∈ (op.block first).lines, (!l.carriesNothing) = true := by
    intro l hl
    obtain ⟨c, cs, hlist, hc⟩ := exists_isWord_of_mem_block h first l hl
    simp [Line.carriesNothing_of_isWord hlist hc]
  have hlines : Line.numbered first op.lines ++ rest = ⟨first, op.openingLine⟩ ::
      ((op.block first).lines ++
        ⟨first + 1 + (op.assignments.map assignmentLine).length, "#end"⟩ :: rest) := by
    simp [lines, block, Line.numbered_append]
  rw [hlines, Block.readAll_closed (opening?_openingLine op first) hopen (closes_end _),
    List.filter_eq_self.2 hkept]
  rfl

/-- The block that is written for an operation stands for it. -/
theorem ofBlock_block (h : op.Expressible) (first : Nat) :
    ∃ events, Step.ofBlock (op.block first) = .ok (⟨first, op⟩, events) := by
  obtain ⟨entries, hentries, heq⟩ :=
    exists_mapM_ofLine (writable_of_mem_assignments h) (first + 1)
  have hattributes : Attributes.ofBlock (op.block first) =
      .ok ⟨op.kind.token, first, entries⟩ := by
    unfold Attributes.ofBlock block
    rw [hentries]
    rfl
  have hhave : Attributes.Have ⟨op.kind.token, first, entries⟩ op.table :=
    Attributes.have_of_entries op.nodup_table heq
  exact ⟨_, Step.ofBlock_eq_ok.2 ⟨_, hattributes, rfl, rfl, statedBy_of_have h hhave, rfl⟩⟩

end Operation

/-! ### Scripts -/

namespace Script

variable {ops : List Operation}

/-- The lines of a script that was written are those of its operations. -/
lemma ofText_print (h : ∀ op ∈ ops, op.Expressible) :
    Line.ofText (print ops) = Line.numbered 1 (ops.flatMap Operation.lines) := by
  have hfits : ∀ l ∈ (ops.flatMap Operation.lines).map String.toList, Text.Fits l := by
    intro l hl
    obtain ⟨s, hs, rfl⟩ := List.mem_map.1 hl
    obtain ⟨op, hop, hs⟩ := List.mem_flatMap.1 hs
    exact Operation.fits_of_mem_lines (h op hop) s hs
  have hlist : (print ops).toList =
      ((ops.flatMap Operation.lines).map String.toList).flatMap fun l => l ++ ['\n'] := by
    simp [print, String.toList_join, List.map_map, List.flatMap_def, Function.comp_def]
  rw [Line.ofText_eq_numbered, hlist, Text.lines_flatMap hfits, List.map_map]
  simp [Function.comp_def, String.ofList_toList]

/-- The lines that are written for operations are read as these operations. -/
theorem readBlocks_lines (h : ∀ op ∈ ops, op.Expressible) (first : Nat) :
    (readBlocks (Block.readAll (Line.numbered first (ops.flatMap Operation.lines)))).steps =
      .ok (placed first ops) := by
  induction ops generalizing first with
  | nil => simp [Block.readAll, readBlocks, placed]
  | cons op ops ih =>
    obtain ⟨hop, hops⟩ := List.forall_mem_cons.1 h
    rw [List.flatMap_cons, Line.numbered_append, Operation.readAll_lines hop, readBlocks_eq_ok]
    exact .cons (Operation.ofBlock_block hop first)
      (readBlocks_eq_ok.1 (ih hops (first + op.lines.length)))

/-- The operations of placed steps are those that were placed. -/
lemma operation_placed (first : Nat) (ops : List Operation) :
    (placed first ops).map (·.operation) = ops := by
  induction ops generalizing first with
  | nil => rfl
  | cons op ops ih => rw [placed, List.map_cons, ih]

/-- The script of operations whose texts can be written is read as these operations, in order, and
each of them has the number of the line that opens its block. -/
theorem read_print (h : ∀ op ∈ ops, op.Expressible) :
    (read (print ops)).steps = .ok (placed 1 ops) ∧
      (placed 1 ops).map (·.operation) = ops ∧
      (placed 1 ops).map (·.line) = openingLines (print ops) := by
  have hread : (read (print ops)).steps = .ok (placed 1 ops) := by
    unfold read Block.ofText
    rw [ofText_print h]
    exact readBlocks_lines h 1
  have hopening : (placed 1 ops).map (·.line) = openingLines (print ops) := by
    obtain ⟨hlines, hinside⟩ := lines_of_readBlocks hread
    rw [hlines, openingLines_eq]
    exact Block.lines_readAll hinside
  exact ⟨hread, operation_placed 1 ops, hopening⟩

/-- A title card that is shown for five seconds, set next to the end of a film and written to a
file. -/
def trailer : List Operation :=
  [.define ⟨"title card", .image, ⟨"art/card 1.png"⟩, false, some 5, none⟩,
   .define ⟨"film", .video, ⟨"film.mkv"⟩, true, none, none⟩,
   .effect "title card" "card" (.margin ⟨some 12, none, some 255, some 0, none⟩),
   .subclip ⟨"film", ⟨0, 90, 0⟩, some ⟨1, 31, 7⟩, "finale"⟩,
   .mix "both" (.composite ["finale", "card"] (some ⟨1920, 1080⟩)),
   .deliver ⟨"both", ⟨"trailer.mp4"⟩, 25, "libx264", "slow", none, []⟩]

/-- The trailer is read back from its script, in which the blocks open on these lines. -/
theorem read_print_trailer :
    (∀ op ∈ trailer, op.Expressible) ∧
      (read (print trailer)).steps =
        .ok (List.zipWith Step.mk [1, 8, 14, 21, 27, 33] trailer) := by
  have hall : ∀ op ∈ trailer, op.Expressible := by decide +kernel
  have hplaced : placed 1 trailer = List.zipWith Step.mk [1, 8, 14, 21, 27, 33] trailer := by
    decide +kernel
  obtain ⟨hread, -⟩ := read_print hall
  exact ⟨hall, hplaced ▸ hread⟩

end Script

end Montage
