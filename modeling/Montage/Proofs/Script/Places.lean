import Montage.Proofs.Script.Complaints
import Montage.Proofs.Script.Concatenation

/-!
# Where errors point

A script that cannot be read fails with the error of its first block that stands for no operation,
and the error points into that block (`place_of_error`): at the line that opens it, when the kind or
the medium is unknown or a key lacks; at the first line inside it that assigns nothing, if there is
one; and otherwise at the last assignment to a key whose number is too large.

`Block.Spans` says where a block stands among the lines of a script, and `Block.Complaint` what the
error of a block can be.
-/

namespace Montage

open Attribute

/-! ### Where a block stands -/

namespace Block

variable {b : Block} {ls : List Line} {opener : Line} {inside : List Line}

/-- The block stands among the lines: one of them opens it, the lines below that one are inside, up
to the next one that closes a block or to the end, and the block has those of them that are neither
blank nor comments. -/
structure Spans (ls : List Line) (b : Block) (opener : Line) (inside : List Line) : Prop where
  place : ∃ above below, ls = above ++ opener :: (inside ++ below) ∧
    ∀ l ∈ below.head?, l.closes = true
  opening : opener.opening? = some b.kind
  line : b.line = opener.number
  unclosed : ∀ l ∈ inside, l.closes = false
  lines : b.lines = inside.filter fun l => !l.carriesNothing

/-- A block stands further down among the lines below others. -/
lemma Spans.append (h : b.Spans ls opener inside) (above : List Line) :
    b.Spans (above ++ ls) opener inside := by
  obtain ⟨⟨above', below, rfl, hbelow⟩, hopening, hline, hunclosed, hlines⟩ := h
  exact ⟨⟨above ++ above', below, by rw [List.append_assoc], hbelow⟩, hopening, hline, hunclosed,
    hlines⟩

/-- Every block stands among the lines that it is read from. -/
theorem exists_spans (h : b ∈ readAll ls) : ∃ opener inside, b.Spans ls opener inside := by
  induction ls using readAll.induct with
  | case1 => simp [readAll] at h
  | case2 l ls hnone ih =>
    rw [readAll_cons_of_none hnone] at h
    obtain ⟨opener, inside, hspans⟩ := ih h
    exact ⟨opener, inside, hspans.append [l]⟩
  | case3 l ls kind hsome ih =>
    rw [readAll_cons_of_some hsome] at h
    rcases List.mem_cons.1 h with rfl | hlater
    · refine ⟨l, interior ls, ⟨[], ending ls, ?_, fun c hc => ?_⟩, hsome, rfl, fun x hx => ?_, rfl⟩
      · rw [interior_append_ending, List.nil_append]
      · obtain ⟨rest, hrest⟩ := List.head?_eq_some_iff.1 hc
        exact (closes_of_ending hrest).1
      · simpa using List.mem_takeWhile_imp hx
    · obtain ⟨opener, inside, hspans⟩ := ih hlater
      cases hending : ending ls with
      | nil =>
        rw [hending] at hlater
        simp [readAll] at hlater
      | cons closer rest =>
        rw [hending] at hspans
        have hls : l :: ls = (l :: (interior ls ++ [closer])) ++ rest := by
          conv_lhs => rw [← interior_append_ending ls, hending]
          simp
        rw [hls]
        exact ⟨opener, inside, hspans.append _⟩

end Block

/-! ### Lines that assign nothing -/

namespace Attribute

variable {l : Line} {e : Error}

/-- A value that cannot be read is never of an unexpected type. -/
lemma ne_wrongType_of_readValue {key raw : String} {fault : Fault}
    (h : readValue key raw = .error fault) (key' kind expected found : String) :
    fault ≠ .wrongType key' kind expected found := by
  unfold readValue at h
  cases htype : valueType key with
  | flag =>
    rw [htype] at h
    dsimp only at h
    split at h
    · cases h
    · split at h <;> cases h
      simp
  | count =>
    rw [htype] at h
    dsimp only at h
    split at h <;> cases h
    simp
  | time =>
    rw [htype] at h
    dsimp only at h
    split at h <;> cases h
    simp
  | text =>
    rw [htype] at h
    cases h

/-- A line that assigns nothing is reported with its number and its fault, which is not a value of
an unexpected type. -/
lemma ofLine_eq_error (h : ofLine l = .error e) : assignment? l.text = none ∧
    ∃ fault, e = .badLine l.number fault ∧
      ∀ key kind expected found, fault ≠ .wrongType key kind expected found := by
  unfold ofLine at h
  unfold assignment?
  cases hsplit : split? l.text.toList with
  | none =>
    rw [hsplit] at h
    cases h
    exact ⟨rfl, _, rfl, by simp⟩
  | some parts =>
    rw [hsplit] at h
    dsimp only at h
    rw [Option.bind_some]
    cases hread : readValue (String.ofList parts.1) (String.ofList parts.2) with
    | ok value =>
      rw [hread] at h
      cases h
    | error fault =>
      rw [hread] at h
      cases h
      exact ⟨rfl, fault, rfl, ne_wrongType_of_readValue hread⟩

end Attribute

namespace Block

variable {b : Block} {as : Attributes} {e : Error}

/-- What the error of a block can be. -/
inductive Complaint (b : Block) : Error → Prop
  /-- The block is of no kind. -/
  | unknownKind (h : ∀ k : Kind, k.token ≠ b.kind) : Complaint b (.unknownKind b.kind b.line)
  /-- The word that is last assigned to the type of a definition names no medium. -/
  | unknownMedium {token : String} (hkind : b.kind = Kind.define.token)
      (hvalue : b.last? "type" = some (.text token)) (hnone : Medium.ofToken? token = none) :
      Complaint b (.unknownKind token b.line)
  /-- Nothing is assigned to a key of the kind. -/
  | missingField {k : Kind} {key : String} (hkind : k.token = b.kind) (hkey : key ∈ k.keys)
      (hnone : b.last? key = none) : Complaint b (.missingField b.kind key b.line)
  /-- A line assigns nothing, and each line before it assigns something. -/
  | badLine {before after : List Line} {l : Line} {fault : Attribute.Fault}
      (hlines : b.lines = before ++ l :: after)
      (hbefore : ∀ x ∈ before, ∃ a, assignment? x.text = some a) (hnone : assignment? l.text = none)
      (hfault : ofLine l = .error (.badLine l.number fault)) :
      Complaint b (.badLine l.number fault)
  /-- Each line assigns something, and the number that is last assigned to a key of the kind is too
  large for the key. -/
  | outOfRange {k : Kind} {before after : List Line} {l : Line} {key : String} {n : UInt64}
      (hall : ∀ x ∈ b.lines, ∃ a, assignment? x.text = some a) (hkind : k.token = b.kind)
      (hkey : key ∈ k.keys) (hlines : b.lines = before ++ l :: after)
      (hassign : assignment? l.text = some (key, .count n))
      (hlast : ∀ x ∈ after, ∀ a, assignment? x.text = some a → a.1 ≠ key)
      (hlimit : ¬ n.toNat < Kind.countLimit key) :
      Complaint b (.badLine l.number (.outOfRange key n.toNat))

/-- The values of the assignments of a block have the types of their keys. -/
lemma typed_of_ofBlock (h : Attributes.ofBlock b = .ok as) : as.Typed := by
  obtain ⟨entries, hentries, heq⟩ := bind_eq_ok.1 h
  cases heq
  intro a ha
  obtain ⟨before, after, hsplit⟩ := List.append_of_mem ha
  dsimp only at hsplit
  rw [hsplit] at hentries
  obtain ⟨-, l, -, -, -, hl, -⟩ := exists_of_mapM_append_cons hentries
  exact type_of_assignment? (ofLine_eq_ok.1 hl).1

/-- The last assignment to a key stands on a line of the block, and no line below it assigns to the
key. -/
lemma exists_line_of_find? {a : Attribute} (h : Attributes.ofBlock b = .ok as)
    (ha : as.find? a.key = some a) : ∃ before l after, b.lines = before ++ l :: after ∧
      l.number = a.line ∧ assignment? l.text = some (a.key, a.value) ∧
      ∀ x ∈ after, ∀ a', assignment? x.text = some a' → a'.1 ≠ a.key := by
  obtain ⟨entries, hentries, heq⟩ := bind_eq_ok.1 h
  cases heq
  obtain ⟨-, later, earlier, hsplit, hlater⟩ := List.find?_eq_some_iff_append.1 ha
  have hall : entries = earlier.reverse ++ a :: later.reverse := by
    rw [← List.reverse_reverse entries]
    dsimp only at hsplit
    rw [hsplit]
    simp
  rw [hall] at hentries
  obtain ⟨before, l, after, hlines, -, hl, hafter⟩ := exists_of_mapM_append_cons hentries
  obtain ⟨hassign, hnumber⟩ := ofLine_eq_ok.1 hl
  refine ⟨before, l, after, hlines, hnumber.symm, hassign, fun x hx a' ha' hkey => ?_⟩
  obtain ⟨later', hmem, hx'⟩ := exists_mem_of_mapM hafter x hx
  rw [(ofLine_eq_ok.1 hx').1] at ha'
  cases ha'
  have hother : later'.key ≠ a.key := by simpa using hlater later' (List.mem_reverse.1 hmem)
  exact hother hkey

/-- What is wrong with a key of the attributes of a block is a complaint about the block. -/
lemma complaint_of_faulty {k : Kind} (hkind : k.token = b.kind) (h : Attributes.ofBlock b = .ok as)
    (hfaulty : as.Faulty k.keys e) : b.Complaint e := by
  have hblock : as.kind = b.kind ∧ as.line = b.line := by
    obtain ⟨entries, -, heq⟩ := bind_eq_ok.1 h
    cases heq
    exact ⟨rfl, rfl⟩
  cases hfaulty with
  | unknownMedium hkey hvalue hnone =>
    have hdefine : k = .define := by
      cases k with
      | define => rfl
      | _ => exact absurd hkey (by decide)
    subst hdefine
    rw [value?_of_ofBlock h] at hvalue
    rw [hblock.2]
    exact .unknownMedium hkind.symm hvalue hnone
  | missing hkey hnone =>
    rw [value?_of_ofBlock h] at hnone
    rw [hblock.1, hblock.2]
    exact .missingField hkind hkey hnone
  | tooLarge hkey hlast hvalue hlimit =>
    obtain ⟨before, l, after, hlines, hnumber, hassign, hafter⟩ := exists_line_of_find? h hlast
    rw [hvalue] at hassign
    rw [← hnumber]
    exact .outOfRange (exists_ofBlock_iff.1 ⟨as, h⟩) hkind hkey hlines hassign hafter hlimit

/-- A block that stands for no operation fails with a complaint. -/
theorem complaint_of_step (h : b.step = .error e) : b.Complaint e := by
  have hstep := map_eq_error.1 h
  unfold Step.ofBlock at hstep
  cases hkind : Kind.ofToken? b.kind with
  | none =>
    rw [hkind] at hstep
    cases hstep
    refine .unknownKind fun k htoken => ?_
    rw [← htoken, Kind.ofToken?_token] at hkind
    cases hkind
  | some k =>
    have htoken : k.token = b.kind := Kind.token_of_ofToken? hkind
    rw [hkind] at hstep
    dsimp only at hstep
    rcases bind_eq_error.1 hstep with hlines | ⟨as, has, hrest⟩
    · rcases bind_eq_error.1 hlines with hlines | ⟨entries, -, hpure⟩
      · obtain ⟨before, l, after, heq, hbefore, hl⟩ := mapM_eq_error.1 hlines
        obtain ⟨hnone, fault, rfl, -⟩ := ofLine_eq_error hl
        refine .badLine heq (fun x hx => ?_) hnone hl
        obtain ⟨a, ha⟩ := hbefore x hx
        exact ⟨_, (ofLine_eq_ok.1 ha).1⟩
      · cases hpure
    · rcases bind_eq_error.1 hrest with hbuilder | ⟨made, -, hpure⟩
      · have hfaulty := (Operation.complains_builder k).faulty k.nodup_keys as e
          (typed_of_ofBlock has) hbuilder
        exact complaint_of_faulty htoken has hfaulty
      · cases hpure

/-- No block fails because of the type of a value. -/
lemma Complaint.ne_wrongType (h : b.Complaint e) (line : Nat) (key kind expected found : String) :
    e ≠ .badLine line (.wrongType key kind expected found) := by
  rintro rfl
  cases h with
  | badLine hlines hbefore hnone hfault =>
    obtain ⟨-, fault, heq, hne⟩ := ofLine_eq_error hfault
    cases heq
    exact hne _ _ _ _ rfl

/-- A complaint about a line is about one of the lines of the block. -/
lemma Complaint.exists_line {line : Nat} {fault : Attribute.Fault}
    (h : b.Complaint (.badLine line fault)) : ∃ l ∈ b.lines, l.number = line := by
  cases h with
  | badLine hlines _ _ _ => exact ⟨_, by rw [hlines]; simp, rfl⟩
  | outOfRange _ _ _ hlines _ _ _ => exact ⟨_, by rw [hlines]; simp, rfl⟩

end Block

/-! ### Scripts -/

namespace Script

/-- The error is that of the first block of the text that stands for no operation, and it points
into the block: at the line that opens it or, if the error is about a line, at one below it that
lies inside the block and is neither blank nor a comment. -/
def PointsAt (text : String) (e : Error) : Prop :=
  ∃ before b after opener inside, Block.ofText text = before ++ b :: after ∧
    (∀ x ∈ before, ∃ step, x.step = .ok step) ∧ b.step = .error e ∧
    b.Spans (Line.ofText text) opener inside ∧ b.Complaint e ∧
    ∀ line fault, e = .badLine line fault →
      ∃ l ∈ inside, l.number = line ∧ l.carriesNothing = false

/-- The error of a script that cannot be read points at the right place: it is the complaint about
the first block that stands for no operation.  It is never about the type of a value, for a script
or for any block. -/
theorem place_of_error :
    (∀ text e, (read text).steps = .error e → PointsAt text e) ∧
      ∀ (b : Block) (e : Error), b.step = .error e → ∀ line key kind expected found,
        e ≠ .badLine line (.wrongType key kind expected found) := by
  refine ⟨fun text e h => ?_, fun b e h => (Block.complaint_of_step h).ne_wrongType⟩
  have hsteps : (Block.ofText text).mapM Block.step = .error e := by
    rw [← steps_readBlocks]
    exact h
  obtain ⟨before, b, after, hblocks, hbefore, hb⟩ := mapM_eq_error.1 hsteps
  have hmem : b ∈ Block.readAll (Line.ofText text) := by
    change b ∈ Block.ofText text
    rw [hblocks]
    simp
  obtain ⟨opener, inside, hspans⟩ := Block.exists_spans hmem
  have hcomplaint := Block.complaint_of_step hb
  refine ⟨before, b, after, opener, inside, hblocks, hbefore, hb, hspans, hcomplaint, ?_⟩
  rintro line fault rfl
  obtain ⟨l, hl, hnumber⟩ := hcomplaint.exists_line
  rw [hspans.lines] at hl
  obtain ⟨hinside, hcarries⟩ := List.mem_filter.1 hl
  exact ⟨l, hinside, hnumber, by simpa using hcarries⟩

/-- A frame whose red is assigned twice, each time with a number that is too large, above a block of
an unknown kind. -/
def gaudyFrame : String :=
  "#do margin\nclip = card\nred = 300\n// brighter\nred = 999\nout = card\n#end\n#do fade\n#end\n"

/-- The error of the frame is about the last assignment to its red, on the fifth line. -/
theorem place_of_error_gaudyFrame :
    (read gaudyFrame).steps = .error (.badLine 5 (.outOfRange "red" 999)) ∧
      PointsAt gaudyFrame (.badLine 5 (.outOfRange "red" 999)) := by
  have hread : (read gaudyFrame).steps = .error (.badLine 5 (.outOfRange "red" 999)) := by
    decide +kernel
  exact ⟨hread, place_of_error.1 _ _ hread⟩

end Script

end Montage
