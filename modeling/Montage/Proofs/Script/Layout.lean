import Montage.Proofs.Script.Insertion
import Montage.Proofs.Script.Validity

/-!
# The layout of a script

What a script means does not depend on how it is laid out (`layout`).  Lines that carry nothing can
be put in and taken out, and so can commentary outside of blocks (`steps_insert`).  Line feeds can
be preceded by carriage returns (`read_withReturns`).  Inside a block, only the last assignment to
each key counts, so lines that assign to different keys can change places (`steps_reorder`), and an
assignment that is followed by another one to its key can be put in (`steps_override`).
-/

namespace Montage

/-! ### Line ends -/

namespace Text

/-- The text with a carriage return before each line feed. -/
def withReturns (cs : List Char) : List Char :=
  cs.flatMap fun c => if c = '\n' then ['\r', '\n'] else [c]

/-- A text with carriage returns does not begin with a line feed. -/
lemma withReturns_ne_cons (cs ds : List Char) : withReturns cs ≠ '\n' :: ds := by
  cases cs with
  | nil => simp [withReturns]
  | cons c cs =>
    by_cases hc : c = '\n'
    · simp [withReturns, hc]
    · simp [withReturns, hc]

/-- Other characters than line feeds stay as they are. -/
lemma withReturns_cons {c : Char} (hc : c ≠ '\n') (cs : List Char) :
    withReturns (c :: cs) = c :: withReturns cs := by
  unfold withReturns
  rw [List.flatMap_cons, if_neg hc, List.singleton_append]

/-- Carriage returns at the ends of lines do not belong to the lines. -/
lemma lines_withReturns {cs : List Char} (h : ¬ ['\r', '\n'] <:+: cs) :
    lines (withReturns cs) = lines cs := by
  fun_induction lines cs with
  | case1 => rfl
  | case2 cs ih => exact absurd ⟨[], cs, rfl⟩ h
  | case3 cs ih =>
    have htail : ¬ ['\r', '\n'] <:+: cs := fun hcs => h (List.infix_cons hcs)
    exact congrArg ([] :: ·) (ih htail)
  | case4 c cs hreturn hfeed hnil ih =>
    have htail : ¬ ['\r', '\n'] <:+: cs := fun hcs => h (List.infix_cons hcs)
    rw [withReturns_cons hfeed, lines.eq_4 c _ (fun ds _ => withReturns_ne_cons cs ds) hfeed,
      ih htail, hnil]
  | case5 c cs hreturn hfeed l ls heq ih =>
    have htail : ¬ ['\r', '\n'] <:+: cs := fun hcs => h (List.infix_cons hcs)
    rw [withReturns_cons hfeed, lines.eq_4 c _ (fun ds _ => withReturns_ne_cons cs ds) hfeed,
      ih htail, heq]

end Text

/-- A script is read in the same way when its line feeds are preceded by carriage returns. -/
lemma Script.read_withReturns {t : String} (h : ¬ ['\r', '\n'] <:+: t.toList) :
    read (String.ofList (Text.withReturns t.toList)) = read t := by
  have hlines : Line.ofText (String.ofList (Text.withReturns t.toList)) = Line.ofText t := by
    unfold Line.ofText
    rw [String.toList_ofList, Text.lines_withReturns h]
  unfold read Block.ofText
  rw [hlines]

/-! ### Assignments -/

namespace Attribute

/-- The key that a text assigns to, if it fits the grammar of assignments. -/
def key? (text : String) : Option String := (split? text.toList).map fun parts =>
  String.ofList parts.1

/-- What a text assigns, it assigns to its key. -/
lemma key?_of_assignment? {text key : String} {value : Value}
    (h : assignment? text = some (key, value)) : key? text = some key := by
  obtain ⟨parts, hparts, h⟩ := Option.bind_eq_some_iff.1 h
  obtain ⟨value', -, h⟩ := Option.map_eq_some_iff.1 h
  cases h
  unfold key?
  rw [hparts]
  rfl

/-- Blank lines and comments do not fit the grammar of assignments. -/
lemma split?_of_carriesNothing {l : Line} (h : l.carriesNothing = true) :
    split? l.text.toList = none := by
  unfold Line.carriesNothing at h
  split at h
  · rename_i hnil
    unfold split?
    rw [hnil]
    rfl
  · rename_i rest hslash
    exact Line.split?_of_not_isWord hslash (by decide +kernel)
  · cases h

/-- Blank lines and comments assign nothing. -/
lemma assignment?_of_carriesNothing {l : Line} (h : l.carriesNothing = true) :
    assignment? l.text = none := by
  unfold assignment?
  rw [split?_of_carriesNothing h]
  rfl

/-- A line that assigns something closes no block. -/
lemma closes_of_assignment? {l : Line} {a : String × Value} (h : assignment? l.text = some a) :
    l.closes = false := by
  rw [Bool.eq_false_iff]
  intro hcloses
  obtain ⟨rest, hrest⟩ := Line.exists_mark_of_closes hcloses
  unfold assignment? at h
  rw [Line.split?_of_mark hrest] at h
  cases h

/-- What is assigned to a key is assigned by the lines that have this key. -/
lemma filter_assignments (key : String) (ls : List String) :
    (ls.filterMap assignment?).filter (fun a => a.1 == key) =
      (ls.filter fun l => key? l == some key).filterMap assignment? := by
  induction ls with
  | nil => rfl
  | cons l ls ih =>
    cases hassign : assignment? l with
    | none =>
      rw [List.filterMap_cons_none hassign, ih, List.filter_cons]
      split
      · rw [List.filterMap_cons_none hassign]
      · rfl
    | some a =>
      obtain ⟨key', value⟩ := a
      have hkey := key?_of_assignment? hassign
      rw [List.filterMap_cons_some hassign, List.filter_cons, ih, List.filter_cons, hkey]
      by_cases heq : key' = key
      · simp [heq, hassign]
      · simp [heq]

end Attribute

/-! ### Blocks -/

namespace Block

open Attribute

variable {b b' : Block} {step : Step}

/-- The step of a block is what the block stands for. -/
lemma step_eq_ok : b.step = .ok step ↔ ∃ events, Step.ofBlock b = .ok (step, events) := by
  unfold Block.step
  rw [map_eq_ok]
  constructor
  · rintro ⟨⟨step, events⟩, h, rfl⟩
    exact ⟨events, h⟩
  · rintro ⟨events, h⟩
    exact ⟨_, h, rfl⟩

/-- Only the kind and the line of a block count, and the last assignments, when all of its lines
assign something. -/
lemma step_of_last? (h : b.step = .ok step) (hkind : b'.kind = b.kind) (hline : b'.line = b.line)
    (hlines : ∀ l ∈ b'.lines, ∃ a, assignment? l.text = some a)
    (hlast : ∀ key, b'.last? key = b.last? key) : b'.step = .ok step := by
  have hlast' : b'.last? = b.last? := funext hlast
  obtain ⟨-, hstep⟩ := exists_step_iff.1 (step_eq_ok.1 h)
  rw [← hkind, ← hline, ← hlast'] at hstep
  exact step_eq_ok.2 (exists_step_iff.2 ⟨hlines, hstep⟩)

/-- A block with the given lines inside. -/
def ofLines (kind : String) (line : Nat) (ls : List String) (terminated : Bool) : Block :=
  ⟨kind, line, (Line.numbered (line + 1) ls).filter fun l => !l.carriesNothing, terminated⟩

variable {kind : String} {line : Nat} {ls ls' : List String} {terminated : Bool}

/-- The texts of its lines are those that carry something. -/
lemma texts_ofLines : (ofLines kind line ls terminated).lines.map (·.text) =
    ls.filter fun l => !(Line.unnumbered l).carriesNothing := by
  have htexts : (Line.numbered (line + 1) ls).map (·.text) = ls := by
    unfold Line.numbered
    rw [List.map_map]
    exact List.zipIdx_map_fst (line + 1) ls
  conv_rhs => rw [← htexts]
  rw [List.filter_map]
  rfl

/-- All of its lines assign something when each of the given ones does or carries nothing. -/
lemma assigns_ofLines :
    (∀ l ∈ (ofLines kind line ls terminated).lines, ∃ a, assignment? l.text = some a) ↔
      ∀ l ∈ ls, (Line.unnumbered l).carriesNothing = false → ∃ a, assignment? l = some a := by
  have htexts : (∀ s ∈ (ofLines kind line ls terminated).lines.map (·.text),
      ∃ a, assignment? s = some a) ↔
      ∀ l ∈ (ofLines kind line ls terminated).lines, ∃ a, assignment? l.text = some a := by
    rw [List.forall_mem_map]
  rw [← htexts, texts_ofLines]
  simp only [List.mem_filter, Bool.not_eq_true', and_imp]

/-- The last assignment to a key is the one on the last line with this key. -/
lemma last?_ofLines (key : String) : (ofLines kind line ls terminated).last? key =
    (((ls.filter fun l => key? l == some key).filterMap assignment?).getLast?).map Prod.snd := by
  have hall : (ofLines kind line ls terminated).assignments = ls.filterMap assignment? := by
    have hmap : (ofLines kind line ls terminated).assignments =
        ((ofLines kind line ls terminated).lines.map (·.text)).filterMap assignment? := by
      rw [List.filterMap_map]
      rfl
    rw [hmap, texts_ofLines, List.filterMap_filter]
    refine List.filterMap_congr fun l _ => ?_
    cases hnothing : (Line.unnumbered l).carriesNothing with
    | true => exact (assignment?_of_carriesNothing hnothing).symm
    | false => rfl
  unfold last?
  rw [hall, filter_assignments]

/-- In a block that stands for a step, a line with a key assigns something. -/
lemma exists_assignment?_of_step {l key : String}
    (h : (ofLines kind line ls terminated).step = .ok step) (hl : l ∈ ls)
    (hkey : key? l = some key) : ∃ a, assignment? l = some a := by
  obtain ⟨hassign, -⟩ := exists_step_iff.1 (step_eq_ok.1 h)
  have hcarries : (Line.unnumbered l).carriesNothing = false := by
    rw [Bool.eq_false_iff]
    intro hnothing
    have hnone : split? l.toList = none :=
      split?_of_carriesNothing (l := Line.unnumbered l) hnothing
    unfold key? at hkey
    rw [hnone] at hkey
    cases hkey
  have hall := assigns_ofLines.1 hassign
  exact hall l hl hcarries

/-- A block stands for the same step with other lines, if these are among its lines or assign
something, and the last line for each key is the same. -/
lemma step_ofLines (h : (ofLines kind line ls terminated).step = .ok step)
    (hlines : ∀ l ∈ ls', l ∈ ls ∨ ∃ a, assignment? l = some a)
    (hlast : ∀ key, ((ls'.filter fun l => key? l == some key).filterMap assignment?).getLast? =
      ((ls.filter fun l => key? l == some key).filterMap assignment?).getLast?) :
    (ofLines kind line ls' terminated).step = .ok step := by
  obtain ⟨hassign, -⟩ := exists_step_iff.1 (step_eq_ok.1 h)
  refine step_of_last? h rfl rfl ?_ fun key => ?_
  · refine assigns_ofLines.2 fun l hl hnothing => ?_
    rcases hlines l hl with hmem | hl
    · exact assigns_ofLines.1 hassign l hmem hnothing
    · exact hl
  · rw [last?_ofLines, last?_ofLines, hlast]

/-- The blocks of lines with a block among them, after which the lines end or its end is closed. -/
lemma readAll_middle {outside after : List Line} {inside : List String} {n : Nat} {opener : String}
    (houtside : ∀ b ∈ readAll outside, b.terminated = true)
    (hopener : (⟨n, opener⟩ : Line).opening? = some kind)
    (hinside : ∀ l ∈ inside, (Line.unnumbered l).closes = false)
    (hafter : ∀ l ∈ after.head?, l.closes = true) :
    readAll (outside ++ ⟨n, opener⟩ :: (Line.numbered (n + 1) inside ++ after)) =
      readAll outside ++ ofLines kind n inside (!after.isEmpty) :: readAll after.tail := by
  have hopen : ending (Line.numbered (n + 1) inside) = [] := by
    refine List.dropWhile_eq_nil_iff.2 fun l hl => ?_
    have hclosed : l.closes = false := hinside _ (Line.text_mem_of_mem_numbered hl)
    rw [hclosed]
    rfl
  have hend : interior after = [] ∧ ending after = after := by
    cases after with
    | nil => exact ⟨rfl, rfl⟩
    | cons l after =>
      have hcloses : l.closes = true := hafter l rfl
      simp [interior, ending, hcloses]
  obtain ⟨hinterior, hending⟩ := interior_append_of_open hopen after
  rw [readAll_append houtside, readAll_cons_of_some hopener, hinterior, hending, hend.1, hend.2,
    List.append_nil]
  rfl

end Block

/-! ### Scripts -/

namespace Script

open Attribute

/-- In the script, the line `opener` opens a block after the lines `before`; the lines `inside`
stand in it and the lines `after` follow, the first of which closes it. -/
structure HasBlock (t : String) (before : List String) (opener : String)
    (inside after : List String) : Prop where
  lines_eq : lines t = before ++ opener :: (inside ++ after)
  closed : Closed before
  opens : (Line.unnumbered opener).Opens
  inside : ∀ l ∈ inside, (Line.unnumbered l).closes = false
  after : ∀ l ∈ after.head?, (Line.unnumbered l).closes = true

variable {t t' : String} {before inside inside' after : List String} {opener : String}
  {steps : List Step}

/-- The steps of a script with a block are those before it, the step of the block, and those
after it. -/
lemma HasBlock.steps_eq_ok {kind : String} (h : HasBlock t before opener inside after)
    (hkind : (Line.unnumbered opener).opening? = some kind) :
    (read t).steps = .ok steps ↔ ∃ above step below,
      (Block.readAll (Line.numbered 1 before)).mapM Block.step = .ok above ∧
      (Block.ofLines kind (before.length + 1) inside (!after.isEmpty)).step = .ok step ∧
      (Block.readAll (Line.numbered (before.length + 2 + inside.length) after).tail).mapM
        Block.step = .ok below ∧ steps = above ++ step :: below := by
  have hafter : ∀ l ∈ (Line.numbered (before.length + 2 + inside.length) after).head?,
      l.closes = true := by
    intro l hl
    cases after with
    | nil => cases hl
    | cons s after =>
      cases hl
      exact h.after s rfl
  have hempty : (Line.numbered (before.length + 2 + inside.length) after).isEmpty =
      after.isEmpty := by
    cases after <;> rfl
  have hopener : (⟨before.length + 1, opener⟩ : Line).opening? = some kind := hkind
  rw [steps_read, h.lines_eq, Line.numbered_append, Line.numbered_cons, Line.numbered_append,
    Nat.add_comm 1, Block.readAll_middle h.closed hopener h.inside hafter, hempty,
    mapM_append_cons_eq_ok]

/-- Lines inside a block can change places when those with the same key keep their order. -/
lemma HasBlock.steps_reorder (h : HasBlock t before opener inside after)
    (hsteps : (read t).steps = .ok steps) (ht' : lines t' = before ++ opener :: (inside' ++ after))
    (hperm : inside'.Perm inside)
    (hkeys : ∀ key, (inside'.filter fun l => key? l == some key) =
      inside.filter fun l => key? l == some key) : (read t').steps = .ok steps := by
  obtain ⟨kind, hkind⟩ := Option.isSome_iff_exists.1 (Line.isSome_opening?_iff.2 h.opens)
  have h' : HasBlock t' before opener inside' after :=
    ⟨ht', h.closed, h.opens, fun l hl => h.inside l (hperm.mem_iff.1 hl), h.after⟩
  obtain ⟨above, step, below, habove, hstep, hbelow, rfl⟩ := (h.steps_eq_ok hkind).1 hsteps
  refine (h'.steps_eq_ok hkind).2 ⟨above, step, below, habove, ?_, ?_, rfl⟩
  · refine Block.step_ofLines hstep (fun l hl => .inl (hperm.mem_iff.1 hl)) fun key => ?_
    rw [hkeys key]
  · rwa [hperm.length_eq]

/-- The last line for a key is the same when another line for it is put before it. -/
lemma getLast?_insert {first rest : List String} {l l' key : String} {value : Value}
    (hl : assignment? l = some (key, value)) (hmem : l' ∈ rest) (hkey : key? l' = some key)
    (hassign : ∃ a, assignment? l' = some a) (key' : String) :
    (((first ++ l :: rest).filter fun l => key? l == some key').filterMap assignment?).getLast? =
      (((first ++ rest).filter fun l => key? l == some key').filterMap assignment?).getLast? := by
  rw [List.filter_append, List.filter_append, List.filter_cons, key?_of_assignment? hl]
  by_cases hsame : key = key'
  · -- the line is not the last one for its own key, because there is a line for it below
    subst hsame
    obtain ⟨a, ha⟩ := hassign
    have hlater : (rest.filter fun l => key? l == some key).filterMap assignment? ≠ [] := by
      refine List.ne_nil_of_mem (a := a) (List.mem_filterMap.2 ⟨l', ?_, ha⟩)
      exact List.mem_filter.2 ⟨hmem, by rw [hkey, beq_self_eq_true]⟩
    rw [if_pos (beq_self_eq_true _), List.filterMap_append, List.filterMap_append,
      List.filterMap_cons_some hl, List.append_cons, List.getLast?_append_of_ne_nil _ hlater,
      List.getLast?_append_of_ne_nil _ hlater]
  · rw [if_neg (by simpa using hsame)]

/-- An assignment can be put into a block before another one to its key. -/
lemma HasBlock.steps_override {first rest : List String} {l l' key : String} {value : Value}
    (h : HasBlock t before opener (first ++ rest) after) (hsteps : (read t).steps = .ok steps)
    (hl : assignment? l = some (key, value)) (hmem : l' ∈ rest) (hkey : key? l' = some key)
    (ht' : lines t' = before ++ opener :: ((first ++ l :: rest) ++ after)) :
    ∃ steps', (read t').steps = .ok steps' ∧
      steps'.map (·.operation) = steps.map (·.operation) := by
  obtain ⟨kind, hkind⟩ := Option.isSome_iff_exists.1 (Line.isSome_opening?_iff.2 h.opens)
  have hinside : ∀ x ∈ first ++ l :: rest, x ∈ first ++ rest ∨ ∃ a, assignment? x = some a := by
    intro x hx
    rcases List.mem_append.1 hx with hx | hx
    · exact .inl (List.mem_append_left _ hx)
    · rcases List.mem_cons.1 hx with rfl | hx
      · exact .inr ⟨_, hl⟩
      · exact .inl (List.mem_append_right _ hx)
  have hopen : ∀ x ∈ first ++ l :: rest, (Line.unnumbered x).closes = false := by
    intro x hx
    rcases hinside x hx with hx | ⟨a, ha⟩
    · exact h.inside x hx
    · exact closes_of_assignment? (l := Line.unnumbered x) ha
  have h' : HasBlock t' before opener (first ++ l :: rest) after :=
    ⟨ht', h.closed, h.opens, hopen, h.after⟩
  obtain ⟨above, step, below, habove, hstep, hbelow, rfl⟩ := (h.steps_eq_ok hkind).1 hsteps
  have hassign := Block.exists_assignment?_of_step hstep (List.mem_append_right _ hmem) hkey
  have hmoved : (Block.readAll (Line.numbered
      (before.length + 2 + (first ++ l :: rest).length) after).tail).mapM Block.step =
        .ok (below.map (Step.renumbered (· + 1))) := by
    -- what follows the block stands one line further down
    have hnumber : before.length + 2 + (first ++ l :: rest).length =
        before.length + 2 + (first ++ rest).length + 1 := by
      simp only [List.length_append, List.length_cons]
      omega
    rw [hnumber, Line.numbered_add, ← List.map_tail, Block.readAll_renumbered,
      mapM_map_renumbered Block.step_renumbered, hbelow]
    rfl
  have hstep' := Block.step_ofLines hstep hinside (getLast?_insert hl hmem hkey hassign)
  refine ⟨_, (h'.steps_eq_ok hkind).2 ⟨above, step, _, habove, hstep', hmoved, rfl⟩, ?_⟩
  simp [Step.renumbered]

/-- The layout of a script does not matter.  A line that carries nothing can be put in or taken out,
and outside of blocks also one that opens none, and only the numbers of lines change; so it is with
a line that is put between two parts of a text, the first of which is empty or ends with a line
feed.  Carriage returns can be put before all line feeds, and nothing changes.  In a block of a
script that can be read, lines can change places when those with the same key keep their order, and
an assignment can be put before another one to its key, and the operations stay the same. -/
theorem layout :
    (∀ t t' before after l, lines t = before ++ after → lines t' = before ++ l :: after →
      ((Line.unnumbered l).carriesNothing = true ∨
        ¬ (Line.unnumbered l).Opens ∧ Closed before) →
      (read t').steps = renumbered (Line.below before.length) (read t).steps ∧
        (read t).steps = renumbered (Line.above before.length) (read t').steps) ∧
    (∀ a l b : String, Text.Ended a.toList → Text.Fits l.toList →
      ((Line.unnumbered l).carriesNothing = true ∨
        ¬ (Line.unnumbered l).Opens ∧ Closed (lines a)) →
      (read (a ++ (l ++ "\n" ++ b))).steps =
          renumbered (Line.below (a.toList.count '\n')) (read (a ++ b)).steps ∧
        (read (a ++ b)).steps =
          renumbered (Line.above (a.toList.count '\n')) (read (a ++ (l ++ "\n" ++ b))).steps) ∧
    (∀ t : String, ¬ ['\r', '\n'] <:+: t.toList →
      read (String.ofList (Text.withReturns t.toList)) = read t) ∧
    ∀ t before opener inside after steps, HasBlock t before opener inside after →
      (read t).steps = .ok steps →
      (∀ t' inside', lines t' = before ++ opener :: (inside' ++ after) → inside'.Perm inside →
        (∀ key, (inside'.filter fun l => key? l == some key) =
          inside.filter fun l => key? l == some key) →
        (read t').steps = .ok steps) ∧
      ∀ t' first rest l l' key value, inside = first ++ rest →
        assignment? l = some (key, value) → l' ∈ rest → key? l' = some key →
        lines t' = before ++ opener :: ((first ++ l :: rest) ++ after) →
        ∃ steps', (read t').steps = .ok steps' ∧
          steps'.map (·.operation) = steps.map (·.operation) := by
  refine ⟨fun t t' before after l ht ht' hl => steps_insert ht ht' hl,
    fun a l b ha hfits hl => steps_insert_text ha hfits hl b, fun t ht => read_withReturns ht,
    fun t before opener inside after steps h hsteps => ⟨?_, ?_⟩⟩
  · intro t' inside' ht' hperm hkeys
    exact h.steps_reorder hsteps ht' hperm hkeys
  · rintro t' first rest l l' key value rfl hl hmem hkey ht'
    exact h.steps_override hsteps hl hmem hkey ht'

/-- The block of the title card. -/
lemma hasBlock_slate : HasBlock slate [] "#do define"
    ["name = card", "type = image", "source = card.png"] ["#end"] where
  lines_eq := by decide +kernel
  closed := by simp [Closed, Block.readAll]
  opens := by decide +kernel
  inside := by decide +kernel
  after := by decide +kernel

/-- The layout of the title card does not matter: a heading above it, a comment in it, carriage
returns, its fields in another order, and a name that does not last. -/
theorem layout_slate :
    (read ("title\n" ++ slate)).steps = .ok [slateStep 2] ∧
      (read ("#do define\n" ++ ("// a still" ++ "\n" ++
        "name = card\ntype = image\nsource = card.png\n#end\n"))).steps = .ok [slateStep 1] ∧
      read (String.ofList (Text.withReturns slate.toList)) = read slate ∧
      (read "#do define\ntype = image\nname = card\nsource = card.png\n#end\n").steps =
        .ok [slateStep 1] ∧
      ∃ steps', (read ("#do define\nname = lost\nname = card\ntype = image\n" ++
          "source = card.png\n#end\n")).steps = .ok steps' ∧
        steps'.map (·.operation) = [(slateStep 1).operation] := by
  obtain ⟨hline, htext, hreturns, hblock⟩ := layout
  have hslate : (read slate).steps = .ok [slateStep 1] := toOption_eq_some.1 (by decide +kernel)
  obtain ⟨hreorder, hoverride⟩ := hblock slate _ _ _ _ _ hasBlock_slate hslate
  have hname : key? "name = card" = some "name" := by decide +kernel
  have htype : key? "type = image" = some "type" := by decide +kernel
  refine ⟨?_, ?_, hreturns slate (by decide +kernel), ?_, ?_⟩
  · obtain ⟨hread, -⟩ := hline slate ("title\n" ++ slate) [] (lines slate) "title" rfl
      (by decide +kernel) (.inr ⟨by decide +kernel, hasBlock_slate.closed⟩)
    rw [hread, hslate]
    rfl
  · obtain ⟨hread, -⟩ := htext "#do define\n" "// a still"
      "name = card\ntype = image\nsource = card.png\n#end\n" (by decide +kernel)
      (by decide +kernel) (.inl (by decide +kernel))
    refine hread.trans ((congrArg _ hslate).trans ?_)
    decide +kernel
  · refine hreorder _ ["type = image", "name = card", "source = card.png"] (by decide +kernel)
      (List.Perm.swap _ _ _) fun key => ?_
    by_cases hkey : key = "name"
    · simp [hkey, hname, htype]
    · simp [List.filter_cons, hname, Ne.symm hkey]
  · exact hoverride _ [] _ "name = lost" "name = card" "name" (.text "lost") rfl
      (by decide +kernel) List.mem_cons_self hname (by decide +kernel)

end Script

end Montage
