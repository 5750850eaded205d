import Montage.Command
import Montage.Proofs.Text.Cutting

/-!
# Reading shown commands back

A command is shown on one line, with single quotes around the arguments that need them.  `split`
reads such a line as a shell does: quotes are not part of a word, and blanks in quotes do not end
one.  A command whose words can be shown is read back from its line (`split_display`), so commands
that look the same are the same (`eq_of_display_eq`).

The reader first takes the quotes out and remembers for every other character whether it stood
inside (`marked`).  A shown argument has its quotes around all of it or none at all, so all its
characters carry the same mark.
-/

namespace Montage.Command

/-! ### The reader -/

/-- The character that quotes arguments. -/
def quote : Char := Char.ofNat 0x27

/-- The characters of a line other than quotes, each with whether it stands in quotes. -/
def marked (inside : Bool) : List Char → List (Char × Bool)
  | [] => []
  | c :: cs => if c = quote then marked (!inside) cs else (c, inside) :: marked inside cs

/-- A blank separates words unless it stands in quotes. -/
def separates (x : Char × Bool) : Bool := Text.isBlank x.1 && !x.2

/-- The words of a line, without their quotes. -/
def split (line : String) : List String :=
  ((Text.splitAll separates (marked false line.toList)).filter fun w => !w.isEmpty).map fun w =>
    String.ofList (w.map Prod.fst)

/-! ### Words that can be shown -/

/-- The text is not empty and has no quotes in it. -/
@[mk_iff]
structure Showable (s : String) : Prop where
  ne_empty : s ≠ ""
  unquoted : quote ∉ s.toList

/-- Whether a text can be shown can be computed. -/
instance : DecidablePred Showable := fun s =>
  decidable_of_iff ((s != "" && !s.toList.contains quote) = true)
    (by simp [showable_iff])

/-- The words of the command can be shown, and its program has no blanks. -/
structure Legible (c : Command) : Prop where
  program : Showable c.program
  compact : ∀ ch ∈ c.program.toList, Text.isBlank ch = false
  arguments : ∀ a ∈ c.arguments, Showable a

variable {c d : Command} {s : String} {cs : List Char}

/-- Characters that are no quotes are all marked in the same way. -/
lemma marked_append (hcs : quote ∉ cs) (inside : Bool) (rest : List Char) :
    marked inside (cs ++ rest) = cs.map (fun ch => (ch, inside)) ++ marked inside rest := by
  induction cs with
  | nil => rfl
  | cons ch cs ih =>
    obtain ⟨hch, hcs⟩ := not_or.1 (mt List.mem_cons.2 hcs)
    rw [List.cons_append, marked, if_neg (Ne.symm hch), ih hcs]
    rfl

/-- The characters of a shown argument are marked when it needs quotes, and these are gone. -/
lemma marked_displayArgument (hs : quote ∉ s.toList) (rest : List Char) :
    marked false ((displayArgument s).toList ++ rest) =
      s.toList.map (fun ch => (ch, needsQuotes s)) ++ marked false rest := by
  unfold displayArgument
  cases hneeds : needsQuotes s with
  | false => exact marked_append hs false rest
  | true =>
    have hlist : ("'" ++ s ++ "'").toList ++ rest =
        quote :: (s.toList ++ quote :: rest) := by
      simp [quote]
    rw [if_pos rfl, hlist, marked, if_pos rfl, marked_append hs, marked, if_pos rfl]
    rfl

/-- Words that are joined by spaces are joined by separating spaces when they are marked, if what
follows a word does not count for its marks. -/
lemma marked_intercalate (ws : List (List Char × List (Char × Bool)))
    (h : ∀ w ∈ ws, ∀ rest, marked false (w.1 ++ rest) = w.2 ++ marked false rest) :
    marked false ([' '].intercalate (ws.map Prod.fst)) =
      [(' ', false)].intercalate (ws.map Prod.snd) := by
  induction ws with
  | nil => rfl
  | cons w ws ih =>
    obtain ⟨hw, hws⟩ := List.forall_mem_cons.1 h
    cases ws with
    | nil =>
      have hone := hw []
      rw [List.append_nil] at hone
      simpa [marked] using hone
    | cons w' ws =>
      have hspace (rest : List Char) :
          marked false ([' '] ++ rest) = [(' ', false)] ++ marked false rest := by
        rw [List.singleton_append, marked, if_neg (by decide)]
        rfl
      rw [List.map_cons] at ih
      rw [List.map_cons, List.map_cons, List.map_cons, List.intercalate_cons_cons,
        List.append_assoc, hw, hspace, ih hws, List.map_cons, List.intercalate_cons_cons,
        List.append_assoc]

/-- The characters of a command, word by word, each with whether it is shown in quotes. -/
def words (c : Command) : List (List (Char × Bool)) :=
  c.program.toList.map (fun ch => (ch, false)) ::
    c.arguments.map fun a => a.toList.map fun ch => (ch, needsQuotes a)

/-- A shown command is its words, with spaces between them. -/
lemma marked_display (h : c.Legible) :
    marked false c.display.toList = [(' ', false)].intercalate c.words := by
  have hspace : " ".toList = [' '] := rfl
  have hwords := marked_intercalate ((c.program.toList, c.program.toList.map (·, false)) ::
    c.arguments.map fun a => ((displayArgument a).toList, a.toList.map (·, needsQuotes a)))
    (List.forall_mem_cons.2 ⟨marked_append h.program.unquoted false, ?_⟩)
  · simpa [display, words, String.toList_intercalate, hspace, Function.comp_def] using hwords
  · intro w hw
    obtain ⟨a, ha, rfl⟩ := List.mem_map.1 hw
    exact marked_displayArgument (h.arguments a ha).unquoted

/-- The words of a command are not empty, and no space in them separates words. -/
lemma separates_words (h : c.Legible) :
    ∀ w ∈ c.words, w ≠ [] ∧ ∀ x ∈ w, separates x = false := by
  refine List.forall_mem_cons.2 ⟨⟨?_, ?_⟩, fun w hw => ?_⟩
  · simpa using h.program.ne_empty
  · intro x hx
    obtain ⟨ch, hch, rfl⟩ := List.mem_map.1 hx
    simp [separates, h.compact ch hch]
  · obtain ⟨a, ha, rfl⟩ := List.mem_map.1 hw
    refine ⟨by simpa using (h.arguments a ha).ne_empty, fun x hx => ?_⟩
    obtain ⟨ch, hch, rfl⟩ := List.mem_map.1 hx
    cases hneeds : needsQuotes a with
    | true => simp [separates]
    | false =>
      have hplain := List.any_eq_false.1 hneeds ch hch
      simp_all [separates]

/-- A command is read back from the line on which it is shown. -/
theorem split_display (h : c.Legible) : split c.display = c.program :: c.arguments := by
  have hwords := separates_words h
  have hpieces : Text.splitAll separates (marked false c.display.toList) = c.words := by
    rw [marked_display h]
    exact Text.splitAll_intercalate (by decide) (List.cons_ne_nil _ _) fun w hw => (hwords w hw).2
  have hfilter : c.words.filter (fun w => !w.isEmpty) = c.words :=
    List.filter_eq_self.2 fun w hw => by simpa using (hwords w hw).1
  unfold split
  rw [hpieces, hfilter]
  simp [words, Function.comp_def]

/-- Commands that look the same are the same. -/
theorem eq_of_display_eq (hc : c.Legible) (hd : d.Legible) (heq : c.display = d.display) :
    c = d := by
  have hsplit : c.program :: c.arguments = d.program :: d.arguments := by
    rw [← split_display hc, ← split_display hd, heq]
  obtain ⟨hprogram, harguments⟩ := List.cons.inj hsplit
  cases c
  cases d
  cases hprogram
  cases harguments
  rfl

end Montage.Command
