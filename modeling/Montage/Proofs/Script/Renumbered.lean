import Montage.Proofs.Script.Openings

/-!
# Other numbers of lines

What a block stands for does not depend on how the lines of a script are numbered: with other
numbers, its step or its error has the other numbers, and nothing else changes (`step_renumbered`).
The same lines form blocks, too (`readAll_renumbered`).

The builders of operations pass the numbers of lines on and do not look at them.
`Builder.Renumbers` states this as a law between two builders, of which the second one is given the
attributes with the other numbers; chains of builders keep it (`Renumbers.bind`), and so it follows
for every kind of block.
-/

namespace Montage

variable {α β γ δ : Type} {r : Nat → Nat}

/-! ### What has numbers -/

/-- A line with its number changed. -/
def Line.renumbered (r : Nat → Nat) (l : Line) : Line := { l with number := r l.number }

/-- A block with the numbers of its lines changed. -/
def Block.renumbered (r : Nat → Nat) (b : Block) : Block :=
  { b with line := r b.line, lines := b.lines.map (Line.renumbered r) }

/-- An assignment with the number of its line changed. -/
def Attribute.renumbered (r : Nat → Nat) (a : Attribute) : Attribute := { a with line := r a.line }

/-- The attributes of a block with the numbers of its lines changed. -/
def Attributes.renumbered (r : Nat → Nat) (as : Attributes) : Attributes :=
  { as with line := r as.line, entries := as.entries.map (Attribute.renumbered r) }

/-- A step with the number of its line changed. -/
def Step.renumbered (r : Nat → Nat) (s : Step) : Step := { s with line := r s.line }

/-- An error with the number of its line changed, if it names one. -/
def Error.renumbered (r : Nat → Nat) : Error → Error
  | .badLine line fault => .badLine (r line) fault
  | .missingField kind field line => .missingField kind field (r line)
  | .unknownKind token line => .unknownKind token (r line)
  | .undefinedClip name kind line => .undefinedClip name kind (r line)
  | e => e

/-- What comes of something with other numbers of lines: the error has other numbers, and the result
is changed by a function. -/
def renumberedOutcome (r : Nat → Nat) (f : α → β) : Except Error α → Except Error β
  | .ok a => .ok (f a)
  | .error e => .error (e.renumbered r)

/-- If each of two computations only has other numbers, so has one after the other. -/
lemma renumberedOutcome_bind {f : α → β} {g : γ → δ} {x : Except Error α} {k : α → Except Error γ}
    {k' : β → Except Error δ} (h : ∀ a, k' (f a) = renumberedOutcome r g (k a)) :
    renumberedOutcome r f x >>= k' = renumberedOutcome r g (x >>= k) := by
  cases x with
  | error e => rfl
  | ok a => exact h a

/-- If a computation only has other numbers for each entry of a list, it does so for the whole
list. -/
lemma mapM_map_renumbered {f : α → Except Error γ} {f' : β → Except Error δ} {g : α → β}
    {g' : γ → δ} (h : ∀ a, f' (g a) = renumberedOutcome r g' (f a)) (as : List α) :
    (as.map g).mapM f' = renumberedOutcome r (List.map g') (as.mapM f) := by
  induction as with
  | nil => rfl
  | cons a as ih =>
    rw [List.map_cons, List.mapM_cons, List.mapM_cons, h a, ih]
    exact renumberedOutcome_bind fun c => renumberedOutcome_bind fun cs => rfl

/-! ### Attributes -/

/-- A line with another number makes the same assignment. -/
lemma Attribute.ofLine_renumbered (l : Line) :
    ofLine (l.renumbered r) = renumberedOutcome r (Attribute.renumbered r) (ofLine l) := by
  unfold ofLine Line.renumbered
  dsimp only
  cases split? l.text.toList with
  | none => rfl
  | some parts =>
    obtain ⟨key, raw⟩ := parts
    dsimp only
    cases readValue (String.ofList key) (String.ofList raw) <;> rfl

namespace Attributes

/-- A block with other numbers assigns the same. -/
lemma ofBlock_renumbered (b : Block) :
    ofBlock (b.renumbered r) = renumberedOutcome r (Attributes.renumbered r) (ofBlock b) := by
  unfold ofBlock Block.renumbered
  dsimp only
  rw [mapM_map_renumbered Attribute.ofLine_renumbered]
  exact renumberedOutcome_bind fun entries => rfl

variable {as : Attributes} {key : String}

/-- The last assignment to a key is the same with other numbers. -/
lemma find?_renumbered :
    (as.renumbered r).find? key = (as.find? key).map (Attribute.renumbered r) := by
  unfold find? renumbered
  dsimp only
  rw [← List.map_reverse, List.find?_map]
  rfl

/-- With other numbers, the same assignments are left without those to a key. -/
lemma erase_renumbered : (as.renumbered r).erase key = (as.erase key).renumbered r := by
  unfold erase renumbered
  dsimp only
  rw [List.filter_map]
  rfl

end Attributes

/-! ### Builders -/

namespace Builder

variable {b b' : Builder α} {key : String}

/-- From attributes with other numbers, the second builder makes what the first one makes from the
attributes as they are; what it leaves, and its error, have the other numbers. -/
def Renumbers (r : Nat → Nat) (b b' : Builder α) : Prop :=
  ∀ as : Attributes, b' (as.renumbered r) =
    renumberedOutcome r (fun made => (made.1, made.2.renumbered r)) (b as)

/-- A plain value has no number of a line. -/
lemma renumbers_pure (a : α) : Renumbers r (pure a) (pure a) := fun _ => rfl

/-- An error is raised with its other number. -/
lemma renumbers_throw (e : Error) :
    Renumbers r (throw e : Builder α) (throw (e.renumbered r)) := fun _ => rfl

/-- A chain of builders that pass numbers on does so itself. -/
lemma Renumbers.bind {k k' : α → Builder β} (hb : Renumbers r b b')
    (hk : ∀ a, Renumbers r (k a) (k' a)) : Renumbers r (b >>= k) (b' >>= k') := by
  intro as
  have hchain : (b' >>= k') (as.renumbered r) =
      b' (as.renumbered r) >>= fun made => k' made.1 made.2 := rfl
  rw [hchain, hb as]
  exact renumberedOutcome_bind fun made => hk made.1 made.2

/-- Taking a key out gives its last assignment, with its other number. -/
lemma renumbers_take {k k' : Option Attribute → Builder α}
    (hk : ∀ found, Renumbers r (k found) (k' (found.map (Attribute.renumbered r)))) :
    Renumbers r (take key >>= k) (take key >>= k') := by
  intro as
  have hchain : (take key >>= k') (as.renumbered r) =
      k' ((as.renumbered r).find? key) ((as.renumbered r).erase key) := rfl
  rw [hchain, Attributes.find?_renumbered, Attributes.erase_renumbered]
  exact hk (as.find? key) (as.erase key)

/-- A value of an unexpected type is reported where it is assigned. -/
lemma renumbers_wrongType (a : Attribute) (expected : String) :
    Renumbers r (wrongType a expected : Builder α) (wrongType (a.renumbered r) expected) :=
  fun _ => rfl

/-- A key that lacks is reported where the block opens. -/
lemma renumbers_missing (key : String) :
    Renumbers r (missing key : Builder α) (missing key) := fun _ => rfl

/-- Reading a text passes numbers on. -/
lemma renumbers_text (key : String) : Renumbers r (text key) (text key) := by
  refine renumbers_take fun found => ?_
  rcases found with _ | ⟨name, value, line⟩
  · exact renumbers_pure none
  · cases value with
    | text s => exact renumbers_pure (some s)
    | _ => exact renumbers_wrongType _ _

/-- Reading a list of words passes numbers on. -/
lemma renumbers_list (key : String) : Renumbers r (list key) (list key) :=
  (renumbers_text key).bind fun _ => renumbers_pure _

/-- Reading a truth value passes numbers on. -/
lemma renumbers_flag (key : String) : Renumbers r (flag key) (flag key) := by
  refine renumbers_take fun found => ?_
  rcases found with _ | ⟨name, value, line⟩
  · exact renumbers_pure none
  · cases value with
    | flag b => exact renumbers_pure (some b)
    | _ => exact renumbers_wrongType _ _

/-- Reading a timestamp passes numbers on. -/
lemma renumbers_time (key : String) : Renumbers r (time key) (time key) := by
  refine renumbers_take fun found => ?_
  rcases found with _ | ⟨name, value, line⟩
  · exact renumbers_pure none
  · cases value with
    | time t => exact renumbers_pure (some t)
    | _ => exact renumbers_wrongType _ _

/-- Reading a number passes the numbers of lines on; one that is too large is reported where it is
assigned. -/
lemma renumbers_countBelow (limit : Nat) (make : UInt64 → α) (key : String) :
    Renumbers r (countBelow limit make key) (countBelow limit make key) := by
  refine renumbers_take fun found => ?_
  rcases found with _ | ⟨name, value, line⟩
  · exact renumbers_pure none
  · cases value with
    | count m =>
      by_cases hlimit : m.toNat < limit
      · simp only [Option.map_some, Attribute.renumbered, if_pos hlimit]
        exact renumbers_pure _
      · simp only [Option.map_some, Attribute.renumbered, if_neg hlimit]
        exact renumbers_throw _
    | _ => exact renumbers_wrongType _ _

/-- Reading a number of 64 bits passes the numbers of lines on. -/
lemma renumbers_count64 (key : String) : Renumbers r (count64 key) (count64 key) :=
  renumbers_countBelow _ _ key

/-- Reading a number of 32 bits passes the numbers of lines on. -/
lemma renumbers_count32 (key : String) : Renumbers r (count32 key) (count32 key) :=
  renumbers_countBelow _ _ key

/-- Reading a number of eight bits passes the numbers of lines on. -/
lemma renumbers_count8 (key : String) : Renumbers r (count8 key) (count8 key) :=
  renumbers_countBelow _ _ key

/-- Reading something that is required passes numbers on. -/
lemma Renumbers.required {read : String → Builder (Option α)}
    (h : Renumbers r (read key) (read key)) :
    Renumbers r (Builder.required read key) (Builder.required read key) := by
  refine h.bind fun found => ?_
  cases found with
  | none => exact renumbers_missing key
  | some a => exact renumbers_pure a

/-- Reading a text that is required passes numbers on. -/
lemma renumbers_requiredText (key : String) : Renumbers r (required text key) (required text key) :=
  (renumbers_text key).required

end Builder

/-! ### Kinds of blocks -/

namespace Operation

open Builder

/-- The medium of a definition is reported where the block opens. -/
lemma renumbers_readMedium (token : String) :
    Renumbers r (readMedium token) (readMedium token) := by
  intro as
  unfold readMedium
  cases Medium.ofToken? token <;> rfl

/-- The canvas of a composition passes numbers on. -/
lemma renumbers_readCanvas : Renumbers r readCanvas readCanvas := by
  refine (renumbers_count32 "width").bind fun width => ?_
  refine (renumbers_count32 "height").bind fun height => ?_
  cases width <;> cases height
  · exact renumbers_pure none
  · exact renumbers_missing "width"
  · exact renumbers_missing "height"
  · exact renumbers_pure _

/-- An effect passes numbers on when what is its own does. -/
lemma renumbers_buildEffect {own : Builder Effect} (h : Renumbers r own own) :
    Renumbers r (buildEffect own) (buildEffect own) := by
  refine (renumbers_requiredText "clip").bind fun input => ?_
  refine (renumbers_requiredText "out").bind fun output => ?_
  exact h.bind fun _ => renumbers_pure _

/-- Building an operation passes numbers on, for each kind of block. -/
lemma renumbers_builder (k : Kind) : Renumbers r (builder k) (builder k) := by
  cases k with
  | define =>
    refine (renumbers_requiredText "name").bind fun name => ?_
    refine (renumbers_requiredText "type").bind fun token => ?_
    refine (renumbers_readMedium token).bind fun medium => ?_
    refine (renumbers_requiredText "source").bind fun source => ?_
    refine (renumbers_flag "hasaudio").bind fun hasAudio => ?_
    refine (renumbers_count64 "duration").bind fun duration => ?_
    exact (renumbers_text "duration_from").bind fun _ => renumbers_pure _
  | resize =>
    refine renumbers_buildEffect ?_
    refine (renumbers_count32 "height").bind fun height => ?_
    exact (renumbers_count32 "width").bind fun _ => renumbers_pure _
  | position =>
    refine renumbers_buildEffect ?_
    refine (renumbers_count32 "x").bind fun x => ?_
    exact (renumbers_count32 "y").bind fun _ => renumbers_pure _
  | margin =>
    refine renumbers_buildEffect ?_
    refine (renumbers_count32 "size").bind fun size => ?_
    refine (renumbers_count32 "opacity").bind fun opacity => ?_
    refine (renumbers_count8 "red").bind fun red => ?_
    refine (renumbers_count8 "green").bind fun green => ?_
    exact (renumbers_count8 "blue").bind fun _ => renumbers_pure _
  | concatenate =>
    refine (renumbers_requiredText "out").bind fun output => ?_
    exact (renumbers_list "clips").required.bind fun _ => renumbers_pure _
  | compose =>
    refine (renumbers_requiredText "out").bind fun output => ?_
    refine (renumbers_list "clips").required.bind fun clips => ?_
    exact renumbers_readCanvas.bind fun _ => renumbers_pure _
  | setAudio =>
    refine (renumbers_requiredText "out").bind fun output => ?_
    refine (renumbers_requiredText "clip").bind fun picture => ?_
    exact (renumbers_requiredText "audio").bind fun _ => renumbers_pure _
  | subclip =>
    refine (renumbers_requiredText "clip").bind fun input => ?_
    refine (renumbers_time "start").required.bind fun start => ?_
    refine (renumbers_time "end").bind fun stop => ?_
    exact (renumbers_requiredText "out").bind fun _ => renumbers_pure _
  | deliver =>
    refine (renumbers_requiredText "clip").bind fun input => ?_
    refine (renumbers_requiredText "out").bind fun destination => ?_
    refine (renumbers_count32 "fps").required.bind fun fps => ?_
    refine (renumbers_requiredText "codec").bind fun codec => ?_
    refine (renumbers_text "preset").bind fun preset => ?_
    refine (renumbers_count32 "threads").bind fun threads => ?_
    exact (renumbers_list "params").bind fun _ => renumbers_pure _

end Operation

/-! ### Steps -/

/-- The step that a block stands for, without the report on it. -/
def Block.step (b : Block) : Except Error Step := (Step.ofBlock b).map Prod.fst

/-- A block with other numbers stands for the same step, with its other number; one that stands for
none fails in the same way, with the other number. -/
theorem Block.step_renumbered (b : Block) :
    (b.renumbered r).step = renumberedOutcome r (Step.renumbered r) b.step := by
  unfold step Step.ofBlock
  have hkind : (b.renumbered r).kind = b.kind := rfl
  rw [hkind]
  cases Kind.ofToken? b.kind with
  | none => rfl
  | some k =>
    dsimp only
    rw [Attributes.ofBlock_renumbered]
    cases Attributes.ofBlock b with
    | error e => rfl
    | ok as =>
      have hbuilt := Operation.renumbers_builder (r := r) k as
      change Except.map Prod.fst (Operation.builder k (as.renumbered r) >>= _) =
        renumberedOutcome r (Step.renumbered r) (Except.map Prod.fst (Operation.builder k as >>= _))
      rw [hbuilt]
      cases Operation.builder k as <;> rfl

/-! ### The blocks of lines -/

namespace Block

variable {ls : List Line}

/-- The lines before the end of a block are the same with other numbers. -/
lemma interior_renumbered :
    interior (ls.map (Line.renumbered r)) = (interior ls).map (Line.renumbered r) := by
  unfold interior
  rw [List.takeWhile_map]
  rfl

/-- The end of a block is the same with other numbers. -/
lemma ending_renumbered :
    ending (ls.map (Line.renumbered r)) = (ending ls).map (Line.renumbered r) := by
  unfold ending
  rw [List.dropWhile_map]
  rfl

/-- The blocks of lines with other numbers are the same blocks, with the other numbers. -/
theorem readAll_renumbered :
    readAll (ls.map (Line.renumbered r)) = (readAll ls).map (renumbered r) := by
  induction ls using readAll.induct with
  | case1 => simp [readAll]
  | case2 l ls hnone ih =>
    have hnone' : (l.renumbered r).opening? = none := hnone
    rw [List.map_cons, readAll_cons_of_none hnone', readAll_cons_of_none hnone, ih]
  | case3 l ls kind hsome ih =>
    have hsome' : (l.renumbered r).opening? = some kind := hsome
    have hkept : ((interior ls).map (Line.renumbered r)).filter (fun l => !l.carriesNothing) =
        ((interior ls).filter fun l => !l.carriesNothing).map (Line.renumbered r) := by
      rw [List.filter_map]
      rfl
    rw [List.map_cons, readAll_cons_of_some hsome', readAll_cons_of_some hsome,
      interior_renumbered, ending_renumbered, hkept, List.isEmpty_map, ← List.map_tail, ih]
    rfl

end Block

end Montage
