import Montage.Proofs.Script.Grammar
import Montage.Proofs.Script.Validity
import Montage.Proofs.Text.ByteOrder

/-!
# Unused attributes

Each kind of block has its table of keys.  A key outside the table that a line of a block has is
`Foreign` to the block: nothing is made of its value.  When a block stands for a step, one event
lists the foreign keys, each once and in the order of their bytes, and there is no event when there
are none (`reportsForeign_of_ofBlock`).

This rests on what builders leave: the attributes of the block without the keys of its kind, for
each of the nine kinds (`Operation.takes_builder`).
-/

namespace Montage

/-! ### The keys of attributes -/

/-- In a list without repetitions each entry occurs once. -/
lemma nodup_eraseDups {α : Type} [BEq α] [LawfulBEq α] (xs : List α) : xs.eraseDups.Nodup := by
  cases xs with
  | nil => simp
  | cons x xs =>
    rw [List.eraseDups_cons, List.nodup_cons, List.mem_eraseDups]
    exact ⟨by simp, nodup_eraseDups (xs.filter fun y => !y == x)⟩
termination_by xs.length
decreasing_by exact Nat.lt_succ_of_le (List.length_filter_le _ xs)

namespace Attributes

variable {as : Attributes} {key : String}

/-- The keys are those of the assignments. -/
lemma mem_keys : key ∈ as.keys ↔ ∃ a ∈ as.entries, a.key = key := by
  rw [keys, List.mem_mergeSort, List.mem_eraseDups, List.mem_map]

/-- The keys are in the order of their bytes, each once. -/
lemma pairwise_keys (as : Attributes) :
    as.keys.Pairwise fun k l => Json.bytesOf k < Json.bytesOf l := by
  have hnodup : as.keys.Nodup := (List.mergeSort_perm _ _).nodup_iff.2 (nodup_eraseDups _)
  have hsorted : as.keys.Pairwise (· ≤ ·) := by
    refine (List.pairwise_mergeSort ?_ ?_ _).imp of_decide_eq_true
    · intro k l m hkl hlm
      exact decide_eq_true (String.le_trans (of_decide_eq_true hkl) (of_decide_eq_true hlm))
    · intro k l
      simpa using String.le_total k l
  refine (hsorted.and hnodup).imp fun {k l} h => ?_
  exact Text.bytesOf_lt_iff.2 (Std.lt_of_le_of_ne h.1 h.2)

/-- Without some keys, the other keys are left. -/
lemma mem_keys_without {keys : List String} :
    key ∈ (as.without keys).keys ↔ key ∉ keys ∧ ∃ a ∈ as.entries, a.key = key := by
  rw [mem_keys]
  constructor
  · rintro ⟨a, ha, rfl⟩
    obtain ⟨hentry, hkept⟩ := List.mem_filter.1 ha
    exact ⟨by simpa using hkept, a, hentry, rfl⟩
  · rintro ⟨hkept, a, ha, rfl⟩
    exact ⟨a, List.mem_filter.2 ⟨ha, by simpa using hkept⟩, rfl⟩

/-- No keys are left exactly when no assignments are. -/
lemma keys_eq_nil_iff : as.keys = [] ↔ as.entries = [] := by
  simp only [List.eq_nil_iff_forall_not_mem, mem_keys]
  constructor
  · intro h a ha
    exact h a.key ⟨a, ha, rfl⟩
  · rintro h key ⟨a, ha, -⟩
    exact h a ha

end Attributes

/-! ### The keys of lines -/

/-- The line has the key: it is of the pattern of assignments, with this key before the equals
sign. -/
def Line.HasKey (l : Line) (key : String) : Prop :=
  ∃ raw, Attribute.Matches l.text.toList key.toList raw

/-- The attribute of a line has the key of the line. -/
lemma Attribute.hasKey_iff {l : Line} {a : Attribute} (h : ofLine l = .ok a) {key : String} :
    l.HasKey key ↔ a.key = key := by
  obtain ⟨hassign, -⟩ := ofLine_eq_ok.1 h
  obtain ⟨⟨cs, raw⟩, hsplit, hvalue⟩ := Option.bind_eq_some_iff.1 hassign
  obtain ⟨value, -, heq⟩ := Option.map_eq_some_iff.1 hvalue
  have hkey : String.ofList cs = a.key := congrArg Prod.fst heq
  have hmatches (raw' : List Char) :
      Matches l.text.toList key.toList raw' ↔ cs = key.toList ∧ raw = raw' := by
    rw [matches_iff_splits, ← split?_eq_some_iff, hsplit, Option.some.injEq, Prod.mk.injEq]
  rw [← hkey]
  constructor
  · rintro ⟨raw', hraw⟩
    rw [((hmatches raw').1 hraw).1, String.ofList_toList]
  · rintro rfl
    exact ⟨raw, (hmatches raw).2 ⟨String.toList_ofList.symm, rfl⟩⟩

/-- The attributes of lines have the keys of the lines. -/
lemma Attribute.exists_hasKey_iff {ls : List Line} {entries : List Attribute}
    (h : ls.mapM ofLine = .ok entries) {key : String} :
    (∃ l ∈ ls, l.HasKey key) ↔ ∃ a ∈ entries, a.key = key := by
  induction mapM_eq_ok.1 h with
  | nil => simp
  | @cons l a ls entries hl hls ih =>
    rw [List.exists_mem_cons_iff, List.exists_mem_cons_iff, hasKey_iff hl,
      ih (mapM_eq_ok.2 hls)]

/-! ### The report -/

namespace Block

variable {b : Block} {k : Kind} {as : Attributes} {key : String}

/-- The key is foreign to a block of the kind: a line has it, and it is not in the table of the
kind. -/
def Foreign (b : Block) (k : Kind) (key : String) : Prop :=
  key ∉ k.keys ∧ ∃ l ∈ b.lines, l.HasKey key

/-- What the kind of a block does not take of its attributes has the foreign keys. -/
lemma mem_keys_without_iff (h : Attributes.ofBlock b = .ok as) :
    key ∈ (as.without k.keys).keys ↔ b.Foreign k key := by
  obtain ⟨entries, hentries, heq⟩ := bind_eq_ok.1 h
  cases heq
  rw [Attributes.mem_keys_without, Foreign, Attribute.exists_hasKey_iff hentries]

/-- The message of the report on keys that are not used. -/
def unusedMessage : String := "ignoring attributes not used by this block kind"

/-- Events report the foreign keys of a block. -/
structure ReportsForeign (b : Block) (k : Kind) (events : List Event) : Prop where
  /-- There is a report exactly when there is a foreign key. -/
  reported_iff : (∃ e ∈ events, e.level = .debug ∧ e.message = unusedMessage) ↔
    ∃ key, b.Foreign k key
  /-- There is one report at most, and nothing else. -/
  single : ∀ e ∈ events, events = [e]
  /-- The report has the kind and the line of the block, and it lists the foreign keys, each once
  and in the order of their bytes. -/
  listed : ∀ e ∈ events, ∃ unused, e = .unusedAttributes b.kind b.line unused ∧
    (∀ key, key ∈ unused ↔ b.Foreign k key) ∧
    unused.Pairwise fun key key' => Json.bytesOf key < Json.bytesOf key'
  /-- The report lists no key of the kind. -/
  spared : ∀ kind line unused, .unusedAttributes kind line unused ∈ events →
    ∀ key ∈ k.keys, key ∉ unused

/-- There is one event about the attributes that are left, if they have keys. -/
lemma unusedEvents_eq (left : Attributes) : left.unusedEvents =
    if left.keys = [] then [] else [.unusedAttributes left.kind left.line left.keys] := by
  simp only [Attributes.unusedEvents, Attributes.keys_eq_nil_iff, List.isEmpty_iff]

/-- What is reported about attributes with the foreign keys reports these keys. -/
lemma reportsForeign_of_keys {left : Attributes} (hkind : left.kind = b.kind)
    (hline : left.line = b.line) (hkeys : ∀ key, key ∈ left.keys ↔ b.Foreign k key) :
    b.ReportsForeign k left.unusedEvents := by
  rw [unusedEvents_eq, hkind, hline]
  by_cases hnone : left.keys = []
  · have hforeign : ¬ ∃ key, b.Foreign k key := by
      rintro ⟨key, hkey⟩
      exact List.ne_nil_of_mem ((hkeys key).2 hkey) hnone
    rw [if_pos hnone]
    exact ⟨by simp [hforeign], by simp, by simp, by simp⟩
  · obtain ⟨key, hkey⟩ := List.exists_mem_of_ne_nil _ hnone
    rw [if_neg hnone]
    refine ⟨iff_of_true ⟨_, List.mem_cons_self, rfl, rfl⟩ ⟨key, (hkeys key).1 hkey⟩, ?_, ?_, ?_⟩
    · intro e he
      rw [List.mem_singleton.1 he]
    · intro e he
      exact ⟨left.keys, List.mem_singleton.1 he, hkeys, left.pairwise_keys⟩
    · intro kind line unused he key hown hreported
      cases List.mem_singleton.1 he
      exact ((hkeys key).1 hreported).1 hown

/-- When a block stands for a step, the step is of its kind, and the events report the foreign keys
of the block. -/
theorem reportsForeign_of_ofBlock {step : Step} {events : List Event}
    (h : Step.ofBlock b = .ok (step, events)) :
    step.operation.kind.token = b.kind ∧ b.ReportsForeign step.operation.kind events := by
  obtain ⟨as, has, -, htoken, -, rfl⟩ := Step.ofBlock_eq_ok.1 h
  have hkeys (key : String) : key ∈ (as.without step.operation.kind.keys).keys ↔
      b.Foreign step.operation.kind key := mem_keys_without_iff has
  obtain ⟨entries, -, heq⟩ := bind_eq_ok.1 has
  cases heq
  exact ⟨htoken, reportsForeign_of_keys rfl rfl hkeys⟩

/-- A block with three foreign keys, one of them twice. -/
def crowdedBlock : Block :=
  ⟨"resize", 4, [⟨5, "clip = intro"⟩, ⟨6, "zoom = 3"⟩, ⟨8, "width = 640"⟩, ⟨9, "élan = 1"⟩,
    ⟨10, "out = small"⟩, ⟨11, "Zoom = 2"⟩, ⟨12, "zoom = 4"⟩], true⟩

/-- What is left of the block. -/
def crowdedRest : Attributes :=
  ⟨"resize", 4, [⟨"zoom", .text "3", 6⟩, ⟨"élan", .text "1", 9⟩, ⟨"Zoom", .text "2", 11⟩,
    ⟨"zoom", .text "4", 12⟩]⟩

/-- Capitals come first, and letters beyond ASCII last. -/
theorem reportsForeign_of_crowdedBlock :
    Step.ofBlock crowdedBlock = .ok (⟨4, .effect "intro" "small" (.resize none (some 640))⟩,
      [.unusedAttributes "resize" 4 ["Zoom", "zoom", "élan"]]) ∧
    crowdedBlock.ReportsForeign .resize
      [.unusedAttributes "resize" 4 ["Zoom", "zoom", "élan"]] := by
  have hkeys : crowdedRest.keys = ["Zoom", "zoom", "élan"] := by
    have hkeys : (crowdedRest.entries.map (·.key)).eraseDups = ["zoom", "élan", "Zoom"] := by
      decide +kernel
    rw [Attributes.keys, hkeys]
    simp [List.mergeSort, List.MergeSort.Internal.splitInTwo]
  have hevents : crowdedRest.unusedEvents =
      [.unusedAttributes "resize" 4 ["Zoom", "zoom", "élan"]] := by
    rw [unusedEvents_eq, hkeys]
    rfl
  have hstep : Step.ofBlock crowdedBlock =
      .ok (⟨4, .effect "intro" "small" (.resize none (some 640))⟩, crowdedRest.unusedEvents) := by
    have hbuilt : (Attributes.ofBlock crowdedBlock >>= Operation.builder .resize) =
        .ok (.effect "intro" "small" (.resize none (some 640)), crowdedRest) := by decide +kernel
    obtain ⟨as, has, hbuilt⟩ := bind_eq_ok.1 hbuilt
    obtain ⟨hstated, hrest⟩ := Operation.builder_eq_ok.1 hbuilt
    exact Step.ofBlock_eq_ok.2 ⟨as, has, rfl, rfl, hstated, congrArg _ hrest⟩
  rw [hevents] at hstep
  exact ⟨hstep, (reportsForeign_of_ofBlock hstep).2⟩

end Block

end Montage
