import Montage.Proofs.Json.Tokens

/-!
# Reading values

A value is read from exactly its texts (`read?_eq_some_iff`), so the reader accepts the documents of
the grammar and no others, and a text is one of at most one value (`eq_of_isText`).

In one direction, the machine takes the tokens of a value in one piece: from any state in which a
value may begin, they lead to the state in which it is complete (`taken`), whatever is open around
it.  In the other direction, a state tells which tokens lead to it: `Awaits` says it of the arrays
and objects that are open where a value is due, `Leads` of all states, and each token that is fed
keeps it true (`Leads.feed`).
-/

namespace Montage.Json

open Machine

/-- The machine takes the tokens of the value in one piece, whatever is open around it. -/
def Taken (j : Json Bytes) : Prop :=
  ∀ levels mode, mode = .value ∨ mode = .firstItem →
    (tokens j).foldlM feed ⟨levels, mode⟩ = complete j levels

section Machine

variable {j : Json Bytes} {levels : List Level}

/-- Further tokens are taken where the value is complete. -/
lemma Taken.foldlM_append (h : Taken j) {mode : Mode} (hmode : mode = .value ∨ mode = .firstItem)
    {m : Machine} (hcomplete : complete j levels = some m) (ts : List Token) :
    (tokens j ++ ts).foldlM feed ⟨levels, mode⟩ = ts.foldlM feed m := by
  rw [List.foldlM_append, h levels mode hmode, hcomplete]
  rfl

/-- After an item, the rest of an array is taken. -/
lemma foldlM_moreItems {js : List (Json Bytes)} (h : ∀ j ∈ js, Taken j)
    (items : List (Json Bytes)) (levels : List Level) :
    (moreItems js).foldlM feed ⟨.array items :: levels, .next⟩ =
      complete (.array (items.reverse ++ js)) levels := by
  induction js generalizing items with
  | nil =>
    rw [moreItems, List.foldlM_cons, List.append_nil]
    exact Option.bind_fun_some _
  | cons j js ih =>
    obtain ⟨hj, hjs⟩ := List.forall_mem_cons.1 h
    rw [moreItems, List.foldlM_cons]
    change (tokens j ++ moreItems js).foldlM feed ⟨.array items :: levels, .value⟩ = _
    rw [hj.foldlM_append (.inl rfl) rfl, ih hjs, List.reverse_cons, List.append_assoc]
    rfl

/-- After a field, the rest of an object is taken. -/
lemma foldlM_moreFields {own : List (Bytes × Json Bytes)} (h : ∀ f ∈ own, Taken f.2)
    (fields : List (Bytes × Json Bytes)) (levels : List Level) :
    (moreFields own).foldlM feed ⟨.object fields :: levels, .next⟩ =
      complete (.object (fields.reverse ++ own)) levels := by
  induction own generalizing fields with
  | nil =>
    rw [moreFields, List.foldlM_cons, List.append_nil]
    exact Option.bind_fun_some _
  | cons f own ih =>
    obtain ⟨key, j⟩ := f
    obtain ⟨hj, hown⟩ := List.forall_mem_cons.1 h
    rw [moreFields, List.foldlM_cons]
    change (tokens j ++ moreFields own).foldlM feed ⟨.field fields key :: levels, .value⟩ = _
    rw [hj.foldlM_append (.inl rfl) rfl, ih hown, List.reverse_cons, List.append_assoc]
    rfl

/-- The machine takes the tokens of every value in one piece. -/
theorem taken (j : Json Bytes) : Taken j := by
  induction j using Json.inductionOn with
  | null => rintro levels mode (rfl | rfl) <;> exact Option.bind_fun_some _
  | bool => rintro levels mode (rfl | rfl) <;> exact Option.bind_fun_some _
  | number => rintro levels mode (rfl | rfl) <;> exact Option.bind_fun_some _
  | string => rintro levels mode (rfl | rfl) <;> exact Option.bind_fun_some _
  | array items ih =>
    intro levels mode hmode
    have hopen : feed ⟨levels, mode⟩ .openArray = some ⟨.array [] :: levels, .firstItem⟩ := by
      rcases hmode with rfl | rfl <;> rfl
    cases items with
    | nil =>
      rw [tokens, List.foldlM_cons, hopen]
      exact Option.bind_fun_some _
    | cons j js =>
      obtain ⟨hj, hjs⟩ := List.forall_mem_cons.1 ih
      rw [tokens, List.foldlM_cons, hopen]
      change (tokens j ++ moreItems js).foldlM feed ⟨.array [] :: levels, .firstItem⟩ = _
      rw [hj.foldlM_append (.inr rfl) rfl, foldlM_moreItems hjs]
      rfl
  | object fields ih =>
    intro levels mode hmode
    have hopen : feed ⟨levels, mode⟩ .openObject = some ⟨.object [] :: levels, .firstKey⟩ := by
      rcases hmode with rfl | rfl <;> rfl
    cases fields with
    | nil =>
      rw [tokens, List.foldlM_cons, hopen]
      exact Option.bind_fun_some _
    | cons f fields =>
      obtain ⟨key, j⟩ := f
      obtain ⟨hj, hfields⟩ := List.forall_mem_cons.1 ih
      rw [tokens, List.foldlM_cons, hopen]
      change (tokens j ++ moreFields fields).foldlM feed ⟨.field [] key :: levels, .value⟩ = _
      rw [hj.foldlM_append (.inl rfl) rfl, foldlM_moreFields hfields]
      rfl

end Machine

/-! ### What was taken -/

/-- After the given tokens a value is due, with the given arrays and objects open around it. -/
inductive Awaits : List Level → List Token → Prop where
  | start : Awaits [] []
  | firstItem {levels : List Level} {ts : List Token} :
      Awaits levels ts → Awaits (.array [] :: levels) (ts ++ [.openArray])
  | nextItem {levels : List Level} {ts : List Token} {items : List (Json Bytes)} {j : Json Bytes} :
      Awaits (.array items :: levels) ts →
      Awaits (.array (j :: items) :: levels) (ts ++ tokens j ++ [.comma])
  | firstField {levels : List Level} {ts : List Token} {key : Bytes} :
      Awaits levels ts →
      Awaits (.field [] key :: levels) (ts ++ [.openObject] ++ [.string key] ++ [.colon])
  | nextField {levels : List Level} {ts : List Token} {fields : List (Bytes × Json Bytes)}
      {key key' : Bytes} {j : Json Bytes} :
      Awaits (.field fields key :: levels) ts →
      Awaits (.field ((key, j) :: fields) key' :: levels)
        (ts ++ tokens j ++ [.comma] ++ [.string key'] ++ [.colon])

/-- The given tokens lead to the state. -/
inductive Leads : List Token → Machine → Prop where
  | value {levels : List Level} {ts : List Token} : Awaits levels ts → Leads ts ⟨levels, .value⟩
  | firstItem {levels : List Level} {ts : List Token} :
      Awaits levels ts → Leads (ts ++ [.openArray]) ⟨.array [] :: levels, .firstItem⟩
  | item {levels : List Level} {ts : List Token} {items : List (Json Bytes)} {j : Json Bytes} :
      Awaits (.array items :: levels) ts →
      Leads (ts ++ tokens j) ⟨.array (j :: items) :: levels, .next⟩
  | firstKey {levels : List Level} {ts : List Token} :
      Awaits levels ts → Leads (ts ++ [.openObject]) ⟨.object [] :: levels, .firstKey⟩
  | firstColon {levels : List Level} {ts : List Token} {key : Bytes} :
      Awaits levels ts →
      Leads (ts ++ [.openObject] ++ [.string key]) ⟨.field [] key :: levels, .colon⟩
  | field {levels : List Level} {ts : List Token} {fields : List (Bytes × Json Bytes)}
      {key : Bytes} {j : Json Bytes} :
      Awaits (.field fields key :: levels) ts →
      Leads (ts ++ tokens j) ⟨.object ((key, j) :: fields) :: levels, .next⟩
  | nextKey {levels : List Level} {ts : List Token} {fields : List (Bytes × Json Bytes)}
      {key : Bytes} {j : Json Bytes} :
      Awaits (.field fields key :: levels) ts →
      Leads (ts ++ tokens j ++ [.comma]) ⟨.object ((key, j) :: fields) :: levels, .key⟩
  | nextColon {levels : List Level} {ts : List Token} {fields : List (Bytes × Json Bytes)}
      {key key' : Bytes} {j : Json Bytes} :
      Awaits (.field fields key :: levels) ts →
      Leads (ts ++ tokens j ++ [.comma] ++ [.string key'])
        ⟨.field ((key, j) :: fields) key' :: levels, .colon⟩
  | done {j : Json Bytes} : Leads (tokens j) ⟨[], .done j⟩

section Leads

variable {levels : List Level} {ts : List Token} {m m' : Machine} {t : Token} {j : Json Bytes}

/-- The tokens of items that each have a comma after them. -/
def itemsBefore (items : List (Json Bytes)) : List Token :=
  items.flatMap fun j => tokens j ++ [.comma]

/-- The tokens of fields that each have a comma after them. -/
def fieldsBefore (fields : List (Bytes × Json Bytes)) : List Token :=
  fields.flatMap fun f => [.string f.1] ++ [.colon] ++ tokens f.2 ++ [.comma]

/-- The tokens after an item, when the last of the items that follow is given. -/
lemma moreItems_append (items : List (Json Bytes)) (j : Json Bytes) :
    moreItems (items ++ [j]) = [.comma] ++ itemsBefore items ++ tokens j ++ [.closeArray] := by
  induction items with
  | nil => simp [moreItems, itemsBefore]
  | cons first items ih =>
    rw [List.cons_append, moreItems, ih]
    simp [itemsBefore]

/-- The tokens after a field, when the last of the fields that follow is given. -/
lemma moreFields_append (fields : List (Bytes × Json Bytes)) (key : Bytes) (j : Json Bytes) :
    moreFields (fields ++ [(key, j)]) =
      [.comma] ++ fieldsBefore fields ++ [.string key] ++ [.colon] ++ tokens j ++
        [.closeObject] := by
  induction fields with
  | nil => simp [moreFields, fieldsBefore]
  | cons first fields ih =>
    rw [List.cons_append, moreFields, ih]
    simp [fieldsBefore]

/-- The tokens of an array whose last item is given. -/
lemma tokens_array (items : List (Json Bytes)) (j : Json Bytes) :
    tokens (.array (items ++ [j])) =
      [.openArray] ++ itemsBefore items ++ tokens j ++ [.closeArray] := by
  cases items with
  | nil => simp [tokens, moreItems, itemsBefore]
  | cons first items =>
    rw [List.cons_append, tokens, moreItems_append]
    simp [itemsBefore]

/-- The tokens of an object whose last field is given. -/
lemma tokens_object (fields : List (Bytes × Json Bytes)) (key : Bytes) (j : Json Bytes) :
    tokens (.object (fields ++ [(key, j)])) =
      [.openObject] ++ fieldsBefore fields ++ [.string key] ++ [.colon] ++ tokens j ++
        [.closeObject] := by
  cases fields with
  | nil => simp [tokens, moreFields, fieldsBefore]
  | cons first fields =>
    rw [List.cons_append, tokens, moreFields_append]
    simp [fieldsBefore]

/-- Where a further item of an array is due, its first tokens and those of its items were taken. -/
lemma Awaits.of_array {items : List (Json Bytes)} (h : Awaits (.array items :: levels) ts) :
    ∃ ts₀, Awaits levels ts₀ ∧ ts = ts₀ ++ [.openArray] ++ itemsBefore items.reverse := by
  induction items generalizing ts with
  | nil =>
    cases h with
    | firstItem h => exact ⟨_, h, by simp [itemsBefore]⟩
  | cons j items ih =>
    cases h with
    | nextItem h =>
      obtain ⟨ts₀, hlevels, rfl⟩ := ih h
      exact ⟨ts₀, hlevels, by simp [itemsBefore]⟩

/-- Where the value of a field is due, the first tokens of the object and those of its fields were
taken. -/
lemma Awaits.of_field {fields : List (Bytes × Json Bytes)} {key : Bytes}
    (h : Awaits (.field fields key :: levels) ts) :
    ∃ ts₀, Awaits levels ts₀ ∧
      ts = ts₀ ++ [.openObject] ++ fieldsBefore fields.reverse ++ [.string key] ++ [.colon] := by
  induction fields generalizing ts key with
  | nil =>
    cases h with
    | firstField h => exact ⟨_, h, by simp [fieldsBefore]⟩
  | cons f fields ih =>
    cases h with
    | nextField h =>
      obtain ⟨ts₀, hlevels, rfl⟩ := ih h
      exact ⟨ts₀, hlevels, by simp [fieldsBefore]⟩

/-- A value that was due is complete after its tokens. -/
lemma Awaits.complete (h : Awaits levels ts) (hcomplete : complete j levels = some m) :
    Leads (ts ++ tokens j) m := by
  unfold Machine.complete at hcomplete
  split at hcomplete
  · cases hcomplete
    cases h
    exact .done
  · cases hcomplete
    exact .item h
  · cases hcomplete
    exact .field h
  · cases hcomplete

/-- A token is an atom only of a value that has no other tokens. -/
def Simple (t : Token) : Prop := ∀ j, t = .atom j → tokens j = [t]

/-- Where a value is due, its first token leads on. -/
lemma Awaits.beginValue (h : Awaits levels ts) (hsimple : Simple t)
    (hbegin : beginValue levels t = some m) : Leads (ts ++ [t]) m := by
  unfold Machine.beginValue at hbegin
  split at hbegin
  · rename_i j
    rw [← hsimple j rfl]
    exact h.complete hbegin
  · exact h.complete hbegin
  · cases hbegin
    exact .firstItem h
  · cases hbegin
    exact .firstKey h
  · cases hbegin

/-- The closing bracket of an array completes it. -/
lemma Awaits.closeArray {items : List (Json Bytes)} (h : Awaits (.array items :: levels) ts)
    (hcomplete : Machine.complete (.array (j :: items).reverse) levels = some m) :
    Leads (ts ++ tokens j ++ [.closeArray]) m := by
  obtain ⟨ts₀, hlevels, rfl⟩ := h.of_array
  have hleads := hlevels.complete hcomplete
  rw [List.reverse_cons, tokens_array] at hleads
  simpa using hleads

/-- The closing bracket of an object completes it. -/
lemma Awaits.closeObject {fields : List (Bytes × Json Bytes)} {key : Bytes}
    (h : Awaits (.field fields key :: levels) ts)
    (hcomplete : Machine.complete (.object ((key, j) :: fields).reverse) levels = some m) :
    Leads (ts ++ tokens j ++ [.closeObject]) m := by
  obtain ⟨ts₀, hlevels, rfl⟩ := h.of_field
  have hleads := hlevels.complete hcomplete
  rw [List.reverse_cons, tokens_object] at hleads
  simpa using hleads

/-- One more token leads from state to state. -/
lemma Leads.feed (h : Leads ts m) (hsimple : Simple t) (hfeed : feed m t = some m') :
    Leads (ts ++ [t]) m' := by
  cases h with
  | value h => exact h.beginValue hsimple hfeed
  | firstItem h =>
    cases t with
    | closeArray =>
      rw [List.append_assoc]
      exact h.complete hfeed
    | _ => exact h.firstItem.beginValue hsimple hfeed
  | item h =>
    cases t with
    | comma =>
      cases hfeed
      exact .value h.nextItem
    | closeArray => exact h.closeArray hfeed
    | _ => cases hfeed
  | firstKey h =>
    cases t with
    | closeObject =>
      rw [List.append_assoc]
      exact h.complete hfeed
    | string key =>
      cases hfeed
      exact .firstColon h
    | _ => cases hfeed
  | firstColon h =>
    cases t with
    | colon =>
      cases hfeed
      exact .value h.firstField
    | _ => cases hfeed
  | field h =>
    cases t with
    | comma =>
      cases hfeed
      exact .nextKey h
    | closeObject => exact h.closeObject hfeed
    | _ => cases hfeed
  | nextKey h =>
    cases t with
    | string key =>
      cases hfeed
      exact .nextColon h
    | _ => cases hfeed
  | nextColon h =>
    cases t with
    | colon =>
      cases hfeed
      exact .value h.nextField
    | _ => cases hfeed
  | done =>
    cases t with
    | _ => cases hfeed

/-- The tokens that are fed lead to the state after them. -/
lemma leads_of_foldlM {ts' : List Token} (h : Leads ts m) (hsimple : ∀ t ∈ ts', Simple t)
    (hfed : ts'.foldlM Machine.feed m = some m') : Leads (ts ++ ts') m' := by
  induction ts' generalizing ts m with
  | nil =>
    cases hfed
    rwa [List.append_nil]
  | cons t ts' ih =>
    obtain ⟨ht, hts'⟩ := List.forall_mem_cons.1 hsimple
    rw [List.foldlM_cons] at hfed
    obtain ⟨m₁, hfeed, hrest⟩ := Option.bind_eq_some_iff.1 hfed
    have hleads := ih (h.feed ht hfeed) hts' hrest
    rwa [List.append_assoc] at hleads

end Leads

/-- The atoms that are spelled have no other tokens. -/
lemma Spaced.simple {ts : List Token} {text : Bytes} (h : Spaced ts text) : ∀ t ∈ ts, Simple t := by
  induction h with
  | nil => exact fun t ht => absurd ht List.not_mem_nil
  | @cons ws lexeme rest t ts _ hlexeme _ ih =>
    refine List.forall_mem_cons.2 ⟨fun j hj => ?_, ih⟩
    subst hj
    cases hlexeme with
    | null => rfl
    | bool => rfl
    | number => rfl

/-! ### Documents -/

/-- A value is read from exactly its texts. -/
theorem read?_eq_some_iff {j : Json Bytes} {text : Bytes} :
    read? text = some j ↔ IsText j text := by
  constructor
  · intro h
    obtain ⟨ts, htokens, h⟩ := Option.bind_eq_some_iff.1 h
    obtain ⟨m, hfed, hresult⟩ := Option.bind_eq_some_iff.1 h
    have hspaced := spaced_of_tokens? htokens
    have hleads : Leads ts m := leads_of_foldlM (.value .start) hspaced.simple hfed
    cases hleads with
    | done =>
      cases hresult
      exact hspaced
    | _ => cases hresult
  · intro h
    have htokens : tokens? text = some (tokens j) := tokens?_of_spaced h (isChain_tokens j)
    have hfed : (tokens j).foldlM feed start = some ⟨[], .done j⟩ := taken j [] .value (.inl rfl)
    rw [read?, htokens]
    change (((tokens j).foldlM feed start).bind Machine.result?) = _
    rw [hfed]
    rfl

/-- A text is one of at most one value. -/
theorem eq_of_isText {j j' : Json Bytes} {text : Bytes} (h : IsText j text) (h' : IsText j' text) :
    j = j' := by
  have hread := read?_eq_some_iff.2 h
  rw [read?_eq_some_iff.2 h'] at hread
  exact (Option.some.inj hread).symm

end Montage.Json
