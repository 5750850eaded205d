import Montage.Json

/-!
# Reading JSON

A document is a list of bytes.  It is first cut into tokens, and the tokens are then fed one by one
to a machine whose state is the stack of arrays and objects that are still open.  `Json.read?`
accepts exactly the documents of strict JSON, with nothing but white space around the value and
without a limit on nesting.

A string is kept as bytes.  A surrogate that an escape names without its partner keeps its three
byte form, which is not UTF-8; so a string of no Unicode text can be skipped, and is noticed when
its text is asked for with `Json.textOf?`.
-/

namespace Montage.Json

/-- Bytes, as a file holds them. -/
abbrev Bytes := List UInt8

/-- The bytes of a text in UTF-8. -/
def bytesOf (s : String) : Bytes := s.toUTF8.data.toList

/-- The text that bytes are in UTF-8, if they are. -/
def textOf? (b : Bytes) : Option String := String.fromUTF8? (ByteArray.mk b.toArray)

/-- A text is read back from its bytes. -/
theorem textOf?_bytesOf (s : String) : textOf? (bytesOf s) = some s := by
  simp only [textOf?, bytesOf, String.fromUTF8?, Array.toArray_toList, String.toUTF8_eq_toByteArray]
  exact dif_pos s.isValidUTF8

/-! ### Strings -/

/-- A piece of a string: a byte as it is, or the code unit of an escape. -/
inductive Piece where
  | byte (b : UInt8)
  | unit (u : Nat)

/-- The value of a hexadecimal digit. -/
def hexDigit? (b : UInt8) : Option Nat :=
  if 0x30 ≤ b ∧ b ≤ 0x39 then some (b.toNat - 0x30)
  else if 0x41 ≤ b ∧ b ≤ 0x46 then some (b.toNat - 0x37)
  else if 0x61 ≤ b ∧ b ≤ 0x66 then some (b.toNat - 0x57)
  else none

/-- The code unit of four hexadecimal digits. -/
def codeUnit? (a b c d : UInt8) : Option Nat := do
  return (← hexDigit? a) * 4096 + (← hexDigit? b) * 256 + (← hexDigit? c) * 16 + (← hexDigit? d)

/-- The byte that a letter after a backslash stands for. -/
def escape? (b : UInt8) : Option UInt8 :=
  if b = 0x22 ∨ b = 0x5C ∨ b = 0x2F then some b
  else if b = 0x62 then some 0x08
  else if b = 0x66 then some 0x0C
  else if b = 0x6E then some 0x0A
  else if b = 0x72 then some 0x0D
  else if b = 0x74 then some 0x09
  else none

/-- A piece in front of the pieces of the rest of a string. -/
def Piece.before (p : Piece) (rest : List Piece × Bytes) : List Piece × Bytes :=
  (p :: rest.1, rest.2)

/-- The pieces of a string up to its closing quote, and what follows it. -/
def pieces? : Bytes → Option (List Piece × Bytes)
  | [] => none
  | 0x22 :: rest => some ([], rest)
  | 0x5C :: 0x75 :: a :: b :: c :: d :: rest =>
    (codeUnit? a b c d).bind fun u => (pieces? rest).map (Piece.unit u).before
  | 0x5C :: e :: rest => (escape? e).bind fun b => (pieces? rest).map (Piece.byte b).before
  | b :: rest => if b < 0x20 then none else (pieces? rest).map (Piece.byte b).before

/-- What follows a string is shorter than the string with it. -/
theorem length_of_pieces? {bytes : Bytes} {r : List Piece × Bytes} (h : pieces? bytes = some r) :
    r.2.length < bytes.length := by
  fun_induction pieces? bytes generalizing r with
  | case1 => simp at h
  | case2 rest =>
    cases h
    simp
  | case3 a b c d rest ih =>
    obtain ⟨u, -, h⟩ := Option.bind_eq_some_iff.1 h
    obtain ⟨q, hq, rfl⟩ := Option.map_eq_some_iff.1 h
    have := ih hq
    simp only [Piece.before, List.length_cons]
    omega
  | case4 e rest _ ih =>
    obtain ⟨u, -, h⟩ := Option.bind_eq_some_iff.1 h
    obtain ⟨q, hq, rfl⟩ := Option.map_eq_some_iff.1 h
    have := ih hq
    simp only [Piece.before, List.length_cons]
    omega
  | case5 => simp at h
  | case6 b rest _ _ _ _ ih =>
    obtain ⟨q, hq, rfl⟩ := Option.map_eq_some_iff.1 h
    have := ih hq
    simp only [Piece.before, List.length_cons]
    omega

/-- The bytes of a code point in UTF-8, or in the same pattern for a surrogate. -/
def encodePoint (n : Nat) : Bytes :=
  if n < 0x80 then [UInt8.ofNat n]
  else if n < 0x800 then [UInt8.ofNat (0xC0 + n / 0x40), UInt8.ofNat (0x80 + n % 0x40)]
  else if n < 0x10000 then
    [UInt8.ofNat (0xE0 + n / 0x1000), UInt8.ofNat (0x80 + n / 0x40 % 0x40),
     UInt8.ofNat (0x80 + n % 0x40)]
  else
    [UInt8.ofNat (0xF0 + n / 0x40000), UInt8.ofNat (0x80 + n / 0x1000 % 0x40),
     UInt8.ofNat (0x80 + n / 0x40 % 0x40), UInt8.ofNat (0x80 + n % 0x40)]

/-- The bytes of a string.  A high surrogate and the low one after it are one code point. -/
def joinPieces : List Piece → Bytes
  | [] => []
  | .byte b :: ps => b :: joinPieces ps
  | .unit high :: .unit low :: ps =>
    if 0xD800 ≤ high ∧ high < 0xDC00 ∧ 0xDC00 ≤ low ∧ low < 0xE000 then
      encodePoint (0x10000 + (high - 0xD800) * 0x400 + (low - 0xDC00)) ++ joinPieces ps
    else encodePoint high ++ joinPieces (.unit low :: ps)
  | .unit u :: ps => encodePoint u ++ joinPieces ps

/-! ### Tokens -/

/-- The smallest parts of a document. -/
inductive Token where
  | openArray
  | closeArray
  | openObject
  | closeObject
  | comma
  | colon
  | string (s : Bytes)
  /-- A literal word or a number. -/
  | atom (j : Json Bytes)

/-- A decimal digit. -/
def isDigit (b : UInt8) : Bool := 0x30 ≤ b && b ≤ 0x39

/-- White space between tokens: space, tab, line feed and carriage return. -/
def isSpace (b : UInt8) : Bool := b = 0x20 || b = 0x09 || b = 0x0A || b = 0x0D

/-- What follows a word, if the bytes begin with it. -/
def stripWord? (word bytes : Bytes) : Option Bytes :=
  if word.isPrefixOf bytes then some (bytes.drop word.length) else none

/-- A word and what follows it are the bytes. -/
theorem append_of_stripWord? {word bytes rest : Bytes} (h : stripWord? word bytes = some rest) :
    word ++ rest = bytes := by
  rw [stripWord?] at h
  split at h
  · rename_i begins
    obtain ⟨more, rfl⟩ := List.isPrefixOf_iff_prefix.1 begins
    cases h
    simp
  · simp at h

/-- One or more digits, and what follows them. -/
def digits? (bytes : Bytes) : Option (Bytes × Bytes) :=
  if bytes.takeWhile isDigit = [] then none
  else some (bytes.takeWhile isDigit, bytes.dropWhile isDigit)

/-- Digits and what follows them are the bytes. -/
theorem append_of_digits? {bytes : Bytes} {r : Bytes × Bytes} (h : digits? bytes = some r) :
    r.1 ++ r.2 = bytes ∧ r.1 ≠ [] := by
  rw [digits?] at h
  split at h
  · simp at h
  · cases h
    exact ⟨List.takeWhile_append_dropWhile, by assumption⟩

/-- The part of a number before its fraction: zero, or digits that begin with another one. -/
def whole? : Bytes → Option (Bytes × Bytes)
  | [] => none
  | b :: rest => if b = 0x30 then some ([b], rest) else digits? (b :: rest)

/-- The part of a number before its fraction and what follows it are the bytes. -/
theorem append_of_whole? {bytes : Bytes} {r : Bytes × Bytes} (h : whole? bytes = some r) :
    r.1 ++ r.2 = bytes ∧ r.1 ≠ [] := by
  cases bytes with
  | nil => simp [whole?] at h
  | cons b rest =>
    rw [whole?] at h
    split at h
    · cases h
      simp
    · exact append_of_digits? h

/-- An optional sign. -/
def sign (allowed : List UInt8) : Bytes → Bytes × Bytes
  | [] => ([], [])
  | b :: rest => if allowed.contains b then ([b], rest) else ([], b :: rest)

/-- A sign and what follows it are the bytes. -/
theorem append_sign (allowed : List UInt8) (bytes : Bytes) :
    (sign allowed bytes).1 ++ (sign allowed bytes).2 = bytes := by
  cases bytes with
  | nil => rfl
  | cons b rest =>
    rw [sign]
    split <;> rfl

/-- An optional fraction. -/
def fraction? : Bytes → Option (Bytes × Bytes)
  | [] => some ([], [])
  | b :: rest =>
    if b = 0x2E then (digits? rest).map fun r => (b :: r.1, r.2) else some ([], b :: rest)

/-- A fraction and what follows it are the bytes. -/
theorem append_of_fraction? {bytes : Bytes} {r : Bytes × Bytes} (h : fraction? bytes = some r) :
    r.1 ++ r.2 = bytes := by
  cases bytes with
  | nil =>
    cases h
    rfl
  | cons b rest =>
    rw [fraction?] at h
    split at h
    · obtain ⟨q, hq, rfl⟩ := Option.map_eq_some_iff.1 h
      simp [(append_of_digits? hq).1]
    · cases h
      rfl

/-- An optional exponent. -/
def exponent? : Bytes → Option (Bytes × Bytes)
  | [] => some ([], [])
  | b :: rest =>
    if b = 0x65 ∨ b = 0x45 then
      let signed := sign [0x2B, 0x2D] rest
      (digits? signed.2).map fun r => (b :: (signed.1 ++ r.1), r.2)
    else some ([], b :: rest)

/-- An exponent and what follows it are the bytes. -/
theorem append_of_exponent? {bytes : Bytes} {r : Bytes × Bytes} (h : exponent? bytes = some r) :
    r.1 ++ r.2 = bytes := by
  cases bytes with
  | nil =>
    cases h
    rfl
  | cons b rest =>
    rw [exponent?] at h
    split at h
    · obtain ⟨q, hq, rfl⟩ := Option.map_eq_some_iff.1 h
      simp [(append_of_digits? hq).1, append_sign]
    · cases h
      rfl

/-- The literal of a number, and what follows it. -/
def number? (bytes : Bytes) : Option (Bytes × Bytes) :=
  let minus := sign [0x2D] bytes
  (whole? minus.2).bind fun whole =>
    (fraction? whole.2).bind fun fraction =>
      (exponent? fraction.2).map fun exponent =>
        (minus.1 ++ (whole.1 ++ (fraction.1 ++ exponent.1)), exponent.2)

/-- The literal of a number and what follows it are the bytes. -/
theorem append_of_number? {bytes : Bytes} {r : Bytes × Bytes} (h : number? bytes = some r) :
    r.1 ++ r.2 = bytes ∧ r.1 ≠ [] := by
  obtain ⟨whole, hw, h⟩ := Option.bind_eq_some_iff.1 h
  obtain ⟨fraction, hf, h⟩ := Option.bind_eq_some_iff.1 h
  obtain ⟨exponent, he, rfl⟩ := Option.map_eq_some_iff.1 h
  have whole_append := append_of_whole? hw
  exact ⟨by simp [append_of_exponent? he, append_of_fraction? hf, whole_append.1, append_sign],
    by simp [whole_append.2]⟩

/-- The characters of ASCII bytes. -/
def asciiText (b : Bytes) : String := String.ofList (b.map fun b => Char.ofNat b.toNat)

/-- The words that stand for values. -/
def words : List (Bytes × Json Bytes) :=
  [(bytesOf "null", .null), (bytesOf "true", .bool true), (bytesOf "false", .bool false)]

/-- The first of the given words that the bytes begin with, and what follows it. -/
def word? (bytes : Bytes) : List (Bytes × Json Bytes) → Option (Json Bytes × Bytes)
  | [] => none
  | (word, j) :: more =>
    match stripWord? word bytes with
    | some rest => some (j, rest)
    | none => word? bytes more

/-- What follows a word is shorter than the bytes with it. -/
theorem length_of_word? {bytes : Bytes} {ws : List (Bytes × Json Bytes)} {r : Json Bytes × Bytes}
    (nonempty : ∀ w ∈ ws, w.1 ≠ []) (h : word? bytes ws = some r) :
    r.2.length < bytes.length := by
  induction ws with
  | nil => simp [word?] at h
  | cons w ws ih =>
    rw [word?] at h
    split at h
    · rename_i rest found
      cases h
      have length := congrArg List.length (append_of_stripWord? found)
      have := List.length_pos_iff.2 (nonempty w List.mem_cons_self)
      simp only [List.length_append] at length ⊢
      omega
    · exact ih (fun w hw => nonempty w (List.mem_cons_of_mem _ hw)) h

/-- A literal word or a number, and what follows it. -/
def atom? (bytes : Bytes) : Option (Json Bytes × Bytes) :=
  match word? bytes words with
  | some r => some r
  | none => (number? bytes).map fun r => (.number (asciiText r.1), r.2)

/-- What follows an atom is shorter than the bytes with it. -/
theorem length_of_atom? {bytes : Bytes} {r : Json Bytes × Bytes} (h : atom? bytes = some r) :
    r.2.length < bytes.length := by
  rw [atom?] at h
  split at h
  · rename_i found
    cases h
    exact length_of_word? (by decide) found
  · obtain ⟨q, hq, rfl⟩ := Option.map_eq_some_iff.1 h
    have ⟨append, nonempty⟩ := append_of_number? hq
    have length := congrArg List.length append
    have := List.length_pos_iff.2 nonempty
    simp only [List.length_append] at length ⊢
    omega

/-- The mark that a byte is, if it is one. -/
def mark? (b : UInt8) : Option Token :=
  if b = 0x5B then some .openArray
  else if b = 0x5D then some .closeArray
  else if b = 0x7B then some .openObject
  else if b = 0x7D then some .closeObject
  else if b = 0x2C then some .comma
  else if b = 0x3A then some .colon
  else none

/-- The first token, and what follows it. -/
def token? : Bytes → Option (Token × Bytes)
  | [] => none
  | b :: rest =>
    match mark? b with
    | some mark => some (mark, rest)
    | none =>
      if b = 0x22 then (pieces? rest).map fun r => (.string (joinPieces r.1), r.2)
      else (atom? (b :: rest)).map fun r => (.atom r.1, r.2)

/-- What follows a token is shorter than the bytes with it. -/
theorem length_of_token? {bytes : Bytes} {r : Token × Bytes} (h : token? bytes = some r) :
    r.2.length < bytes.length := by
  cases bytes with
  | nil => simp [token?] at h
  | cons b rest =>
    rw [token?] at h
    split at h
    · cases h
      simp
    · split at h
      · obtain ⟨q, hq, rfl⟩ := Option.map_eq_some_iff.1 h
        have := length_of_pieces? hq
        simp only [List.length_cons]
        omega
      · obtain ⟨q, hq, rfl⟩ := Option.map_eq_some_iff.1 h
        exact length_of_atom? hq

/-- The bytes without leading white space. -/
def skipSpace (bytes : Bytes) : Bytes := bytes.dropWhile isSpace

/-- The tokens of a document. -/
def tokens? (bytes : Bytes) : Option (List Token) :=
  if skipSpace bytes = [] then some []
  else
    match found : token? (skipSpace bytes) with
    | none => none
    | some (t, rest) =>
      have : rest.length < bytes.length :=
        Nat.lt_of_lt_of_le (length_of_token? found) (List.dropWhile_sublist _).length_le
      (tokens? rest).map (t :: ·)
  termination_by bytes.length

/-! ### Values -/

/-- An array or object that is still open, with what it holds so far, the last first. -/
inductive Level where
  | array (items : List (Json Bytes))
  | object (fields : List (Bytes × Json Bytes))
  /-- An object in which a key waits for its value. -/
  | field (fields : List (Bytes × Json Bytes)) (key : Bytes)

/-- What may come next. -/
inductive Mode where
  /-- A value. -/
  | value
  /-- A value, or the end of an array without items. -/
  | firstItem
  /-- A key. -/
  | key
  /-- A key, or the end of an object without fields. -/
  | firstKey
  /-- The colon after a key. -/
  | colon
  /-- A comma, or the end of what is open. -/
  | next
  /-- Nothing more: the document is this value. -/
  | done (j : Json Bytes)

/-- The state of reading: what is open, the innermost first, and what may come next. -/
structure Machine where
  levels : List Level
  mode : Mode

namespace Machine

/-- The state before the first token. -/
def start : Machine := ⟨[], .value⟩

/-- The state after a value is complete. -/
def complete (j : Json Bytes) : List Level → Option Machine
  | [] => some ⟨[], .done j⟩
  | .array items :: levels => some ⟨.array (j :: items) :: levels, .next⟩
  | .field fields key :: levels => some ⟨.object ((key, j) :: fields) :: levels, .next⟩
  | .object _ :: _ => none

/-- The state after a token where a value begins. -/
def beginValue (levels : List Level) : Token → Option Machine
  | .atom j => complete j levels
  | .string s => complete (.string s) levels
  | .openArray => some ⟨.array [] :: levels, .firstItem⟩
  | .openObject => some ⟨.object [] :: levels, .firstKey⟩
  | _ => none

/-- The state after a token where a key is due. -/
def beginField : List Level → Token → Option Machine
  | .object fields :: levels, .string key => some ⟨.field fields key :: levels, .colon⟩
  | _, _ => none

/-- The state after a token that ends what is open. -/
def close : List Level → Token → Option Machine
  | .array items :: levels, .closeArray => complete (.array items.reverse) levels
  | .object fields :: levels, .closeObject => complete (.object fields.reverse) levels
  | _, _ => none

/-- The state after a comma. -/
def separate : List Level → Option Machine
  | .array items :: levels => some ⟨.array items :: levels, .value⟩
  | .object fields :: levels => some ⟨.object fields :: levels, .key⟩
  | _ => none

/-- The state after one more token. -/
def feed (m : Machine) (t : Token) : Option Machine :=
  match m.mode, t with
  | .value, t => beginValue m.levels t
  | .firstItem, .closeArray => close m.levels .closeArray
  | .firstItem, t => beginValue m.levels t
  | .key, t => beginField m.levels t
  | .firstKey, .closeObject => close m.levels .closeObject
  | .firstKey, t => beginField m.levels t
  | .colon, .colon => some { m with mode := .value }
  | .next, .comma => separate m.levels
  | .next, t => close m.levels t
  | _, _ => none

/-- The value of a document whose tokens have all been fed. -/
def result? (m : Machine) : Option (Json Bytes) :=
  match m.mode with
  | .done j => some j
  | _ => none

end Machine

/-- The value of a document, if it is JSON. -/
def read? (document : Bytes) : Option (Json Bytes) := do
  let m ← (← tokens? document).foldlM Machine.feed Machine.start
  m.result?

end Montage.Json
