import Montage.Json.Reader

/-!
# The grammar of JSON

Which texts a JSON value has, said without regard to how texts are read.  A value is a sequence of
tokens, `Json.tokens`; a token has one or several spellings, `Json.Lexeme`; and `Json.Spaced` puts
white space around the tokens of a sequence.  `Json.IsText j text` is the outcome: `text` is a text
of the value `j`.

As in the reader, a number is its literal and a string is a list of bytes, which need not be UTF-8.
A surrogate without its partner stands for the three bytes of its code point.
-/

namespace Montage.Json

/-! ### Numbers -/

/-- One or more decimal digits. -/
def Digits (ds : Bytes) : Prop := ds ≠ [] ∧ ∀ d ∈ ds, isDigit d = true

/-- The part of a number before its fraction: zero, or digits of which the first is not zero. -/
inductive Whole : Bytes → Prop where
  | zero : Whole [0x30]
  | digits {ds : Bytes} : Digits ds → ds.head? ≠ some 0x30 → Whole ds

/-- The fraction of a number, which may be missing. -/
inductive Fraction : Bytes → Prop where
  | missing : Fraction []
  | digits {ds : Bytes} : Digits ds → Fraction (0x2E :: ds)

/-- The exponent of a number, which may be missing. -/
inductive Exponent : Bytes → Prop where
  | missing : Exponent []
  | digits {letter : UInt8} {sign ds : Bytes} :
      letter = 0x65 ∨ letter = 0x45 → sign ∈ [[], [0x2B], [0x2D]] → Digits ds →
      Exponent (letter :: (sign ++ ds))

/-- The literal of a number. -/
inductive Literal : Bytes → Prop where
  | parts {minus whole fraction exponent : Bytes} :
      minus ∈ [[], [0x2D]] → Whole whole → Fraction fraction → Exponent exponent →
      Literal (minus ++ (whole ++ (fraction ++ exponent)))

/-! ### Strings -/

/-- A hexadecimal digit, in either case, and its value. -/
def HexDigit (n : Nat) (b : UInt8) : Prop :=
  n < 16 ∧ (b.toNat = (Nat.digitChar n).toNat ∨ b.toNat = (Nat.digitChar n).toUpper.toNat)

/-- The escape of a code unit: its four hexadecimal digits after a backslash and the letter `u`. -/
inductive UnitEscape : Nat → Bytes → Prop where
  | digits {i j k l : Nat} {a b c d : UInt8} :
      HexDigit i a → HexDigit j b → HexDigit k c → HexDigit l d →
      UnitEscape (((i * 16 + j) * 16 + k) * 16 + l) [0x5C, 0x75, a, b, c, d]

/-- The escapes of one letter, and the bytes they stand for. -/
def shortEscapes : List (UInt8 × UInt8) :=
  [(0x22, 0x22), (0x5C, 0x5C), (0x2F, 0x2F), (0x62, 0x08), (0x66, 0x0C), (0x6E, 0x0A), (0x72, 0x0D),
   (0x74, 0x09)]

/-- The first half of a surrogate pair. -/
def IsHigh (u : Nat) : Prop := 0xD800 ≤ u ∧ u < 0xDC00

/-- The second half of a surrogate pair. -/
def IsLow (u : Nat) : Prop := 0xDC00 ≤ u ∧ u < 0xE000

/-- The text begins with an escape of the second half of a surrogate pair. -/
def BeginsLow (t : Bytes) : Prop := ∃ u e rest, IsLow u ∧ UnitEscape u e ∧ t = e ++ rest

/-- Bytes, and what may stand between the quotes for them. -/
inductive Spells : Bytes → Bytes → Prop where
  | nil : Spells [] []
  /-- A byte as it is. -/
  | byte {b : UInt8} {s t : Bytes} :
      0x20 ≤ b → b ≠ 0x22 → b ≠ 0x5C → Spells s t → Spells (b :: s) (b :: t)
  /-- A backslash and a letter. -/
  | short {letter b : UInt8} {s t : Bytes} :
      (letter, b) ∈ shortEscapes → Spells s t → Spells (b :: s) (0x5C :: letter :: t)
  /-- The code point of a character. -/
  | unit {c : Char} {e s t : Bytes} :
      c.toNat < 0x10000 → UnitEscape c.toNat e → Spells s t →
      Spells (String.utf8EncodeChar c ++ s) (e ++ t)
  /-- The surrogate pair of a character. -/
  | pair {c : Char} {high low s t : Bytes} :
      0x10000 ≤ c.toNat → UnitEscape (0xD800 + (c.toNat - 0x10000) / 0x400) high →
      UnitEscape (0xDC00 + (c.toNat - 0x10000) % 0x400) low → Spells s t →
      Spells (String.utf8EncodeChar c ++ s) (high ++ (low ++ t))
  /-- A surrogate without its partner. -/
  | alone {u : Nat} {e s t : Bytes} :
      IsHigh u ∧ ¬ BeginsLow t ∨ IsLow u → UnitEscape u e → Spells s t →
      Spells (encodePoint u ++ s) (e ++ t)

/-! ### Tokens -/

/-- The spellings of a token. -/
inductive Lexeme : Token → Bytes → Prop where
  | openArray : Lexeme .openArray [0x5B]
  | closeArray : Lexeme .closeArray [0x5D]
  | openObject : Lexeme .openObject [0x7B]
  | closeObject : Lexeme .closeObject [0x7D]
  | comma : Lexeme .comma [0x2C]
  | colon : Lexeme .colon [0x3A]
  | null : Lexeme (.atom .null) (bytesOf "null")
  | bool (b : Bool) : Lexeme (.atom (.bool b)) (bytesOf (toString b))
  | number {t : Bytes} : Literal t → Lexeme (.atom (.number (asciiText t))) t
  | string {s t : Bytes} : Spells s t → Lexeme (.string s) (0x22 :: (t ++ [0x22]))

/-- A text that consists of white space. -/
def Spaces (ws : Bytes) : Prop := ∀ b ∈ ws, isSpace b = true

/-- Texts of a sequence of tokens, with white space around each of them. -/
inductive Spaced : List Token → Bytes → Prop where
  | nil {ws : Bytes} : Spaces ws → Spaced [] ws
  | cons {ws lexeme rest : Bytes} {t : Token} {ts : List Token} :
      Spaces ws → Lexeme t lexeme → Spaced ts rest → Spaced (t :: ts) (ws ++ (lexeme ++ rest))

/-! ### Values -/

/-- Induction over a value: what holds of every item of an array and of the value of every field of
an object may be used for the whole. -/
@[elab_as_elim]
theorem inductionOn {τ : Type} {motive : Json τ → Prop} (null : motive .null)
    (bool : ∀ b, motive (.bool b)) (number : ∀ literal, motive (.number literal))
    (string : ∀ s, motive (.string s))
    (array : ∀ items, (∀ j ∈ items, motive j) → motive (.array items))
    (object : ∀ fields, (∀ f ∈ fields, motive f.2) → motive (.object fields)) (j : Json τ) :
    motive j :=
  @Json.rec τ motive (fun js => ∀ j ∈ js, motive j) (fun fs => ∀ f ∈ fs, motive f.2)
    (fun f => motive f.2) null bool number string array object (fun _ h => nomatch h)
    (fun _ _ hj hjs => List.forall_mem_cons.2 ⟨hj, hjs⟩) (fun _ h => nomatch h)
    (fun _ _ hf hfs => List.forall_mem_cons.2 ⟨hf, hfs⟩) (fun _ _ h => h) j

mutual

/-- The tokens of a value. -/
def tokens : Json Bytes → List Token
  | .null => [.atom .null]
  | .bool b => [.atom (.bool b)]
  | .number literal => [.atom (.number literal)]
  | .string s => [.string s]
  | .array [] => [.openArray, .closeArray]
  | .array (j :: js) => .openArray :: (tokens j ++ moreItems js)
  | .object [] => [.openObject, .closeObject]
  | .object ((key, j) :: fields) =>
    .openObject :: .string key :: .colon :: (tokens j ++ moreFields fields)

/-- The tokens from the end of an item of an array on, when further items follow. -/
def moreItems : List (Json Bytes) → List Token
  | [] => [.closeArray]
  | j :: js => .comma :: (tokens j ++ moreItems js)

/-- The tokens from the end of a field of an object on, when further fields follow. -/
def moreFields : List (Bytes × Json Bytes) → List Token
  | [] => [.closeObject]
  | (key, j) :: fields => .comma :: .string key :: .colon :: (tokens j ++ moreFields fields)

end

/-- The text is one of the value. -/
def IsText (j : Json Bytes) (text : Bytes) : Prop := Spaced (tokens j) text

end Montage.Json
