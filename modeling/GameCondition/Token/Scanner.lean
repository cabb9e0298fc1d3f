import GameCondition.Number.Reading
import GameCondition.Token.Basic

/-! # Cutting text into tokens

A `Cursor` is a place in a text with the text that follows it. `Cursor.next?` passes over white
space and takes up one token; `Cursor.tokens` takes up all of them and closes with the token at the
end. Nothing is refused: what is no word of the language becomes an unrecognized token.

The text of a token and what follows it are together the text it was taken from
(`Lexeme.taken_append_rest`), which is also why the scan ends.
-/

namespace GameCondition

/-- What begins an identifier. -/
def isIdentifierStart (c : Char) : Bool :=
  isAlphabetic c || c == '_'

/-- What continues an identifier. -/
def isIdentifierChar (c : Char) : Bool :=
  isAlphanumeric c || c == '_'

/-- Whether a word is an identifier and not reserved. -/
def isPlainIdentifier (word : String) : Bool :=
  match word.toList with
  | [] => false
  | c :: cs =>
    isIdentifierStart c && cs.all isIdentifierChar && (Keyword.ofWord? word).isNone

/-- The first token of a text after its first character: what it is, its further characters, and
what follows it. -/
structure Lexeme where
  kind : Token.Kind
  taken : List Char
  rest : List Char

namespace Lexeme

/-- A string after its opening quote: its value if it is closed, its further characters, and what
follows. -/
structure Literal where
  value : Option (List Char)
  taken : List Char
  rest : List Char

/-- Puts a character, written in the given way, in front of a string. -/
def Literal.cons (c : Char) (written : List Char) (l : Literal) : Literal :=
  ⟨l.value.map (c :: ·), written ++ l.taken, l.rest⟩

/-- Takes up a string after its opening quote. A backslash before a quote or a backslash escapes
it, and stands for itself anywhere else. -/
def literal : List Char → Literal
  | [] => ⟨none, [], []⟩
  | '"' :: cs => ⟨some [], ['"'], cs⟩
  | '\\' :: '"' :: cs => (literal cs).cons '"' ['\\', '"']
  | '\\' :: '\\' :: cs => (literal cs).cons '\\' ['\\', '\\']
  | c :: cs => (literal cs).cons c [c]

/-- Takes up the point and the digits of a fraction. A point without a digit after it is none. -/
def fraction : List Char → List Char × List Char
  | '.' :: d :: cs =>
    if d.isDigit then (d :: cs.takeWhile Char.isDigit, cs.dropWhile Char.isDigit)
    else ([], '.' :: d :: cs)
  | cs => ([], cs)

/-- Takes up a number of which sign and first digits are already known to be there. -/
def number (negative : Bool) (first : List Char) (cs : List Char) : Lexeme :=
  let digits := cs.takeWhile Char.isDigit
  let (part, rest) := fraction (cs.dropWhile Char.isDigit)
  ⟨.number (.ofScientific negative (digitsValue (first ++ digits ++ part)) (-part.length)),
    digits ++ (if part.isEmpty then [] else '.' :: part), rest⟩

/-- Takes up a string. -/
def string (cs : List Char) : Lexeme :=
  let l := literal cs
  ⟨match l.value with
    | some value => .string (String.ofList value)
    | none => .unknown .unterminatedString,
    l.taken, l.rest⟩

/-- Takes up a word. -/
def word (c : Char) (cs : List Char) : Lexeme :=
  let taken := cs.takeWhile isIdentifierChar
  let name := String.ofList (c :: taken)
  ⟨match Keyword.ofWord? name with
    | some k => .keyword k
    | none => .identifier name,
    taken, cs.dropWhile isIdentifierChar⟩

/-- Whether a text begins with a digit. -/
def startsWithDigit : List Char → Bool
  | c :: _ => c.isDigit
  | [] => false

/-- Takes up the token that begins with a character that is no white space. -/
def ofText (c : Char) (cs : List Char) : Lexeme :=
  if c = '(' then ⟨.openParen, [], cs⟩
  else if c = ')' then ⟨.closeParen, [], cs⟩
  else if c = '.' then ⟨.dot, [], cs⟩
  else if c = '"' then string cs
  else if c.isDigit then number false [c] cs
  else if c = '-' ∧ startsWithDigit cs then number true [] cs
  else if isIdentifierStart c then word c cs
  else ⟨.unknown (.unexpectedChar c), [], cs⟩

theorem literal_taken_append_rest (cs : List Char) :
    (literal cs).taken ++ (literal cs).rest = cs := by
  fun_induction literal cs <;> simp_all [Literal.cons]

theorem fraction_append (cs : List Char) :
    (if (fraction cs).1.isEmpty then [] else '.' :: (fraction cs).1) ++ (fraction cs).2 = cs := by
  fun_cases fraction cs <;> simp_all [List.takeWhile_append_dropWhile]

theorem number_taken_append_rest (negative : Bool) (first cs : List Char) :
    (number negative first cs).taken ++ (number negative first cs).rest = cs := by
  simp only [number, List.append_assoc, fraction_append, List.takeWhile_append_dropWhile]

/-- Nothing of a text is lost when its first token is taken up. -/
theorem taken_append_rest (c : Char) (cs : List Char) :
    (ofText c cs).taken ++ (ofText c cs).rest = cs := by
  unfold ofText
  repeat' split
  all_goals
    simp [string, word, literal_taken_append_rest, number_taken_append_rest,
      List.takeWhile_append_dropWhile]

theorem rest_length_le (c : Char) (cs : List Char) :
    (ofText c cs).rest.length ≤ cs.length := by
  have h := congrArg List.length (taken_append_rest c cs)
  rw [List.length_append] at h
  omega

end Lexeme

/-- A place in a text, and the text that follows it. -/
structure Cursor where
  position : Position
  rest : List Char
  deriving DecidableEq, Repr

namespace Cursor

/-- The beginning of a text. -/
def start (source : List Char) : Cursor :=
  ⟨.start, source⟩

/-- The place before the next token. -/
def place (k : Cursor) : Position :=
  k.position.after (k.rest.takeWhile isWhite)

/-- The next token and the place after it, unless only white space is left. -/
def next? (k : Cursor) : Option (Token × Cursor) :=
  match k.rest.dropWhile isWhite with
  | [] => none
  | c :: cs =>
    let l := Lexeme.ofText c cs
    let q := k.place.after (c :: l.taken)
    some (⟨l.kind, c :: l.taken, .between k.place q⟩, ⟨q, l.rest⟩)

/-- The next token, which at the end is the token at the end, again and again. -/
def next (k : Cursor) : Token × Cursor :=
  k.next?.getD (.atEnd k.place, ⟨k.place, []⟩)

theorem length_rest_lt_of_next? {k k' : Cursor} {t : Token} (h : k.next? = some (t, k')) :
    k'.rest.length < k.rest.length := by
  unfold next? at h
  split at h
  · simp at h
  · next c cs hcs =>
    simp only [Option.some.injEq, Prod.mk.injEq] at h
    rw [← h.2]
    have hle := Lexeme.rest_length_le c cs
    have hdrop := congrArg List.length hcs
    have := (List.dropWhile_suffix (l := k.rest) isWhite).length_le
    simp only [List.length_cons] at hdrop
    change (Lexeme.ofText c cs).rest.length < _
    omega

/-- All tokens, and last the one at the end. -/
def tokens (k : Cursor) : List Token :=
  match _h : k.next? with
  | none => [.atEnd k.place]
  | some (t, k') => t :: k'.tokens
termination_by k.rest.length
decreasing_by exact length_rest_lt_of_next? _h

end Cursor

/-- The tokens of a text. The last one, and no other, is the token at the end. -/
def tokenize (source : List Char) : List Token :=
  (Cursor.start source).tokens

end GameCondition
