import GameCondition.Json.Numeral
import GameCondition.Number.Reading

/-! # Reading JSON

A text is cut into tokens, and the tokens drive a machine whose state says what may come next and
which containers are open. `Json.read?` is defined by one fold over the tokens, so reading a text
that is glued together from two is reading the second from where the first ended.

Containers may nest `containerLimit` deep; a deeper one is unreadable.
-/

namespace GameCondition

namespace Json

/-- How deep containers may nest. -/
def containerLimit : Nat := 127

/-- The pieces of a JSON text. A string may have no value. -/
inductive Token where
  | openList
  | closeList
  | openObject
  | closeObject
  | comma
  | colon
  | text (value : Option String)
  | scalar (value : Json)

/-! ## Tokens -/

/-- The white space of JSON. -/
def isSpace (c : Char) : Bool :=
  c == ' ' || c == '\n' || c == '\t' || c == '\r'

/-- The value of a hexadecimal digit. -/
def hexValue? (c : Char) : Option Nat :=
  if c.isDigit then some (c.toNat - 48)
  else if 'a' ≤ c ∧ c ≤ 'f' then some (c.toNat - 87)
  else if 'A' ≤ c ∧ c ≤ 'F' then some (c.toNat - 55)
  else none

/-- The value of four hexadecimal digits. -/
def hexValue4? (a b c d : Char) : Option Nat := do
  return ((← hexValue? a) * 16 + (← hexValue? b)) * 256 + (← hexValue? c) * 16 + (← hexValue? d)

/-- The character that a one-letter escape stands for. -/
def shortEscape? (c : Char) : Option Char :=
  if c = '"' ∨ c = '\\' ∨ c = '/' then some c
  else if c = 'b' then some (Char.ofNat 8)
  else if c = 'f' then some (Char.ofNat 12)
  else if c = 'n' then some '\n'
  else if c = 'r' then some '\r'
  else if c = 't' then some '\t'
  else none

/-- A piece of a string: a character, or half of a surrogate pair. -/
inductive Unit16 where
  | char (c : Char)
  | high (n : Nat)
  | low (n : Nat)
  deriving DecidableEq, Repr

/-- The piece that four hexadecimal digits stand for. -/
def Unit16.ofCode (n : Nat) : Unit16 :=
  if 0xD800 ≤ n ∧ n < 0xDC00 then .high (n - 0xD800)
  else if 0xDC00 ≤ n ∧ n < 0xE000 then .low (n - 0xDC00)
  else .char (Char.ofNat n)

/-- The text of the pieces of a string; half a pair without its other half has none. -/
def joinUnits? : List Unit16 → Option (List Char)
  | [] => some []
  | .char c :: us => (joinUnits? us).map (c :: ·)
  | .high h :: .low l :: us => (joinUnits? us).map (Char.ofNat (0x10000 + h * 1024 + l) :: ·)
  | _ => none

/-- Cuts a string after its opening quote into pieces, and gives what follows the closing quote. -/
def scanString : List Char → Option (List Unit16 × List Char)
  | [] => none
  | '"' :: cs => some ([], cs)
  | '\\' :: 'u' :: a :: b :: c :: d :: cs => do
    let n ← hexValue4? a b c d
    let (units, rest) ← scanString cs
    return (Unit16.ofCode n :: units, rest)
  | '\\' :: c :: cs => do
    let e ← shortEscape? c
    let (units, rest) ← scanString cs
    return (.char e :: units, rest)
  | c :: cs =>
    if c.toNat < 32 ∨ c = '\\' then none
    else do
      let (units, rest) ← scanString cs
      return (.char c :: units, rest)

/-- The exponent of a number, if one begins here. It needs a digit. -/
def scanExponent : List Char → Option (Option Int × List Char)
  | c :: cs =>
    if c = 'e' ∨ c = 'E' then
      let (negative, ds) := match cs with
        | '-' :: r => (true, r)
        | '+' :: r => (false, r)
        | r => (false, r)
      let digits := ds.takeWhile Char.isDigit
      if digits.isEmpty then none
      else
        let n : Int := digitsValue digits
        some (some (if negative then -n else n), ds.dropWhile Char.isDigit)
    else some (none, c :: cs)
  | [] => some (none, [])

/-- The fraction of a number, if one begins here. It needs a digit. -/
def scanFraction : List Char → Option (Option (List Char) × List Char)
  | '.' :: cs =>
    let digits := cs.takeWhile Char.isDigit
    if digits.isEmpty then none else some (some digits, cs.dropWhile Char.isDigit)
  | cs => some (none, cs)

/-- The digits before the point: a lone zero, or digits that do not begin with zero. -/
def scanWhole : List Char → Option (List Char × List Char)
  | '0' :: cs => some (['0'], cs)
  | cs =>
    let digits := cs.takeWhile Char.isDigit
    if digits.isEmpty then none else some (digits, cs.dropWhile Char.isDigit)

/-- A number without its sign. -/
def scanNumber (negative : Bool) (cs : List Char) : Option (Json × List Char) := do
  let (whole, cs) ← scanWhole cs
  let (fraction, cs) ← scanFraction cs
  let (exponent, cs) ← scanExponent cs
  return (Numeral.value ⟨negative, whole, fraction, exponent⟩, cs)

/-- The token at the beginning of a text that does not begin with white space. -/
def scanToken? : List Char → Option (Token × List Char)
  | '[' :: cs => some (.openList, cs)
  | ']' :: cs => some (.closeList, cs)
  | '\x7b' :: cs => some (.openObject, cs)
  | '\x7d' :: cs => some (.closeObject, cs)
  | ',' :: cs => some (.comma, cs)
  | ':' :: cs => some (.colon, cs)
  | '"' :: cs => (scanString cs).map fun (units, rest) =>
    (.text ((joinUnits? units).map String.ofList), rest)
  | 'n' :: 'u' :: 'l' :: 'l' :: cs => some (.scalar .null, cs)
  | 't' :: 'r' :: 'u' :: 'e' :: cs => some (.scalar (.bool true), cs)
  | 'f' :: 'a' :: 'l' :: 's' :: 'e' :: cs => some (.scalar (.bool false), cs)
  | '-' :: cs => (scanNumber true cs).map fun (v, rest) => (.scalar v, rest)
  | cs => (scanNumber false cs).map fun (v, rest) => (.scalar v, rest)

/-- The tokens of a text, at most `limit` of them. -/
def tokensWithin? : Nat → List Char → Option (List Token)
  | 0, _ => none
  | limit + 1, cs =>
    match cs.dropWhile isSpace with
    | [] => some []
    | c :: rest => do
      let (token, rest) ← scanToken? (c :: rest)
      return token :: (← tokensWithin? limit rest)

/-- The tokens of a text. Each takes up a character, so there are no more of them than
characters. -/
def tokens? (cs : List Char) : Option (List Token) :=
  tokensWithin? (cs.length + 1) cs

/-! ## The machine -/

/-- A container that is still open, with what it holds so far in reverse. A key may have no
value. -/
inductive Frame where
  | list (items : List Json)
  | object (members : List (Option String × Json)) (key : Option String)

/-- What the machine expects next. -/
inductive State where
  /-- A value. -/
  | value (open_ : List Frame)
  /-- The first item of a list, or its end. -/
  | firstItem (open_ : List Frame)
  /-- The first key of an object, or its end. -/
  | firstKey (open_ : List Frame)
  /-- A further key. -/
  | key (members : List (Option String × Json)) (open_ : List Frame)
  /-- The colon after a key. -/
  | colon (members : List (Option String × Json)) (key : Option String) (open_ : List Frame)
  /-- What follows a whole value. -/
  | after (value : Json) (open_ : List Frame)

/-- A container with `outer` containers around it is unreadable when it is too deep. -/
def limited (outer : Nat) (v : Json) : Json :=
  if outer < containerLimit then v else unreadable

/-- The object of reversed members; one key without a value makes it unreadable. -/
def objectOf (members : List (Option String × Json)) : Json :=
  match members.reverse.mapM fun (k, v) => k.map fun k => (k, v) with
  | some ms => object ms
  | none => unreadable

/-- The value of a string token. -/
def textValue : Option String → Json
  | some s => text s
  | none => unreadable

/-- What a token that begins a value leads to. -/
def State.begin (open_ : List Frame) : Token → Option State
  | .openList => some (.firstItem open_)
  | .openObject => some (.firstKey open_)
  | .text s => some (.after (textValue s) open_)
  | .scalar v => some (.after v open_)
  | _ => none

/-- What a token leads to after a whole value. -/
def State.follow (v : Json) : List Frame → Token → Option State
  | .list items :: fs, .comma => some (.value (.list (v :: items) :: fs))
  | .list items :: fs, .closeList =>
    some (.after (limited fs.length (list (v :: items).reverse)) fs)
  | .object members k :: fs, .comma => some (.key ((k, v) :: members) fs)
  | .object members k :: fs, .closeObject =>
    some (.after (limited fs.length (objectOf ((k, v) :: members))) fs)
  | _, _ => none

/-- One step of the machine. -/
def State.step : State → Token → Option State
  | .value fs, t => State.begin fs t
  | .firstItem fs, .closeList => some (.after (limited fs.length (list [])) fs)
  | .firstItem fs, t => State.begin (.list [] :: fs) t
  | .firstKey fs, .closeObject => some (.after (limited fs.length (object [])) fs)
  | .firstKey fs, .text k => some (.colon [] k fs)
  | .key members fs, .text k => some (.colon members k fs)
  | .colon members k fs, .colon => some (.value (.object members k :: fs))
  | .after v fs, t => State.follow v fs t
  | _, _ => none

/-- Reads the value that is the whole text. -/
def read? (cs : List Char) : Option Json := do
  match ← (← tokens? cs).foldlM State.step (.value []) with
  | .after v [] => some v
  | _ => none

/-- Reads a value none of whose parts is unreadable, with sorted objects. -/
def readWhole? (cs : List Char) : Option Json :=
  (read? cs).bind sorted?

end Json

end GameCondition
