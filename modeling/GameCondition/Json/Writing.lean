import GameCondition.Json.Basic

/-! # Writing JSON

Two layouts: the compact one without any white space, and the wide one with each item and member on
a line of its own, indented by two blanks for each container around it.
-/

namespace GameCondition

/-- In JSON a number from 10⁻⁵ up to 10¹⁶ is positional, others have a signed exponent, a whole
number keeps `.0`, and of two equally near decimals the even one is taken. -/
def jsonFormat : NumberFormat := ⟨.even, some (-5, 16), true⟩

namespace Json

/-- The JSON text of a number. -/
def numberText : Number → List Char
  | .finite negative rank => (if negative then ['-'] else []) ++ jsonFormat.magnitude rank
  | _ => ['n', 'u', 'l', 'l']

/-- Four lower-case hexadecimal digits. -/
def hexDigits (n : Nat) : List Char :=
  let ds := Nat.toDigits 16 n
  List.replicate (4 - ds.length) '0' ++ ds

/-- A character inside a string: quotes and backslashes are escaped, and so are control
characters. -/
def escapeChar (c : Char) : List Char :=
  if c = '"' then ['\\', '"']
  else if c = '\\' then ['\\', '\\']
  else if c = '\n' then ['\\', 'n']
  else if c = '\r' then ['\\', 'r']
  else if c = '\t' then ['\\', 't']
  else if c.toNat = 8 then ['\\', 'b']
  else if c.toNat = 12 then ['\\', 'f']
  else if c.toNat < 32 then '\\' :: 'u' :: hexDigits c.toNat
  else [c]

/-- A string in quotes. -/
def quote (s : String) : List Char :=
  '"' :: (s.toList.flatMap escapeChar ++ ['"'])

/-- The text of a value that is no container. -/
def scalarText : Json → List Char
  | bool b => (if b then "true" else "false").toList
  | integer i => (toString i).toList
  | decimal x => numberText x
  | text s => quote s
  | _ => "null".toList

/-! ## The compact layout -/

mutual

/-- The compact text of a value, and then the given text. -/
def compactThen : Json → List Char → List Char
  | list [], rest => '[' :: ']' :: rest
  | list (v :: vs), rest => '[' :: compactThen v (compactItems vs rest)
  | object [], rest => '\x7b' :: '\x7d' :: rest
  | object ((k, v) :: ms), rest =>
    '\x7b' :: (quote k ++ ':' :: compactThen v (compactMembers ms rest))
  | null, rest => scalarText null ++ rest
  | bool b, rest => scalarText (bool b) ++ rest
  | integer i, rest => scalarText (integer i) ++ rest
  | decimal x, rest => scalarText (decimal x) ++ rest
  | text s, rest => scalarText (text s) ++ rest
  | unreadable, rest => scalarText unreadable ++ rest

/-- The further items of a list and its end, and then the given text. -/
def compactItems : List Json → List Char → List Char
  | [], rest => ']' :: rest
  | v :: vs, rest => ',' :: compactThen v (compactItems vs rest)

/-- The further members of an object and its end, and then the given text. -/
def compactMembers : List (String × Json) → List Char → List Char
  | [], rest => '\x7d' :: rest
  | (k, v) :: ms, rest => ',' :: (quote k ++ ':' :: compactThen v (compactMembers ms rest))

end

/-- The text of a value in the compact layout. -/
def compact (v : Json) : List Char :=
  v.compactThen []

/-! ## The wide layout -/

/-- A line feed and the indentation of a line inside `depth` containers, and then the given
text. -/
def lineBreakThen (depth : Nat) (rest : List Char) : List Char :=
  '\n' :: (List.replicate (2 * depth) ' ' ++ rest)

mutual

/-- The wide text of a value inside `depth` containers, and then the given text. -/
def wideThen (depth : Nat) : Json → List Char → List Char
  | list [], rest => '[' :: ']' :: rest
  | list (v :: vs), rest =>
    '[' :: lineBreakThen (depth + 1) (wideThen (depth + 1) v (wideItems depth vs rest))
  | object [], rest => '\x7b' :: '\x7d' :: rest
  | object ((k, v) :: ms), rest =>
    '\x7b' :: lineBreakThen (depth + 1)
      (quote k ++ ':' :: ' ' :: wideThen (depth + 1) v (wideMembers depth ms rest))
  | null, rest => scalarText null ++ rest
  | bool b, rest => scalarText (bool b) ++ rest
  | integer i, rest => scalarText (integer i) ++ rest
  | decimal x, rest => scalarText (decimal x) ++ rest
  | text s, rest => scalarText (text s) ++ rest
  | unreadable, rest => scalarText unreadable ++ rest

/-- The further items of a list inside `depth` containers and its end, and then the given text. -/
def wideItems (depth : Nat) : List Json → List Char → List Char
  | [], rest => lineBreakThen depth (']' :: rest)
  | v :: vs, rest =>
    ',' :: lineBreakThen (depth + 1) (wideThen (depth + 1) v (wideItems depth vs rest))

/-- The further members of an object inside `depth` containers and its end, and then the given
text. -/
def wideMembers (depth : Nat) : List (String × Json) → List Char → List Char
  | [], rest => lineBreakThen depth ('\x7d' :: rest)
  | (k, v) :: ms, rest =>
    ',' :: lineBreakThen (depth + 1)
      (quote k ++ ':' :: ' ' :: wideThen (depth + 1) v (wideMembers depth ms rest))

end

/-- The text of a value in the wide layout. -/
def wide (v : Json) : List Char :=
  v.wideThen 0 []

end Json

end GameCondition
