import GameCondition.Number.Shortest
import GameCondition.Text.LetterCase
import GameCondition.Text.Span

/-! # Tokens

The words of strict condition text. Reserved words are recognised in any ASCII case, and `has` is a
second spelling of `is_in`; which of the two was written is told by the token's text.
-/

namespace GameCondition

/-- The reserved words. -/
inductive Keyword where
  | and
  | or
  | not
  | is
  | isNot
  | isLessThan
  | isGreaterThan
  | isEqualTo
  | isNotEqualTo
  | isIn
  | isEmpty
  | attr
  | state
  | flag
  | inventory
  | visits
  | distanceFrom
  | true
  | false
  deriving DecidableEq, Repr

namespace Keyword

/-- Every spelling with its reserved word. -/
def spellings : List (String × Keyword) :=
  [("and", .and), ("or", .or), ("not", .not), ("is", .is), ("is_not", .isNot),
   ("is_less_than", .isLessThan), ("is_greater_than", .isGreaterThan),
   ("is_equal_to", .isEqualTo), ("is_not_equal_to", .isNotEqualTo), ("is_in", .isIn),
   ("is_empty", .isEmpty), ("has", .isIn), ("attribute", .attr), ("state", .state),
   ("flag", .flag), ("inventory", .inventory), ("visits", .visits),
   ("distance_from", .distanceFrom), ("true", .true), ("false", .false)]

/-- The reserved word that a word spells in any ASCII case. -/
def ofWord? (word : String) : Option Keyword :=
  (spellings.find? fun entry => sameAscii entry.1 word).map (·.2)

/-- How a reserved word is named in messages. The truth values stand without quotes. -/
def name : Keyword → String
  | and => "'and'"
  | or => "'or'"
  | not => "'not'"
  | is => "'is'"
  | isNot => "'is_not'"
  | isLessThan => "'is_less_than'"
  | isGreaterThan => "'is_greater_than'"
  | isEqualTo => "'is_equal_to'"
  | isNotEqualTo => "'is_not_equal_to'"
  | isIn => "'is_in'"
  | isEmpty => "'is_empty'"
  | attr => "'attribute'"
  | state => "'state'"
  | flag => "'flag'"
  | inventory => "'inventory'"
  | visits => "'visits'"
  | distanceFrom => "'distance_from'"
  | true => "true"
  | false => "false"

/-- Whether a reserved word compares. -/
def isComparison : Keyword → Bool
  | is | isNot | isLessThan | isGreaterThan | isEqualTo | isNotEqualTo | isIn | isEmpty =>
    Bool.true
  | _ => Bool.false

end Keyword

/-- Why a piece of text is no word of the language. -/
inductive Unrecognized where
  | unexpectedChar (c : Char)
  | unterminatedString
  deriving DecidableEq, Repr

/-- The description that messages give. -/
def Unrecognized.message : Unrecognized → String
  | unexpectedChar c => "unexpected character '" ++ String.singleton c ++ "'"
  | unterminatedString => "unterminated string literal"

namespace Token

/-- What a token is. -/
inductive Kind where
  | openParen
  | closeParen
  | dot
  | keyword (word : Keyword)
  | number (value : Number)
  | string (value : String)
  | identifier (name : String)
  | unknown (reason : Unrecognized)
  | endOfInput
  deriving DecidableEq, Repr

namespace Kind

/-- How a kind of token is named in messages. -/
def name : Kind → String
  | openParen => "'('"
  | closeParen => "')'"
  | dot => "'.'"
  | keyword word => word.name
  | number _ => "number"
  | string _ => "string"
  | identifier _ => "identifier"
  | unknown _ => "unrecognized input"
  | endOfInput => "end of input"

/-- Whether a token compares. -/
def isComparison : Kind → Bool
  | keyword word => word.isComparison
  | _ => false

end Kind

end Token

/-- A token: what it is, the text it covers, and where. -/
structure Token where
  kind : Token.Kind
  text : List Char
  span : Span
  deriving DecidableEq, Repr

namespace Token

/-- Whether a token is written as the given word, in any ASCII case. -/
def isSpelled (t : Token) (word : String) : Bool :=
  sameAscii (String.ofList t.text) word

/-- The token at the end of a text. -/
def atEnd (p : Position) : Token :=
  ⟨.endOfInput, [], .between p p⟩

/-- How a found token is described in messages: names, numbers and strings together with their
text. -/
def describe (t : Token) : String :=
  match t.kind with
  | .unknown reason => reason.message
  | .identifier _ | .number _ | .string _ =>
    t.kind.name ++ " '" ++ String.ofList t.text ++ "'"
  | kind => kind.name

end Token

end GameCondition
