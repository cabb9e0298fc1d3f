import GameCondition.Text.Rewriting
import GameCondition.Text.Segment
import GameCondition.Vocabulary.Basic

/-! # Canonical text

Authors write conditions freely: *the player's state is not open*, *mood of the current scene is
calm*. Outside string literals such text is rewritten to the strict language in four steps:

1. `current scene` becomes `currentScene`, `X's` becomes `X.`, and `W of the S`, for a subject `S`
   with a fixed part, becomes `S.W`;
2. the determiners `the` and `an` are dropped, and any white space becomes one blank;
3. operators of several words become one word with underscores;
4. the phrases of a vocabulary become ids.

Within a step the rewriting is that of `rewriteBy`, from left to right. White space around the
whole text is dropped; blank text stays as it is.
-/

namespace GameCondition

namespace Canonical

/-! ## Subjects -/

/-- Whether a character comes between the parts of `current_scene`. -/
def isSceneGap (c : Char) : Bool :=
  isWhite c || c == '_'

/-- `current scene` becomes `currentScene`. -/
def currentScene : Rule := fun before cs => do
  let (taken, rest) ← takeBoth? (takeFolded? "current".toList)
    (takeBoth? (takeRun? isSceneGap) (takeFolded? "scene".toList)) cs
  if atWordEdge before cs && atWordEdge taken.getLast? rest then
    return ⟨"currentScene".toList, rest⟩
  else none

/-- Whether a character is an apostrophe. -/
def isApostrophe (c : Char) : Bool :=
  c == '\'' || c == '’'

/-- Takes up an apostrophe, an `s` that ends a word, and the white space after it. -/
def possessiveEnd? : List Char → Option (List Char)
  | a :: s :: rest =>
    if isApostrophe a && foldChar s == 's' && atWordEdge (some s) rest then
      some (rest.dropWhile isWhite)
    else none
  | _ => none

/-- `X's` becomes `X.`. -/
def possessive : Rule := fun before cs => do
  let (word, rest) ← takeRun? isWordChar cs
  if atWordEdge before cs then
    let rest ← possessiveEnd? rest
    return ⟨word ++ ['.'], rest⟩
  else none

/-- The subjects that can follow `of`. -/
def ownerWords : List (List Char) :=
  ["player".toList, "target2".toList, "target".toList, "currentScene".toList,
    "location".toList, "session".toList, "log".toList]

/-- The subject that a word stands for: the word, but for the current scene in its usual case. -/
def owner? (word : List Char) : Option (List Char) :=
  if ownerWords.any fun w => sameFolded w word then
    some (if sameAscii (String.ofList word) "currentScene" then "currentScene".toList else word)
  else none

/-- Takes up white space, `of`, and `the` if it is there. -/
def takeOf? (cs : List Char) : Option (List Char) := do
  let (_, cs) ← takeRun? isWhite cs
  let (_, cs) ← takeFolded? "of".toList cs
  let (_, cs) ← takeRun? isWhite cs
  match takeBoth? (takeFolded? "the".toList) (takeRun? isWhite) cs with
  | some (_, cs) => return cs
  | none => return cs

/-- Takes up `W of the S` and gives `W`, `S` and the rest. -/
def takeOwned? (cs : List Char) : Option (List Char × List Char × List Char) := do
  let (word, cs) ← takeRun? isWordChar cs
  let cs ← takeOf? cs
  let (subject, cs) ← takeRun? isWordChar cs
  return (word, ← owner? subject, cs)

/-- Takes up `attribute` and white space. -/
def takeAttribute? (cs : List Char) : Option (List Char) := do
  let (_, cs) ← takeBoth? (takeFolded? "attribute".toList) (takeRun? isWhite) cs
  return cs

/-- `attribute W of S` becomes `S.attribute W`. -/
def ownedAttribute? (cs : List Char) : Option Replacement := do
  let (word, subject, rest) ← takeOwned? (← takeAttribute? cs)
  return ⟨subject ++ ".attribute ".toList ++ word, rest⟩

/-- `W of S` becomes `S.W`. -/
def ownedField? (cs : List Char) : Option Replacement := do
  let (word, subject, rest) ← takeOwned? cs
  return ⟨subject ++ '.' :: word, rest⟩

/-- `W of the S` becomes `S.W`, and `attribute W of the S` becomes `S.attribute W`. -/
def owned : Rule := fun before cs =>
  if atWordEdge before cs then ownedAttribute? cs <|> ownedField? cs else none

/-- Rewrites the ways to name a subject and its fields. -/
def rewriteSubjects (cs : List Char) : List Char :=
  rewriteBy owned (rewriteBy possessive (rewriteBy currentScene cs))

/-! ## Determiners, white space and operators -/

/-- A determiner is dropped with the white space after it. -/
def determiner : Rule := fun before cs => do
  let (_, rest) ← determiners.findSome? fun w => takeBounded? before [w] cs
  return ⟨[], rest.dropWhile isWhite⟩

/-- Any white space becomes one blank. -/
def whiteSpace : Rule := fun _ cs => do
  let (_, rest) ← takeRun? isWhite cs
  return ⟨[' '], rest⟩

/-- Drops determiners and evens out white space. -/
def dropDeterminers (cs : List Char) : List Char :=
  rewriteBy whiteSpace (rewriteBy determiner cs)

/-- The operators of several words. One that begins with another stands before it. -/
def operatorPhrases : List (List (List Char)) :=
  ["is not equal to", "is greater than", "is less than", "is equal to", "distance from", "is not",
    "is empty", "is in"].map fun phrase => words phrase.toList

/-- The word for an operator that is written as several. -/
def operatorWord (cs : List Char) : List Char :=
  joinWords '_' ((words cs).map lowerText)

/-- An operator of several words becomes one word. -/
def operator : Rule := fun before cs => do
  let (taken, rest) ← operatorPhrases.findSome? fun phrase => takeBounded? before phrase cs
  return ⟨operatorWord taken, rest⟩

/-- Joins the words of operators. -/
def joinOperators (cs : List Char) : List Char :=
  rewriteBy operator cs

/-! ## Phrases -/

/-- Whether a word edge is demanded beside a character at the end of a phrase. -/
def demandsEdge (c : Char) : Bool :=
  isAlphanumeric c || c == '_'

/-- Takes up a phrase. Edges of words are demanded only where it begins or ends with a letter, a
numeral or an underscore. -/
def takeNamed? (before : Option Char) (phrase : List (List Char)) (cs : List Char) :
    Option (List Char × List Char) := do
  let (taken, rest) ← takePhrase? phrase cs
  let opens := !phrase.flatten.head?.any demandsEdge || atWordEdge before cs
  let closes := !phrase.flatten.getLast?.any demandsEdge || atWordEdge taken.getLast? rest
  if opens && closes then return (taken, rest) else none

/-- What stands for a phrase that was found: itself if it is an id, else the id of the element
that is meant. -/
def idFor (v : Vocabulary) (found : List Char) : List Char :=
  let name := String.ofList found
  if v.isKnownId name then found
  else match v.firstId? name with
    | some id => id.toList
    | none => found

/-- The first of some phrases that stands at a place becomes an id. -/
def phrase (v : Vocabulary) (phrases : List (List (List Char))) : Rule := fun before cs => do
  let (taken, rest) ← phrases.findSome? fun phrase => takeNamed? before phrase cs
  return ⟨idFor v taken, rest⟩

/-- Puts ids for phrases, for longer ones first. -/
def replacePhrases (v : Vocabulary) (cs : List Char) : List Char :=
  rewriteBy (phrase v v.longestFirst) cs

/-! ## All steps -/

/-- Rewrites a plain stretch of text. -/
def rewriteSegment (v : Vocabulary) (cs : List Char) : List Char :=
  replacePhrases v (joinOperators (dropDeterminers (rewriteSubjects cs)))

/-- The canonical form of a text. -/
def ofText (v : Vocabulary) (cs : List Char) : List Char :=
  if isBlank cs then cs else trim (rewritePlain (rewriteSegment v) (trim cs))

end Canonical

/-- The canonical form of what an author wrote. -/
def Vocabulary.canonicalize (v : Vocabulary) (source : String) : String :=
  String.ofList (Canonical.ofText v source.toList)

end GameCondition
