import GameCondition.Text.LetterCase

/-! # Rewriting text by rules

A `Rule` looks at a place in a text, knowing the character before it, and may replace some of the
text that follows. `rewriteBy` goes through a text from left to right: where the rule applies it
puts the replacement and goes on behind what was replaced, elsewhere it keeps the character. The
character before a place is always that of the text being read, never of what is written.

Rules are put together from `takePhrase?`, which takes up words ignoring case with any white space
between them, and `atWordEdge`, which asks whether a word begins or ends at a place.
-/

namespace GameCondition

/-! ## Words in a text -/

/-- Whether a word begins or ends between two characters. -/
def atWordEdge (before : Option Char) (after : List Char) : Bool :=
  before.any isWordChar != after.head?.any isWordChar

/-- Takes up the given characters ignoring case. -/
def takeFolded? : List Char → List Char → Option (List Char × List Char)
  | [], cs => some ([], cs)
  | _ :: _, [] => none
  | w :: ws, c :: cs =>
    if foldChar w = foldChar c then (takeFolded? ws cs).map fun (taken, rest) => (c :: taken, rest)
    else none

/-- Takes up a character and all further ones of its class. -/
def takeRun? (p : Char → Bool) (cs : List Char) : Option (List Char × List Char) :=
  if (cs.takeWhile p).isEmpty then none else some (cs.takeWhile p, cs.dropWhile p)

/-- Takes up what a second reader takes up behind a first. -/
def takeBoth? (first second : List Char → Option (List Char × List Char)) (cs : List Char) :
    Option (List Char × List Char) := do
  let (a, cs) ← first cs
  let (b, cs) ← second cs
  return (a ++ b, cs)

/-- Takes up words with white space between them, ignoring case. -/
def takePhrase? : List (List Char) → List Char → Option (List Char × List Char)
  | [], cs => some ([], cs)
  | [w], cs => takeFolded? w cs
  | w :: ws, cs => takeBoth? (takeFolded? w) (takeBoth? (takeRun? isWhite) (takePhrase? ws)) cs

/-- Takes up a phrase that begins and ends at the edges of words. -/
def takeBounded? (before : Option Char) (phrase : List (List Char)) (cs : List Char) :
    Option (List Char × List Char) := do
  let (taken, rest) ← takePhrase? phrase cs
  if atWordEdge before cs && atWordEdge taken.getLast? rest then return (taken, rest) else none

/-! ## Rules -/

/-- What a rule makes of a text: the replacement of its beginning, and the rest. -/
structure Replacement where
  text : List Char
  rest : List Char
  deriving DecidableEq, Repr

/-- What may be replaced at a place, given the character before it and the text after it. -/
abbrev Rule := Option Char → List Char → Option Replacement

/-- Rewrites the text after a place, of which the first characters are already replaced. -/
def rewriteFrom (rule : Rule) : Nat → Option Char → List Char → List Char
  | _, _, [] => []
  | replaced + 1, _, c :: cs => rewriteFrom rule replaced (some c) cs
  | 0, before, c :: cs =>
    match rule before (c :: cs) with
    | none => c :: rewriteFrom rule 0 (some c) cs
    | some r => r.text ++ rewriteFrom rule (cs.length - r.rest.length) (some c) cs

/-- Rewrites a text by a rule. -/
def rewriteBy (rule : Rule) (cs : List Char) : List Char :=
  rewriteFrom rule 0 none cs

end GameCondition
