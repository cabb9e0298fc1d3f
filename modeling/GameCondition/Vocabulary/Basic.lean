import GameCondition.Condition.Basic
import GameCondition.NameSet
import GameCondition.Token.Basic
import GameCondition.Vocabulary.Content

/-! # Vocabularies

A vocabulary knows the elements of a game by the phrases that authors may use for them. Each name
and alias of an element is a phrase, in lower case, with single blanks and without the determiners
`the` and `an`. Several elements may share a phrase; the one told first is meant. The words of the
language itself are never phrases.
-/

namespace GameCondition

/-! ## Phrases -/

/-- Words in a line, separated by a character. -/
def joinWords (separator : Char) : List (List Char) → List Char
  | [] => []
  | [w] => w
  | w :: ws => w ++ separator :: joinWords separator ws

/-- The determiners that phrases do without. -/
def determiners : List (List Char) :=
  ["the".toList, "an".toList]

/-- The words of a phrase: in lower case, without determiners. -/
def phraseWords (cs : List Char) : List (List Char) :=
  ((words cs).map lowerText).filter fun w => !determiners.contains w

/-- The normal form of a phrase. -/
def normalPhrase (s : String) : String :=
  String.ofList (joinWords ' ' (phraseWords s.toList))

/-- Whether a phrase is a word of the language. -/
def isReserved (phrase : String) : Bool :=
  phrase == "of" || (Keyword.ofWord? phrase).isSome || (SubjectKind.ofWord? phrase).isSome

/-- Whether a phrase may stand for elements. -/
def isUsable (phrase : String) : Bool :=
  !phrase.isEmpty && !isReserved phrase

/-- The phrases that may stand for an element, in normal form. -/
def ContentElement.phrases (e : ContentElement) : List String :=
  ((e.name :: e.aliases).map normalPhrase).filter isUsable

/-! ## The vocabulary of some elements -/

/-- Adds an id to a list of ids that does not have it. -/
def addId (ids : List String) (id : String) : List String :=
  if ids.contains id then ids else ids ++ [id]

/-- The elements for each phrase. -/
abbrev PhraseTable := Dict (List String)

/-- Registers an element under a phrase. -/
def PhraseTable.register (t : PhraseTable) (phrase id : String) : PhraseTable :=
  t.insert phrase (addId ((t.get? phrase).getD []) id)

/-- Registers an element under all its phrases. -/
def PhraseTable.registerElement (t : PhraseTable) (e : ContentElement) : PhraseTable :=
  e.phrases.foldl (fun t phrase => register t phrase e.id) t

/-- What can be said about the elements of a game. -/
structure Vocabulary where
  elements : List ContentElement
  /-- The ids of the elements that a phrase stands for, as they were told. -/
  phrases : PhraseTable
  ids : NameSet

namespace Vocabulary

/-- The vocabulary of some elements. There is one for any elements: phrases are compared word by word.
A game that compiles all its phrases into one matcher refuses elements whose matcher exceeds the
limit of size for it, and that limit is not part of this. -/
def ofElements (elements : List ContentElement) : Vocabulary :=
  ⟨elements, elements.foldl PhraseTable.registerElement .empty,
    .ofList (elements.map (·.id))⟩

/-- The vocabulary that knows no element. -/
def empty : Vocabulary :=
  ofElements []

instance : Inhabited Vocabulary := ⟨empty⟩

/-- The ids of the elements that a phrase stands for, in any case and spacing. -/
def resolve (v : Vocabulary) (phrase : String) : List String :=
  (v.phrases.get? (normalPhrase phrase)).getD []

/-- The id of the element that is meant by a phrase. -/
def firstId? (v : Vocabulary) (phrase : String) : Option String :=
  (v.resolve phrase).head?

/-- Whether a word is the id of an element, in any case. -/
def isKnownId (v : Vocabulary) (word : String) : Bool :=
  v.ids.contains word

/-- The phrases as words, the longest first and those of one length in ascending order. -/
def longestFirst (v : Vocabulary) : List (List (List Char)) :=
  (v.phrases.keys.mergeSort fun a b => decide (b.utf8ByteSize ≤ a.utf8ByteSize)).map fun phrase =>
    words phrase.toList

/-- The ids of all elements. -/
def elementIds (v : Vocabulary) : List String :=
  v.elements.map (·.id)

/-- The ids of the scenes. -/
def sceneIds (v : Vocabulary) : List String :=
  (v.elements.filter fun e => e.kind == .scene).map (·.id)

/-- The strings in some lists, each once and in ascending order. -/
def collect (lists : List (List String)) : List String :=
  (lists.flatten.foldl (fun d s => d.insert s ()) Dict.empty).keys

/-- The attributes of all elements. -/
def attributes (v : Vocabulary) : List String :=
  collect (v.elements.map (·.attributes))

/-- The flags of all elements. -/
def flags (v : Vocabulary) : List String :=
  collect (v.elements.map (·.flags))

/-- The states of all elements. -/
def states (v : Vocabulary) : List String :=
  collect (v.elements.map (·.states))

end Vocabulary

end GameCondition
