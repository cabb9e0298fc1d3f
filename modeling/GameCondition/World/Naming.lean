import GameCondition.Vocabulary.Basic
import GameCondition.World.Basic

/-! # The names in a world

What a world tells about its elements, and the vocabulary made of it. The states of an element are
the one it is in and the one it starts in.
-/

namespace GameCondition

/-- What is told about an element. -/
def Element.content (e : Element) : ContentElement :=
  ⟨e.id, e.name, e.kind, e.aliases, e.attributes.keys, e.flags.keys,
    e.currentState.toList ++ e.defaultState.toList⟩

/-- The vocabulary of the elements of a world. -/
def World.vocabulary (w : World) : Vocabulary :=
  .ofElements (w.elements.map Element.content)

end GameCondition
