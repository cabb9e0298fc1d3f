import GameCondition.Text.Cluster
import GameCondition.Text.Span

/-! # Erasing

A backspace in a line from a pipe erases the cluster before it. Only the size of each cluster is
kept, in a byte: of a cluster of 256 bytes or more, what exceeds a multiple of 256 is erased. Such
a cut can fall inside a character, and then there is no result.
-/

namespace GameCondition

/-- The character that erases. -/
def backspace : Char := '\x08'

/-- A text some of which may yet be erased. -/
structure Draft where
  /-- The text, last character first. -/
  text : List Char
  /-- The sizes of the clusters that can be erased, last one first. -/
  sizes : List Nat
  deriving DecidableEq, Repr

namespace Draft

/-- The empty draft. -/
def empty : Draft :=
  ⟨[], []⟩

/-- Erases one cluster, if there is any. -/
def erase? (d : Draft) : Option Draft :=
  match d.sizes with
  | [] => some d
  | size :: sizes => (cutAt size d.text).map fun (_, text) => ⟨text, sizes⟩

/-- Appends a cluster. -/
def append (d : Draft) (cluster : List Char) : Draft :=
  ⟨cluster.reverse ++ d.text, byteLength cluster % 256 :: d.sizes⟩

/-- Takes the next cluster of a text. -/
def take? (d : Draft) (cluster : List Char) : Option Draft :=
  if cluster = [backspace] then d.erase? else some (d.append cluster)

end Draft

/-- What is left of a text when its backspaces have erased what they erase. -/
def erased? (cs : List Char) : Option (List Char) :=
  ((clusters cs).foldlM Draft.take? .empty).map fun d => d.text.reverse

end GameCondition
