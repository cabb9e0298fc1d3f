import GameCondition.Dict
import GameCondition.Text.LetterCase
import GameCondition.Text.Segment

/-! # Memories

A memory keeps what texts were compiled to. Texts that differ only in the case of letters outside
string literals share an entry. What failed is not kept, so it is tried again, and an entry stays
as it is until everything is forgotten. The counts of hits and misses outlive that.
-/

namespace GameCondition

/-- The text under which something is kept: lower case but for literals. -/
def memoKey (text : String) : String :=
  String.ofList (rewritePlain lowerText text.toList)

/-- What texts were compiled to, and how often a memory was asked. -/
structure Memo (α : Type) where
  entries : Dict α
  hits : Nat
  misses : Nat
  deriving DecidableEq, Repr

namespace Memo

variable {α ε : Type}

/-- The memory of nothing. -/
def empty : Memo α :=
  ⟨.empty, 0, 0⟩

instance : Inhabited (Memo α) := ⟨empty⟩

/-- What is kept for a text. -/
def get? (m : Memo α) (text : String) : Option α :=
  m.entries.get? (memoKey text)

/-- The number of entries. -/
def size (m : Memo α) : Nat :=
  m.entries.entries.length

/-- Whether nothing is kept. -/
def isEmpty (m : Memo α) : Bool :=
  m.entries.entries.isEmpty

/-- Forgets every entry. -/
def clear (m : Memo α) : Memo α :=
  { m with entries := .empty }

/-- Keeps what a text was compiled to. -/
def keep (m : Memo α) (text : String) (value : α) : Memo α :=
  { m with entries := m.entries.insert (memoKey text) value }

/-- Counts a text that was kept. -/
def hit (m : Memo α) : Memo α :=
  { m with hits := m.hits + 1 }

/-- Counts a text that was not kept. -/
def miss (m : Memo α) : Memo α :=
  { m with misses := m.misses + 1 }

/-- What is kept for a text or, if nothing is, what it is compiled to, which is then kept. Only in
that case is the text compiled, whatever else compiling does. -/
def getOrCompileM {μ : Type → Type} [Monad μ] (m : Memo α) (text : String)
    (compile : String → μ (Except ε α)) : μ (Except ε α × Memo α) :=
  match m.get? text with
  | some value => return (.ok value, m.hit)
  | none => do
    match ← compile text with
    | .ok value => return (.ok value, m.miss.keep text value)
    | .error e => return (.error e, m.miss)

/-- What is kept for a text or, if nothing is, what it is compiled to, where compiling does nothing
else. -/
def getOrCompile (m : Memo α) (text : String) (compile : String → Except ε α) :
    Except ε α × Memo α :=
  Id.run (m.getOrCompileM text fun text => pure (compile text))

end Memo

end GameCondition
