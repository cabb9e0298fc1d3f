/-! # Places in a text

A `Position` counts the bytes before it, its line and its column; a `Span` is the stretch between
two positions, with the line and column where it starts. Offsets count UTF-8 bytes, lines and
columns count from one, and a column counts characters.

Lines and columns are numbers of 32 bits. They go round at `2 ^ 32`, which a text of `2 ^ 32 - 1`
characters can reach; a build that looks for overflows stops there.
-/

namespace GameCondition

/-- The number of bytes of a text in UTF-8. -/
def byteLength (cs : List Char) : Nat :=
  cs.foldr (fun c n => c.utf8Size + n) 0

/-- Cuts a text after `n` bytes; there is no cut inside a character or past the end. -/
def cutAt : Nat → List Char → Option (List Char × List Char)
  | 0, cs => some ([], cs)
  | _ + 1, [] => none
  | n + 1, c :: cs =>
    if c.utf8Size ≤ n + 1 then
      (cutAt (n + 1 - c.utf8Size) cs).map fun (a, b) => (c :: a, b)
    else none

/-- The text from byte `start` to byte `stop`, if both are ends of characters in that order. -/
def slice (start stop : Nat) (cs : List Char) : Option (List Char) :=
  if stop < start then none
  else do
    let (_, tail) ← cutAt start cs
    let (piece, _) ← cutAt (stop - start) tail
    return piece

/-- The number that 32 bits hold. -/
instance coeUInt32Nat : Coe UInt32 Nat := ⟨UInt32.toNat⟩

/-- What 32 bits hold of a number. -/
instance coeNatUInt32 : Coe Nat UInt32 := ⟨UInt32.ofNat⟩

/-- A place in a text. -/
structure Position where
  offset : Nat
  line : UInt32
  column : UInt32
  deriving DecidableEq, Repr

namespace Position

/-- The beginning of a text. -/
def start : Position := ⟨0, 1, 1⟩

/-- The place after a character: a line feed begins a new line. The counters go round. -/
def next (p : Position) (c : Char) : Position :=
  if c = '\n' then ⟨p.offset + c.utf8Size, p.line + 1, 1⟩
  else ⟨p.offset + c.utf8Size, p.line, p.column + 1⟩

/-- The place after a text. -/
def after (p : Position) (cs : List Char) : Position :=
  cs.foldl next p

end Position

/-- A stretch of a text, from byte `start` up to byte `stop`. -/
structure Span where
  start : Nat
  stop : Nat
  line : UInt32
  column : UInt32
  deriving DecidableEq, Repr

namespace Span

/-- The stretch between two places. -/
def between (p q : Position) : Span :=
  ⟨p.offset, q.offset, p.line, p.column⟩

/-- The empty stretch at the beginning of a text. -/
def atStart : Span := ⟨0, 0, 1, 1⟩

/-- From the start of one stretch to the end of another. -/
def through (a b : Span) : Span :=
  ⟨a.start, b.stop, a.line, a.column⟩

/-- The number of bytes covered. -/
def length (s : Span) : Nat :=
  s.stop - s.start

/-- Whether nothing is covered. -/
def isEmpty (s : Span) : Bool :=
  decide (s.stop ≤ s.start)

/-- The covered part of a text, empty where the stretch does not lie in it. -/
def textIn (s : Span) (source : List Char) : List Char :=
  (slice s.start s.stop source).getD []

/-- Written as line and column. -/
protected def toString (s : Span) : String :=
  toString s.line ++ ":" ++ toString s.column

instance : ToString Span := ⟨Span.toString⟩

end Span

/-- The line of a text around byte `offset`; an offset inside a character has the whole text as its
line. -/
def lineAt (source : List Char) (offset : Nat) : List Char :=
  match cutAt (min offset (byteLength source)) source with
  | none => source
  | some (before, after) =>
    (before.reverse.takeWhile (· ≠ '\n')).reverse ++ after.takeWhile (· ≠ '\n')

end GameCondition
