import GameCondition.Text.ClusterTable

/-! # Clusters

What a reader takes for one character is often several: a letter with its marks, a syllable of
Hangul, a conjunct of consonants, a family of joined pictographs, a flag, a line feed with the
carriage return before it. `clusters` cuts a text into such pieces. Whether a character joins the
cluster before it is decided by its class and by the end of that cluster alone.
-/

namespace GameCondition

/-! ## Classes -/

/-- The class of an ASCII character. -/
def asciiClusterClass (c : Char) : ClusterClass :=
  if c = '\r' then .carriageReturn
  else if c = '\n' then .lineFeed
  else if c.toNat < 32 || c.toNat == 127 then .control
  else .other

/-- What a character does at the edge of a cluster. Of the syllables of Hangul every 28th ends
with its vowel. -/
def clusterClass (c : Char) : ClusterClass :=
  let n := c.toNat
  if n < 128 then asciiClusterClass c
  else if 0xAC00 ≤ n ∧ n ≤ 0xD7A3 then
    if (n - 0xAC00) % 28 = 0 then .openSyllable else .closedSyllable
  else match clusterRanges.find? fun r => decide (r.first ≤ n) && decide (n ≤ r.last) with
    | some r => r.kind
    | none => .other

/-! ## Ends of clusters -/

/-- How a cluster ends, as far as it matters for what joins it. -/
inductive ClusterEnd where
  /-- In nothing that joins more than marks. -/
  | plain
  /-- In a control, which nothing joins. -/
  | sealed
  | carriageReturn
  /-- In something that belongs to what comes after. -/
  | prepend
  | leadingJamo
  | vowelJamo
  | trailingJamo
  /-- In the first half of a flag. -/
  | halfFlag
  /-- In a pictograph with its marks, and whether a joiner is the last of them. -/
  | pictograph (joined : Bool)
  /-- In a consonant with its marks, and whether a linker is among them. -/
  | consonant (linked : Bool)
  deriving DecidableEq, Repr

namespace ClusterEnd

/-- How a cluster ends in a character that leans on nothing before it. -/
def ofClass : ClusterClass → ClusterEnd
  | .carriageReturn => carriageReturn
  | .lineFeed | .control => sealed
  | .prepend => prepend
  | .regional => halfFlag
  | .leadingJamo => leadingJamo
  | .vowelJamo | .openSyllable => vowelJamo
  | .trailingJamo | .closedSyllable => trailingJamo
  | .pictograph => pictograph false
  | .consonant => consonant false
  | .other | .extend | .linker | .joiner | .nonJoiner | .spacing => plain

/-- Whether a character joins a cluster. -/
def takes : ClusterEnd → ClusterClass → Bool
  | carriageReturn, k => k == .lineFeed
  | sealed, _ => false
  | _, .carriageReturn | _, .lineFeed | _, .control => false
  | _, .extend | _, .linker | _, .joiner | _, .nonJoiner | _, .spacing => true
  | prepend, _ => true
  | leadingJamo, .leadingJamo | leadingJamo, .vowelJamo => true
  | leadingJamo, .openSyllable | leadingJamo, .closedSyllable => true
  | vowelJamo, .vowelJamo | vowelJamo, .trailingJamo => true
  | trailingJamo, .trailingJamo => true
  | halfFlag, .regional => true
  | pictograph joined, .pictograph => joined
  | consonant linked, .consonant => linked
  | _, _ => false

/-- How a cluster ends when a character has joined it. -/
def add : ClusterEnd → ClusterClass → ClusterEnd
  | halfFlag, .regional => plain
  | pictograph false, .joiner => pictograph true
  | pictograph false, .extend | pictograph false, .linker => pictograph false
  | pictograph false, .nonJoiner => pictograph false
  | consonant _, .linker => consonant true
  | consonant linked, .extend | consonant linked, .joiner => consonant linked
  | _, k => ofClass k

end ClusterEnd

/-! ## Cutting -/

/-- The clusters of a text that goes on after a cluster of which some is taken, last character
first. -/
def clustersFrom (e : ClusterEnd) (taken : List Char) : List Char → List (List Char)
  | [] => [taken.reverse]
  | c :: cs =>
    let k := clusterClass c
    if e.takes k then clustersFrom (e.add k) (c :: taken) cs
    else taken.reverse :: clustersFrom (.ofClass k) [c] cs

/-- The clusters of a text. -/
def clusters : List Char → List (List Char)
  | [] => []
  | c :: cs => clustersFrom (.ofClass (clusterClass c)) [c] cs

end GameCondition
