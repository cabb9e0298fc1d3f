import GameCondition.Text.CaseTable
import GameCondition.Text.CharClass

/-! # Ignoring letter case

Three notions live side by side. *Lowering* replaces each character by its lower-case form, of
which `İ` has two characters; two names are equal ignoring case when they lower to the same text
character by character. Lowering a whole *text* differs in one place: a capital sigma at the end
of a word becomes `ς`. *Folding* sends a character to one representative of all characters that
differ from it in case only, so `ſ` folds with `s` and the Kelvin sign with `k`; a recent letter
has no partner in case yet.
-/

namespace GameCondition

/-- Whether a run holds the code point. -/
def CaseRun.covers (r : CaseRun) (n : Nat) : Bool :=
  decide (r.first ≤ n) && decide (n ≤ r.last) && (n - r.first) % r.step == 0

/-- The lower-case partner of a character that has a single one, else the character itself. -/
def lowerPartner (c : Char) : Char :=
  if c.toNat < 128 then c.toLower
  else match caseRuns.find? fun r => r.covers c.toNat with
    | some r => Char.ofNat (c.toNat + r.shift).toNat
    | none => c

/-- The lower-case form of a character. -/
def lowerChar (c : Char) : List Char :=
  if c = 'İ' then ['i', '\u0307'] else [lowerPartner c]

/-- The representative of the characters that differ from `c` in case only. -/
def foldChar (c : Char) : Char :=
  if c.toNat < 128 then c.toLower
  else match variantLetters.lookup c.toNat with
    | some n => Char.ofNat n
    | none => if isRecent c then c else lowerPartner c

/-- Letters that have case. -/
def isCased (c : Char) : Bool :=
  if c.toNat < 128 then c.isAlpha else inRanges casedRanges c.toNat

/-- Marks that are passed over when looking for a cased letter. -/
def isCaseIgnorable (c : Char) : Bool :=
  if c.toNat < 128 then c ∈ ['\x27', '.', ':', '^', '\x60']
  else inRanges caseIgnorableRanges c.toNat

/-- Whether the first character that is not passed over is a cased letter. -/
def meetsCased (cs : List Char) : Bool :=
  match cs.dropWhile isCaseIgnorable with
  | [] => false
  | c :: _ => isCased c

/-- A capital sigma ends a word when a cased letter precedes it and none follows. The text before
it is given backwards. -/
def lowerSigma (before after : List Char) : Char :=
  if meetsCased before && !meetsCased after then 'ς' else 'σ'

/-- Lowers the text that follows `before`, which is given backwards. -/
def lowerAfter (before : List Char) : List Char → List Char
  | [] => []
  | c :: cs =>
    (if c = 'Σ' then [lowerSigma before cs] else lowerChar c) ++ lowerAfter (c :: before) cs

/-- The lower-case form of a text. -/
def lowerText (cs : List Char) : List Char :=
  lowerAfter [] cs

/-- The lower-case form of a string. -/
def lowered (s : String) : String :=
  String.ofList (lowerText s.toList)

/-- Equality of names, character by character in lower case. -/
def sameName (a b : String) : Bool :=
  a.toList.flatMap lowerChar == b.toList.flatMap lowerChar

/-- Equality up to the case of ASCII letters. -/
def sameAscii (a b : String) : Bool :=
  a.toList.map Char.toLower == b.toList.map Char.toLower

/-- Equality of two texts up to case. -/
def sameFolded (a b : List Char) : Bool :=
  a.map foldChar == b.map foldChar

end GameCondition
