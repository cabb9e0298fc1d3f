import GameCondition.Canonical
import GameCondition.Condition.Checking
import GameCondition.Condition.Projection
import GameCondition.Memo
import GameCondition.Settings
import GameCondition.World.Judging

/-! # Engines

An engine takes what authors wrote all the way: to canonical text, to a condition, to warnings, to
a verdict. Its vocabulary may be exchanged at any time; what it remembers is kept by canonical text
and stays valid. Every use that reads a condition gives the engine back with what it remembers.
-/

namespace GameCondition

/-- The names that the elements of a vocabulary bring along. -/
def Vocabulary.knownNames (v : Vocabulary) : KnownNames :=
  ⟨.ofList v.elementIds, .ofList v.sceneIds, .ofList v.attributes, .ofList v.flags,
    .ofList v.states⟩

/-- A vocabulary, settings, and the conditions read so far. -/
structure Engine where
  vocabulary : Vocabulary
  settings : Settings
  memo : Memo Condition

namespace Engine

/-- A new engine, unless the settings are refused. -/
def create (v : Vocabulary) (s : Settings) : Except Error Engine := do
  s.check
  return ⟨v, s, .empty⟩

/-- Exchanges the vocabulary. -/
def setVocabulary (e : Engine) (v : Vocabulary) : Engine :=
  { e with vocabulary := v }

/-- Forgets all conditions. -/
def clear (e : Engine) : Engine :=
  { e with memo := e.memo.clear }

/-- The canonical form of a text. -/
def canonicalize (e : Engine) (source : String) : String :=
  e.vocabulary.canonicalize source

/-- Reads canonical text under the limit that is set. -/
def read (e : Engine) (canonical : String) : Except Diagnostic Condition :=
  Condition.read e.settings.maxNestingDepth canonical

/-- Reads a text and, if that is set, warns of unknown names. Nothing is remembered. -/
def check (e : Engine) (source : String) : Outcome :=
  let outcome := Outcome.ofExcept (e.read (e.canonicalize source))
  if e.settings.validates then
    outcome.addWarnings ((outcome.condition.map e.vocabulary.knownNames.warnings).getD [])
  else outcome

/-- The condition of a canonical text, remembered if that is set. -/
def compileCanonical (e : Engine) (canonical : String) : Except Diagnostic Condition × Engine :=
  if e.settings.remembers then
    let (result, memo) := e.memo.getOrCompile canonical e.read
    (result, { e with memo })
  else (e.read canonical, e)

/-- The condition of a text, or the error in its canonical form. -/
def compile (e : Engine) (source : String) : Except Error Condition × Engine :=
  let canonical := e.canonicalize source
  let (result, e) := e.compileCanonical canonical
  (result.mapError fun d => d.toError canonical, e)

/-- Whether the condition of a text holds in a world, or why it cannot be read. -/
def tryEvaluate (e : Engine) (w : World) (source : String) : Except Error Bool × Engine :=
  let (result, e) := e.compile source
  (result.map (Condition.holdsIn w), e)

/-- Whether the condition of a text holds in a world. What cannot be read does not hold. -/
def evaluate (e : Engine) (w : World) (source : String) : Bool × Engine :=
  match e.tryEvaluate w source with
  | (.ok b, e) => (b, e)
  | (.error _, e) => (false, e)

/-- The condition of a text as JSON, or why it cannot be read. -/
def project (e : Engine) (source : String) : Except Error Json × Engine :=
  let (result, e) := e.compile source
  (result.map Condition.toJson, e)

end Engine

end GameCondition
