import GameCondition.Main
import GameCondition.Proofs.Canonical.FixedPoint
import GameCondition.Proofs.Canonical.Literals
import GameCondition.Proofs.Canonical.LongestPhrase
import GameCondition.Proofs.Canonical.Names
import GameCondition.Proofs.Canonical.PlainStretches
import GameCondition.Proofs.Canonical.Possessives
import GameCondition.Proofs.Canonical.Printed
import GameCondition.Proofs.Canonical.SingleWords
import GameCondition.Proofs.Condition.AsciiCase
import GameCondition.Proofs.Condition.FailurePlace
import GameCondition.Proofs.Condition.Height
import GameCondition.Proofs.Condition.IndexedExpressions
import GameCondition.Proofs.Condition.Limits
import GameCondition.Proofs.Condition.Measures
import GameCondition.Proofs.Condition.Mentions
import GameCondition.Proofs.Condition.Places
import GameCondition.Proofs.Condition.Projection
import GameCondition.Proofs.Condition.Spacing
import GameCondition.Proofs.Condition.Walks
import GameCondition.Proofs.Condition.WellFormed
import GameCondition.Proofs.Console.Parentheses
import GameCondition.Proofs.Console.Script
import GameCondition.Proofs.Engine.History
import GameCondition.Proofs.Memo.Keys
import GameCondition.Proofs.Token.Quoted
import GameCondition.Proofs.World.Bystanders
import GameCondition.Proofs.World.Containment
import GameCondition.Proofs.World.KnownNames
import GameCondition.Proofs.World.LooseEquality
import GameCondition.Proofs.World.NumberOperands
import GameCondition.Proofs.World.RoundTrip
import GameCondition.Proofs.World.Unresolved
