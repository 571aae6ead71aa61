import Storyline.Document
import Storyline.Document.Decode
import Storyline.Document.Encode
import Storyline.Fault
import Storyline.Json.Literal
import Storyline.Json.Quoted
import Storyline.Json.Record
import Storyline.Json.Text
import Storyline.Json.Token
import Storyline.Json.Value
import Storyline.Lint
import Storyline.Main
import Storyline.Node
import Storyline.Number.Binary64
import Storyline.Number.Numeral
import Storyline.Number.Rounding
import Storyline.Number.Shortest
import Storyline.Operator
import Storyline.Project
import Storyline.Proofs.Advance
import Storyline.Proofs.Chain
import Storyline.Proofs.CheckReport
import Storyline.Proofs.Cursor
import Storyline.Proofs.DocumentRoundTrip
import Storyline.Proofs.Edges
import Storyline.Proofs.Evolution
import Storyline.Proofs.Failures
import Storyline.Proofs.JsonRoundTrip
import Storyline.Proofs.JsonTokens
import Storyline.Proofs.Landing
import Storyline.Proofs.LintClean
import Storyline.Proofs.LintCount
import Storyline.Proofs.LintDraws
import Storyline.Proofs.LintErrors
import Storyline.Proofs.LintSoundness
import Storyline.Proofs.LintStatic
import Storyline.Proofs.Lookup
import Storyline.Proofs.Occurrence
import Storyline.Proofs.Passing
import Storyline.Proofs.Positions
import Storyline.Proofs.RandomWords
import Storyline.Proofs.Reachable
import Storyline.Proofs.RouteChoice
import Storyline.Proofs.Selections
import Storyline.Proofs.ShownNode
import Storyline.Proofs.StepLimit
import Storyline.Proofs.Store
import Storyline.Proofs.TableHistory
import Storyline.Proofs.TeleportEntrance
import Storyline.Proofs.Templates
import Storyline.Proofs.TransitCycles
import Storyline.Proofs.Works
import Storyline.Random
import Storyline.Repeat
import Storyline.Routing
import Storyline.Session
import Storyline.Shell.Check
import Storyline.Shell.Outcome
import Storyline.Shell.Play
import Storyline.Text.Blank
import Storyline.Text.CaseData
import Storyline.Text.Lowercase
import Storyline.Text.Search
import Storyline.Traversal
import Storyline.Variables
import Storyline.Proofs.IndexedLookups
import Storyline.Proofs.NodeSchema
import Storyline.Proofs.MemberOrder
import Storyline.Proofs.Replacement
import Storyline.Proofs.SubstitutionOrder
import Storyline.Proofs.GridRounding
import Storyline.Proofs.Places
import Storyline.Proofs.DrawnRoute
import Storyline.Proofs.ZeroWeights
import Storyline.Proofs.DrawShares
import Storyline.Proofs.OrderLines
import Storyline.Proofs.PlayerSession
import Storyline.Proofs.NameRemoval
import Storyline.Proofs.OperatorFaults
import Storyline.Proofs.AssignmentLaws
import Storyline.Proofs.ComparisonLaws
import Storyline.Proofs.LastMatch
import Storyline.Proofs.DrawOrder
import Storyline.Proofs.FollowedLinks
import Storyline.Proofs.FirstViolation
import Storyline.Proofs.Trimming
import Storyline.Proofs.ShortestDecimals
import Storyline.Proofs.NumeralRoundTrip
import Storyline.Proofs.BitPatterns
import Storyline.Proofs.StoredNumbers
import Storyline.Proofs.StepCount
import Storyline.Proofs.DecimalReading
import Storyline.Proofs.Pieces
import Storyline.Proofs.NumeralGrammar
import Storyline.Proofs.Digits
import Storyline.Proofs.MinimalDecimals
