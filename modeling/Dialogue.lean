import Dialogue.Main
import Dialogue.Graph
import Dialogue.Proofs.Steadiness
import Dialogue.Proofs.Trail
import Dialogue.Lint
import Dialogue.Proofs.AdvanceExact
import Dialogue.Proofs.KeyedLaws
import Dialogue.Proofs.SilentLoops
import Dialogue.Proofs.HopBudget
import Dialogue.Proofs.Strictness
import Dialogue.Proofs.JsonText
import Dialogue.Proofs.Records
import Dialogue.Proofs.Rereading
import Dialogue.Proofs.Reloading
import Dialogue.Proofs.Authoring
import Dialogue.Proofs.SoundConnections
import Dialogue.Proofs.SoundGraphs
import Dialogue.Proofs.LintOfSound
import Dialogue.Proofs.Connecting
import Dialogue.Proofs.Sessions
import Dialogue.Proofs.RoundTrip
import Dialogue.Proofs.Rounding
import Dialogue.Proofs.StepwiseRange
import Dialogue.Proofs.NumeralReading
import Dialogue.Proofs.Loading
import Dialogue.Proofs.OperationTexts
import Dialogue.Proofs.Wiring
import Dialogue.Proofs.FreshIds
import Dialogue.Proofs.Revisions
import Dialogue.Proofs.RemovedProperties
import Dialogue.Proofs.DeclaredBoards
import Dialogue.Proofs.ReportedReferences
import Dialogue.Proofs.RenamedProperties
import Dialogue.Proofs.Rebinding
import Dialogue.Proofs.Restarts
import Dialogue.Proofs.TraversalRuns
import Dialogue.Proofs.TerminalPlays
import Dialogue.Proofs.LoopSearch
import Dialogue.Proofs.AnswerRemoval
import Dialogue.Proofs.AskedClauses
import Dialogue.Proofs.StrictActions
import Dialogue.Proofs.PropertyFates
import Dialogue.Proofs.Overloads
import Dialogue.Proofs.Calls
import Dialogue.Proofs.CleanConnections
import Dialogue.Proofs.BoundHandles
import Dialogue.Proofs.AddedOperations
import Dialogue.Proofs.EditedBoards
import Dialogue.Proofs.HandleLives
import Dialogue.Proofs.Counters
import Dialogue.Proofs.InsertedTexts
import Dialogue.Proofs.OperandKinds
import Dialogue.Proofs.CommandLines
import Dialogue.Proofs.IntegerTexts
