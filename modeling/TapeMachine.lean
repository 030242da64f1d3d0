import TapeMachine.Halt.Json
import TapeMachine.Main
import TapeMachine.Table.Json
import TapeMachine.Proofs.AddedRules
import TapeMachine.Proofs.BinaryIncrement
import TapeMachine.Proofs.BoundedRuns
import TapeMachine.Proofs.Capitals
import TapeMachine.Proofs.CaseAndMargins
import TapeMachine.Proofs.CellRow
import TapeMachine.Proofs.DeadRules
import TapeMachine.Proofs.DebugTrace
import TapeMachine.Proofs.Derivation
import TapeMachine.Proofs.DirectoryLoading
import TapeMachine.Proofs.EvenZeros
import TapeMachine.Proofs.Inverse
import TapeMachine.Proofs.JsonTrace
import TapeMachine.Proofs.LineGrammar
import TapeMachine.Proofs.Lossless
import TapeMachine.Proofs.NextRule
import TapeMachine.Proofs.PrintableTable
import TapeMachine.Proofs.ProgramEdits
import TapeMachine.Proofs.Progress
import TapeMachine.Proofs.Refinement
import TapeMachine.Proofs.RuleOrder
import TapeMachine.Proofs.RuleSources
import TapeMachine.Proofs.SearchRounds
import TapeMachine.Proofs.ShadowedRules
import TapeMachine.Proofs.StackedTexts
import TapeMachine.Proofs.StrictMode
import TapeMachine.Proofs.TrailingBlanks
import TapeMachine.Proofs.UnaryAddition
import TapeMachine.Proofs.WhiteTokens
import TapeMachine.Proofs.WordMachine
