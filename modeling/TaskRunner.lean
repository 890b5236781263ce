import TaskRunner.Source.File
import TaskRunner.Json.Reader
import TaskRunner.Json.Printer
import TaskRunner.Ai.Provider
import TaskRunner.CommandLine.Globals
import TaskRunner.CommandLine.Help
import TaskRunner.CommandLine.Matching
import TaskRunner.CommandLine.Program
import TaskRunner.Proofs.TaskHistory
import TaskRunner.Proofs.ArgumentMatching
import TaskRunner.Proofs.DoubleBits
import TaskRunner.Proofs.ErasedPieces
import TaskRunner.Proofs.EventProtocol
import TaskRunner.Proofs.LoweredText
import TaskRunner.Proofs.NearestDouble
import TaskRunner.Proofs.NumberTexts
import TaskRunner.Proofs.OmittedDefaults
import TaskRunner.Proofs.WrittenCalls
import TaskRunner.Proofs.WrittenSignatures
import TaskRunner.Proofs.ScriptStatements
import TaskRunner.Proofs.TiledText
import TaskRunner.Proofs.OffendingTokens
import TaskRunner.Proofs.WellFormedCommands
import TaskRunner.Proofs.PassedObjects
import TaskRunner.Proofs.SettledOutcomes
import TaskRunner.Proofs.ListedSignatures
import TaskRunner.Proofs.IndexedFiles
import TaskRunner.Proofs.OutputOrder
import TaskRunner.Proofs.LivePlaces
import TaskRunner.Proofs.StreamedLines
import TaskRunner.Proofs.ArgumentReaders
import TaskRunner.Proofs.BalancedBrackets
import TaskRunner.Proofs.DeclaredPatterns
import TaskRunner.Proofs.DefaultExports
import TaskRunner.Proofs.DeliveredReplies
import TaskRunner.Proofs.DuplicateNames
import TaskRunner.Proofs.SettledTasks
import TaskRunner.Proofs.KeptPlaces
import TaskRunner.Proofs.WrittenTemplates
import TaskRunner.Proofs.PropertyNames
import TaskRunner.Proofs.SpacedFiles
import TaskRunner.Proofs.DecodedTexts
import TaskRunner.Proofs.LineFlags
import TaskRunner.Proofs.RecordedFunctions
import TaskRunner.Proofs.FunctionValues
import TaskRunner.Proofs.TakenNames
import TaskRunner.Proofs.ServerMarks
import TaskRunner.Proofs.ShellWords
import TaskRunner.Proofs.TypedArguments
import TaskRunner.Proofs.WrittenDescriptions
import TaskRunner.Proofs.HelpGroups
import TaskRunner.Proofs.LayeredSettings
import TaskRunner.Proofs.FaultExcerpts
import TaskRunner.Proofs.ReflectedResults
import TaskRunner.Proofs.MergedOutput
import TaskRunner.Proofs.FittingEdits
import TaskRunner.Proofs.PrefixedIntegers
