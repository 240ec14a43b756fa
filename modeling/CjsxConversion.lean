import CjsxConversion.Main
import CjsxConversion.Json.Settled
import CjsxConversion.Pipeline.Assembly
import CjsxConversion.StandIn.Memory
import CjsxConversion.Proofs.Pipeline.Following
import CjsxConversion.Proofs.Pipeline.Composition
import CjsxConversion.Proofs.Pipeline.Histories
import CjsxConversion.Proofs.Flag.Meaning
import CjsxConversion.Proofs.Flag.Rephrasing
import CjsxConversion.Proofs.Flag.SpelledOut
import CjsxConversion.Proofs.Flag.Typing
import CjsxConversion.Proofs.FileTree.Trail
import CjsxConversion.Proofs.FileTree.Replacement
import CjsxConversion.Proofs.Conversion.Atomicity
import CjsxConversion.Proofs.Conversion.SourceSafety
import CjsxConversion.Proofs.Tool.Splitting
import CjsxConversion.Proofs.Tool.ShellWords
import CjsxConversion.Proofs.Flag.Restating
import CjsxConversion.Proofs.Flag.Words
import CjsxConversion.Proofs.Flag.Views
import CjsxConversion.Proofs.Usage.Phrases
import CjsxConversion.Proofs.Usage.RoundTrip
import CjsxConversion.Proofs.Json.Reading
import CjsxConversion.Proofs.Traversal
import CjsxConversion.Proofs.Json.Decoding
import CjsxConversion.Proofs.Flag.JsonRoundTrip
import CjsxConversion.Proofs.Tool.JsonRoundTrip
import CjsxConversion.Proofs.Conversion.Noting
import CjsxConversion.Proofs.Conversion.FaultOrder
import CjsxConversion.Proofs.Conversion.Separation
import CjsxConversion.Proofs.Usage.Layering
import CjsxConversion.Proofs.Text.Replacing
import CjsxConversion.Proofs.Tool.CommandLines
import CjsxConversion.Proofs.Tool.Placeholders
import CjsxConversion.Proofs.Tool.Misconfiguration
import CjsxConversion.Proofs.FileTree.NewFile
import CjsxConversion.Proofs.Tool.Answers
import CjsxConversion.Proofs.Path.Components
import CjsxConversion.Proofs.Conversion.Renaming
import CjsxConversion.Proofs.Pipeline.Placements
import CjsxConversion.Proofs.Conversion.Destinations
import CjsxConversion.Proofs.Conversion.WorkingDirectory
import CjsxConversion.Proofs.FileTree.FreeNames
import CjsxConversion.Proofs.FileTree.Rewriting
import CjsxConversion.Proofs.Conversion.Repetition
import CjsxConversion.Proofs.Text.Trimming
import CjsxConversion.Proofs.Text.Decimal
import CjsxConversion.Proofs.Flag.Keys
import CjsxConversion.Proofs.Flag.Opposites
import CjsxConversion.Proofs.Flag.Integers
import CjsxConversion.Proofs.Path.Ancestors
import CjsxConversion.Proofs.Host.Locating
import CjsxConversion.Proofs.Text.Cutting
import CjsxConversion.Proofs.Text.Boundaries
import CjsxConversion.Proofs.Text.Lines
import CjsxConversion.Proofs.StandIn.Expanding
import CjsxConversion.Proofs.StandIn.Octetwise
import CjsxConversion.Proofs.StandIn.Restoring
import CjsxConversion.Proofs.StandIn.Reindenting
