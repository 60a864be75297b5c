import ScriptLiterals.Editor
import ScriptLiterals.Main
import ScriptLiterals.Proofs.Command.Ending
import ScriptLiterals.Proofs.Command.Once
import ScriptLiterals.Proofs.Conversion.LineBreak
import ScriptLiterals.Proofs.Conversion.Rendering
import ScriptLiterals.Proofs.Conversion.Word
import ScriptLiterals.Proofs.Conversion.Inside
import ScriptLiterals.Proofs.Conversion.Returns
import ScriptLiterals.Proofs.Editor.Session
import ScriptLiterals.Proofs.Literal.FirstFault
import ScriptLiterals.Proofs.Text.Case
import ScriptLiterals.Proofs.Source.Case
import ScriptLiterals.Proofs.Literal.Case
import ScriptLiterals.Proofs.Conversion.Case
import ScriptLiterals.Proofs.Command.Polls
import ScriptLiterals.Proofs.Command.WithoutWatch
import ScriptLiterals.Proofs.Command.Watching
import ScriptLiterals.Proofs.Literal.Strictness
import ScriptLiterals.Proofs.Conversion.Strictness
import ScriptLiterals.Proofs.Literal.Separators
import ScriptLiterals.Proofs.Literal.Continuation
import ScriptLiterals.Proofs.Source.Complete
import ScriptLiterals.Proofs.Command.Work
import ScriptLiterals.Proofs.Command.Settings
import ScriptLiterals.Proofs.Command.Delivery
import ScriptLiterals.Proofs.Command.ReadBack
import ScriptLiterals.Proofs.Conversion.Layout
import ScriptLiterals.Proofs.Source.Listing
import ScriptLiterals.Proofs.Source.Readings
import ScriptLiterals.Proofs.Literal.InWidth
