import MessageHarvest.Tsx.Program
import MessageHarvest.Json.Writer
import MessageHarvest.Record.Message
import MessageHarvest.Record.Settings
import MessageHarvest.Files.Entry
import MessageHarvest.Files.Edit
import MessageHarvest.Files.Walk
import MessageHarvest.Text.CellWidth
import MessageHarvest.Markup.Effect
import MessageHarvest.Markup.Escape
import MessageHarvest.Markup.Render
import MessageHarvest.Layout.Line
import MessageHarvest.Layout.Table
import MessageHarvest.Command.Arguments
import MessageHarvest.Report.Display
import MessageHarvest.Command.Run
import MessageHarvest.Proofs.Message.Overlap
import MessageHarvest.Proofs.Message.Isolation
import MessageHarvest.Proofs.Message.Multiplicity
import MessageHarvest.Proofs.Syntax.Trivia
import MessageHarvest.Proofs.Message.Trivia
import MessageHarvest.Proofs.Message.Agreement
import MessageHarvest.Proofs.Json.RoundTrip
import MessageHarvest.Proofs.Report.Document
import MessageHarvest.Proofs.Message.Written
import MessageHarvest.Proofs.Files.Walk
import MessageHarvest.Proofs.Markup.Escape
import MessageHarvest.Proofs.Report.Display
import MessageHarvest.Proofs.Command.Success
import MessageHarvest.Proofs.Command.Agreement
import MessageHarvest.Proofs.Message.Concatenation
import MessageHarvest.Proofs.Markup.Token
import MessageHarvest.Proofs.Markup.Verbatim
import MessageHarvest.Proofs.Markup.Plain
import MessageHarvest.Proofs.Report.Verbatim
import MessageHarvest.Proofs.Layout.Line
import MessageHarvest.Proofs.Command.Complaint
import MessageHarvest.Proofs.Files.Resolve
import MessageHarvest.Proofs.Command.Relisting
import MessageHarvest.Proofs.Syntax.Traversal
import MessageHarvest.Proofs.Text.StringBody
import MessageHarvest.Proofs.Text.Outcome
import MessageHarvest.Proofs.Syntax.LineEnd
import MessageHarvest.Proofs.Message.LastValue
import MessageHarvest.Proofs.Message.Validity
import MessageHarvest.Proofs.Message.SourceOrder
import MessageHarvest.Proofs.Syntax.Enclosed
import MessageHarvest.Proofs.Message.Naming
