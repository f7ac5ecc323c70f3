import DeviceMessages.CommandLine.Arguments
import DeviceMessages.CommandLine.Report
import DeviceMessages.Decimal.Binary64
import DeviceMessages.Decimal.Notation
import DeviceMessages.Decimal.Numeral
import DeviceMessages.Definition.Grammar
import DeviceMessages.Definition.Leaf
import DeviceMessages.Definition.Parser
import DeviceMessages.Definition.Recognizer
import DeviceMessages.Definition.Token
import DeviceMessages.Directory
import DeviceMessages.Format.Basic
import DeviceMessages.Format.Parser
import DeviceMessages.Format.Render
import DeviceMessages.Generator
import DeviceMessages.Main
import DeviceMessages.Message.Delivery
import DeviceMessages.Message.Kind
import DeviceMessages.Message.Rule
import DeviceMessages.Message.Scanner
import DeviceMessages.Proofs.CommandLine.Lines
import DeviceMessages.Proofs.CommandLine.Scanning
import DeviceMessages.Proofs.Decimal.Mantissa
import DeviceMessages.Proofs.Decimal.Nearest
import DeviceMessages.Proofs.Decimal.Positional
import DeviceMessages.Proofs.Decimal.Reading
import DeviceMessages.Proofs.Decimal.Rounding
import DeviceMessages.Proofs.Definition.Completion
import DeviceMessages.Proofs.Definition.Decoding
import DeviceMessages.Proofs.Definition.Form
import DeviceMessages.Proofs.Definition.Language
import DeviceMessages.Proofs.Definition.Layout
import DeviceMessages.Proofs.Definition.Printing
import DeviceMessages.Proofs.Definition.Recognition
import DeviceMessages.Proofs.Definition.RoundTrip
import DeviceMessages.Proofs.Definition.Strings
import DeviceMessages.Proofs.Definition.Trivia
import DeviceMessages.Proofs.Definition.Units
import DeviceMessages.Proofs.Directory
import DeviceMessages.Proofs.Failure
import DeviceMessages.Proofs.Format.General
import DeviceMessages.Proofs.Format.Grammar
import DeviceMessages.Proofs.Format.Integers
import DeviceMessages.Proofs.Format.Measured
import DeviceMessages.Proofs.Format.Padding
import DeviceMessages.Proofs.Format.Point
import DeviceMessages.Proofs.Format.Reading
import DeviceMessages.Proofs.Format.Rereading
import DeviceMessages.Proofs.Format.Width
import DeviceMessages.Proofs.Generator.Corruption
import DeviceMessages.Proofs.Generator.Filling
import DeviceMessages.Proofs.Message.Calls
import DeviceMessages.Proofs.Message.Classification
import DeviceMessages.Proofs.Message.Collecting
import DeviceMessages.Proofs.Message.Delimiting
import DeviceMessages.Proofs.Message.Extension
import DeviceMessages.Proofs.Message.Framing
import DeviceMessages.Proofs.Message.Reordering
import DeviceMessages.Proofs.Protocol.Building
import DeviceMessages.Proofs.Template.Checksum
import DeviceMessages.Proofs.Template.Compilation
import DeviceMessages.Proofs.Template.Concatenation
import DeviceMessages.Proofs.Template.Fault
import DeviceMessages.Proofs.Template.PieceReading
import DeviceMessages.Proofs.Template.Spelling
import DeviceMessages.Proofs.Template.Writing
import DeviceMessages.Proofs.Text.Escaping
import DeviceMessages.Proofs.Text.Span
import DeviceMessages.Proofs.Text.Utf8
import DeviceMessages.Proofs.Validator.Duration
import DeviceMessages.Protocol
import DeviceMessages.Table
import DeviceMessages.Template.Basic
import DeviceMessages.Template.Compilation
import DeviceMessages.Text.Basic
import DeviceMessages.Text.CombiningMark
import DeviceMessages.Text.Printable
import DeviceMessages.Text.Quoted
import DeviceMessages.Time.Calendar
import DeviceMessages.Time.Field
import DeviceMessages.Time.Format
import DeviceMessages.Time.Reading
import DeviceMessages.Time.Writing
import DeviceMessages.Validator
