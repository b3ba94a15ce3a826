import SchemaCompiler.Command.Arguments
import SchemaCompiler.Command.Files
import SchemaCompiler.Command.Notice
import SchemaCompiler.Command.Run
import SchemaCompiler.Compile
import SchemaCompiler.Decimal.Shortest
import SchemaCompiler.Event
import SchemaCompiler.Grammar.Error
import SchemaCompiler.Grammar.State
import SchemaCompiler.Header
import SchemaCompiler.Header.Layout
import SchemaCompiler.Header.Struct
import SchemaCompiler.Json.Fault
import SchemaCompiler.Json.Number
import SchemaCompiler.Json.Reader
import SchemaCompiler.Json.String
import SchemaCompiler.Json.Value
import SchemaCompiler.Main
import SchemaCompiler.Options
import SchemaCompiler.Options.Read
import SchemaCompiler.Proofs.Table
import SchemaCompiler.Schema
import SchemaCompiler.Schema.Dump
import SchemaCompiler.Schema.FieldType
import SchemaCompiler.Schema.Message
import SchemaCompiler.Schema.Table
import SchemaCompiler.Text.Alphabetic
import SchemaCompiler.Text.Blank
import SchemaCompiler.Text.Hex
import SchemaCompiler.Text.LineBreak
import SchemaCompiler.Text.Literal
import SchemaCompiler.Text.Numeral
import SchemaCompiler.Text.Printable
import SchemaCompiler.Text.Quoted
import SchemaCompiler.Text.RangeSet
import SchemaCompiler.Text.Uppercase
import SchemaCompiler.Text.Visible
import SchemaCompiler.Token
import SchemaCompiler.Token.Scan
import SchemaCompiler.Proofs.Derivation
import SchemaCompiler.Proofs.Transition
import SchemaCompiler.Proofs.Parsing
import SchemaCompiler.Proofs.LineScan
import SchemaCompiler.Proofs.HeaderBlocks
import SchemaCompiler.Proofs.DeclarationOrder
import SchemaCompiler.Proofs.FirstError
import SchemaCompiler.Proofs.TokenSpelling
import SchemaCompiler.Proofs.Segmentation
import SchemaCompiler.Proofs.ScanFailure
import SchemaCompiler.Proofs.RunFiles
import SchemaCompiler.Proofs.ClosedSchema
import SchemaCompiler.Proofs.HeaderReading
import SchemaCompiler.Proofs.ErrorPlace
import SchemaCompiler.Proofs.Lockstep
import SchemaCompiler.Proofs.DumpReading
import SchemaCompiler.Proofs.JsonReading
import SchemaCompiler.Proofs.CommentScope
import SchemaCompiler.Proofs.GrammarPlace
import SchemaCompiler.Proofs.ErrorClass
import SchemaCompiler.Proofs.FieldNames
import SchemaCompiler.Proofs.StructMethods
import SchemaCompiler.Proofs.Renaming
import SchemaCompiler.Proofs.ReaderOnly
import SchemaCompiler.Proofs.HeaderLines
import SchemaCompiler.Proofs.StructReading
import SchemaCompiler.Proofs.Outcome
import SchemaCompiler.Proofs.JsonGrammar
import SchemaCompiler.Proofs.OptionsReading
import SchemaCompiler.Proofs.Diagnostics
import SchemaCompiler.Proofs.Consent
import SchemaCompiler.Proofs.LogSwitches
import SchemaCompiler.Proofs.RunAgreement
import SchemaCompiler.Proofs.ParseLog
import SchemaCompiler.Proofs.BraceDepth
import SchemaCompiler.Proofs.Descent
import SchemaCompiler.Proofs.DescentProgress
import SchemaCompiler.Proofs.DescentRun
