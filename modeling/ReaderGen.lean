import ReaderGen.CommandLine
import ReaderGen.Encoding
import ReaderGen.FileTree
import ReaderGen.Generate
import ReaderGen.Json
import ReaderGen.Json.Pretty
import ReaderGen.Layout
import ReaderGen.Layout.Build
import ReaderGen.Layout.Record
import ReaderGen.Main
import ReaderGen.Notation.Lexer
import ReaderGen.Notation.Parser
import ReaderGen.Notation.Token
import ReaderGen.Proofs.Layout.Denotation
import ReaderGen.Proofs.Layout.Exact
import ReaderGen.Proofs.Layout.Faults
import ReaderGen.Proofs.TypeTable
import ReaderGen.Reader.Accessor
import ReaderGen.Reader.Sheet
import ReaderGen.Reader.Slot
import ReaderGen.Reader.Support
import ReaderGen.Reader.Unit
import ReaderGen.Reflow
import ReaderGen.Schema
import ReaderGen.Schema.Record
import ReaderGen.SchemaFile
import ReaderGen.Text
import ReaderGen.Text.Quoted
import ReaderGen.TypeTable
import ReaderGen.Yaml.Node
import ReaderGen.Yaml.Scalar
import ReaderGen.Yaml.Schema
import ReaderGen.Yaml.Tag
import ReaderGen.Yaml.Text
import ReaderGen.Yaml.Token
import ReaderGen.Proofs.Layout.Tiling
import ReaderGen.Proofs.Layout.DeclarationOrder
import ReaderGen.Proofs.Notation.Grammar
import ReaderGen.Proofs.Notation.Exact
import ReaderGen.Proofs.Notation.Rendering
import ReaderGen.Proofs.Notation.Tokens
import ReaderGen.Proofs.Notation.Names
import ReaderGen.Proofs.Layout.Names
import ReaderGen.Proofs.Layout.References
import ReaderGen.Proofs.Reflow
import ReaderGen.Proofs.Reader.Lines
import ReaderGen.Proofs.Reader.Emitters
import ReaderGen.Proofs.Reader.Scan
import ReaderGen.Proofs.Reader.Deferral
import ReaderGen.Proofs.Reader.LineBudget
import ReaderGen.Proofs.Reader.Words
import ReaderGen.Proofs.Layout.Locality
import ReaderGen.Proofs.Json.Rearranged
import ReaderGen.Proofs.Layout.Record
import ReaderGen.Proofs.Inspection
import ReaderGen.Proofs.Reader.Parts
import ReaderGen.Proofs.Layout.Scopes
import ReaderGen.Proofs.Reader.ClassNames
import ReaderGen.Proofs.Notation.Errors
import ReaderGen.Proofs.CommandLine
import ReaderGen.Proofs.Diagnostics
import ReaderGen.Proofs.Reflow.Greedy
import ReaderGen.Proofs.Reflow.Overflow
import ReaderGen.Proofs.Json.Amended
import ReaderGen.Proofs.Schema.Record
import ReaderGen.Proofs.Notation.FieldLists
import ReaderGen.Proofs.Notation.FirstFault
import ReaderGen.Proofs.Reflow.Budget
import ReaderGen.Proofs.Layout.DeferredQueue
import ReaderGen.Proofs.Notation.Positions
import ReaderGen.Proofs.Layout.History
import ReaderGen.Proofs.TypeTable.Walk
import ReaderGen.Proofs.Reader.WholeLines
import ReaderGen.Proofs.Reader.Decoder
import ReaderGen.Proofs.Notation.Tape
import ReaderGen.Proofs.Notation.Contract
import ReaderGen.Proofs.Notation.Progress
import ReaderGen.Proofs.Notation.GapLoops
import ReaderGen.Proofs.Notation.Stream
