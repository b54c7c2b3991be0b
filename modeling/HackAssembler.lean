import HackAssembler.Assembly.Image
import HackAssembler.Assembly.Layout
import HackAssembler.Assembly.Naming
import HackAssembler.Assembly.Program
import HackAssembler.Assembly.Trace
import HackAssembler.CommandLine.Options
import HackAssembler.CommandLine.Session
import HackAssembler.Disassembly
import HackAssembler.Fault
import HackAssembler.Line
import HackAssembler.Main
import HackAssembler.Mnemonic
import HackAssembler.Operation
import HackAssembler.Proofs.Allocation
import HackAssembler.Proofs.Cleaning
import HackAssembler.Proofs.Columns
import HackAssembler.Proofs.Composition
import HackAssembler.Proofs.Consistency
import HackAssembler.Proofs.Declarations
import HackAssembler.Proofs.Decoding
import HackAssembler.Proofs.Disassembly
import HackAssembler.Proofs.Encoding
import HackAssembler.Proofs.Fields
import HackAssembler.Proofs.FileTree
import HackAssembler.Proofs.Frozen
import HackAssembler.Proofs.Image
import HackAssembler.Proofs.Insertion
import HackAssembler.Proofs.Invariance
import HackAssembler.Proofs.Layout
import HackAssembler.Proofs.LifeCycle
import HackAssembler.Proofs.Limits
import HackAssembler.Proofs.LineEnds
import HackAssembler.Proofs.Listing
import HackAssembler.Proofs.Lists
import HackAssembler.Proofs.Meaning
import HackAssembler.Proofs.Naming
import HackAssembler.Proofs.Options
import HackAssembler.Proofs.Outcome
import HackAssembler.Proofs.Output
import HackAssembler.Proofs.OutputName
import HackAssembler.Proofs.Phrases
import HackAssembler.Proofs.Positions
import HackAssembler.Proofs.Printing
import HackAssembler.Proofs.Reading
import HackAssembler.Proofs.Relabelling
import HackAssembler.Proofs.Reports
import HackAssembler.Proofs.Session
import HackAssembler.Proofs.SourceFile
import HackAssembler.Proofs.Transition
import HackAssembler.Proofs.Translation
import HackAssembler.Proofs.UpperCase
import HackAssembler.Proofs.Utf8
import HackAssembler.Statement
import HackAssembler.Statement.Printer
import HackAssembler.Storage.Fault
import HackAssembler.Storage.FileTree
import HackAssembler.Storage.Path
import HackAssembler.Storage.SourceFile
import HackAssembler.SymbolTable.Basic
import HackAssembler.SymbolTable.Lemmas
import HackAssembler.SymbolTable.Listing
import HackAssembler.Text.Blank
import HackAssembler.Text.CodeRange
import HackAssembler.Text.DecimalDigit
import HackAssembler.Text.Newline
import HackAssembler.Text.Numeral
import HackAssembler.Text.Printable
import HackAssembler.Text.Quoted
import HackAssembler.Text.Split
import HackAssembler.Text.UpperCase
import HackAssembler.Text.Utf8
import HackAssembler.Word
