import HackAssembler.Assembly.Program
import HackAssembler.Storage.FileTree
import HackAssembler.SymbolTable.Listing
import HackAssembler.Text.Newline
import HackAssembler.Text.Utf8

/-!
# Assembling a file

The source is read from a tree of files and the program is written back to it. The output is
written only after the program is complete, so a run that fails leaves all files as they were.
-/

namespace HackAssembler

/-- Why a source file cannot be read. -/
inductive ReadFault where
  | storage (fault : StorageFault)
  | encoding (fault : Text.Utf8.Fault)
deriving DecidableEq, Repr

/-- The wording of a read fault. -/
def ReadFault.message (path : String) (fault : ReadFault) : String :=
  "Cannot read input file [" ++ path ++ "]: " ++
    match fault with
    | .storage f => f.message path
    | .encoding f => f.message

/-- Why there is no program in a file. -/
inductive FileFailure where
  /-- The source cannot be read. -/
  | unreadable (path : String) (fault : ReadFault)
  /-- The source cannot be assembled. -/
  | rejected (failure : Failure)
  /-- The symbols cannot be listed. -/
  | unlisted (unbound : Unbound)
  /-- A file cannot be opened: the output, or a source whose path is none. -/
  | unopened (path : String) (fault : StorageFault)
deriving DecidableEq, Repr

/-- The wording of a failure. -/
def FileFailure.message : FileFailure → String
  | .unreadable path fault => fault.message path
  | .rejected failure => failure.message
  | .unlisted unbound => unbound.message
  | .unopened path fault => fault.message path

/-- The failure of a run that could not read its source. That the text is no path is told as
it is; everything else is the fault of the input file. -/
def FileFailure.ofReadFault (path : String) : ReadFault → FileFailure
  | .storage .nullInPath => .unopened path .nullInPath
  | fault => .unreadable path fault

/-- The text that bytes of a source file spell, with its line ends made one. -/
def sourceText (bytes : List UInt8) : Except ReadFault String :=
  match Text.Utf8.decode bytes with
  | .error fault => .error (.encoding fault)
  | .ok cs => .ok (String.ofList (Text.unifyNewlines cs))

namespace FileTree

/-- The text of the source file at a path. -/
def readSource (tree : FileTree) (path : String) : Except ReadFault String :=
  match tree.read path with
  | .error fault => .error (.storage fault)
  | .ok bytes => sourceText bytes

/-- Writes a text as a whole file. -/
def writeText (tree : FileTree) (path text : String) : Except StorageFault FileTree :=
  tree.write path (Text.Utf8.encode text.toList)

end FileTree

/-- The program in a source that has been read, or not. -/
def Program.ofReading (path : String) (reading : Except ReadFault String) :
    Except FileFailure Program :=
  match reading with
  | .error fault => .error (.ofReadFault path fault)
  | .ok source => (Program.ofSource source).mapError .rejected

/-- What is left after a file was assembled. -/
structure FileRun where
  outcome : Except FileFailure (List Word)
  printed : String
  tree : FileTree

/-- The path of the output: the given one, unless there is none or it is empty. -/
def outputPath (path : String) (output : Option String) : String :=
  match output with
  | none | some "" => outputName path
  | some given => given

/-- Assembles the file at a path. With a terminal width, the symbols are listed; this happens
before the output is opened. -/
def assembleFile (tree : FileTree) (path : String) (width : Option Nat) (output : Option String) :
    FileRun :=
  match Program.ofReading path (tree.readSource path) with
  | .error failure => ⟨.error failure, "", tree⟩
  | .ok program =>
    match width.elim (.ok "") program.table.overview with
    | .error unbound => ⟨.error (.unlisted unbound), "", tree⟩
    | .ok printed =>
      let target := outputPath path output
      match tree.writeText target (Program.render program.words) with
      | .error fault => ⟨.error (.unopened target fault), printed, tree⟩
      | .ok tree' => ⟨.ok program.words, printed, tree'⟩

end HackAssembler
