import HackAssembler.Assembly.Trace
import HackAssembler.CommandLine.Options
import HackAssembler.Storage.SourceFile

/-!
# A run of the command

What the command prints, writes and answers. The source is read once and the output written
once, at the end; what lies between is a plan that depends on the text of the source alone.

## Main definitions

* `plan` — what to do about a source that has been read, or not.
* `run` — a whole run on a tree of files.
-/

namespace HackAssembler.CommandLine

/-- The first line of help and of every complaint. -/
def usageLine : String := "usage: hackasm [-h] [-s] [-d] filename\n"

/-- The help text. -/
def helpText : String :=
  usageLine ++
    "\nAssembles HACK programs\n\npositional arguments:\n" ++
    "  filename       The HACK .asm file to be assembled\n\noptions:\n" ++
    "  -h, --help     show this help message and exit\n" ++
    "  -s, --symbols  prints helpful symbol tables\n" ++
    "  -d, --debug    logs each pass to stderr\n\n" ++
    "Results are stored in a .hack file with the same name as the .asm file\n"

/-- The complaint about a wrong command line. -/
def usageText (message : String) : String := usageLine ++ "hackasm: error: " ++ message ++ "\n"

/-! ## Reports -/

/-- A message about a line, with the line below it. -/
def reportLine (label : String) (line : Line) (message : String) : String :=
  label ++ " in line " ++ toString line.number ++ ": " ++ message ++ "\n\t" ++
    String.ofList (Text.trim line.raw.toList) ++ "\n"

/-- A diagnostic as it is printed. -/
def errorText (d : Diagnostic) : String := reportLine "Error" d.line d.fault.message

/-- A warning as it is printed. -/
def warningText (w : Warning) : String := reportLine "Warning" w.line w.message

/-- All warnings, in order. -/
def warningsText (warnings : List Warning) : String := String.join (warnings.map warningText)

/-- A report as it is printed: the errors, the warnings, and how many there are of each. -/
def reportText (report : Report) : String :=
  String.join (report.errors.map errorText) ++ warningsText report.warnings ++
    "Assembly aborted -- " ++ toString report.errors.length ++ " error(s) and " ++
    toString report.warnings.length ++ " warning(s) detected.\n"

/-- What is printed after the program has been written. -/
def summaryText (table : SymbolTable) (output : String) : String :=
  "Program length: " ++ toString table.programLength ++ " (of " ++ toString romSize ++ ", " ++
    toString (table.programLength * 100 / romSize) ++ "%), RAM usage: " ++ toString table.ram ++
    "\nAssembly successful - results written to " ++ output ++ "\n"

/-! ## Plans -/

/-- How a run ends. -/
inductive Ending where
  /-- With an exit code. -/
  | exit (code : Nat)
  /-- With a failure that the command does not report. -/
  | escaped (failure : FileFailure)
deriving DecidableEq, Repr

/-- What is left to do. -/
inductive Action where
  /-- Nothing. -/
  | stop (ending : Ending)
  /-- Write the file, and print the rest if that went well. -/
  | write (path contents closing : String)
deriving DecidableEq, Repr

/-- What is printed at once, what is logged, and what is left to do. -/
structure Plan where
  printed : String
  logged : String
  action : Action
deriving DecidableEq, Repr

/-- What to print and do about a program or a failure. Numbers with too many digits, read or to be
told, texts that are no path and symbols that cannot be listed are not reported but escape. -/
def planProgram (options : Options) (width : Nat) (logged : String) :
    Except FileFailure Program → Plan
  | .error (.rejected (.aborted report)) => ⟨reportText report, logged, .stop (.exit 1)⟩
  | .error (.rejected (.malformed cause)) =>
    ⟨"", logged, .stop (.escaped (.rejected (.malformed cause)))⟩
  | .error (.rejected .unwritable) => ⟨"", logged, .stop (.escaped (.rejected .unwritable))⟩
  | .error (.unopened path fault) => ⟨"", logged, .stop (.escaped (.unopened path fault))⟩
  | .error failure => ⟨"Error: " ++ failure.message ++ "\n", logged, .stop (.exit 1)⟩
  | .ok program =>
    let output := outputName options.file
    let warnings := warningsText program.table.warnings.toList
    match if options.symbols then program.table.overview width else .ok "" with
    | .error unbound => ⟨warnings, logged, .stop (.escaped (.unlisted unbound))⟩
    | .ok listing =>
      ⟨warnings ++ listing, logged,
        .write output (Program.render program.words) (summaryText program.table output)⟩

/-- The trace of a source that has been read, if it is asked for. -/
def loggedText (options : Options) : Except ReadFault String → String
  | .ok source => if options.debug then unlines (Trace.ofSource source) else ""
  | .error _ => ""

/-- What to do about a source that has been read, or not. -/
def plan (options : Options) (width : Nat) (reading : Except ReadFault String) : Plan :=
  planProgram options width (loggedText options reading) (Program.ofReading options.file reading)

/-! ## Sessions -/

/-- What a run leaves behind. -/
structure Session where
  ending : Ending
  printed : String
  logged : String
  tree : FileTree

/-- Carries out a plan. -/
def Plan.perform (p : Plan) (tree : FileTree) : Session :=
  match p.action with
  | .stop ending => ⟨ending, p.printed, p.logged, tree⟩
  | .write path contents closing =>
    match tree.writeText path contents with
    | .error fault => ⟨.escaped (.unopened path fault), p.printed, p.logged, tree⟩
    | .ok tree' => ⟨.exit 0, p.printed ++ closing, p.logged, tree'⟩

/-- Runs the command with these words on a tree of files, for a terminal of this width. -/
def run (words : List String) (width : Nat) (tree : FileTree) : Session :=
  match Request.ofWords words with
  | .help => ⟨.exit 0, helpText, "", tree⟩
  | .usage message => ⟨.exit 2, "", usageText message, tree⟩
  | .assemble options => (plan options width (tree.readSource options.file)).perform tree

end HackAssembler.CommandLine
