import HackAssembler.Assembly.Image
import HackAssembler.Assembly.Layout

/-!
# Programs

Source text in, words out: the text is read, laid out and encoded, and the result has to fit
into the memory of the machine.
-/

namespace HackAssembler

/-- The most words a program may have. -/
def romSize : Nat := 32768

/-- Why there is no program. -/
inductive Failure where
  /-- A line cannot be read at all; nothing else is looked at. -/
  | malformed (cause : Statement.Malformed)
  /-- Some operations are faulty. -/
  | aborted (report : Report)
  /-- The program has more words than the machine holds. -/
  | tooLarge (count : Nat)
  /-- A fault cannot be told, because its number has no decimal text. -/
  | unwritable
deriving DecidableEq, Repr

/-- The wording of a failure. -/
def Failure.message : Failure → String
  | .malformed cause => cause.message
  | .aborted report => Report.headline report.errors.length
  | .tooLarge count =>
    "Program too large! (" ++ toString count ++ " of " ++ toString romSize ++ " words)"
  | .unwritable => Text.unwritableMessage

/-- An assembled program. -/
structure Program where
  words : List Word
  table : SymbolTable

namespace Program

/-- The program with these words, if there are any and the machine holds them. -/
def ofVerdict (table : SymbolTable) : Except Report (List Word) → Except Failure Program
  | .error report => .error (.aborted report)
  | .ok words =>
    if romSize < words.length then .error (.tooLarge words.length) else .ok ⟨words, table⟩

/-- Assembles operations, with a table of their own. The addresses in such a table count slots
and instructions that are there, so of all numbers only a constant can be too long to be told. -/
def ofOperations (ops : List Operation) : Except Failure Program :=
  let table := SymbolTable.ofProgram ops
  if ∀ op ∈ table.sound ops, op.Tellable then ofVerdict table (table.verdict ops)
  else .error .unwritable

theorem ofOperations_of_tellable {ops : List Operation} (h : ∀ op ∈ ops, op.Tellable) :
    ofOperations ops = ofVerdict (.ofProgram ops) ((SymbolTable.ofProgram ops).verdict ops) :=
  if_pos fun op hop => h op (List.mem_filter.1 hop).1

/-- Assembles source text. -/
def ofSource (source : String) : Except Failure Program :=
  match Operation.ofSource source with
  | .error cause => .error (.malformed cause)
  | .ok ops => ofOperations ops

/-- The text of a program: one word to a line. -/
def render (words : List Word) : String := String.join (words.map fun w => w.render ++ "\n")

end Program

/-- The words of a source text. -/
def assemble (source : String) : Except Failure (List Word) :=
  (Program.ofSource source).map (·.words)

end HackAssembler
