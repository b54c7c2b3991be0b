import HackAssembler.Assembly.Image
import HackAssembler.Assembly.Layout

/-!
# The trace of a run

What happened while a source text was assembled, line by line: how many lines were kept, which
names were bound, and the word of every operation that has one. The trace is told from the
same table and the same words as the result, and has no influence on either.
-/

namespace HackAssembler

/-- How a binding is told. -/
def Event.message : Event → String
  | .slotGiven name address => "Variable " ++ name ++ " = " ++ toString address
  | .slotRetired name address =>
    "Variable " ++ name ++ " (" ++ toString address ++ ") is really a label"
  | .labelBound name address => "Label " ++ name ++ " = " ++ toString address

namespace Trace

/-- A line of the trace, after the part of the program that it comes from. -/
def note (source message : String) : String := "hackasm." ++ source ++ ": " ++ message

/-- What is told about the lines. -/
def ofLines (lines : List Line) : List String :=
  [note "lexer" ("Lexer kept " ++ toString lines.length ++ " instruction line(s)")]

/-- What is told about the layout that led to a table. -/
def ofLayout (t : SymbolTable) : List String :=
  note "assembler" "Pass 1" :: t.history.toList.map (fun e => note "symbols" e.message) ++
    [note "resolver"
      ("Pass 1 done: " ++ toString t.programLength ++ " instruction(s), " ++
        toString t.labelNames.length ++ " label(s), " ++
        toString t.variableNames.length ++ " variable(s)")]

/-- What is told about the words of the operations. -/
def ofImage (t : SymbolTable) (ops : List Operation) : List String :=
  note "assembler" "Pass 2" ::
    (t.words ops).map fun (word, op) => note "encoder" (word.render ++ "\t" ++ op.line.text)

/-- What is told about a source text. A text that cannot be read is not laid out. -/
def ofSource (source : String) : List String :=
  let lines := Line.ofSource source
  match Operation.ofLines lines with
  | .error _ => ofLines lines
  | .ok ops =>
    let table := SymbolTable.ofProgram ops
    ofLines lines ++ ofLayout table ++ ofImage table ops

end Trace
end HackAssembler
