import HackAssembler.Mnemonic
import HackAssembler.Operation
import HackAssembler.SymbolTable.Basic

/-!
# The image of a program

The second pass gives every operation but the labels its word. All operations are tried, so
that one report holds every fault of a program; an operation whose line was already found
faulty by the layout is left out. There is an image only if nothing is wrong.

A fault is told as soon as it is found. One that cannot be told ends the pass, and then there is
neither an image nor a report.

## Main definitions

* `SymbolTable.code`, `SymbolTable.verdict` — the word of an operation and the words of a program,
  or what is wrong with them.
* `SymbolTable.encode`, `SymbolTable.image` — the same, with everything told that was found.
-/

namespace HackAssembler.SymbolTable

/-! ## What is found -/

/-- The word of an operation, if it has one. -/
def code (t : SymbolTable) (op : Operation) : Except Fault (Option Word) :=
  match op.statement with
  | .constant value => (Word.load value).map some
  | .symbol name _ => do return some (← Word.load (← t.lookup name))
  | .compute target computation jump => (Word.ofComputation target computation jump).map some
  | .label _ | .reserve => .ok none

/-- The operations whose lines the layout did not find faulty. -/
def sound (t : SymbolTable) (ops : List Operation) : List Operation :=
  let faulty := t.errors.toList.map (·.line)
  ops.filter fun op => !faulty.contains op.line

/-- The words of those operations that have one, each with its operation. -/
def words (t : SymbolTable) (ops : List Operation) : List (Word × Operation) :=
  (t.sound ops).filterMap fun op =>
    match t.code op with
    | .ok (some w) => some (w, op)
    | _ => none

/-- The faults of the operations, each with its line. -/
def faults (t : SymbolTable) (ops : List Operation) : List Diagnostic :=
  (t.sound ops).filterMap fun op =>
    match t.code op with
    | .error fault => some ⟨fault, op.line⟩
    | .ok _ => none

/-- Diagnostics by line number; those of one line keep their order. -/
def byLine (errors : List Diagnostic) : List Diagnostic :=
  errors.mergeSort fun a b => a.line.number ≤ b.line.number

/-- The words of a program, or a report of all that is wrong with it: first what the layout
found, then what the operations themselves show, brought into the order of the lines. -/
def verdict (t : SymbolTable) (ops : List Operation) : Except Report (List Word) :=
  match t.errors.toList ++ t.faults ops with
  | [] => .ok ((t.words ops).map (·.1))
  | errors => .error ⟨byLine errors, t.warnings.toList⟩

/-! ## What is told -/

/-- The word of an operation, if it has one, or what is told about its fault. -/
def encode (t : SymbolTable) (op : Operation) : Except (Stop Fault) (Option Word) :=
  (t.code op).mapError .ofFault

/-- Every fault of the operations can be told. -/
def Tells (t : SymbolTable) (ops : List Operation) : Prop := ∀ d ∈ t.faults ops, d.fault.Tellable

instance (t : SymbolTable) (ops : List Operation) : Decidable (t.Tells ops) :=
  inferInstanceAs (Decidable (∀ d ∈ t.faults ops, d.fault.Tellable))

/-- The words of a program, or a report of all that is wrong with it, provided that every fault
can be told. -/
def image (t : SymbolTable) (ops : List Operation) : Except (Stop Report) (List Word) :=
  if t.Tells ops then (t.verdict ops).mapError .fault else .error .unwritable

end HackAssembler.SymbolTable
