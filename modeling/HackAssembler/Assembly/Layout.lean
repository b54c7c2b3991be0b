import HackAssembler.Operation
import HackAssembler.SymbolTable.Basic

/-!
# Layout

The first pass gives every name its address. A label gets the number of instructions in front
of its declaration, a variable-style name that is not bound yet the next free slot. Nothing is
looked up before the whole program has been laid out, because a label may be used before it
is declared.
-/

namespace HackAssembler.SymbolTable

/-- Gives a slot to a variable-style name; if there is none, the fault is kept with the line. -/
def reference (t : SymbolTable) (name : String) (line : Line) : SymbolTable :=
  match t.allocate name with
  | (.ok _, t') => t'
  | (.error fault, t') => t'.recordError fault line

/-- Ends the layout of so many instructions. -/
def finish (t : SymbolTable) (count : Nat) : SymbolTable :=
  { t with programLength := count, frozen := true }

/-- Lays out the operations that follow the first `count` instructions. A label that the
table refuses ends the layout at once; a variable that it refuses does not. A label that is bound
can always be told, because its address counts instructions that are there. -/
def layoutFrom (count : Nat) (t : SymbolTable) : List Operation → Except Fault Unit × SymbolTable
  | [] => (.ok (), t.finish count)
  | op :: ops =>
    match op.statement with
    | .label name =>
      match t.declare name count with
      | (.ok true, t') => layoutFrom count t' ops
      | (.ok false, t') => layoutFrom count (t'.recordWarning name op.line) ops
      | (.error fault, t') => (.error fault, t')
    | .symbol name true => layoutFrom (count + 1) (t.reference name op.line) ops
    | _ => layoutFrom (count + 1) t ops

/-- Lays out a program in a table. -/
def layout (t : SymbolTable) (ops : List Operation) : Except Fault Unit × SymbolTable :=
  t.layoutFrom 0 ops

/-- The table of a program: its layout in the initial table, which refuses no label. -/
def ofProgram (ops : List Operation) : SymbolTable := (initial.layout ops).2

end HackAssembler.SymbolTable
