import HackAssembler.Operation
import HackAssembler.SymbolTable.Basic

/-!
# What names mean

The address of every name of a program, told from the program as a whole and without a table:
a predefined name has its own address, a declared name the number of instructions in front of
its first declaration, and any other variable the slot that its first use asks for. A variable
that is declared as a label later on still uses up a slot.

## Main definitions

* `Naming.declaredAt?` — where a name is declared first.
* `Naming.slotNames` — the names that ask for a slot, in order.
* `Naming.address?` — the address of a name.
-/

namespace HackAssembler.Naming

/-- The operation declares the name. -/
def declares (name : String) (op : Operation) : Bool := op.statement = .label name

/-- The operation asks for a slot for the name, unless the name has an address. -/
def asksFor (name : String) (op : Operation) : Bool := op.statement = .symbol name true

/-- The number of instructions among some operations. -/
def instructionCount (ops : List Operation) : Nat := ops.countP fun op => !op.isLabel

/-- The address of the first declaration of a name. -/
def declaredAt? (ops : List Operation) (name : String) : Option Nat :=
  (ops.findIdx? (declares name)).map fun i => instructionCount (ops.take i)

/-- The name that an operation has to be given a slot for: it is not predefined, and no earlier
operation declares it or asks for it. -/
def newSlot? (earlier : List Operation) (op : Operation) : Option String :=
  match op.statement with
  | .symbol name true =>
    if name ∈ predefinedNames ∨ earlier.any (fun e => declares name e || asksFor name e) then none
    else some name
  | _ => none

/-- The names that are given slots, in order. -/
def slotNames (ops : List Operation) : List String :=
  ops.zipIdx.filterMap fun (op, i) => newSlot? (ops.take i) op

/-- The number of slots there are. -/
def slotCount : Nat := (slotLimit - firstSlot).toNat

/-- The slot of a name, if it is among those that there are slots for. -/
def slotOf? (ops : List Operation) (name : String) : Option Int :=
  (((slotNames ops).take slotCount).idxOf? name).map fun (k : Nat) => firstSlot + k

/-- The address of a name in a program. -/
def address? (ops : List Operation) (name : String) : Option Int :=
  predefinedSymbols.lookup name <|> (declaredAt? ops name).map Int.ofNat <|> slotOf? ops name

end HackAssembler.Naming
