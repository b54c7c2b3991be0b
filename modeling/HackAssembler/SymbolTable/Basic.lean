import HackAssembler.Fault
import Std.Data.TreeMap

/-!
# The symbol table

A table binds names to addresses. It starts with the predefined names, takes labels and
variables until it is frozen, and keeps what was found to be wrong on the way. A bound name
keeps its address, with one exception: a variable becomes a label when the label is declared
after the variable was used. The slot of such a variable is not given out again.

Every operation returns the table next to its outcome, so that a refused operation can be seen
to leave the table as it was.
-/

namespace HackAssembler

/-! ## Bindings -/

/-- What a name stands for. -/
inductive Role where
  /-- A name of the machine. -/
  | predefined
  /-- The address of an instruction. -/
  | label
  /-- A slot of data memory. -/
  | slot
deriving DecidableEq, Repr

/-- A role and an address. -/
structure Binding where
  role : Role
  address : Int
deriving DecidableEq, Repr

/-- The names that every table starts with: sixteen registers, five of them again under a
second name, and the two memory maps. -/
def predefinedSymbols : List (String × Int) :=
  [("R0", 0), ("R1", 1), ("R2", 2), ("R3", 3), ("R4", 4), ("R5", 5), ("R6", 6), ("R7", 7),
    ("R8", 8), ("R9", 9), ("R10", 10), ("R11", 11), ("R12", 12), ("R13", 13), ("R14", 14),
    ("R15", 15), ("SP", 0), ("LCL", 1), ("ARG", 2), ("THIS", 3), ("THAT", 4),
    ("SCREEN", 16384), ("KBD", 24576)]

/-- The predefined names, in the order in which they are listed. -/
def predefinedNames : List String := predefinedSymbols.map (·.1)

/-- The first slot for a variable; the ones below belong to the registers. -/
def firstSlot : Int := 16

/-- Slots lie below this address. -/
def slotLimit : Int := 65536

/-! ## Tables -/

/-- What happened to a name, in the order in which it happened. -/
inductive Event where
  /-- A variable was given a slot. -/
  | slotGiven (name : String) (address : Int)
  /-- A variable turned out to be a label; its slot stays unused. -/
  | slotRetired (name : String) (address : Int)
  /-- A label was bound. -/
  | labelBound (name : String) (address : Int)
deriving DecidableEq, Repr

/-- The name that was given a slot, if the event is about that. -/
def Event.slot? : Event → Option String
  | .slotGiven name _ => some name
  | _ => none

/-- The name that was bound as a label, if the event is about that. -/
def Event.label? : Event → Option String
  | .labelBound name _ => some name
  | _ => none

/-- The state of name binding in one run. -/
structure SymbolTable where
  /-- All bound names. -/
  bindings : Std.TreeMap String Binding
  /-- The next slot to be given out. -/
  ram : Int
  /-- A frozen table binds no more names. -/
  frozen : Bool
  /-- The number of instructions, once all of them have been counted. -/
  programLength : Nat
  /-- How the bindings came about. -/
  history : Array Event
  /-- The references that could not be given a slot. -/
  errors : Array Diagnostic
  /-- The declarations that bound nothing. -/
  warnings : Array Warning

namespace SymbolTable

/-- The table that every run starts with. -/
def initial : SymbolTable where
  bindings := .ofList (predefinedSymbols.map fun (name, a) => (name, Binding.mk .predefined a))
  ram := firstSlot
  frozen := false
  programLength := 0
  history := #[]
  errors := #[]
  warnings := #[]

/-! ## Views -/

/-- What a name is bound to. -/
def binding? (t : SymbolTable) (name : String) : Option Binding := t.bindings[name]?

/-- The address of a name. -/
def address? (t : SymbolTable) (name : String) : Option Int := (t.binding? name).map (·.address)

/-- The name has an address. -/
def contains (t : SymbolTable) (name : String) : Bool := t.bindings.contains name

/-- The number of bound names, the predefined ones included. -/
def size (t : SymbolTable) : Nat := t.bindings.size

/-- The labels, in the order of their first declaration. -/
def labelNames (t : SymbolTable) : List String := t.history.toList.filterMap Event.label?

/-- The name is bound to a slot. -/
def isSlot (t : SymbolTable) (name : String) : Bool := (t.binding? name).any (·.role = .slot)

/-- The variables, in the order of their first use; those that turned out to be labels are
not among them. -/
def variableNames (t : SymbolTable) : List String :=
  (t.history.toList.filterMap Event.slot?).filter t.isSlot

/-- The bound ones among some names, each with its address. -/
def entries (t : SymbolTable) (names : List String) : List (String × Int) :=
  names.filterMap fun name => (t.address? name).map (name, ·)

/-! ## Operations -/

/-- The address of a name, or the fault that it has none. -/
def lookup (t : SymbolTable) (name : String) : Except Fault Int :=
  match t.address? name with
  | some address => .ok address
  | none => .error (.undefinedSymbol name)

/-- The table with the name as a label. -/
def bindLabel (t : SymbolTable) (name : String) (address : Int) : SymbolTable :=
  { t with
    bindings := t.bindings.insert name ⟨.label, address⟩
    history := t.history.push (.labelBound name address) }

/-- The table with a note that the slot of a variable is no longer used. -/
def retireSlot (t : SymbolTable) (name : String) (address : Int) : SymbolTable :=
  { t with history := t.history.push (.slotRetired name address) }

/-- Declares a label. The answer tells whether the name was bound by this declaration; a
predefined name or a label stays what it is. -/
def declare (t : SymbolTable) (name : String) (address : Int) : Except Fault Bool × SymbolTable :=
  if t.frozen then (.error (.frozenTable name), t)
  else
    match t.binding? name with
    | none => (.ok true, t.bindLabel name address)
    | some ⟨.slot, slot⟩ => (.ok true, (t.retireSlot name slot).bindLabel name address)
    | some _ => (.ok false, t)

/-- Declares a label at any address. A label that was bound is told with its address, and an
address that is too long for that is found out only then: the name stays bound. A layout counts
instructions, and their number is never that long. -/
def addLabel (t : SymbolTable) (name : String) (address : Int) :
    Except (Stop Fault) Bool × SymbolTable :=
  match t.declare name address with
  | (.error fault, t') => (.error (.fault fault), t')
  | (.ok true, t') => (if Text.Writable address then .ok true else .error .unwritable, t')
  | (.ok false, t') => (.ok false, t')

/-- The table with the next slot given to the name. -/
def giveSlot (t : SymbolTable) (name : String) : SymbolTable :=
  { t with
    bindings := t.bindings.insert name ⟨.slot, t.ram⟩
    ram := t.ram + 1
    history := t.history.push (.slotGiven name t.ram) }

/-- The address of a variable, which is given a slot unless its name is bound already. Slots lie
below `slotLimit`, so they are never too long to be told. -/
def allocate (t : SymbolTable) (name : String) : Except Fault Int × SymbolTable :=
  if t.frozen then (.error (.frozenTable name), t)
  else
    match t.binding? name with
    | some b => (.ok b.address, t)
    | none =>
      if slotLimit ≤ t.ram then (.error (.outOfRam name), t) else (.ok t.ram, t.giveSlot name)

/-- From here on the table binds no more names. -/
def freeze (t : SymbolTable) : SymbolTable := { t with frozen := true }

/-- Keeps a fault together with the line it comes from. -/
def recordError (t : SymbolTable) (fault : Fault) (line : Line) : SymbolTable :=
  { t with errors := t.errors.push ⟨fault, line⟩ }

/-- Keeps a warning about a declaration that bound nothing. -/
def recordWarning (t : SymbolTable) (name : String) (line : Line) : SymbolTable :=
  { t with warnings := t.warnings.push ⟨line, name⟩ }

end SymbolTable
end HackAssembler
