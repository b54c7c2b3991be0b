import HackAssembler.Line
import HackAssembler.Text.Numeral

/-!
# Faults and reports

What can be wrong with an operation, and how it is told. A fault becomes a diagnostic once the
line that caused it is known. A name that is declared twice is only worth a warning.
-/

namespace HackAssembler

/-- What can go wrong with a single operation. -/
inductive Fault where
  /-- The symbol table accepts no more names. -/
  | frozenTable (name : String)
  /-- No slot is left for a variable. -/
  | outOfRam (name : String)
  /-- The name is bound to nothing. -/
  | undefinedSymbol (name : String)
  /-- The value does not fit into an address instruction. -/
  | addressRange (value : Int)
  /-- The computation has no code. -/
  | unknownComputation (text : String)
  /-- The jump has no code. -/
  | unknownJump (text : String)
deriving DecidableEq, Repr

/-- The largest value of an address instruction. -/
def maxAddress : Int := 32767

/-- The wording of a fault. -/
def Fault.message : Fault → String
  | .frozenTable name => "Symbol table is frozen; cannot bind [" ++ name ++ "]"
  | .outOfRam name => "Out of RAM (data) memory allocating [" ++ name ++ "]"
  | .undefinedSymbol name => "Undefined symbol [" ++ name ++ "]"
  | .addressRange value =>
    "@ value " ++ toString value ++ " out of 0.." ++ toString maxAddress ++ " range"
  | .unknownComputation text => "Unknown alu operation [" ++ text ++ "]"
  | .unknownJump text => "Unknown jump [" ++ text ++ "]"

/-- Why something comes to no result. -/
inductive Stop (ε : Type) where
  /-- There is something wrong with the program, and it is known what. -/
  | fault (cause : ε)
  /-- A number that had to be told has no decimal text. Nothing is done after that. -/
  | unwritable
deriving DecidableEq, Repr

/-- The fault can be put into words. -/
def Fault.Tellable : Fault → Prop
  | .addressRange value => Text.Writable value
  | _ => True

instance : DecidablePred Fault.Tellable
  | .addressRange value => inferInstanceAs (Decidable (Text.Writable value))
  | .frozenTable _ | .outOfRam _ | .undefinedSymbol _ | .unknownComputation _ | .unknownJump _ =>
    .isTrue trivial

/-- What comes of a fault once it has to be told. -/
def Stop.ofFault (fault : Fault) : Stop Fault :=
  if fault.Tellable then .fault fault else .unwritable

/-- A message, with the number of the line it is about if there is one. -/
def located (line : Option Line) (message : String) : String :=
  match line with
  | some l => "line " ++ toString l.number ++ ": " ++ message
  | none => message

/-- A fault and the line that caused it. -/
structure Diagnostic where
  fault : Fault
  line : Line
deriving DecidableEq, Repr

/-- A label declaration that binds nothing, because its name was taken. -/
structure Warning where
  line : Line
  name : String
deriving DecidableEq, Repr

/-- The wording of a warning. -/
def Warning.message (w : Warning) : String :=
  "Symbol [" ++ w.name ++ "] previously defined; first definition kept"

/-- Everything that was found to be wrong with a program. -/
structure Report where
  errors : List Diagnostic
  warnings : List Warning
deriving DecidableEq, Repr

/-- The report in one line, for so many errors. -/
def Report.headline (errorCount : Nat) : String :=
  "Assembly aborted -- " ++ toString errorCount ++ " error(s)"

end HackAssembler
