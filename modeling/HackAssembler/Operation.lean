import HackAssembler.Line
import HackAssembler.Statement

/-!
# Operations

An operation is a statement with the line that it was read from. A source text is a list of
operations, one for each line that says something.
-/

namespace HackAssembler

/-- A statement and the line it comes from. -/
structure Operation where
  statement : Statement
  line : Line
deriving DecidableEq, Repr

namespace Operation

/-- Reads one line. -/
def ofLine (line : Line) : Except Statement.Malformed Operation :=
  (Statement.ofText line.text).map (⟨·, line⟩)

/-- Reads the lines in order, up to the first that is malformed. -/
def ofLines (lines : List Line) : Except Statement.Malformed (List Operation) :=
  lines.mapM ofLine

/-- Reads a source text. -/
def ofSource (source : String) : Except Statement.Malformed (List Operation) :=
  ofLines (Line.ofSource source)

/-- A label declaration takes up no instruction; every other operation takes up one. -/
def isLabel (op : Operation) : Bool :=
  match op.statement with
  | .label _ => true
  | _ => false

/-- A number that the operation loads outright has a decimal text. -/
def Tellable (op : Operation) : Prop := ∀ value, op.statement = .constant value → Text.Writable value

instance : DecidablePred Tellable := fun op =>
  match h : op.statement with
  | .constant value =>
    decidable_of_iff (Text.Writable value)
      ⟨fun hw _ he => (Statement.constant.inj (h.symm.trans he)) ▸ hw, fun hall => hall value h⟩
  | .label _ | .symbol _ _ | .compute _ _ _ | .reserve =>
    .isTrue fun _ he => nomatch h.symm.trans he

end Operation
end HackAssembler
