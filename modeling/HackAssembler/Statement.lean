import HackAssembler.Text.Numeral
import HackAssembler.Text.Split
import HackAssembler.Text.UpperCase

/-!
# Statements

What a cleaned line of source says: it declares a label, it loads an address (a number or a
name), or it computes. The first character decides which. Fields are cut out of the text
without judging them; whether a name is bound or a mnemonic known is found out later.
-/

namespace HackAssembler

/-- A statement of the language. -/
inductive Statement where
  /-- Declares the name as the address of the next instruction. -/
  | label (name : String)
  /-- Loads a number. -/
  | constant (value : Int)
  /-- Loads the address of a name; `allocates` tells whether the name may be given a slot. -/
  | symbol (name : String) (allocates : Bool)
  /-- Computes, stores the result in the target and jumps. -/
  | compute (target : Option String) (computation : String) (jump : Option String)
  /-- Takes the place of one instruction and gives no word. -/
  | reserve
deriving DecidableEq, Repr

namespace Statement

/-! ## Kinds -/

/-- The kinds of statement that source text can hold. -/
inductive Kind where
  | label
  | constant
  | symbol
  | compute
deriving DecidableEq, Repr

/-- A number is written with the ten digits of ASCII and at least one of them. -/
def isNumber (cs : List Char) : Bool := !cs.isEmpty && cs.all Char.isDigit

/-- A name is variable-style when upper-casing changes it. Names without a lower-case letter
are label-style and are never given a slot. -/
def isVariable (name : String) : Bool := Text.upper name != name

/-- The kind of a statement, by its first character; an empty text has none. -/
def kind? : List Char → Option Kind
  | [] => none
  | '(' :: _ => some .label
  | '@' :: cs => some (if isNumber cs then .constant else .symbol)
  | _ => some .compute

/-! ## Fields -/

/-- The name in a label declaration: what stands after the first opening parenthesis and
before the last closing one. Without an opening parenthesis it starts at the front; without a
closing one it lacks the last character. -/
def labelName (cs : List Char) : List Char :=
  let stop := (Text.beforeLast? ')' cs).getD cs.dropLast
  let start := ((cs.findIdx? (· = '(')).map (· + 1)).getD 0
  stop.drop start

/-- The fields of a computation. The target ends at the first `=`; the jump starts after the
first `;` of what follows the target. -/
structure Fields where
  target : Option (List Char)
  computation : List Char
  jump : Option (List Char)
deriving DecidableEq, Repr

/-- Cuts the jump off. -/
def Fields.ofRest (target : Option (List Char)) (cs : List Char) : Fields :=
  match Text.splitFirst? ';' cs with
  | some (computation, jump) => ⟨target, computation, some jump⟩
  | none => ⟨target, cs, none⟩

/-- Cuts a computation into its fields. -/
def Fields.ofText (cs : List Char) : Fields :=
  match Text.splitFirst? '=' cs with
  | some (target, rest) => Fields.ofRest (some target) rest
  | none => Fields.ofRest none cs

/-- The statement with these fields. -/
def Fields.toStatement (f : Fields) : Statement :=
  .compute (f.target.map String.ofList) (String.ofList f.computation) (f.jump.map String.ofList)

/-! ## Reading -/

/-- Why a text is no statement at all. -/
inductive Malformed where
  /-- There is nothing to read. -/
  | empty
  /-- The number has more digits than are accepted. -/
  | tooManyDigits (count : Nat)
deriving DecidableEq, Repr

/-- What is reported to the caller. -/
def Malformed.message : Malformed → String
  | .empty => "string index out of range"
  | .tooManyDigits count =>
    "Exceeds the limit (" ++ toString Text.maxDigits ++ " digits) for integer string conversion: " ++
      "value has " ++ toString count ++
      " digits; use sys.set_int_max_str_digits() to increase the limit"

/-- The value of a row of digits. -/
def digitsValue (cs : List Char) : Nat := cs.foldl (fun n c => 10 * n + (c.toNat - 48)) 0

/-- Reads a number; leading zeros count as digits. -/
def readConstant (cs : List Char) : Except Malformed Statement :=
  if Text.maxDigits < cs.length then .error (.tooManyDigits cs.length)
  else .ok (.constant (digitsValue cs))

/-- Reads the text of a line as a statement. -/
def ofText (text : String) : Except Malformed Statement :=
  let cs := text.toList
  match kind? cs with
  | none => .error .empty
  | some .label => .ok (.label (String.ofList (labelName cs)))
  | some .constant => readConstant cs.tail
  | some .symbol =>
    let name := String.ofList cs.tail
    .ok (.symbol name (isVariable name))
  | some .compute => .ok (Fields.ofText cs).toStatement

end Statement
end HackAssembler
