import HackAssembler.Mnemonic

/-!
# Disassembly

The source text of a word. A word with a clear highest bit loads an address; a word that starts
with three set bits computes, provided that its code belongs to a computation. No other word is
an instruction.
-/

namespace HackAssembler.Word

/-- The code of the computation, bits 12 to 6. -/
def computationField (w : Word) : BitVec 7 := w.extractLsb' 6 7

/-- The code of the target, bits 5 to 3. -/
def targetField (w : Word) : BitVec 3 := w.extractLsb' 3 3

/-- The code of the jump, bits 2 to 0. -/
def jumpField (w : Word) : BitVec 3 := w.extractLsb' 0 3

/-- The three highest bits, all set in a computation. -/
def opcode (w : Word) : BitVec 3 := w.extractLsb' 13 3

@[simp] theorem computationField_ofFields (c : BitVec 7) (t j : BitVec 3) :
    (ofFields c t j).computationField = c := by
  ext i hi
  simp only [ofFields, computationField, BitVec.getElem_extractLsb', BitVec.getLsbD_append]
  grind

@[simp] theorem targetField_ofFields (c : BitVec 7) (t j : BitVec 3) :
    (ofFields c t j).targetField = t := by
  ext i hi
  simp only [ofFields, targetField, BitVec.getElem_extractLsb', BitVec.getLsbD_append]
  grind

@[simp] theorem jumpField_ofFields (c : BitVec 7) (t j : BitVec 3) :
    (ofFields c t j).jumpField = j := by
  ext i hi
  simp only [ofFields, jumpField, BitVec.getElem_extractLsb', BitVec.getLsbD_append]
  grind

@[simp] theorem opcode_ofFields (c : BitVec 7) (t j : BitVec 3) :
    (ofFields c t j).opcode = 0b111#3 := by
  ext i hi
  simp only [ofFields, opcode, BitVec.getElem_extractLsb', BitVec.getLsbD_append]
  grind

/-- The word is an instruction. -/
def IsInstruction (w : Word) : Prop :=
  w.msb = false ∨ w.opcode = 0b111#3 ∧ w.computationField ∈ Mnemonic.computations.map (·.2)

instance (w : Word) : Decidable w.IsInstruction := by unfold IsInstruction; infer_instance

end HackAssembler.Word

namespace HackAssembler.Mnemonic

/-- The computation with a code. -/
def computationOf? (code : BitVec 7) : Option String :=
  (computations.find? (·.2 = code)).map (·.1)

/-- The jump with a code; the code 000 belongs to none. -/
def jumpOf? (code : BitVec 3) : Option String := (jumps.find? (·.2 = code)).map (·.1)

/-- The letters of a target, in the order A, D, M. -/
def targetLetters (code : BitVec 3) : String :=
  (if code.getLsbD 2 then "A" else "") ++ (if code.getLsbD 1 then "D" else "") ++
    (if code.getLsbD 0 then "M" else "")

end HackAssembler.Mnemonic

namespace HackAssembler.Word

/-- The text of a computation. A target without letters and a jump that never happens are
left out. -/
def computationText (w : Word) (computation : String) : String :=
  (if w.targetField = 0 then "" else Mnemonic.targetLetters w.targetField ++ "=") ++ computation ++
    (Mnemonic.jumpOf? w.jumpField).elim "" (";" ++ ·)

/-- The source text of a word, if it is an instruction. -/
def disassemble? (w : Word) : Option String :=
  if w.msb = false then some ("@" ++ toString w.toNat)
  else if w.opcode = 0b111#3 then
    (Mnemonic.computationOf? w.computationField).map w.computationText
  else none

end HackAssembler.Word
