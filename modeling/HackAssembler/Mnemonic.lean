import HackAssembler.Fault
import HackAssembler.Word

/-!
# Mnemonics and their codes

A computation instruction is the word `111 acccccc ddd jjj`: seven bits for the computation,
one bit for each register of the target and three bits for the jump. The bit `a` tells whether
the computation reads memory; both spellings of such a computation share the other six bits.

The word is made by adding up what its parts contribute. That the parts do not overlap, so that
the sum is the word with these fields, is shown in the last section.

## Main statements

* `Mnemonic.computationSum_eq`, `Mnemonic.targetSum_eq` — a contribution is a code, moved to its
  place in the word.
* `Word.ofComputation_eq` — the word of a computation is put together from the codes of its parts.
-/

namespace HackAssembler.Mnemonic

/-! ## Contributions to a word -/

/-- What every computation instruction starts from. -/
def template : Nat := 0b1110000000000000

/-- The bit `a`: the computation reads memory. -/
def memoryFlag : Nat := 0b0001000000000000

/-- The computations and their bits `cccccc`, moved past those of the target and the jump. -/
def opcodes : List (String × Nat) :=
  [("0", 0b101010000000), ("1", 0b111111000000), ("-1", 0b111010000000),
    ("D", 0b001100000000), ("A", 0b110000000000), ("M", 0b110000000000),
    ("!D", 0b001101000000), ("!A", 0b110001000000), ("!M", 0b110001000000),
    ("-D", 0b001111000000), ("-A", 0b110011000000), ("-M", 0b110011000000),
    ("D+1", 0b011111000000), ("A+1", 0b110111000000), ("M+1", 0b110111000000),
    ("D-1", 0b001110000000), ("A-1", 0b110010000000), ("M-1", 0b110010000000),
    ("D+A", 0b000010000000), ("D+M", 0b000010000000),
    ("D-A", 0b010011000000), ("D-M", 0b010011000000),
    ("A-D", 0b000111000000), ("M-D", 0b000111000000),
    ("D&A", 0b000000000000), ("D&M", 0b000000000000),
    ("D|A", 0b010101000000), ("D|M", 0b010101000000)]

/-- The registers and their bits in a target, moved past those of the jump. -/
def registerBits : List (Char × Nat) := [('A', 0b100000), ('D', 0b010000), ('M', 0b001000)]

/-- The jumps and their codes `jjj`; the code 000 means that there is none. -/
def jumps : List (String × BitVec 3) :=
  [("JGT", 0b001#3), ("JEQ", 0b010#3), ("JGE", 0b011#3), ("JLT", 0b100#3), ("JNE", 0b101#3),
    ("JLE", 0b110#3), ("JMP", 0b111#3)]

/-- The flag of a computation: an `M` in its text reads memory. -/
def flagOf (text : String) : Nat := if text.toList.contains 'M' then memoryFlag else 0

/-- What a computation contributes. -/
def computationSum (text : String) : Except Fault Nat :=
  match opcodes.lookup text with
  | some bits => .ok (flagOf text + bits)
  | none => .error (.unknownComputation text)

/-- What a target contributes: the bit of each register that occurs in it. Order, repetition
and any other character make no difference. -/
def targetSum (target : Option String) : Nat :=
  match target with
  | none => 0
  | some text =>
    (registerBits.filter fun r => text.toList.contains r.1).foldl (fun sum r => sum + r.2) 0

/-- The code of a jump, which is also what it contributes. -/
def jumpCode (jump : Option String) : Except Fault (BitVec 3) :=
  match jump with
  | none => .ok 0
  | some text =>
    match jumps.lookup text with
    | some code => .ok code
    | none => .error (.unknownJump text)

end HackAssembler.Mnemonic

namespace HackAssembler.Word

/-! ## Words of instructions -/

/-- The word that loads an address. -/
def load (value : Int) : Except Fault Word :=
  if 0 ≤ value ∧ value ≤ maxAddress then .ok (BitVec.ofInt 16 value)
  else .error (.addressRange value)

/-- The word that loads an address, or what is told about a value that does not fit. -/
def ofAddress (value : Int) : Except (Stop Fault) Word := (load value).mapError .ofFault

/-- The word of a computation, as a sum; an unknown computation is found before an unknown
jump. -/
def ofComputation (target : Option String) (computation : String) (jump : Option String) :
    Except Fault Word := do
  let c ← Mnemonic.computationSum computation
  let j ← Mnemonic.jumpCode jump
  return BitVec.ofNat 16 (Mnemonic.template + c + Mnemonic.targetSum target + j.toNat)

/-- The word with the fields of a computation instruction. -/
def ofFields (computation : BitVec 7) (target jump : BitVec 3) : Word :=
  0b111#3 ++ computation ++ target ++ jump

/-- The bits that a computation contributes to a word. -/
def computationBits (computation : BitVec 7) : Word := 0#3 ++ computation ++ 0#6

/-- The bits that a target contributes to a word. -/
def targetBits (target : BitVec 3) : Word := 0#10 ++ target ++ 0#3

/-- The bits that a jump contributes to a word. -/
def jumpBits (jump : BitVec 3) : Word := 0#13 ++ jump

end HackAssembler.Word

namespace HackAssembler.Mnemonic

/-! ## Codes -/

/-- The computations and their codes `acccccc`. -/
def computations : List (String × BitVec 7) :=
  [("0", 0b0101010#7), ("1", 0b0111111#7), ("-1", 0b0111010#7),
    ("D", 0b0001100#7), ("A", 0b0110000#7), ("M", 0b1110000#7),
    ("!D", 0b0001101#7), ("!A", 0b0110001#7), ("!M", 0b1110001#7),
    ("-D", 0b0001111#7), ("-A", 0b0110011#7), ("-M", 0b1110011#7),
    ("D+1", 0b0011111#7), ("A+1", 0b0110111#7), ("M+1", 0b1110111#7),
    ("D-1", 0b0001110#7), ("A-1", 0b0110010#7), ("M-1", 0b1110010#7),
    ("D+A", 0b0000010#7), ("D+M", 0b1000010#7), ("D-A", 0b0010011#7), ("D-M", 0b1010011#7),
    ("A-D", 0b0000111#7), ("M-D", 0b1000111#7), ("D&A", 0b0000000#7), ("D&M", 0b1000000#7),
    ("D|A", 0b0010101#7), ("D|M", 0b1010101#7)]

/-- The code of a computation. -/
def computationCode (text : String) : Except Fault (BitVec 7) :=
  match computations.lookup text with
  | some code => .ok code
  | none => .error (.unknownComputation text)

/-- The code of a target: a bit for each of A, D and M that occurs in it. -/
def targetCode (target : Option String) : BitVec 3 :=
  let letters := (target.getD "").toList
  BitVec.ofBool (letters.contains 'A') ++ BitVec.ofBool (letters.contains 'D') ++
    BitVec.ofBool (letters.contains 'M')

/-! ## Sums and codes -/

/-- The codes are the sums without the six bits below them, which are clear. -/
theorem computations_eq_map : computations =
    opcodes.map fun r => (r.1, BitVec.ofNat 7 ((flagOf r.1 + r.2) / 64)) := by decide

/-- No sum has a bit outside the seven places of the code. -/
theorem sum_eq_of_mem_opcodes :
    ∀ r ∈ opcodes, flagOf r.1 + r.2 = (flagOf r.1 + r.2) / 64 % 128 * 64 := by decide

/-- A computation contributes its code, moved to its place. -/
theorem computationSum_eq (text : String) :
    computationSum text = (computationCode text).map fun c => c.toNat * 64 := by
  have hlookup : ∀ rows : List (String × Nat),
      (rows.map fun r => (r.1, BitVec.ofNat 7 ((flagOf r.1 + r.2) / 64))).lookup text =
        (rows.lookup text).map fun bits => BitVec.ofNat 7 ((flagOf text + bits) / 64) := by
    intro rows
    induction rows with
    | nil => rfl
    | cons r rows ih =>
      rw [List.map_cons, List.lookup_cons, List.lookup_cons, ih]
      cases h : text == r.1 with
      | false => rfl
      | true => simp [eq_of_beq h]
  rw [computationSum, computationCode, computations_eq_map, hlookup]
  cases h : opcodes.lookup text with
  | none => rfl
  | some bits =>
    obtain ⟨before, after, hrows, -⟩ := List.lookup_eq_some_iff.1 h
    have hsum := sum_eq_of_mem_opcodes (text, bits) (by simp [hrows])
    simpa [Except.map] using hsum

/-- A target contributes its code, moved to its place. -/
theorem targetSum_eq (target : Option String) :
    targetSum target = (targetCode target).toNat * 8 := by
  cases target with
  | none => decide
  | some text =>
    simp only [targetSum, targetCode, registerBits, Option.getD_some, List.filter_cons,
      List.filter_nil]
    cases text.toList.contains 'A' <;> cases text.toList.contains 'D' <;>
      cases text.toList.contains 'M' <;> rfl

end HackAssembler.Mnemonic

namespace HackAssembler.Word

/-- Two numbers side by side. -/
theorem toNat_append_eq {m n : Nat} (x : BitVec m) (y : BitVec n) :
    (x ++ y).toNat = x.toNat <<< n + y.toNat := by
  rw [BitVec.toNat_append, Nat.shiftLeft_add_eq_or_of_lt y.isLt]

/-- Nothing is carried when codes are added up at their places. -/
theorem ofNat_sum_eq_ofFields (c : BitVec 7) (t j : BitVec 3) :
    BitVec.ofNat 16 (Mnemonic.template + c.toNat * 64 + t.toNat * 8 + j.toNat) =
      ofFields c t j := by
  apply BitVec.eq_of_toNat_eq
  have hc := c.isLt
  have ht := t.isLt
  have hj := j.isLt
  simp only [ofFields, toNat_append_eq, BitVec.toNat_ofNat, Nat.shiftLeft_eq, Mnemonic.template]
  omega

/-- **The word of a computation is put together from the codes of its parts.** -/
theorem ofComputation_eq (target : Option String) (computation : String) (jump : Option String) :
    ofComputation target computation jump = (do
      let c ← Mnemonic.computationCode computation
      let j ← Mnemonic.jumpCode jump
      return ofFields c (Mnemonic.targetCode target) j) := by
  rw [ofComputation, Mnemonic.computationSum_eq, Mnemonic.targetSum_eq]
  cases Mnemonic.computationCode computation with
  | error fault => rfl
  | ok c =>
    cases Mnemonic.jumpCode jump with
    | error fault => rfl
    | ok j => exact congrArg Except.ok (ofNat_sum_eq_ofFields c _ j)

end HackAssembler.Word
