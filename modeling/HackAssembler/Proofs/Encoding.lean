import HackAssembler.Assembly.Image
import HackAssembler.Disassembly
import HackAssembler.Proofs.Lists

/-!
# What the word of a statement is

A word is told from the meaning of its bits: an address instruction is the number itself, and a
computation has a code in each of its fields. With it goes the list of everything that can be wrong
with a statement once the addresses of names are known. Encoding gives the one or the other.

## Main definitions

* `Statement.Encodes` — the word belongs to the statement.
* `Statement.fault?` — what is wrong with a statement.
* `Word.binaryValue` — the number that the digits of a word stand for.
-/

namespace HackAssembler

/-! ## Digits -/

namespace Word

/-- The number that a row of binary digits stands for, the highest first. -/
def binaryValue (digits : List Char) : Nat :=
  digits.foldl (fun n c => 2 * n + if c = '1' then 1 else 0) 0

theorem eq_zero_or_one_of_mem_digits {w : Word} {c : Char} (h : c ∈ w.digits) :
    c = '0' ∨ c = '1' := by
  obtain ⟨i, -, rfl⟩ := List.mem_map.1 h
  cases w.getMsbD i <;> simp [digit]

/-- The first digits of a word stand for its highest bits. -/
theorem binaryValue_take_digits (w : Word) (n : Nat) (hn : n ≤ 16) :
    binaryValue ((List.range n).map fun i => digit (w.getMsbD i)) = w.toNat >>> (16 - n) := by
  induction n with
  | zero =>
    have := w.isLt
    simp only [binaryValue, List.range_zero, List.map_nil, List.foldl_nil]
    rw [Nat.shiftRight_eq_div_pow]
    omega
  | succ n ih =>
    have hlsb : w.getMsbD n = decide (w.toNat >>> (15 - n) % 2 = 1) := by
      rw [BitVec.getMsbD_eq_getLsbD, BitVec.getLsbD, Nat.testBit_eq_decide_div_mod_eq,
        ← Nat.shiftRight_eq_div_pow]
      simp [show n < 16 by omega]
    have hbit : (if digit (w.getMsbD n) = '1' then 1 else 0) = w.toNat >>> (15 - n) % 2 := by
      rcases Nat.mod_two_eq_zero_or_one (w.toNat >>> (15 - n)) with h | h <;>
        simp [digit, hlsb, h]
    have hshift : w.toNat >>> (16 - n) = w.toNat >>> (15 - n) / 2 := by
      rw [show 16 - n = 15 - n + 1 by omega, Nat.shiftRight_succ]
    have hprev := ih (by omega)
    rw [binaryValue] at hprev ⊢
    rw [List.range_succ, List.map_append, List.foldl_append, hprev]
    simp only [List.map_cons, List.map_nil, List.foldl_cons, List.foldl_nil]
    rw [hbit, hshift, show 16 - (n + 1) = 15 - n by omega]
    omega

/-- A word is written as its binary number. -/
theorem binaryValue_digits (w : Word) : binaryValue w.digits = w.toNat := by
  rw [digits, binaryValue_take_digits w 16 (Nat.le_refl 16)]
  simp

end Word

/-! ## Statements -/

namespace Statement

/-- The word belongs to the statement, when names have these addresses. -/
inductive Encodes (address? : String → Option Int) : Statement → Word → Prop where
  | constant {value : Int} {w : Word} (bound : value ≤ 32767) (number : (w.toNat : Int) = value) :
      Encodes address? (.constant value) w
  | symbol {name : String} {allocates : Bool} {value : Int} {w : Word}
      (address : address? name = some value) (bound : value ≤ 32767)
      (number : (w.toNat : Int) = value) : Encodes address? (.symbol name allocates) w
  | compute {target jump : Option String} {computation : String} {w : Word}
      (opcode : w.opcode = 0b111#3)
      (code : (computation, w.computationField) ∈ Mnemonic.computations)
      (targetA : w.targetField.getLsbD 2 = (target.getD "").toList.contains 'A')
      (targetD : w.targetField.getLsbD 1 = (target.getD "").toList.contains 'D')
      (targetM : w.targetField.getLsbD 0 = (target.getD "").toList.contains 'M')
      (jumps : jump.elim (w.jumpField = 0) fun text => (text, w.jumpField) ∈ Mnemonic.jumps) :
      Encodes address? (.compute target computation jump) w

/-- The fault of a number that does not fit into an address instruction. -/
def rangeFault? (value : Int) : Option Fault :=
  if 32767 < value then some (.addressRange value) else none

/-- What is wrong with a computation; an unknown computation hides an unknown jump. -/
def computationFault? (computation : String) (jump : Option String) : Option Fault :=
  if computation ∉ Mnemonic.computations.map Prod.fst then some (.unknownComputation computation)
  else
    match jump with
    | none => none
    | some text => if text ∉ Mnemonic.jumps.map Prod.fst then some (.unknownJump text) else none

/-- What is wrong with a statement, when names have these addresses. -/
def fault? (address? : String → Option Int) : Statement → Option Fault
  | .constant value => rangeFault? value
  | .symbol name _ =>
    match address? name with
    | none => some (.undefinedSymbol name)
    | some value => rangeFault? value
  | .compute _ computation jump => computationFault? computation jump
  | .label _ | .reserve => none

end Statement

/-! ## Encoding -/

namespace Mnemonic

theorem computationCode_eq_ok_iff {text : String} {code : BitVec 7} :
    computationCode text = .ok code ↔ (text, code) ∈ computations := by
  rw [← lookup_eq_some_iff_mem (by decide), computationCode]
  cases computations.lookup text <;> simp

theorem jumpCode_eq_ok_iff {text : String} {code : BitVec 3} :
    jumpCode (some text) = .ok code ↔ (text, code) ∈ jumps := by
  rw [← lookup_eq_some_iff_mem (by decide), jumpCode]
  cases jumps.lookup text <;> simp

end Mnemonic

namespace Word

/-- An address that is not negative is encoded as itself, or it is too large. -/
theorem load_of_nonneg {value : Int} (h : 0 ≤ value) :
    (∃ w : Word, load value = .ok w ∧ value ≤ 32767 ∧ (w.toNat : Int) = value ∧
      Statement.rangeFault? value = none) ∨
    (load value = .error (.addressRange value) ∧
      Statement.rangeFault? value = some (.addressRange value)) := by
  by_cases hle : value ≤ 32767
  · refine .inl ⟨BitVec.ofInt 16 value, ?_, hle, ?_, ?_⟩
    · simp [load, maxAddress, h, hle]
    · rw [BitVec.toNat_ofInt]
      omega
    · simp [Statement.rangeFault?, hle]
  · refine .inr ⟨?_, ?_⟩
    · simp [load, maxAddress, hle]
    · simp [Statement.rangeFault?, Int.not_le.1 hle]

/-- The code of a target has one bit for each letter. -/
theorem getLsbD_targetCode (target : Option String) :
    (Mnemonic.targetCode target).getLsbD 2 = (target.getD "").toList.contains 'A' ∧
      (Mnemonic.targetCode target).getLsbD 1 = (target.getD "").toList.contains 'D' ∧
      (Mnemonic.targetCode target).getLsbD 0 = (target.getD "").toList.contains 'M' := by
  have bits : ∀ a d m : Bool,
      (BitVec.ofBool a ++ BitVec.ofBool d ++ BitVec.ofBool m).getLsbD 2 = a ∧
        (BitVec.ofBool a ++ BitVec.ofBool d ++ BitVec.ofBool m).getLsbD 1 = d ∧
        (BitVec.ofBool a ++ BitVec.ofBool d ++ BitVec.ofBool m).getLsbD 0 = m := by decide
  exact bits _ _ _

/-- The fields of a word are those that it was made of. -/
theorem encodes_ofFields (address? : String → Option Int) {target jump : Option String}
    {computation : String} {c : BitVec 7} {j : BitVec 3}
    (hc : (computation, c) ∈ Mnemonic.computations)
    (hj : jump.elim (j = 0) fun text => (text, j) ∈ Mnemonic.jumps) :
    Statement.Encodes address? (.compute target computation jump)
      (ofFields c (Mnemonic.targetCode target) j) := by
  obtain ⟨ha, hd, hm⟩ := getLsbD_targetCode target
  refine .compute (opcode_ofFields _ _ _) ?_ ?_ ?_ ?_ ?_
  · rwa [computationField_ofFields]
  · rwa [targetField_ofFields]
  · rwa [targetField_ofFields]
  · rwa [targetField_ofFields]
  · rwa [jumpField_ofFields]

/-- A computation is encoded in its fields, or one of its mnemonics is unknown. -/
theorem ofComputation_cases (address? : String → Option Int) (target : Option String)
    (computation : String) (jump : Option String) :
    (∃ w, ofComputation target computation jump = .ok w ∧
      Statement.Encodes address? (.compute target computation jump) w ∧
      Statement.computationFault? computation jump = none) ∨
    ∃ fault, ofComputation target computation jump = .error fault ∧
      Statement.computationFault? computation jump = some fault := by
  rw [ofComputation_eq]
  unfold Statement.computationFault? Mnemonic.computationCode
  cases hc : Mnemonic.computations.lookup computation with
  | none =>
    have hunknown := lookup_eq_none_iff_not_mem.1 hc
    exact .inr ⟨_, rfl, if_pos hunknown⟩
  | some c =>
    have hmem := (lookup_eq_some_iff_mem (by decide)).1 hc
    rw [if_neg (not_not.2 (List.mem_map_of_mem hmem))]
    cases jump with
    | none => exact .inl ⟨_, rfl, encodes_ofFields address? hmem rfl, rfl⟩
    | some text =>
      cases hj : Mnemonic.jumps.lookup text with
      | none =>
        have hunknown := lookup_eq_none_iff_not_mem.1 hj
        refine .inr ⟨.unknownJump text, ?_, if_pos hunknown⟩
        rw [Mnemonic.jumpCode, hj]
        rfl
      | some j =>
        have hjump := (lookup_eq_some_iff_mem (by decide)).1 hj
        refine .inl ⟨_, ?_, encodes_ofFields address? hmem hjump, ?_⟩
        · rw [Mnemonic.jumpCode, hj]
          rfl
        · exact if_neg (not_not.2 (List.mem_map_of_mem hjump))

end Word

namespace SymbolTable

theorem encode_eq_ok_iff {t : SymbolTable} {op : Operation} {word : Option Word} :
    t.encode op = .ok word ↔ t.code op = .ok word := by
  rw [encode]
  cases t.code op <;> simp [Except.mapError]

/-- **An operation that takes up an instruction gets the word of its statement or has a fault.**
Numbers and addresses must not be negative. -/
theorem code_cases {t : SymbolTable} {op : Operation}
    (hconstant : ∀ value, op.statement = .constant value → 0 ≤ value)
    (haddress : ∀ name value, t.address? name = some value → 0 ≤ value)
    (hlabel : op.isLabel = false) (hreserve : op.statement ≠ .reserve) :
    (∃ w, t.code op = .ok (some w) ∧ Statement.Encodes t.address? op.statement w ∧
      op.statement.fault? t.address? = none) ∨
    ∃ fault, t.code op = .error fault ∧ op.statement.fault? t.address? = some fault := by
  obtain ⟨statement, line⟩ := op
  cases statement with
  | label name => simp [Operation.isLabel] at hlabel
  | reserve => exact absurd rfl hreserve
  | constant value =>
    rcases Word.load_of_nonneg (hconstant value rfl) with
      ⟨w, hw, hle, hnumber, hfault⟩ | ⟨hw, hfault⟩
    · exact .inl ⟨w, by simp [code, hw, Except.map], .constant hle hnumber, hfault⟩
    · exact .inr ⟨.addressRange value, by simp [code, hw, Except.map], hfault⟩
  | symbol name allocates =>
    cases ha : t.address? name with
    | none =>
      refine .inr ⟨.undefinedSymbol name, ?_, ?_⟩
      · simp [code, lookup, ha, bind, Except.bind]
      · simp [Statement.fault?, ha]
    | some value =>
      rcases Word.load_of_nonneg (haddress name value ha) with
        ⟨w, hw, hle, hnumber, hfault⟩ | ⟨hw, hfault⟩
      · refine .inl ⟨w, ?_, .symbol ha hle hnumber, ?_⟩
        · simp [code, lookup, ha, hw, bind, Except.bind, pure, Except.pure]
        · simp [Statement.fault?, ha, hfault]
      · refine .inr ⟨.addressRange value, ?_, ?_⟩
        · simp [code, lookup, ha, hw, bind, Except.bind]
        · simp [Statement.fault?, ha, hfault]
  | compute target computation jump =>
    rcases Word.ofComputation_cases t.address? target computation jump with
      ⟨w, hw, hcodes, hfault⟩ | ⟨fault, hw, hfault⟩
    · exact .inl ⟨w, by simp [code, hw, Except.map], hcodes, hfault⟩
    · exact .inr ⟨fault, by simp [code, hw, Except.map], hfault⟩

end SymbolTable
end HackAssembler
