import HackAssembler.Proofs.Translation

/-!
# One word for each meaning

A word is made by adding up what the fields of a computation contribute. The fields do not overlap,
so nothing is carried from one to the next, and each of them can be told from the word again: the
computation and the jump by their mnemonics, the target by the registers it names. Two operations
that mean something different never have the same word.

## Main definitions

* `Mnemonic.Targets` — the target names a register.
* `Word.Tells` — what the bits of a word tell about a computation.
* `SymbolTable.Shows` — what the word of a statement tells about it.
* `Statement.Meaning`, `SymbolTable.meaning?` — what is left of a statement in its word.
-/

namespace HackAssembler

/-! ## Codes -/

namespace Mnemonic

/-- The register is named in the target, at any place and any number of times. -/
def Targets (target : Option String) (register : Char) : Prop :=
  ∃ text ∈ target, register ∈ text.toList

/-- The registers that a target names. -/
def registers (target : Option String) : List Char :=
  ['A', 'D', 'M'].filter fun register => (target.getD "").toList.contains register

theorem contains_iff_targets (target : Option String) (register : Char) :
    (target.getD "").toList.contains register = true ↔ Targets target register := by
  cases target <;> simp [Targets]

/-- The code of a computation belongs to no other of the 28 computations. -/
theorem mem_computations_iff {text computation : String} {code : BitVec 7}
    (h : computationCode computation = .ok code) :
    (text, code) ∈ computations ↔ text = computation :=
  mem_iff_eq_of_nodup_values (by decide) (computationCode_eq_ok_iff.1 h)

theorem jumps_ne_zero : ∀ entry ∈ jumps, entry.2 ≠ 0 := by decide

/-- The code of a jump belongs to no other jump. -/
theorem mem_jumps_iff {text : String} {jump : Option String} {code : BitVec 3}
    (h : jumpCode jump = .ok code) : (text, code) ∈ jumps ↔ jump = some text := by
  cases jump with
  | none =>
    obtain rfl : 0 = code := by simpa [jumpCode] using h
    constructor
    · intro htext
      exact absurd rfl (jumps_ne_zero _ htext)
    · intro hnone
      cases hnone
  | some other =>
    have hmem : (other, code) ∈ jumps := jumpCode_eq_ok_iff.1 h
    rw [mem_iff_eq_of_nodup_values (by decide) hmem, Option.some_inj, eq_comm]

/-- The code 000 tells that there is no jump. -/
theorem eq_zero_iff_of_jumpCode {jump : Option String} {code : BitVec 3}
    (h : jumpCode jump = .ok code) : code = 0 ↔ jump = none := by
  cases jump with
  | none =>
    obtain rfl : 0 = code := by simpa [jumpCode] using h
    simp
  | some text => simpa using jumps_ne_zero _ (jumpCode_eq_ok_iff.1 h)

/-- The registers of two targets are the same when each is named in both or in none. -/
theorem registers_eq_iff {target target' : Option String} :
    registers target = registers target' ↔
      ∀ register ∈ ['A', 'D', 'M'], (Targets target register ↔ Targets target' register) := by
  constructor
  · intro h register hregister
    have hmem : register ∈ registers target ↔ register ∈ registers target' := by rw [h]
    simpa only [registers, List.mem_filter, hregister, true_and, contains_iff_targets] using hmem
  · intro h
    apply List.filter_congr
    intro register hregister
    rw [Bool.eq_iff_iff, contains_iff_targets, contains_iff_targets]
    exact h register hregister

/-- Targets that name the same registers have the same code. -/
theorem targetCode_eq_of_registers {target target' : Option String}
    (h : registers target = registers target') : targetCode target = targetCode target' := by
  have hcontains : ∀ register ∈ ['A', 'D', 'M'], (target.getD "").toList.contains register =
      (target'.getD "").toList.contains register := by
    intro register hregister
    rw [Bool.eq_iff_iff, contains_iff_targets, contains_iff_targets]
    exact registers_eq_iff.1 h register hregister
  rw [targetCode, targetCode, hcontains 'A' (by decide), hcontains 'D' (by decide),
    hcontains 'M' (by decide)]

end Mnemonic

/-! ## Words -/

namespace Word
variable {w w' : Word} {target target' : Option String} {computation computation' : String}
  {jump jump' : Option String}

/-- What the bits of a word tell about the computation that it was made from. -/
structure Tells (w : Word) (target : Option String) (computation : String)
    (jump : Option String) : Prop where
  /-- The word is the sum of its parts, with nothing cut off at the top. -/
  sum : ∃ c j, Mnemonic.computationCode computation = .ok c ∧ Mnemonic.jumpCode jump = .ok j ∧
    w.toNat = 0b1110000000000000 + (computationBits c).toNat +
      (targetBits (Mnemonic.targetCode target)).toNat + (jumpBits j).toNat
  range : w.toNat ≤ 65535
  opcode : w.opcode = 0b111#3
  /-- The seven bits below belong to this computation and to no other. -/
  computes : ∀ text, (text, w.computationField) ∈ Mnemonic.computations ↔ text = computation
  targetA : w.getLsbD 5 = true ↔ Mnemonic.Targets target 'A'
  targetD : w.getLsbD 4 = true ↔ Mnemonic.Targets target 'D'
  targetM : w.getLsbD 3 = true ↔ Mnemonic.Targets target 'M'
  /-- The lowest three bits belong to this jump and to no other. -/
  jumps : ∀ text, (text, w.jumpField) ∈ Mnemonic.jumps ↔ jump = some text
  goesOn : w.jumpField = 0 ↔ jump = none

/-- Putting fields side by side is adding up their bits. -/
theorem toNat_ofFields (c : BitVec 7) (t j : BitVec 3) :
    (ofFields c t j).toNat = 0b1110000000000000 + (computationBits c).toNat +
      (targetBits t).toNat + (jumpBits j).toNat := by
  simp only [ofFields, computationBits, targetBits, jumpBits, toNat_append_eq, BitVec.toNat_ofNat,
    Nat.shiftLeft_eq]
  omega

theorem ofComputation_eq_ok_iff : ofComputation target computation jump = .ok w ↔
    ∃ c j, Mnemonic.computationCode computation = .ok c ∧ Mnemonic.jumpCode jump = .ok j ∧
      ofFields c (Mnemonic.targetCode target) j = w := by
  rw [ofComputation_eq]
  cases Mnemonic.computationCode computation with
  | error fault => simp [bind, Except.bind]
  | ok c =>
    cases Mnemonic.jumpCode jump with
    | error fault => simp [bind, Except.bind]
    | ok j => simp [bind, Except.bind, pure, Except.pure]

theorem getLsbD_eq_targetField (w : Word) : w.getLsbD 5 = w.targetField.getLsbD 2 ∧
    w.getLsbD 4 = w.targetField.getLsbD 1 ∧ w.getLsbD 3 = w.targetField.getLsbD 0 := by
  simp [targetField]

/-- **The word of a computation tells the computation**, up to the spelling of its target. -/
theorem tells_of_ofComputation (h : ofComputation target computation jump = .ok w) :
    w.Tells target computation jump := by
  obtain ⟨c, j, hc, hj, rfl⟩ := ofComputation_eq_ok_iff.1 h
  obtain ⟨hA, hD, hM⟩ := getLsbD_eq_targetField (ofFields c (Mnemonic.targetCode target) j)
  obtain ⟨hcodeA, hcodeD, hcodeM⟩ := getLsbD_targetCode target
  rw [targetField_ofFields] at hA hD hM
  refine ⟨⟨c, j, hc, hj, toNat_ofFields c _ j⟩, ?_, opcode_ofFields c _ j, ?_, ?_, ?_, ?_, ?_, ?_⟩
  · exact Nat.le_of_lt_succ (BitVec.isLt _)
  · intro text
    rw [computationField_ofFields]
    exact Mnemonic.mem_computations_iff hc
  · rw [hA, hcodeA, Mnemonic.contains_iff_targets]
  · rw [hD, hcodeD, Mnemonic.contains_iff_targets]
  · rw [hM, hcodeM, Mnemonic.contains_iff_targets]
  · intro text
    rw [jumpField_ofFields]
    exact Mnemonic.mem_jumps_iff hj
  · rw [jumpField_ofFields]
    exact Mnemonic.eq_zero_iff_of_jumpCode hj

/-- **Computations share a word when they differ in nothing but the spelling of their targets.** -/
theorem Tells.eq_iff (h : w.Tells target computation jump)
    (h' : w'.Tells target' computation' jump') :
    w = w' ↔ computation = computation' ∧
      Mnemonic.registers target = Mnemonic.registers target' ∧ jump = jump' := by
  constructor
  · rintro rfl
    refine ⟨?_, ?_, ?_⟩
    · exact (h'.computes computation).1 ((h.computes computation).2 rfl)
    · rw [Mnemonic.registers_eq_iff, List.forall_mem_cons, List.forall_mem_cons,
        List.forall_mem_singleton]
      exact ⟨h.targetA.symm.trans h'.targetA, h.targetD.symm.trans h'.targetD,
        h.targetM.symm.trans h'.targetM⟩
    · refine Option.ext fun text => ?_
      rw [← h.jumps text, ← h'.jumps text]
  · rintro ⟨rfl, hregisters, rfl⟩
    obtain ⟨c, j, hc, hj, hsum⟩ := h.sum
    obtain ⟨c', j', hc', hj', hsum'⟩ := h'.sum
    rw [hc, Except.ok.injEq] at hc'
    rw [hj, Except.ok.injEq] at hj'
    apply BitVec.eq_of_toNat_eq
    rw [hsum, hsum', hc', hj', Mnemonic.targetCode_eq_of_registers hregisters]

/-- A number is the word of itself if it has at most fifteen bits. -/
theorem load_eq_ok_iff {value : Int} :
    load value = .ok w ↔ 0 ≤ value ∧ value ≤ 32767 ∧ (w.toNat : Int) = value := by
  rw [load]
  by_cases hfits : 0 ≤ value ∧ value ≤ maxAddress
  · rw [if_pos hfits, Except.ok.injEq]
    obtain ⟨hnonneg, hle⟩ := hfits
    rw [maxAddress] at hle
    have hnumber : ((BitVec.ofInt 16 value).toNat : Int) = value := by
      rw [BitVec.toNat_ofInt]
      omega
    constructor
    · rintro rfl
      exact ⟨hnonneg, hle, hnumber⟩
    · rintro ⟨-, -, hw⟩
      apply BitVec.eq_of_toNat_eq
      omega
  · rw [if_neg hfits]
    constructor
    · intro h
      cases h
    · rintro ⟨hnonneg, hle, -⟩
      exact absurd ⟨hnonneg, hle⟩ hfits

/-- No word is an address and a computation. -/
theorem Tells.toNat_ne (h : w.Tells target computation jump) {value : Int}
    (hvalue : value ≤ 32767) : (w.toNat : Int) ≠ value := by
  obtain ⟨c, j, -, -, hsum⟩ := h.sum
  omega

/-! ## Digits -/

/-- The binary notation of a number with one more place ends in its lowest digit. -/
theorem leftpad_toDigits_succ (places n : Nat) (h : 0 < places) :
    (Nat.toDigits 2 n).leftpad (places + 1) '0' =
      (Nat.toDigits 2 (n / 2)).leftpad places '0' ++ [Nat.digitChar (n % 2)] := by
  by_cases hsmall : n < 2
  · have hhalf : n / 2 = 0 := by omega
    have hrest : n % 2 = n := by omega
    obtain ⟨k, rfl⟩ : ∃ k, places = k + 1 := ⟨places - 1, by omega⟩
    rw [Nat.toDigits_of_lt_base hsmall, hhalf, hrest, Nat.toDigits_of_lt_base (by omega)]
    simp [List.leftpad, Nat.digitChar, List.replicate_succ']
  · rw [Nat.toDigits_of_base_le (by omega) (Nat.not_lt.1 hsmall)]
    simp [List.leftpad]

/-- The first digits of a word are the binary notation of its highest bits. -/
theorem take_digits_eq_leftpad (w : Word) (n : Nat) (hn : n < 16) :
    ((List.range (n + 1)).map fun i => digit (w.getMsbD i)) =
      (Nat.toDigits 2 (w.toNat >>> (15 - n))).leftpad (n + 1) '0' := by
  have hlast (n : Nat) (hn : n < 16) :
      digit (w.getMsbD n) = Nat.digitChar (w.toNat >>> (15 - n) % 2) := by
    rw [BitVec.getMsbD_eq_getLsbD, BitVec.getLsbD, Nat.testBit_eq_decide_div_mod_eq,
      ← Nat.shiftRight_eq_div_pow]
    rcases Nat.mod_two_eq_zero_or_one (w.toNat >>> (15 - n)) with h | h <;>
      simp [digit, Nat.digitChar, hn, h]
  induction n with
  | zero =>
    have hbit : w.toNat >>> 15 < 2 := by
      rw [Nat.shiftRight_eq_div_pow]
      omega
    rw [Nat.toDigits_of_lt_base hbit]
    simpa [Nat.mod_eq_of_lt hbit] using hlast 0 (by omega)
  | succ n ih =>
    have hshift : w.toNat >>> (15 - n) = w.toNat >>> (15 - (n + 1)) / 2 := by
      rw [show 15 - n = 15 - (n + 1) + 1 by omega, Nat.shiftRight_succ]
    rw [List.range_succ, List.map_append, ih (by omega), List.map_singleton, hlast (n + 1) hn,
      leftpad_toDigits_succ (n + 1) _ (by omega), hshift]

/-- **A word is written in binary notation**, with zeros in front up to sixteen places. -/
theorem toList_render_eq_leftpad (w : Word) :
    w.render.toList = (Nat.toDigits 2 w.toNat).leftpad 16 '0' := by
  rw [toList_render, digits, take_digits_eq_leftpad w 15 (by omega)]
  rfl

end Word

/-! ## Statements -/

/-- What a word can tell about a statement. -/
inductive Statement.Meaning where
  /-- The statement loads an address. -/
  | address (value : Int)
  /-- The statement computes, stores the result in registers and jumps. -/
  | computation (text : String) (registers : List Char) (jump : Option String)
deriving DecidableEq, Repr

namespace SymbolTable
open Statement (Meaning)
variable {t t' : SymbolTable} {op op' : Operation} {w w' : Word}

/-- The meaning of a statement, if it has a word. The name that an address is written with and the
spelling of a target are no part of it. -/
def meaning? (t : SymbolTable) : Statement → Option Meaning
  | .constant value => some (.address value)
  | .symbol name _ => (t.address? name).map .address
  | .compute target computation jump =>
    some (.computation computation (Mnemonic.registers target) jump)
  | .label _ | .reserve => none

/-- What the word of a statement tells about it. -/
def Shows (t : SymbolTable) (w : Word) : Statement → Prop
  | .constant value => 0 ≤ value ∧ value ≤ 32767 ∧ (w.toNat : Int) = value
  | .symbol name _ => ∃ value, t.lookup name = .ok value ∧
      0 ≤ value ∧ value ≤ 32767 ∧ (w.toNat : Int) = value
  | .compute target computation jump => w.Tells target computation jump
  | .label _ | .reserve => False

theorem lookup_eq_ok_iff {name : String} {value : Int} :
    t.lookup name = .ok value ↔ t.address? name = some value := by
  rw [lookup]
  cases t.address? name <;> simp

theorem shows_of_code (h : t.code op = .ok (some w)) : t.Shows w op.statement := by
  obtain ⟨statement, line⟩ := op
  cases statement with
  | label name => simp [code] at h
  | reserve => simp [code] at h
  | constant value =>
    cases hw : Word.load value with
    | error fault => simp [code, hw, Except.map] at h
    | ok v =>
      obtain rfl : v = w := by simpa [code, hw, Except.map] using h
      exact Word.load_eq_ok_iff.1 hw
  | symbol name allocates =>
    cases hlookup : t.lookup name with
    | error fault => simp [code, hlookup, bind, Except.bind] at h
    | ok value =>
      cases hw : Word.load value with
      | error fault => simp [code, hlookup, hw, bind, Except.bind] at h
      | ok v =>
        obtain rfl : v = w := by
          simpa [code, hlookup, hw, bind, Except.bind, pure, Except.pure] using h
        exact ⟨value, hlookup, Word.load_eq_ok_iff.1 hw⟩
  | compute target computation jump =>
    cases hw : Word.ofComputation target computation jump with
    | error fault => simp [code, hw, Except.map] at h
    | ok v =>
      obtain rfl : v = w := by simpa [code, hw, Except.map] using h
      exact Word.tells_of_ofComputation hw

theorem code_of_shows (h : t.Shows w op.statement) : t.code op = .ok (some w) := by
  obtain ⟨statement, line⟩ := op
  cases statement with
  | label | reserve => exact h.elim
  | constant value =>
    have hw : Word.load value = .ok w := Word.load_eq_ok_iff.2 h
    simp [code, hw, Except.map]
  | symbol name allocates =>
    obtain ⟨value, hlookup, hfits⟩ := h
    have hw : Word.load value = .ok w := Word.load_eq_ok_iff.2 hfits
    simp [code, hlookup, hw, bind, Except.bind, pure, Except.pure]
  | compute target computation jump =>
    obtain ⟨c, j, hc, hj, hsum⟩ := Word.Tells.sum h
    have hfields : Word.ofFields c (Mnemonic.targetCode target) j = w :=
      BitVec.eq_of_toNat_eq ((Word.toNat_ofFields c _ j).trans hsum.symm)
    have hw : Word.ofComputation target computation jump = .ok w :=
      Word.ofComputation_eq_ok_iff.2 ⟨c, j, hc, hj, hfields⟩
    simp [code, hw, Except.map]

/-- A word shows an address or a computation. -/
theorem Shows.cases {s : Statement} (h : t.Shows w s) :
    (∃ value, t.meaning? s = some (.address value) ∧ value ≤ 32767 ∧ (w.toNat : Int) = value) ∨
    ∃ target computation jump, t.meaning? s =
        some (.computation computation (Mnemonic.registers target) jump) ∧
      w.Tells target computation jump := by
  cases s with
  | label | reserve => exact h.elim
  | constant value => exact .inl ⟨value, rfl, h.2⟩
  | symbol name allocates =>
    obtain ⟨value, hlookup, -, hfits⟩ := h
    exact .inl ⟨value, by rw [meaning?, lookup_eq_ok_iff.1 hlookup, Option.map_some], hfits⟩
  | compute target computation jump => exact .inr ⟨target, computation, jump, rfl, h⟩

/-- What a word shows is one meaning, and no other word shows it. -/
theorem Shows.eq_iff {s s' : Statement} (h : t.Shows w s) (h' : t'.Shows w' s') :
    w = w' ↔ t.meaning? s = t'.meaning? s' := by
  rcases h.cases with ⟨value, hs, hle, hnumber⟩ | ⟨target, computation, jump, hs, htells⟩ <;>
    rcases h'.cases with
      ⟨value', hs', hle', hnumber'⟩ | ⟨target', computation', jump', hs', htells'⟩
  · rw [hs, hs', Option.some_inj, Meaning.address.injEq, ← hnumber, ← hnumber', Int.natCast_inj]
    exact BitVec.toNat_inj.symm
  · rw [hs, hs']
    constructor
    · rintro rfl
      exact absurd hnumber (htells'.toNat_ne hle)
    · intro hsame
      cases hsame
  · rw [hs, hs']
    constructor
    · rintro rfl
      exact absurd hnumber' (htells.toNat_ne hle')
    · intro hsame
      cases hsame
  · rw [hs, hs', Option.some_inj, Meaning.computation.injEq]
    exact htells.eq_iff htells'

/-- **One word for each meaning.** An operation has the word that tells its computation, registers
and jump, or its address. Two operations, in whatever tables, have the same word when they have the
same meaning, so never an address and a computation. A word is written as its number in sixteen
binary digits. -/
theorem encode_unambiguous :
    (∀ (t : SymbolTable) (op : Operation) (w : Word),
      t.encode op = .ok (some w) ↔ t.Shows w op.statement) ∧
    (∀ (t t' : SymbolTable) (op op' : Operation) (w w' : Word),
      t.encode op = .ok (some w) → t'.encode op' = .ok (some w') →
      (w = w' ↔ t.meaning? op.statement = t'.meaning? op'.statement)) ∧
    ∀ w : Word, w.render.length = 16 ∧
      w.render.toList = (Nat.toDigits 2 w.toNat).leftpad 16 '0' ∧
      Word.binaryValue w.render.toList = w.toNat := by
  refine ⟨?_, ?_, ?_⟩
  · intro t op w
    rw [encode_eq_ok_iff]
    exact ⟨shows_of_code, code_of_shows⟩
  · intro t t' op op' w w' h h'
    rw [encode_eq_ok_iff] at h h'
    exact (shows_of_code h).eq_iff (shows_of_code h')
  · intro w
    obtain ⟨hlength, -, hvalue⟩ := w.render_spec
    exact ⟨hlength, w.toList_render_eq_leftpad, hvalue⟩

/-- A target may be spelled in any way, but not left out, and a number is no computation. -/
theorem encode_unambiguous_spelling :
    let op : Operation := ⟨.compute (some "MAx A") "M-1" (some "JNE"), default⟩
    let same : Operation := ⟨.compute (some "AM") "M-1" (some "JNE"), default⟩
    let other : Operation := ⟨.compute none "M-1" (some "JNE"), default⟩
    let number : Operation := ⟨.constant 32767, default⟩
    let w : Word := 0b1111110010101101#16
    initial.encode op = .ok (some w) ∧ initial.encode same = .ok (some w) ∧
      w.Tells (some "MAx A") "M-1" (some "JNE") ∧
      initial.meaning? op.statement = initial.meaning? same.statement ∧
      initial.meaning? op.statement ≠ initial.meaning? other.statement ∧
      initial.meaning? op.statement ≠ initial.meaning? number.statement := by
  intro op same other number w
  have hop : initial.encode op = .ok (some w) := rfl
  have hsame : initial.encode same = .ok (some w) := rfl
  have hother : initial.encode other = .ok (some 0b1111110010000101#16) := rfl
  have hnumber : initial.encode number = .ok (some 0b0111111111111111#16) := rfl
  obtain ⟨hshows, hiff, -⟩ := encode_unambiguous
  refine ⟨hop, hsame, (hshows _ _ _).1 hop, (hiff _ _ _ _ _ _ hop hsame).1 rfl, ?_, ?_⟩
  · rw [ne_eq, ← hiff _ _ _ _ _ _ hop hother]
    decide
  · rw [ne_eq, ← hiff _ _ _ _ _ _ hop hnumber]
    decide

end SymbolTable
end HackAssembler
