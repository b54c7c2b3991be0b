import HackAssembler.Proofs.Outcome
import HackAssembler.Proofs.Printing

/-!
# Assembling undoes disassembling

The text of an instruction word is read as a statement that has this word whatever the names of a
program stand for. So the lines of a disassembled program are assembled to the words they came
from, as long as these fit into the memory, and every assembled word can be disassembled.

## Main definitions

* `Statement.Spells` — the statement has the word in every program.
* `Word.target?` — the target of a computation word as a field of a statement.
-/

namespace HackAssembler

/-- The statement has this word whatever names stand for, and it asks for none. -/
structure Statement.Spells (s : Statement) (w : Word) : Prop where
  code : ∀ (t : SymbolTable) (line : Line), t.code ⟨s, line⟩ = .ok (some w)
  nameless : ∀ name allocates, s ≠ .symbol name allocates

/-! ## Mnemonics -/

namespace Mnemonic

/-- The characters that computations are written with. -/
def alphabet : List Char := "01ADMJGTEQLNP=;+-!&|".toList

/-- None of these characters is lost on a line or starts another kind of statement. -/
theorem of_mem_alphabet (c : Char) (h : c ∈ alphabet) :
    Text.isBlank c = false ∧ c ≠ '/' ∧ c ≠ '(' ∧ c ≠ '@' := by
  have hall : (alphabet.all fun c =>
      !Text.isBlank c && c != '/' && c != '(' && c != '@') = true := by decide
  simpa [and_assoc] using List.all_eq_true.1 hall c h

theorem spelling_computations : ∀ entry ∈ computations,
    entry.1 ≠ "" ∧ '=' ∉ entry.1.toList ∧ ';' ∉ entry.1.toList ∧ entry.1.toList ⊆ alphabet := by
  decide

theorem spelling_targetLetters : ∀ code : BitVec 3,
    '=' ∉ (targetLetters code).toList ∧ (targetLetters code).toList ⊆ alphabet := by decide

theorem spelling_jumpOf? : ∀ code : BitVec 3, ∀ text ∈ jumpOf? code,
    '=' ∉ text.toList ∧ text.toList ⊆ alphabet := by decide

/-- Every code of a computation has a mnemonic. -/
theorem exists_computationOf? {code : BitVec 7} (h : code ∈ computations.map (·.2)) :
    ∃ text, computationOf? code = some text ∧ (text, code) ∈ computations := by
  obtain ⟨entry, hentry, rfl⟩ := List.mem_map.1 h
  have hsome : (computations.find? (·.2 = entry.2)).isSome := by
    rw [List.find?_isSome]
    exact ⟨entry, hentry, by simp⟩
  obtain ⟨found, hfound⟩ := Option.isSome_iff_exists.1 hsome
  have hcode : found.2 = entry.2 := by simpa using List.find?_some hfound
  refine ⟨found.1, by simp [computationOf?, hfound], ?_⟩
  rw [← hcode]
  exact List.mem_of_find?_eq_some hfound

theorem jumpCode_jumpOf? : ∀ code : BitVec 3, jumpCode (jumpOf? code) = .ok code := by decide

end Mnemonic

/-! ## Words -/

namespace Word
variable {w : Word}

/-- The target of a computation word; there is none without a letter. -/
def target? (w : Word) : Option String :=
  if w.targetField = 0 then none else some (Mnemonic.targetLetters w.targetField)

theorem targetCode_target? (w : Word) : Mnemonic.targetCode w.target? = w.targetField := by
  have hcode : ∀ code : BitVec 3, Mnemonic.targetCode
      (if code = 0 then none else some (Mnemonic.targetLetters code)) = code := by decide
  exact hcode w.targetField

/-- A computation word is made of its fields. -/
theorem ofFields_fields (h : w.opcode = 0b111#3) :
    ofFields w.computationField w.targetField w.jumpField = w := by
  apply BitVec.eq_of_getLsbD_eq
  intro i hi
  rw [ofFields, ← h]
  simp only [opcode, computationField, targetField, jumpField, BitVec.getLsbD_append,
    BitVec.getLsbD_extractLsb']
  grind

theorem computationText_eq (w : Word) (computation : String) :
    w.computationText computation =
      Statement.render (.compute w.target? computation (Mnemonic.jumpOf? w.jumpField)) := by
  rw [computationText, Statement.render, target?]
  split <;> rfl

/-! ## The text of a word -/

/-- **The text of an address word is read as the number itself.** -/
theorem spells_address (h : w.msb = false) :
    Line.Plain ("@" ++ toString w.toNat) ∧
      Statement.ofText ("@" ++ toString w.toNat) = .ok (.constant w.toNat) ∧
      (Statement.constant w.toNat).Spells w := by
  have hbound : w.toNat < 32768 := BitVec.toNat_lt_of_msb_false h
  have hdigits : (toString w.toNat).toList = Nat.toDigits 10 w.toNat := by
    rw [Nat.toString_eq_ofList_toDigits, String.toList_ofList]
  refine ⟨?_, Statement.ofText_toString ?_, ?_, by simp⟩
  · refine .of_forall (by simp [← String.toList_inj]) ?_
    intro c hc
    rw [String.toList_append, List.mem_append, hdigits] at hc
    rcases hc with hat | hdigit
    · obtain rfl : c = '@' := by simpa using hat
      decide
    · exact Text.of_isDigit (Nat.isDigit_of_mem_toDigits (by omega) (by omega) hdigit)
  · have hlength : (Nat.toDigits 10 w.toNat).length ≤ 5 :=
      (Nat.length_toDigits_le_iff (by omega) (by omega)).2 (by omega)
    rw [← String.length_toList, hdigits, Text.maxDigits]
    omega
  · intro t line
    have hfits : (0 : Int) ≤ w.toNat ∧ (w.toNat : Int) ≤ maxAddress := by
      rw [maxAddress]
      omega
    simp only [SymbolTable.code, load, hfits, and_self, if_true, Except.map]
    simp

/-- The fields of a computation word can be told apart in its text. -/
theorem separable_fields (w : Word) {computation : String}
    (hcode : (computation, w.computationField) ∈ Mnemonic.computations) :
    Statement.Separable w.target? computation (Mnemonic.jumpOf? w.jumpField) := by
  obtain ⟨-, hequals, hsemicolon, -⟩ := Mnemonic.spelling_computations _ hcode
  refine ⟨?_, hsemicolon, ?_⟩
  · intro text htext
    rw [target?] at htext
    split at htext
    · cases htext
    · obtain rfl := Option.mem_some.1 htext
      exact (Mnemonic.spelling_targetLetters w.targetField).1
  · exact fun _ => ⟨hequals, fun text htext => (Mnemonic.spelling_jumpOf? w.jumpField text htext).1⟩

theorem computationText_subset (w : Word) {computation : String}
    (hcode : (computation, w.computationField) ∈ Mnemonic.computations) :
    (w.computationText computation).toList ⊆ Mnemonic.alphabet := by
  have hcomputation := (Mnemonic.spelling_computations _ hcode).2.2.2
  have htarget := (Mnemonic.spelling_targetLetters w.targetField).2
  have hjump : ((Mnemonic.jumpOf? w.jumpField).elim "" (";" ++ ·)).toList ⊆ Mnemonic.alphabet := by
    cases hj : Mnemonic.jumpOf? w.jumpField with
    | none => simp
    | some text =>
      have htext := (Mnemonic.spelling_jumpOf? w.jumpField text hj).2
      have hsemicolon : ';' ∈ Mnemonic.alphabet := by decide
      simpa [hsemicolon] using htext
  have hequals : '=' ∈ Mnemonic.alphabet := by decide
  rw [computationText, String.toList_append, String.toList_append, List.append_subset,
    List.append_subset]
  refine ⟨⟨?_, hcomputation⟩, hjump⟩
  split
  · simp
  · rw [String.toList_append, List.append_subset]
    exact ⟨htarget, by simpa using hequals⟩

/-- **The text of a computation word is read as a computation with its fields.** -/
theorem spells_computation (hopcode : w.opcode = 0b111#3) {computation : String}
    (hcode : (computation, w.computationField) ∈ Mnemonic.computations) :
    Line.Plain (w.computationText computation) ∧
      Statement.ofText (w.computationText computation) =
        .ok (.compute w.target? computation (Mnemonic.jumpOf? w.jumpField)) ∧
      (Statement.compute w.target? computation (Mnemonic.jumpOf? w.jumpField)).Spells w := by
  have hsubset := w.computationText_subset hcode
  have hne : w.computationText computation ≠ "" := by
    have := (Mnemonic.spelling_computations _ hcode).1
    simp [computationText, this]
  obtain ⟨c, cs, hcs⟩ := Statement.exists_cons_of_ne_empty hne
  refine ⟨.of_forall hne ?_, ?_, ?_, by simp⟩
  · intro x hx
    obtain ⟨hblank, hslash, -, -⟩ := Mnemonic.of_mem_alphabet x (hsubset hx)
    exact ⟨hblank, hslash⟩
  · have hfirst : c ∈ Mnemonic.alphabet := hsubset (by simp [hcs])
    obtain ⟨-, -, hparen, hat⟩ := Mnemonic.of_mem_alphabet c hfirst
    rw [computationText_eq] at hcs ⊢
    exact Statement.ofText_render_compute (w.separable_fields hcode) hcs hparen hat
  · intro t line
    have hword : ofComputation w.target? computation (Mnemonic.jumpOf? w.jumpField) = .ok w := by
      rw [ofComputation_eq, Mnemonic.computationCode_eq_ok_iff.2 hcode, Mnemonic.jumpCode_jumpOf?,
        targetCode_target?]
      exact congrArg Except.ok (ofFields_fields hopcode)
    simp [SymbolTable.code, hword, Except.map]

/-- An instruction word has a text, which is read as a statement that has this word. -/
theorem exists_disassembly (h : w.IsInstruction) :
    ∃ text s, w.disassemble? = some text ∧ Line.Plain text ∧ Statement.ofText text = .ok s ∧
      s.Spells w := by
  by_cases hmsb : w.msb = false
  · exact ⟨_, _, by rw [disassemble?, if_pos hmsb], spells_address hmsb⟩
  · obtain ⟨hopcode, hfield⟩ := h.resolve_left hmsb
    obtain ⟨computation, hname, hcode⟩ := Mnemonic.exists_computationOf? hfield
    refine ⟨w.computationText computation, _, ?_, spells_computation hopcode hcode⟩
    simp [disassemble?, hmsb, hopcode, hname]

/-- Instruction words have texts, which are read as statements that have these words. -/
theorem exists_disassemblies {words : List Word} (h : ∀ w ∈ words, w.IsInstruction) :
    ∃ texts statements, words.map disassemble? = texts.map some ∧
      (∀ text ∈ texts, Line.Plain text) ∧
      List.Forall₂ (fun text s => Statement.ofText text = .ok s) texts statements ∧
      List.Forall₂ Statement.Spells statements words := by
  induction words with
  | nil => exact ⟨[], [], rfl, by simp, .nil, .nil⟩
  | cons w words ih =>
    obtain ⟨text, s, htext, hplain, hread, hspells⟩ := exists_disassembly (h w List.mem_cons_self)
    obtain ⟨texts, statements, htexts, hplains, hreads, hrest⟩ :=
      ih fun x hx => h x (List.mem_cons_of_mem w hx)
    refine ⟨text :: texts, s :: statements, ?_, ?_, .cons hread hreads, .cons hspells hrest⟩
    · rw [List.map_cons, List.map_cons, htext, htexts]
    · exact List.forall_mem_cons.2 ⟨hplain, hplains⟩

/-- The word of a statement is an instruction. -/
theorem isInstruction_of_encodes {address? : String → Option Int} {s : Statement}
    (h : Statement.Encodes address? s w) : w.IsInstruction := by
  have hclear (hle : w.toNat ≤ 32767) : w.msb = false := by
    rw [BitVec.msb_eq_false_iff_two_mul_lt]
    omega
  cases h with
  | constant bound number => exact .inl (hclear (by omega))
  | symbol _ bound number => exact .inl (hclear (by omega))
  | compute opcode code => exact .inr ⟨opcode, List.mem_map_of_mem code⟩

end Word

/-! ## Programs -/

section Program
variable {ops : List Operation} {words : List Word}

/-- A program whose statements have their words by themselves is assembled to these words. -/
theorem SymbolTable.verdict_of_spells
    (h : List.Forall₂ (fun op w => op.statement.Spells w) ops words) :
    (ofProgram ops).verdict ops = .ok words := by
  have herrors : (ofProgram ops).errors.toList = [] := by
    rw [errors_ofProgram, List.eq_nil_iff_forall_not_mem]
    intro d hd
    obtain ⟨earlier, op, later, rfl, hrefusal⟩ := (mem_inContext _).1 hd
    obtain ⟨w, -, hw⟩ := exists_of_mem_forall₂ h (a := op) (by simp)
    rw [Naming.refusal?] at hrefusal
    split at hrefusal
    case h_1 name hop => exact hw.nameless name true hop
    case h_2 => cases hrefusal
  generalize ofProgram ops = t at herrors
  have hsound (l : List Operation) : t.sound l = l := by simp [sound, herrors]
  have hboth : t.faults ops = [] ∧ (t.words ops).map (·.1) = words := by
    rw [faults, SymbolTable.words, hsound]
    clear herrors hsound
    induction h with
    | nil => simp
    | @cons op w ops words hhead _ ih =>
      have hcode : t.code op = .ok (some w) := hhead.code t op.line
      simp [hcode, ih]
  rw [verdict, herrors, hboth.1, ← hboth.2]
  rfl

theorem Program.ofOperations_of_spells (htellable : ∀ op ∈ ops, op.Tellable)
    (h : List.Forall₂ (fun op w => op.statement.Spells w) ops words) :
    ofOperations ops = if words.length ≤ 32768 then .ok ⟨words, SymbolTable.ofProgram ops⟩
      else .error (.tooLarge words.length) := by
  rw [ofOperations_of_tellable htellable, SymbolTable.verdict_of_spells h, ofVerdict]
  by_cases hle : words.length ≤ 32768
  · simp [romSize, hle, Nat.not_lt.2 hle]
  · simp [romSize, hle, Nat.not_le.1 hle]

end Program

/-- **Assembling undoes disassembling.** The texts of instruction words, one to a line, are
assembled to these words, unless there are too many of them; and every assembled word is an
instruction, so that it has a text. -/
theorem assemble_disassemble :
    (∀ words : List Word, (∀ w ∈ words, w.IsInstruction) →
      ∃ texts : List String, words.map Word.disassemble? = texts.map some ∧
        assemble ("\n".intercalate texts) =
          if words.length ≤ 32768 then .ok words else .error (.tooLarge words.length)) ∧
    ∀ source words, assemble source = .ok words → ∀ w ∈ words, w.IsInstruction := by
  constructor
  · intro words hwords
    obtain ⟨texts, statements, htexts, hplain, hread, hspells⟩ := Word.exists_disassemblies hwords
    obtain ⟨ops, hops, rfl⟩ := Operation.ofSource_intercalate hplain hread
    rw [List.forall₂_map_left_iff] at hspells
    refine ⟨texts, htexts, ?_⟩
    have htellable := (Operation.wellRead_of_ofSource hops).tellable
    rw [assemble_of_ok hops, Program.ofOperations_of_spells htellable hspells]
    split <;> rfl
  · intro source words hok w hw
    cases hread : Operation.ofSource source with
    | error cause => simp [assemble_of_error hread] at hok
    | ok ops =>
      rw [assemble_of_ok hread] at hok
      rcases Program.ofOperations_cases (Operation.wellRead_of_ofSource hread) with
        ⟨-, hend⟩ | ⟨-, -, hend⟩ | ⟨-, -, words', hend, hwords⟩
      · simp [hend, Except.map] at hok
      · simp [hend, Except.map] at hok
      · obtain rfl : words' = words := by simpa [hend, Except.map] using hok
        obtain ⟨op, -, hop⟩ := exists_of_mem_forall₂ hwords.flip hw
        exact Word.isInstruction_of_encodes hop

/-- An address and a computation with all of its fields. -/
theorem assemble_disassemble_pair :
    (∀ w ∈ [0b0111111111111111#16, 0b1111110111111001#16], Word.IsInstruction w) ∧
      ∃ texts : List String,
        [0b0111111111111111#16, 0b1111110111111001#16].map Word.disassemble? = texts.map some ∧
        assemble ("\n".intercalate texts) =
          .ok [0b0111111111111111#16, 0b1111110111111001#16] := by
  have h : ∀ w ∈ [0b0111111111111111#16, 0b1111110111111001#16], Word.IsInstruction w := by
    rw [List.forall_mem_cons, List.forall_mem_singleton]
    exact ⟨.inl (by decide), .inr ⟨by decide, by decide⟩⟩
  obtain ⟨texts, htexts, hassembled⟩ := assemble_disassemble.1 _ h
  exact ⟨h, texts, htexts, by rw [hassembled, if_pos (by simp)]⟩

end HackAssembler
