import HackAssembler.Proofs.Meaning
import HackAssembler.Proofs.Outcome

/-!
# How the limits fit together

There are three limits, and they are checked in three places: an operand has fifteen bits, slots
end at 65536, and a program has at most 32768 words. A name that asks for a slot takes up a word as
well, so the slots never run out in a program that fits into the memory, and every variable that is
left in the end has been checked as an operand.

## Main definitions

* `SymbolTable.HasAddressIn` — the name has an address between two bounds.
* `Program.WithinLimits` — a program and its table keep all limits.
-/

namespace HackAssembler
open Naming (instructionCount slotNames slotCount)

/-! ## Counting -/

namespace Naming
variable {ops : List Operation} {name : String}

/-- A slot is asked for by an instruction, and an instruction asks for one slot at most. -/
theorem length_slotNames_le_instructionCount (ops : List Operation) :
    (slotNames ops).length ≤ instructionCount ops := by
  induction ops using List.reverseRecOn with
  | nil => simp
  | append_singleton ops op ih =>
    rw [slotNames_concat, List.length_append, instructionCount_concat]
    cases hnew : newSlot? ops op with
    | none =>
      rw [Option.toList_none, List.length_nil]
      omega
    | some name =>
      have hlabel : op.isLabel = false := by
        simp [Operation.isLabel, statement_of_newSlot? hnew]
      rw [Option.toList_some, List.length_singleton, hlabel, if_neg Bool.false_ne_true]
      omega

/-- A declaration stands at one of the instructions or at the end. -/
theorem declaredAt?_le {count : Nat} (h : declaredAt? ops name = some count) :
    count ≤ instructionCount ops := by
  obtain ⟨i, -, rfl⟩ := Option.map_eq_some_iff.1 h
  exact (List.take_sublist i ops).countP_le

/-- A slot that is lacking has been asked for after all slots were taken. -/
theorem slotCount_lt_of_lacksSlot {earlier later : List Operation} {op : Operation}
    (hop : op.isLabel = false) (h : LacksSlot earlier name) :
    slotCount < instructionCount (earlier ++ op :: later) := by
  have hearlier := length_slotNames_le_instructionCount earlier
  have htaken := h.2
  have hone : instructionCount (op :: later) = instructionCount later + 1 := by
    simp [instructionCount, hop]
  rw [instructionCount_append, hone]
  omega

/-! ## What is bound -/

theorem declaredAt?_of_binding? {address : Int} (h : binding? ops name = some ⟨.label, address⟩) :
    ∃ count : Nat, declaredAt? ops name = some count ∧ address = count := by
  rw [binding?] at h
  cases hlookup : predefinedSymbols.lookup name with
  | some value => simp [hlookup] at h
  | none =>
    cases hdeclared : declaredAt? ops name with
    | some count => exact ⟨count, rfl, by simpa [hlookup, hdeclared, eq_comm] using h⟩
    | none => simp [hlookup, hdeclared] at h

theorem mem_slotNames_of_binding? {address : Int}
    (h : binding? ops name = some ⟨.slot, address⟩) : name ∈ slotNames ops := by
  have hfixed : ¬Fixed ops name := by simp [← role_ne_slot_iff_fixed h]
  have hbound : binding? ops name ≠ none := by simp [h]
  rw [Ne, binding?_eq_none_iff, not_and, not_not] at hbound
  exact List.mem_of_mem_take (hbound hfixed)

/-! ## Faults for want of a slot -/

theorem lacksSlot_of_refusal? {earlier : List Operation} {op : Operation} {d : Diagnostic}
    (h : refusal? earlier op = some d) :
    op.isLabel = false ∧ ∃ name, LacksSlot earlier name := by
  rw [refusal?] at h
  split at h
  case h_1 name hop =>
    by_cases hlacks : LacksSlot earlier name
    · exact ⟨by simp [Operation.isLabel, hop], name, hlacks⟩
    · rw [if_neg hlacks] at h
      cases h
  case h_2 => cases h

/-- Encoding has other faults only. -/
theorem statementFault?_ne_outOfRam (address? : String → Option Int) (statement : Statement)
    (name : String) : statement.fault? address? ≠ some (.outOfRam name) := by
  have hrange : ∀ value, Statement.rangeFault? value ≠ some (.outOfRam name) := by
    intro value
    by_cases hlarge : 32767 < value <;> simp [Statement.rangeFault?, hlarge]
  cases statement with
  | label | reserve => simp [Statement.fault?]
  | constant value => exact hrange value
  | symbol other allocates =>
    rw [Statement.fault?]
    cases address? other with
    | none => simp
    | some value => exact hrange value
  | compute target computation jump =>
    intro h
    simp only [Statement.fault?, Statement.computationFault?] at h
    split at h
    · cases h
    · cases jump with
      | none => cases h
      | some text =>
        simp only at h
        split at h <;> cases h

/-- **Slots run out in large programs only.** -/
theorem slotCount_lt_of_refused {d : Diagnostic} (h : d ∈ inContext refusal? ops) :
    slotCount < instructionCount ops := by
  obtain ⟨earlier, op, later, rfl, hrefusal⟩ := (mem_inContext refusal?).1 h
  obtain ⟨hop, name, hlacks⟩ := lacksSlot_of_refusal? hrefusal
  exact slotCount_lt_of_lacksSlot hop hlacks

theorem slotCount_lt_of_mem_diagnostics {d : Diagnostic} (h : d ∈ diagnostics ops)
    (hfault : d.fault = .outOfRam name) : slotCount < instructionCount ops := by
  obtain ⟨earlier, op, later, hops, hd⟩ := (mem_inContext _).1 h
  rw [hops, map_fault?_eq, Option.or_eq_some_iff] at hd
  rcases hd with hrefusal | ⟨-, hencoding⟩
  · exact slotCount_lt_of_refused ((mem_inContext refusal?).2 ⟨earlier, op, later, hops, hrefusal⟩)
  · obtain ⟨fault, hother, rfl⟩ := Option.map_eq_some_iff.1 hencoding
    obtain rfl : fault = .outOfRam name := hfault
    exact absurd hother (statementFault?_ne_outOfRam _ _ _)

end Naming

/-! ## The table of a program -/

namespace SymbolTable

/-- The name has an address, and it lies between these bounds. -/
def HasAddressIn (t : SymbolTable) (name : String) (low high : Int) : Prop :=
  ∃ address, t.address? name = some address ∧ low ≤ address ∧ address ≤ high

section OfProgram
variable (ops : List Operation)

/-- No more slots are given out than there are instructions. -/
theorem ram_ofProgram_le : (ofProgram ops).ram ≤ 16 + instructionCount ops := by
  have hram := ram_ofProgram ops
  have hle := Naming.length_slotNames_le_instructionCount ops
  rw [firstSlot] at hram
  omega

variable {ops} {name : String}

theorem hasAddressIn_of_mem_labelNames (h : name ∈ (ofProgram ops).labelNames) :
    (ofProgram ops).HasAddressIn name 0 (instructionCount ops) := by
  obtain ⟨address, hbinding⟩ := ((recorded_ofProgram ops).labels name).1 h
  have haddress : (ofProgram ops).address? name = some address := by simp [address?, hbinding]
  rw [binding?_ofProgram] at hbinding
  obtain ⟨count, hdeclared, rfl⟩ := Naming.declaredAt?_of_binding? hbinding
  have hle := Naming.declaredAt?_le hdeclared
  exact ⟨count, haddress, by omega, by omega⟩

/-- A variable is used somewhere in the program, and its slot comes after the registers. -/
theorem of_mem_variableNames (h : name ∈ (ofProgram ops).variableNames) :
    (∃ op ∈ ops, op.statement = .symbol name true) ∧
      ∃ address, (ofProgram ops).address? name = some address ∧ 16 ≤ address := by
  have hrecorded := recorded_ofProgram ops
  obtain ⟨address, hbinding⟩ := (hrecorded.mem_variableNames name).1 h
  have hgiven := hrecorded.given_bounds _ (hrecorded.slots name address hbinding)
  have haddress : (ofProgram ops).address? name = some address := by simp [address?, hbinding]
  rw [binding?_ofProgram] at hbinding
  have hslot := Naming.mem_slotNames_of_binding? hbinding
  obtain ⟨op, hop, hasks⟩ := Naming.asked_of_mem_slotNames hslot
  exact ⟨⟨op, hop, by simpa [Naming.asksFor] using hasks⟩, address, haddress, hgiven.1⟩

end OfProgram

/-- No slot is given out twice. -/
theorem Recorded.eq_of_address?_eq {t : SymbolTable} (h : Recorded t) {name other : String}
    (hname : name ∈ t.variableNames) (hother : other ∈ t.variableNames)
    (heq : t.address? name = t.address? other) : name = other := by
  obtain ⟨a, ha⟩ := (h.mem_variableNames name).1 hname
  obtain ⟨b, hb⟩ := (h.mem_variableNames other).1 hother
  obtain rfl : a = b := by simpa [address?, ha, hb] using heq
  have hnodup : (t.givenSlots.map Prod.snd).Nodup :=
    List.pairwise_map.2 (h.given_increasing.imp fun hlt => Int.ne_of_lt hlt)
  have hsame := List.inj_on_of_nodup_map hnodup (h.slots name a ha) (h.slots other a hb) rfl
  exact congrArg Prod.fst hsame

end SymbolTable

/-! ## Programs -/

namespace Program

/-- A program and its table keep all limits. -/
structure WithinLimits (ops : List Operation) (program : Program) : Prop where
  counted : program.table.programLength = program.words.length
  room : program.words.length ≤ 32768
  labels : ∀ name ∈ program.table.labelNames,
    program.table.HasAddressIn name 0 program.words.length
  slots : ∀ name ∈ program.table.variableNames, program.table.HasAddressIn name 16 32767
  distinct : ∀ name ∈ program.table.variableNames, ∀ other ∈ program.table.variableNames,
    program.table.address? name = program.table.address? other → name = other
  ram : program.table.ram ≤ 16 + program.words.length
  references : ∀ op ∈ ops, ∀ name allocates, op.statement = .symbol name allocates →
    program.table.HasAddressIn name 0 32767
  unrefused : program.table.errors.toList = []

/-- A name that is used has been checked as an operand. -/
theorem hasAddressIn_of_encoded {table : SymbolTable} {ops : List Operation} {words : List Word}
    (hwords : List.Forall₂ (fun op w => Statement.Encodes table.address? op.statement w)
      (ops.filter fun op => !op.isLabel) words)
    {op : Operation} (hop : op ∈ ops) {name : String} {allocates : Bool}
    (hstatement : op.statement = .symbol name allocates) : table.HasAddressIn name 0 32767 := by
  have hmem : op ∈ ops.filter fun op => !op.isLabel := by
    simp [hop, Operation.isLabel, hstatement]
  obtain ⟨w, -, hencodes⟩ := exists_of_mem_forall₂ hwords hmem
  rw [hstatement] at hencodes
  cases hencodes with
  | symbol address bound number => exact ⟨_, address, by omega, bound⟩

theorem withinLimits_of_ofOperations {ops : List Operation} {program : Program}
    (hwell : Operation.WellRead ops) (h : ofOperations ops = .ok program) :
    WithinLimits ops program := by
  rcases ofOperations_cases hwell with
    ⟨-, hend⟩ | ⟨-, -, hend⟩ | ⟨hd, hroom, words, hend, hwords⟩
  · simp [hend] at h
  · simp [hend] at h
  · rw [hend] at h
    cases h
    have hlength := length_words hwords
    have haddress : (SymbolTable.ofProgram ops).address? = Naming.address? ops :=
      funext (SymbolTable.address?_ofProgram ops)
    rw [← haddress] at hwords
    refine ⟨?_, ?_, ?_, ?_, ?_, ?_, ?_, ?_⟩
    · rw [hlength]
      exact SymbolTable.programLength_ofProgram ops
    · rw [hlength]
      exact hroom
    · intro name hname
      rw [hlength]
      exact SymbolTable.hasAddressIn_of_mem_labelNames hname
    · -- Slots go up to 65535; what bounds this one is that the variable is an operand somewhere.
      intro name hname
      obtain ⟨⟨op, hop, hused⟩, address, hvalue, hlow⟩ := SymbolTable.of_mem_variableNames hname
      obtain ⟨other, hother, -, hhigh⟩ := hasAddressIn_of_encoded hwords hop hused
      rw [hvalue] at hother
      cases hother
      exact ⟨address, hvalue, hlow, hhigh⟩
    · intro name hname other hother heq
      exact (SymbolTable.recorded_ofProgram ops).eq_of_address?_eq hname hother heq
    · rw [hlength]
      exact SymbolTable.ram_ofProgram_le ops
    · intro op hop name allocates hused
      exact hasAddressIn_of_encoded hwords hop hused
    · rw [SymbolTable.errors_ofProgram]
      exact SymbolTable.refusals_eq_nil hwell hd

/-- **The limits fit together.** A program that is assembled keeps all of them. And slots run out
only when there are more instructions than slots, so no program that fits into the memory is ever
told about it. -/
theorem ofSource_withinLimits (source : String) :
    (∀ program, ofSource source = .ok program →
      ∃ ops, Operation.ofSource source = .ok ops ∧ WithinLimits ops program) ∧
    ∀ ops, Operation.ofSource source = .ok ops →
      (∀ d ∈ (SymbolTable.ofProgram ops).errors.toList, 65520 < instructionCount ops) ∧
      (instructionCount ops ≤ 32768 → ∀ report, ofSource source = .error (.aborted report) →
        ∀ d ∈ report.errors, ∀ name, d.fault ≠ .outOfRam name) := by
  have hcount : slotCount = 65520 := by decide
  refine ⟨?_, ?_⟩
  · intro program h
    rw [ofSource] at h
    cases hread : Operation.ofSource source with
    | error cause => simp [hread] at h
    | ok ops =>
      rw [hread] at h
      exact ⟨ops, rfl, withinLimits_of_ofOperations (Operation.wellRead_of_ofSource hread) h⟩
  · intro ops hread
    refine ⟨?_, ?_⟩
    · intro d hd
      rw [SymbolTable.errors_ofProgram] at hd
      have hlt := Naming.slotCount_lt_of_refused hd
      omega
    · intro hsmall report hreport d hd name hfault
      rw [ofSource, hread] at hreport
      obtain rfl := report_of_aborted (Operation.wellRead_of_ofSource hread) hreport
      have hlt := Naming.slotCount_lt_of_mem_diagnostics hd hfault
      omega

/-- A variable that becomes a label, a variable that stays one, and a label at the end. -/
theorem ofSource_withinLimits_loop :
    ∃ ops program, Operation.ofSource "@i\n@j\n(i)\n0;JMP\n(END)" = .ok ops ∧
      ofSource "@i\n@j\n(i)\n0;JMP\n(END)" = .ok program ∧ WithinLimits ops program := by
  cases h : ofSource "@i\n@j\n(i)\n0;JMP\n(END)" with
  | error failure =>
    have hfine : (assemble "@i\n@j\n(i)\n0;JMP\n(END)").isOk = true := by decide +kernel
    simp [assemble, h, Except.map, Except.isOk, Except.toBool] at hfine
  | ok program =>
    obtain ⟨ops, hread, hlimits⟩ := (ofSource_withinLimits _).1 program h
    exact ⟨ops, program, hread, rfl, hlimits⟩

end Program
end HackAssembler
