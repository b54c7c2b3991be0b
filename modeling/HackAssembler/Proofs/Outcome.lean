import HackAssembler.Assembly.Program
import HackAssembler.Proofs.Composition

/-!
# What assembling a source ends in

Assembling ends in one of four ways, and what the source says decides in which: a number that
cannot be read, a report of all faulty operations, too many instructions, or a program.
-/

namespace HackAssembler
open Naming (diagnostics instructionCount redeclarations)

namespace Program
variable {ops : List Operation}

/-- Each instruction of a program has one word. -/
theorem length_words {address? : String → Option Int} {words : List Word}
    (h : List.Forall₂ (fun op w => Statement.Encodes address? op.statement w)
      (ops.filter fun op => !op.isLabel) words) : words.length = instructionCount ops := by
  rw [← h.length_eq, instructionCount, List.countP_eq_length_filter]

theorem ofVerdict_ne_unwritable (table : SymbolTable) (verdict : Except Report (List Word)) :
    ofVerdict table verdict ≠ .error .unwritable := by
  cases verdict with
  | error report => simp [ofVerdict]
  | ok words =>
    rw [ofVerdict]
    split <;> simp

/-- Telling fails for a constant that is too long, unless its line was found faulty before. -/
theorem ofOperations_eq_unwritable_iff :
    ofOperations ops = .error .unwritable ↔
      ∃ op ∈ ops, (∀ d ∈ (SymbolTable.ofProgram ops).errors.toList, op.line ≠ d.line) ∧
        ∃ value, op.statement = .constant value ∧ ¬Text.Writable value := by
  rw [ofOperations]
  split
  case isTrue htold =>
    refine iff_of_false (ofVerdict_ne_unwritable _ _) ?_
    rintro ⟨op, hop, hline, value, hvalue, hlong⟩
    exact hlong (htold op (SymbolTable.mem_sound.2 ⟨hop, hline⟩) value hvalue)
  case isFalse htold =>
    refine iff_of_true rfl ?_
    rw [not_forall₂] at htold
    obtain ⟨op, hop, hlong⟩ := htold
    obtain ⟨hmem, hline⟩ := SymbolTable.mem_sound.1 hop
    rw [Operation.Tellable, not_forall₂] at hlong
    obtain ⟨value, hvalue, hlong⟩ := hlong
    exact ⟨op, hmem, hline, value, hvalue, hlong⟩

/-- The addresses in the table of a program can be told, as long as the program has fewer
operations than the first number that cannot. -/
theorem writable_of_address?_ofProgram (h : ops.length < Text.firstUnwritable) {name : String}
    {value : Int} (hvalue : (SymbolTable.ofProgram ops).address? name = some value) :
    Text.Writable value := by
  rw [SymbolTable.address?_ofProgram] at hvalue
  obtain ⟨hnonneg, hslot | hcount⟩ := Naming.address?_bounds hvalue
  · exact .of_lt_slots hnonneg hslot
  · have hle : value.natAbs ≤ ops.length := by omega
    exact Nat.lt_of_le_of_lt hle h

/-- **Assembling operations is making their image**, in the table that they were laid out in. -/
theorem ofOperations_eq_image (h : ops.length < Text.firstUnwritable) :
    ofOperations ops =
      match (SymbolTable.ofProgram ops).image ops with
      | .ok words => ofVerdict (.ofProgram ops) (.ok words)
      | .error (.fault report) => .error (.aborted report)
      | .error .unwritable => .error .unwritable := by
  have htells : (SymbolTable.ofProgram ops).Tells ops ↔
      ∀ op ∈ (SymbolTable.ofProgram ops).sound ops, op.Tellable := by
    rw [← not_iff_not, SymbolTable.not_tells_iff]
    simp only [not_forall, SymbolTable.mem_sound, Operation.Tellable, exists_prop, and_assoc]
    refine exists_congr fun op => and_congr_right fun _ => and_congr_right fun _ =>
      exists_congr fun value => and_congr_left fun hlong => ?_
    obtain ⟨statement, line⟩ := op
    cases statement with
    | constant => simp [SymbolTable.loaded?]
    | label | compute | reserve => simp [SymbolTable.loaded?]
    | symbol name allocates =>
      refine iff_of_false ?_ (by simp)
      exact fun hvalue => hlong (writable_of_address?_ofProgram h hvalue)
  rw [ofOperations, SymbolTable.image]
  by_cases htold : (SymbolTable.ofProgram ops).Tells ops
  · rw [if_pos htold, if_pos (htells.1 htold)]
    cases (SymbolTable.ofProgram ops).verdict ops <;> rfl
  · rw [if_neg htold, if_neg (mt htells.2 htold)]

/-- What assembling operations ends in. -/
theorem ofOperations_cases (h : Operation.WellRead ops) :
    (diagnostics ops ≠ [] ∧
      ofOperations ops = .error (.aborted ⟨diagnostics ops, redeclarations ops⟩)) ∨
    (diagnostics ops = [] ∧ 32768 < instructionCount ops ∧
      ofOperations ops = .error (.tooLarge (instructionCount ops))) ∨
    (diagnostics ops = [] ∧ instructionCount ops ≤ 32768 ∧
      ∃ words, ofOperations ops = .ok ⟨words, SymbolTable.ofProgram ops⟩ ∧
        List.Forall₂ (fun op w => Statement.Encodes (Naming.address? ops) op.statement w)
          (ops.filter fun op => !op.isLabel) words) := by
  rw [ofOperations_of_tellable h.tellable]
  by_cases hd : diagnostics ops = []
  · obtain ⟨words, hverdict, hwords⟩ := SymbolTable.verdict_of_diagnostics_eq_nil h hd
    have hlength := length_words hwords
    right
    by_cases hroom : instructionCount ops ≤ 32768
    · refine .inr ⟨hd, hroom, words, ?_, hwords⟩
      simp [ofVerdict, hverdict, romSize, hlength, hroom]
    · refine .inl ⟨hd, Nat.not_le.1 hroom, ?_⟩
      simp [ofVerdict, hverdict, romSize, hlength, Nat.not_le.1 hroom]
  · have hverdict := SymbolTable.verdict_of_diagnostics_ne_nil h hd
    exact .inl ⟨hd, by simp [ofVerdict, hverdict]⟩

/-- A report tells the errors and warnings of its program. -/
theorem report_of_aborted {report : Report} (hwell : Operation.WellRead ops)
    (h : ofOperations ops = .error (.aborted report)) :
    report = ⟨diagnostics ops, redeclarations ops⟩ := by
  rcases ofOperations_cases hwell with
    ⟨-, hend⟩ | ⟨-, -, hend⟩ | ⟨-, -, words, hend, -⟩ <;> rw [hend] at h <;> cases h
  rfl

end Program

theorem assemble_of_error {source : String} {cause : Statement.Malformed}
    (h : Operation.ofSource source = .error cause) :
    assemble source = .error (.malformed cause) := by
  simp [assemble, Program.ofSource, h, Except.map]

theorem assemble_of_ok {source : String} {ops : List Operation}
    (h : Operation.ofSource source = .ok ops) :
    assemble source = (Program.ofOperations ops).map (·.words) := by
  simp [assemble, Program.ofSource, h]

/-- **What a source says decides what assembling it ends in.** A number with too many digits comes
first. Then every faulty operation is told, once and with its line, in the order of the lines. Then
the program has to fit into the memory. -/
theorem assemble_outcome (source : String) :
    (∀ cause, assemble source = .error (.malformed cause) ↔
      ∃ count, (Line.ofSource source).findSome? (fun l => Statement.overlong? l.text.toList) =
        some count ∧ cause = .tooManyDigits count) ∧
    (∀ report, assemble source = .error (.aborted report) ↔
      ∃ ops, Operation.ofSource source = .ok ops ∧ diagnostics ops ≠ [] ∧
        report = ⟨diagnostics ops, redeclarations ops⟩ ∧
        report.errors.Pairwise fun a b => a.line.number < b.line.number) ∧
    (∀ count, assemble source = .error (.tooLarge count) ↔
      ∃ ops, Operation.ofSource source = .ok ops ∧ diagnostics ops = [] ∧
        count = instructionCount ops ∧ 32768 < count) ∧
    ((∃ words, assemble source = .ok words) ↔
      ∃ ops, Operation.ofSource source = .ok ops ∧ diagnostics ops = [] ∧
        instructionCount ops ≤ 32768) := by
  simp only [← Operation.ofSource_eq_error_iff]
  cases hread : Operation.ofSource source with
  | error cause => simp [assemble_of_error hread]
  | ok ops =>
    have hwell := Operation.wellRead_of_ofSource hread
    have hordered := Naming.pairwise_diagnostics hwell
    rw [assemble_of_ok hread]
    rcases Program.ofOperations_cases hwell with
      ⟨hd, hend⟩ | ⟨hd, hlarge, hend⟩ | ⟨hd, hroom, words, hend, -⟩
    · have hreport : ∀ report : Report, ⟨diagnostics ops, redeclarations ops⟩ = report ↔
          report = ⟨diagnostics ops, redeclarations ops⟩ ∧
            report.errors.Pairwise fun a b => a.line.number < b.line.number := by
        intro report
        constructor
        · rintro rfl
          exact ⟨rfl, hordered⟩
        · rintro ⟨rfl, -⟩
          rfl
      simpa [hend, hd, Except.map] using hreport
    · have hcount : ∀ count, instructionCount ops = count ↔
          count = instructionCount ops ∧ 32768 < count := by
        intro count
        omega
      simpa [hend, hd, Except.map, hlarge] using hcount
    · simpa [hend, hd, Except.map] using hroom

end HackAssembler
