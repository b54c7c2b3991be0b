import HackAssembler.Proofs.Meaning
import HackAssembler.Proofs.Outcome

/-!
# Assembling translates instruction by instruction

The words of a program are those of its instructions, one by one, when each name stands for the
address that it means. So a label leads to the instruction that follows its declaration.
-/

namespace HackAssembler
open Naming (instructionCount)

/-- The table and the words belong to the operations of a program. -/
structure Translation (ops : List Operation) (table : SymbolTable) (words : List Word) : Prop where
  /-- The table binds names to what they mean. -/
  bindings : ∀ name value, table.address? name = some value ↔ Naming.Means ops name value
  /-- Each instruction has its word, in order. -/
  encoded : List.Forall₂ (fun op w => Statement.Encodes table.address? op.statement w)
    (ops.filter fun op => !op.isLabel) words
  /-- A word is written as the sixteen digits of a binary number. -/
  written : ∀ w ∈ words, w.render.length = 16 ∧ (∀ c ∈ w.render.toList, c = '0' ∨ c = '1') ∧
    Word.binaryValue w.render.toList = w.toNat
  /-- A label stands for the place of the first instruction after its first declaration, or for the
  end of the program. -/
  labels : ∀ name before after, Naming.FirstDeclared ops name before after →
    name ∉ predefinedNames → ∃ target : Nat, table.address? name = some (target : Int) ∧
      match after.find? fun op => !op.isLabel with
      | some op => ∃ w, words[target]? = some w ∧ Statement.Encodes table.address? op.statement w
      | none => words.length = target

theorem Word.render_spec (w : Word) :
    w.render.length = 16 ∧ (∀ c ∈ w.render.toList, c = '0' ∨ c = '1') ∧
      binaryValue w.render.toList = w.toNat := by
  refine ⟨?_, ?_, ?_⟩
  · rw [← String.length_toList, toList_render, length_digits]
  · rw [toList_render]
    exact fun c hc => eq_zero_or_one_of_mem_digits hc
  · rw [toList_render, binaryValue_digits]

/-- After a declaration the words go on with the next instruction, or they are at an end. -/
theorem word_of_firstDeclared {R : Operation → Word → Prop} {ops before after : List Operation}
    {name : String} {words : List Word}
    (h : List.Forall₂ R (ops.filter fun op => !op.isLabel) words)
    (hfirst : Naming.FirstDeclared ops name before after) :
    match after.find? fun op => !op.isLabel with
    | some op => ∃ w, words[instructionCount before]? = some w ∧ R op w
    | none => words.length = instructionCount before := by
  obtain ⟨line, rfl, -⟩ := hfirst
  rw [List.filter_append, List.filter_cons_of_neg (by simp [Operation.isLabel])] at h
  have hcount : (before.filter fun op => !op.isLabel).length = instructionCount before := by
    rw [instructionCount, List.countP_eq_length_filter]
  have hlength := h.length_eq
  have hdrop := List.forall₂_drop (instructionCount before) h
  rw [List.drop_left' hcount] at hdrop
  rw [List.length_append, hcount] at hlength
  rw [← List.head?_filter, ← List.head?_drop]
  cases hafter : after.filter fun op => !op.isLabel with
  | nil => simpa [hafter] using hlength.symm
  | cons op rest =>
    rw [hafter] at hdrop
    obtain ⟨w, _, hop, -, hw⟩ := List.forall₂_cons_left_iff.1 hdrop
    exact ⟨w, by rw [hw, List.head?_cons], hop⟩

/-- **The words of a program are the translation of its operations.** -/
theorem translation_of_ofOperations {ops : List Operation} {words : List Word}
    {table : SymbolTable} (hwell : Operation.WellRead ops)
    (h : Program.ofOperations ops = .ok ⟨words, table⟩) : Translation ops table words := by
  rcases Program.ofOperations_cases hwell with
    ⟨-, hend⟩ | ⟨-, -, hend⟩ | ⟨hd, -, words, hend, hwords⟩
  · simp [hend] at h
  · simp [hend] at h
  · rw [hend] at h
    cases h
    have haddress : (SymbolTable.ofProgram ops).address? = Naming.address? ops :=
      funext (SymbolTable.address?_ofProgram ops)
    have hroom := Naming.length_slotNames_le (SymbolTable.refusals_eq_nil hwell hd)
    have hbindings : ∀ name value, (SymbolTable.ofProgram ops).address? name = some value ↔
        Naming.Means ops name value := by
      intro name value
      rw [haddress]
      exact Naming.address?_eq_some_iff hroom
    rw [← haddress] at hwords
    refine ⟨hbindings, hwords, fun w _ => w.render_spec, ?_⟩
    intro name before after hfirst hfresh
    exact ⟨instructionCount before, (hbindings name _).2 (.label hfresh hfirst),
      word_of_firstDeclared hwords hfirst⟩

/-- **Assembling is correct from end to end.** If it succeeds, the words are the translation of the
operations that were read. -/
theorem assemble_translates {source : String} {words : List Word}
    (h : assemble source = .ok words) :
    ∃ ops table, Operation.ofSource source = .ok ops ∧
      Program.ofSource source = .ok ⟨words, table⟩ ∧ Translation ops table words := by
  cases hread : Operation.ofSource source with
  | error cause => simp [assemble_of_error hread] at h
  | ok ops =>
    have hsource : Program.ofSource source = Program.ofOperations ops := by
      simp [Program.ofSource, hread]
    rw [assemble, hsource] at h
    cases hend : Program.ofOperations ops with
    | error failure => simp [hend, Except.map] at h
    | ok program =>
      obtain rfl : program.words = words := by simpa [hend, Except.map] using h
      refine ⟨ops, program.table, rfl, by rw [hsource, hend], ?_⟩
      exact translation_of_ofOperations (Operation.wellRead_of_ofSource hread) hend

/-- A name that is used before it is declared, a variable that comes after it, and a label at the
end. -/
theorem assemble_translates_loop :
    ∃ ops table, Operation.ofSource "@i\n@j\n(i)\n0;JMP\n(END)" = .ok ops ∧
      Program.ofSource "@i\n@j\n(i)\n0;JMP\n(END)" =
        .ok ⟨[2#16, 17#16, 0b1110101010000111#16], table⟩ ∧
      Translation ops table [2#16, 17#16, 0b1110101010000111#16] :=
  assemble_translates rfl

end HackAssembler
