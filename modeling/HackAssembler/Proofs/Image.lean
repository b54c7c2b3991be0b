import HackAssembler.Proofs.Encoding
import HackAssembler.Proofs.Layout
import HackAssembler.Proofs.Reading

/-!
# Images and reports

What is wrong with a program, told operation by operation and in one go. Assembling finds it in two
rounds: the layout finds the variables that lack a slot, the encoding all the rest, and a line that
the layout found faulty is not looked at again. Both rounds together find the fault of each faulty
operation once, and without a fault every instruction has its word.

## Main definitions

* `Naming.fault?` — what is wrong with an operation of a program.
* `Naming.diagnostics`, `Naming.redeclarations` — the errors and warnings of a program.
-/

namespace HackAssembler

namespace Naming

/-- What is wrong with the use of a name in the program `ops`, of which `earlier` is the part in
front. A variable that lacks a slot is faulty, even if a label binds its name later on. -/
def symbolFault? (ops earlier : List Operation) (name : String) (allocates : Bool) :
    Option Fault :=
  if allocates ∧ LacksSlot earlier name then some (.outOfRam name)
  else if ¬allocates ∧ address? ops name = none then some (.undefinedSymbol name)
  else (address? ops name).bind Statement.rangeFault?

/-- What is wrong with an operation of the program `ops`, of which `earlier` is the part in
front. -/
def fault? (ops earlier : List Operation) (op : Operation) : Option Fault :=
  match op.statement with
  | .constant value => Statement.rangeFault? value
  | .symbol name allocates => symbolFault? ops earlier name allocates
  | .compute _ computation jump => Statement.computationFault? computation jump
  | .label _ | .reserve => none

/-- The faults of a program, one for each faulty operation. -/
def diagnostics (ops : List Operation) : List Diagnostic :=
  inContext (fun earlier op => (fault? ops earlier op).map (⟨·, op.line⟩)) ops

/-- The warnings of a program, one for each declaration that binds nothing. -/
def redeclarations (ops : List Operation) : List Warning := inContext redeclaration? ops

/-- The fault of an operation is found by the layout or else by the encoding. -/
theorem map_fault?_eq (earlier later : List Operation) (op : Operation) :
    (fault? (earlier ++ op :: later) earlier op).map (Diagnostic.mk · op.line) =
      (refusal? earlier op).or
        ((op.statement.fault? (address? (earlier ++ op :: later))).map
          (Diagnostic.mk · op.line)) := by
  obtain ⟨statement, line⟩ := op
  cases statement with
  | label | constant | compute | reserve => rfl
  | symbol name allocates =>
    cases allocates with
    | false =>
      cases ha : address? (earlier ++ ⟨.symbol name false, line⟩ :: later) name with
      | none => simp [fault?, symbolFault?, refusal?, Statement.fault?, ha]
      | some value => simp [fault?, symbolFault?, refusal?, Statement.fault?, ha]
    | true =>
      by_cases hlacks : LacksSlot earlier name
      · simp [fault?, symbolFault?, refusal?, hlacks]
      · have hbound : address? (earlier ++ ⟨.symbol name true, line⟩ :: later) name ≠ none :=
          address?_ne_none_of_not_lacksSlot rfl hlacks
        obtain ⟨value, ha⟩ := Option.ne_none_iff_exists'.1 hbound
        simp [fault?, symbolFault?, refusal?, Statement.fault?, hlacks, ha]

/-- A refusal is about the line of its operation. -/
theorem line_of_refusal? {earlier : List Operation} {op : Operation} {d : Diagnostic}
    (h : refusal? earlier op = some d) : d.line = op.line := by
  rw [refusal?] at h
  split at h
  case h_1 =>
    split at h
    · cases h
      rfl
    · cases h
  case h_2 => cases h

/-- The diagnostics of a program stand in the order of the lines. -/
theorem pairwise_diagnostics {ops : List Operation} (h : Operation.WellRead ops) :
    (diagnostics ops).Pairwise fun a b => a.line.number < b.line.number := by
  refine pairwise_inContext _ h.ordered ?_
  intro e a e' a' d d' hd hd' hlt
  obtain ⟨_, -, rfl⟩ := Option.map_eq_some_iff.1 hd
  obtain ⟨_, -, rfl⟩ := Option.map_eq_some_iff.1 hd'
  exact hlt

end Naming

namespace SymbolTable
open Naming (diagnostics redeclarations refusal?)
variable {ops : List Operation}

/-! ## The second round -/

section Pieces
variable (t : SymbolTable) (l r : List Operation)

variable {t l} in
theorem mem_sound {op : Operation} :
    op ∈ t.sound l ↔ op ∈ l ∧ ∀ d ∈ t.errors.toList, op.line ≠ d.line := by
  simp only [sound, List.mem_filter, Bool.not_eq_true', ← Bool.not_eq_true, List.contains_iff_mem,
    List.mem_map, not_exists, not_and]
  exact and_congr_right fun _ => forall₂_congr fun d _ => ne_comm

theorem sound_append : t.sound (l ++ r) = t.sound l ++ t.sound r := by simp [sound]

theorem words_append : t.words (l ++ r) = t.words l ++ t.words r := by simp [words, sound_append]

theorem faults_append : t.faults (l ++ r) = t.faults l ++ t.faults r := by
  simp [faults, sound_append]

end Pieces

/-- A label has neither a word nor a fault. -/
theorem words_faults_label (t : SymbolTable) {op : Operation} (h : op.isLabel = true) :
    t.words [op] = [] ∧ t.faults [op] = [] := by
  obtain ⟨statement, line⟩ := op
  cases statement with
  | label name =>
    simp [words, faults, sound, List.filterMap_filter, code]
  | constant | symbol | compute | reserve => simp [Operation.isLabel] at h

/-- Encoding looks up no name but the one that the operation loads. -/
theorem code_congr {t t' : SymbolTable} {op : Operation}
    (h : ∀ name allocates, op.statement = .symbol name allocates →
      t'.lookup name = t.lookup name) : t'.code op = t.code op := by
  obtain ⟨statement, line⟩ := op
  cases statement with
  | symbol name allocates =>
    have hname := h name allocates rfl
    simp only [code, hname]
  | label | constant | compute | reserve => rfl

/-- Tables that found the same lines faulty and encode each operation alike give the same words and
faults. -/
theorem words_faults_congr {t t' : SymbolTable} (herrors : t'.errors = t.errors)
    (hcode : ∀ op ∈ ops, t'.code op = t.code op) :
    t'.words ops = t.words ops ∧ t'.faults ops = t.faults ops := by
  have hsound : t'.sound ops = t.sound ops := by rw [sound, herrors, sound]
  have hmem : ∀ op ∈ t.sound ops, t'.code op = t.code op :=
    fun op hop => hcode op (List.mem_of_mem_filter hop)
  constructor
  · rw [words, words, hsound]
    exact List.filterMap_congr fun op hop => by rw [hmem op hop]
  · rw [faults, faults, hsound]
    exact List.filterMap_congr fun op hop => by rw [hmem op hop]

/-- Encoding an operation of a program: a label has no word, and an instruction has the word of its
statement or a fault. -/
theorem code_ofProgram_cases (h : Operation.WellRead ops) {op : Operation} (hop : op ∈ ops) :
    (op.isLabel = true ∧ (ofProgram ops).code op = .ok none ∧
      op.statement.fault? (Naming.address? ops) = none) ∨
    (op.isLabel = false ∧ ∃ w, (ofProgram ops).code op = .ok (some w) ∧
      Statement.Encodes (Naming.address? ops) op.statement w ∧
      op.statement.fault? (Naming.address? ops) = none) ∨
    ∃ fault, (ofProgram ops).code op = .error fault ∧
      op.statement.fault? (Naming.address? ops) = some fault := by
  have haddress : (ofProgram ops).address? = Naming.address? ops :=
    funext (address?_ofProgram ops)
  cases hlabel : op.isLabel with
  | true =>
    obtain ⟨statement, line⟩ := op
    cases statement with
    | label name => exact .inl ⟨rfl, rfl, rfl⟩
    | constant | symbol | compute | reserve => simp [Operation.isLabel] at hlabel
  | false =>
    have hcases := code_cases (t := ofProgram ops) (h.nonneg op hop)
      (fun name value hvalue => Naming.address?_nonneg (haddress ▸ hvalue)) hlabel
      (h.unreserved op hop)
    rw [haddress] at hcases
    rcases hcases with hword | hfault
    · exact .inr (.inl ⟨rfl, hword⟩)
    · exact .inr (.inr hfault)

/-- The layout found a line faulty when it refused the operation of that line. -/
theorem mem_line_errors_iff (h : Operation.WellRead ops) {earlier later : List Operation}
    {op : Operation} (hops : ops = earlier ++ op :: later) :
    op.line ∈ (ofProgram ops).errors.toList.map (·.line) ↔ (refusal? earlier op).isSome := by
  rw [errors_ofProgram, List.mem_map, Option.isSome_iff_exists]
  constructor
  · rintro ⟨d, hd, hline⟩
    obtain ⟨earlier', op', later', hops', hrefusal⟩ := (mem_inContext refusal?).1 hd
    -- Lines are told apart by their numbers, so this operation stands at one place only.
    have hnodup := h.nodup_line
    rw [hops] at hops' hnodup
    obtain ⟨rfl, rfl⟩ := eq_of_append_cons_eq hnodup hops'
      (hline.symm.trans (Naming.line_of_refusal? hrefusal))
    exact ⟨d, hrefusal⟩
  · rintro ⟨d, hd⟩
    exact ⟨d, (mem_inContext refusal?).2 ⟨earlier, op, later, hops, hd⟩, Naming.line_of_refusal? hd⟩

/-- The second round finds what is wrong with the statements that the first let pass. -/
theorem faults_ofProgram (h : Operation.WellRead ops) :
    (ofProgram ops).faults ops = inContext (fun earlier op =>
      if (refusal? earlier op).isSome then none
      else (op.statement.fault? (Naming.address? ops)).map (Diagnostic.mk · op.line)) ops := by
  rw [faults, sound, List.filterMap_filter, filterMap_eq_inContext]
  apply inContext_congr
  intro earlier op later hops
  have hmem := mem_line_errors_iff h hops
  rw [← List.contains_iff_mem] at hmem
  rw [Bool.eq_iff_iff.2 hmem]
  cases (refusal? earlier op).isSome with
  | true => rfl
  | false =>
    have hop : op ∈ ops := by simp [hops]
    rcases code_ofProgram_cases h hop with
      ⟨-, he, hf⟩ | ⟨-, w, he, -, hf⟩ | ⟨fault, he, hf⟩ <;> simp [he, hf]

/-! ## Both rounds -/

/-- Both rounds together find the fault of each faulty operation once. -/
theorem errors_append_faults_perm (h : Operation.WellRead ops) :
    ((ofProgram ops).errors.toList ++ (ofProgram ops).faults ops).Perm (diagnostics ops) := by
  have hboth : diagnostics ops = inContext (fun earlier op => (refusal? earlier op).or
      ((op.statement.fault? (Naming.address? ops)).map (Diagnostic.mk · op.line))) ops := by
    apply inContext_congr
    intro earlier op later hops
    rw [hops]
    exact Naming.map_fault?_eq earlier later op
  rw [errors_ofProgram, faults_ofProgram h, hboth]
  exact inContext_append_perm refusal? _ ops

theorem refusals_eq_nil (h : Operation.WellRead ops) (hd : diagnostics ops = []) :
    inContext refusal? ops = [] := by
  have hperm := errors_append_faults_perm h
  rw [hd, errors_ofProgram] at hperm
  exact (List.append_eq_nil_iff.1 hperm.eq_nil).1

theorem stablySorted_byLine (errors : List Diagnostic) :
    StablySorted (·.line.number) errors (byLine errors) :=
  stablySorted_mergeSort (fun d : Diagnostic => d.line.number) errors

/-- Diagnostics whose lines are all different can be brought into one order only. -/
theorem byLine_eq_of_perm {errors sorted : List Diagnostic} (hperm : errors.Perm sorted)
    (hsorted : sorted.Pairwise fun a b => a.line.number < b.line.number) :
    byLine errors = sorted := by
  have hnodup : (sorted.map (·.line.number)).Nodup :=
    (List.pairwise_map.2 hsorted).imp Int.ne_of_lt
  have hby := stablySorted_byLine errors
  have hsame : (byLine errors).Perm sorted := hby.perm.trans hperm
  refine hsame.eq_of_pairwise ?_ hby.ordered (hsorted.imp Int.le_of_lt)
  intro a b ha hb hab hba
  exact List.inj_on_of_nodup_map hnodup (hsame.subset ha) hb (Int.le_antisymm hab hba)

/-- **A faulty program has a report**: one diagnostic for each faulty operation, by line. -/
theorem verdict_of_diagnostics_ne_nil (h : Operation.WellRead ops) (hd : diagnostics ops ≠ []) :
    (ofProgram ops).verdict ops = .error ⟨diagnostics ops, redeclarations ops⟩ := by
  have hperm := errors_append_faults_perm h
  have hby := byLine_eq_of_perm hperm (Naming.pairwise_diagnostics h)
  rw [verdict]
  split
  case h_1 hnil =>
    rw [hnil] at hperm
    exact absurd hperm.symm.eq_nil hd
  case h_2 errors _ => rw [hby, warnings_ofProgram, redeclarations]

/-- Operations without a fault have their words, in order. -/
theorem forall₂_words {t : SymbolTable} {address? : String → Option Int} {l : List Operation}
    (herrors : t.errors.toList = [])
    (h : ∀ op ∈ l, (op.isLabel = true ∧ t.code op = .ok none) ∨
      (op.isLabel = false ∧ ∃ w, t.code op = .ok (some w) ∧
        Statement.Encodes address? op.statement w)) :
    List.Forall₂ (fun op w => Statement.Encodes address? op.statement w)
      (l.filter fun op => !op.isLabel) ((t.words l).map (·.1)) := by
  have hsound (l : List Operation) : t.sound l = l := by simp [sound, herrors]
  induction l with
  | nil => simp [words, hsound]
  | cons op l ih =>
    have hrest := ih fun e he => h e (List.mem_cons_of_mem op he)
    rw [words, hsound] at hrest ⊢
    rcases h op List.mem_cons_self with ⟨hlabel, he⟩ | ⟨hlabel, w, he, hw⟩
    · rw [List.filter_cons_of_neg (by simp [hlabel]), List.filterMap_cons_none (by simp [he])]
      exact hrest
    · rw [List.filter_cons_of_pos (by simp [hlabel]),
        List.filterMap_cons_some (b := (w, op)) (by simp [he])]
      exact .cons hw hrest

/-- **A program without a fault has an image**: the word of each of its instructions. -/
theorem verdict_of_diagnostics_eq_nil (h : Operation.WellRead ops) (hd : diagnostics ops = []) :
    ∃ words, (ofProgram ops).verdict ops = .ok words ∧
      List.Forall₂ (fun op w => Statement.Encodes (Naming.address? ops) op.statement w)
        (ops.filter fun op => !op.isLabel) words := by
  have hperm := errors_append_faults_perm h
  rw [hd] at hperm
  have hnil := hperm.eq_nil
  obtain ⟨herrors, hfaults⟩ := List.append_eq_nil_iff.1 hnil
  refine ⟨((ofProgram ops).words ops).map (·.1), by rw [verdict, hnil], forall₂_words herrors ?_⟩
  intro op hop
  rcases code_ofProgram_cases h hop with ⟨hlabel, he, -⟩ | ⟨hlabel, w, he, hw, -⟩ | ⟨fault, he, -⟩
  · exact .inl ⟨hlabel, he⟩
  · exact .inr ⟨hlabel, w, he, hw⟩
  · have hmem : Diagnostic.mk fault op.line ∈ (ofProgram ops).faults ops := by
      refine List.mem_filterMap.2 ⟨op, ?_, by simp [he]⟩
      simp [sound, herrors, hop]
    simp [hfaults] at hmem

end SymbolTable
end HackAssembler
