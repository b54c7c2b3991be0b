import HackAssembler.Assembly.Program
import HackAssembler.Proofs.Image

/-!
# Names and lines are labels

Assembling asks of a name only whether it is predefined and whether it is another name, and of a
line only whether it is another line and whether it comes earlier. So operations can be given other
names and other lines, and the outcome is the same under the new names and lines.

Two runs are followed side by side. The tables that they build are related by
`SymbolTable.Relabelled`, and every step of the first pass keeps this relation. The second pass asks
related tables the same questions.

## Main definitions

* `Operation.relabel` — an operation under another name and with another line.
* `Line.KeepsOrder` — new lines that are told apart and ordered as the old ones.
* `SymbolTable.Relabelled` — a table is another one under new names and lines.
* `Program.SameOutcome` — an outcome is another one under new names and lines.
-/

namespace HackAssembler

/-! ## New names and lines -/

/-- The statement under another name. -/
def Statement.rename (r : String → String) : Statement → Statement
  | .label name => .label (r name)
  | .symbol name allocates => .symbol (r name) allocates
  | .constant value => .constant value
  | .compute target computation jump => .compute target computation jump
  | .reserve => .reserve

/-- The fault of the same kind that is about another name. -/
def Fault.rename (r : String → String) : Fault → Fault
  | .frozenTable name => .frozenTable (r name)
  | .outOfRam name => .outOfRam (r name)
  | .undefinedSymbol name => .undefinedSymbol (r name)
  | .addressRange value => .addressRange value
  | .unknownComputation text => .unknownComputation text
  | .unknownJump text => .unknownJump text

/-- What happened to a name, told of another name. -/
def Event.rename (r : String → String) : Event → Event
  | .slotGiven name address => .slotGiven (r name) address
  | .slotRetired name address => .slotRetired (r name) address
  | .labelBound name address => .labelBound (r name) address

section Relabel
variable (r : String → String) (f : Line → Line)

/-- The operation under another name, at another line. -/
def Operation.relabel (op : Operation) : Operation := ⟨op.statement.rename r, f op.line⟩

def Diagnostic.relabel (d : Diagnostic) : Diagnostic := ⟨d.fault.rename r, f d.line⟩

def Warning.relabel (w : Warning) : Warning := ⟨f w.line, r w.name⟩

def Report.relabel (report : Report) : Report :=
  ⟨report.errors.map (.relabel r f), report.warnings.map (.relabel r f)⟩

end Relabel

/-- The new lines are told apart and ordered as the old ones. -/
structure Line.KeepsOrder (f : Line → Line) (lines : List Line) : Prop where
  injective : ∀ a ∈ lines, ∀ b ∈ lines, f a = f b → a = b
  number_le : ∀ a ∈ lines, ∀ b ∈ lines, (f a).number ≤ (f b).number ↔ a.number ≤ b.number

@[simp] theorem Statement.rename_id (s : Statement) : s.rename id = s := by cases s <;> rfl

@[simp] theorem Fault.rename_id (fault : Fault) : fault.rename id = fault := by
  cases fault <;> rfl

/-! ## Faults without a name -/

/-- That a number is too large has nothing to do with names. -/
@[simp] theorem Word.mapError_load (r : String → String) (value : Int) :
    (load value).mapError (Fault.rename r) = load value := by
  rw [load]
  split <;> rfl

/-- That a mnemonic is unknown has nothing to do with names. -/
@[simp] theorem Word.mapError_ofComputation (r : String → String) (target : Option String)
    (computation : String) (jump : Option String) :
    (ofComputation target computation jump).mapError (Fault.rename r) =
      ofComputation target computation jump := by
  rw [ofComputation, Mnemonic.computationSum]
  cases Mnemonic.opcodes.lookup computation with
  | none => rfl
  | some c =>
    cases jump with
    | none => rfl
    | some text =>
      rw [Mnemonic.jumpCode]
      cases Mnemonic.jumps.lookup text <;> rfl

/-- That a number has no decimal text has nothing to do with names. -/
@[simp] theorem Operation.tellable_relabel (r : String → String) (f : Line → Line)
    (op : Operation) : (op.relabel r f).Tellable ↔ op.Tellable := by
  obtain ⟨statement, line⟩ := op
  cases statement <;> simp [Tellable, relabel, Statement.rename]

/-! ## Tables -/

namespace SymbolTable

/-- The second table is the first one under new names and lines. -/
structure Relabelled (r : String → String) (f : Line → Line) (t t' : SymbolTable) : Prop where
  bindings : ∀ name, t'.binding? (r name) = t.binding? name
  /-- No name is bound but the new ones. -/
  unbound : ∀ name, (∀ old, r old ≠ name) → t'.binding? name = none
  ram : t'.ram = t.ram
  frozen : t'.frozen = t.frozen
  programLength : t'.programLength = t.programLength
  history : t'.history = t.history.map (.rename r)
  errors : t'.errors = t.errors.map (.relabel r f)
  warnings : t'.warnings = t.warnings.map (.relabel r f)

/-- Two steps have the same answer and leave tables that are the same, under new names and lines. -/
structure SameAnswer {α : Type} (r : String → String) (f : Line → Line)
    (x x' : Except Fault α × SymbolTable) : Prop where
  answer : x'.1 = x.1.mapError (.rename r)
  table : Relabelled r f x.2 x'.2

/-- A renaming that fixes the predefined names leads from the initial table to itself. -/
theorem relabelled_initial {r : String → String} (hr : Function.Injective r)
    (hp : ∀ name ∈ predefinedNames, r name = name) (f : Line → Line) :
    Relabelled r f initial initial where
  bindings name := by
    by_cases hname : name ∈ predefinedNames
    · rw [hp name hname]
    · -- A name that is not predefined cannot become one: that name is taken by itself.
      have hnew : r name ∉ predefinedNames := by
        intro hmem
        have heq : r name = name := hr (hp (r name) hmem)
        exact hname (heq ▸ hmem)
      rw [binding?_initial, binding?_initial, (Naming.lookup_eq_none_iff name).2 hname,
        (Naming.lookup_eq_none_iff (r name)).2 hnew]
  unbound name hname := by
    have hnew : name ∉ predefinedNames := fun hmem => hname name (hp name hmem)
    rw [binding?_initial, (Naming.lookup_eq_none_iff name).2 hnew]
    rfl
  ram := rfl
  frozen := rfl
  programLength := rfl
  history := by simp [initial]
  errors := by simp [initial]
  warnings := by simp [initial]

namespace Relabelled
variable {r : String → String} {f : Line → Line} {t t' : SymbolTable}

/-! ## What is told of related tables -/

theorem address? (h : Relabelled r f t t') (name : String) :
    t'.address? (r name) = t.address? name := by
  rw [SymbolTable.address?, h.bindings, SymbolTable.address?]

theorem labelNames (h : Relabelled r f t t') : t'.labelNames = t.labelNames.map r := by
  have hevent (e : Event) : (e.rename r).label? = e.label?.map r := by cases e <;> rfl
  rw [SymbolTable.labelNames, h.history, Array.toList_map, List.filterMap_map,
    SymbolTable.labelNames, List.map_filterMap]
  exact List.filterMap_congr fun e _ => hevent e

theorem variableNames (h : Relabelled r f t t') : t'.variableNames = t.variableNames.map r := by
  have hevent (e : Event) : (e.rename r).slot? = e.slot?.map r := by cases e <;> rfl
  have hslot (name : String) : t'.isSlot (r name) = t.isSlot name := by
    rw [isSlot, h.bindings, isSlot]
  have hgiven : t'.history.toList.filterMap Event.slot? =
      (t.history.toList.filterMap Event.slot?).map r := by
    rw [h.history, Array.toList_map, List.filterMap_map, List.map_filterMap]
    exact List.filterMap_congr fun e _ => hevent e
  rw [SymbolTable.variableNames, hgiven, List.filter_map, SymbolTable.variableNames]
  congr 1
  exact List.filter_congr fun name _ => hslot name

theorem lookup (h : Relabelled r f t t') (name : String) :
    t'.lookup (r name) = (t.lookup name).mapError (.rename r) := by
  rw [SymbolTable.lookup, h.address?, SymbolTable.lookup]
  cases t.address? name <;> rfl

/-! ## The first pass -/

section Step
variable (hr : Function.Injective r)
include hr

theorem bindLabel (h : Relabelled r f t t') (name : String) (address : Int) :
    Relabelled r f (t.bindLabel name address) (t'.bindLabel (r name) address) where
  bindings other := by simp [hr.eq_iff, h.bindings]
  unbound other hother := by simp [hother name, h.unbound other hother]
  ram := h.ram
  frozen := h.frozen
  programLength := h.programLength
  history := by simp [SymbolTable.bindLabel, h.history, Event.rename]
  errors := h.errors
  warnings := h.warnings

theorem giveSlot (h : Relabelled r f t t') (name : String) :
    Relabelled r f (t.giveSlot name) (t'.giveSlot (r name)) where
  bindings other := by simp [hr.eq_iff, h.bindings, h.ram]
  unbound other hother := by simp [hother name, h.unbound other hother]
  ram := by simp [h.ram]
  frozen := h.frozen
  programLength := h.programLength
  history := by simp [SymbolTable.giveSlot, h.history, h.ram, Event.rename]
  errors := h.errors
  warnings := h.warnings

omit hr in
theorem retireSlot (h : Relabelled r f t t') (name : String) (slot : Int) :
    Relabelled r f (t.retireSlot name slot) (t'.retireSlot (r name) slot) :=
  { h with history := by simp [SymbolTable.retireSlot, h.history, Event.rename] }

omit hr in
theorem recordError (h : Relabelled r f t t') (fault : Fault) (line : Line) :
    Relabelled r f (t.recordError fault line) (t'.recordError (fault.rename r) (f line)) :=
  { h with errors := by simp [SymbolTable.recordError, h.errors, Diagnostic.relabel] }

omit hr in
theorem recordWarning (h : Relabelled r f t t') (name : String) (line : Line) :
    Relabelled r f (t.recordWarning name line) (t'.recordWarning (r name) (f line)) :=
  { h with warnings := by simp [SymbolTable.recordWarning, h.warnings, Warning.relabel] }

omit hr in
theorem finish (h : Relabelled r f t t') (count : Nat) :
    Relabelled r f (t.finish count) (t'.finish count) :=
  { h with programLength := rfl, frozen := rfl }

theorem declare (h : Relabelled r f t t') (name : String) (address : Int) :
    SameAnswer r f (t.declare name address) (t'.declare (r name) address) := by
  rw [SymbolTable.declare, SymbolTable.declare, h.frozen, h.bindings]
  cases t.frozen with
  | true => exact ⟨rfl, h⟩
  | false =>
    cases t.binding? name with
    | none => exact ⟨rfl, h.bindLabel hr name address⟩
    | some b =>
      obtain ⟨role, slot⟩ := b
      cases role with
      | slot => exact ⟨rfl, (h.retireSlot name slot).bindLabel hr name address⟩
      | predefined | label => exact ⟨rfl, h⟩

theorem allocate (h : Relabelled r f t t') (name : String) :
    SameAnswer r f (t.allocate name) (t'.allocate (r name)) := by
  rw [SymbolTable.allocate, SymbolTable.allocate, h.frozen, h.bindings, h.ram]
  cases t.frozen with
  | true => exact ⟨rfl, h⟩
  | false =>
    cases t.binding? name with
    | some b => exact ⟨rfl, h⟩
    | none =>
      by_cases hfull : slotLimit ≤ t.ram
      · simp only [hfull, Bool.false_eq_true, if_true, if_false]
        exact ⟨rfl, h⟩
      · simp only [hfull, Bool.false_eq_true, if_false]
        exact ⟨rfl, h.giveSlot hr name⟩

theorem reference (h : Relabelled r f t t') (name : String) (line : Line) :
    Relabelled r f (t.reference name line) (t'.reference (r name) (f line)) := by
  have hanswer := h.allocate hr name
  rw [SymbolTable.reference, SymbolTable.reference]
  cases hx : t.allocate name with
  | mk answer u =>
    cases hx' : t'.allocate (r name) with
    | mk answer' u' =>
      rw [hx, hx'] at hanswer
      obtain ⟨rfl, hu⟩ := hanswer
      cases answer with
      | ok _ => exact hu
      | error fault => exact hu.recordError fault line

/-- **The first pass.** Laying out relabelled operations in a relabelled table has the same answer
and leaves a relabelled table, also when a refused label ends it. -/
theorem layoutFrom (ops : List Operation) (count : Nat) (h : Relabelled r f t t') :
    SameAnswer r f (t.layoutFrom count ops)
      (t'.layoutFrom count (ops.map (.relabel r f))) := by
  induction ops generalizing count t t' with
  | nil => exact ⟨rfl, h.finish count⟩
  | cons op ops ih =>
    obtain ⟨statement, line⟩ := op
    cases statement with
    | label name =>
      have hanswer := h.declare hr name count
      simp only [List.map_cons, Operation.relabel, Statement.rename, SymbolTable.layoutFrom]
      cases hx : t.declare name count with
      | mk answer u =>
        cases hx' : t'.declare (r name) count with
        | mk answer' u' =>
          rw [hx, hx'] at hanswer
          obtain ⟨rfl, hu⟩ := hanswer
          cases answer with
          | error fault => exact ⟨rfl, hu⟩
          | ok new =>
            cases new with
            | true => exact ih count hu
            | false => exact ih count (hu.recordWarning name line)
    | symbol name allocates =>
      cases allocates with
      | true => exact ih (count + 1) (h.reference hr name line)
      | false => exact ih (count + 1) h
    | constant | compute | reserve => exact ih (count + 1) h

end Step

/-! ## The second pass -/

theorem code (h : Relabelled r f t t') (op : Operation) :
    t'.code (op.relabel r f) = (t.code op).mapError (.rename r) := by
  obtain ⟨statement, line⟩ := op
  cases statement with
  | label | reserve => rfl
  | constant value =>
    have hword := Word.mapError_load r value
    simp only [SymbolTable.code, Operation.relabel, Statement.rename]
    cases hw : Word.load value <;> simp_all [Except.map, Except.mapError]
  | symbol name allocates =>
    simp only [SymbolTable.code, Operation.relabel, Statement.rename, h.lookup]
    cases t.lookup name with
    | error fault => rfl
    | ok value =>
      have hword := Word.mapError_load r value
      cases hw : Word.load value <;>
        simp_all [Except.mapError, bind, Except.bind, pure, Except.pure]
  | compute target computation jump =>
    have hword := Word.mapError_ofComputation r target computation jump
    simp only [SymbolTable.code, Operation.relabel, Statement.rename]
    cases hw : Word.ofComputation target computation jump <;>
      simp_all [Except.map, Except.mapError]

section Lines
variable {ops : List Operation} (hf : Line.KeepsOrder f (ops.map (·.line)))
  (herrors : ∀ d ∈ t.errors.toList, d.line ∈ ops.map (·.line))
include hf herrors

/-- A new line was found faulty when the old one was. -/
theorem sound (h : Relabelled r f t t') :
    t'.sound (ops.map (.relabel r f)) = (t.sound ops).map (.relabel r f) := by
  have hlines : t'.errors.toList.map (·.line) = (t.errors.toList.map (·.line)).map f := by
    rw [h.errors, Array.toList_map, List.map_map, List.map_map]
    rfl
  have hmem (op : Operation) (hop : op ∈ ops) :
      ((t.errors.toList.map (·.line)).map f).contains (f op.line) =
        (t.errors.toList.map (·.line)).contains op.line := by
    rw [Bool.eq_iff_iff, List.contains_iff_mem, List.contains_iff_mem, List.mem_map]
    constructor
    · rintro ⟨line, hline, heq⟩
      obtain ⟨d, hd, rfl⟩ := List.mem_map.1 hline
      have hsame := hf.injective _ (herrors d hd) _ (List.mem_map_of_mem hop) heq
      rwa [← hsame]
    · exact fun hline => ⟨op.line, hline, rfl⟩
  rw [SymbolTable.sound, SymbolTable.sound, hlines, List.filter_map]
  congr 1
  refine List.filter_congr fun op hop => ?_
  exact congrArg (!·) (hmem op hop)

theorem words (h : Relabelled r f t t') :
    (t'.words (ops.map (.relabel r f))).map (·.1) = (t.words ops).map (·.1) := by
  rw [SymbolTable.words, SymbolTable.words, h.sound hf herrors, List.filterMap_map,
    List.map_filterMap, List.map_filterMap]
  refine List.filterMap_congr fun op _ => ?_
  simp only [Function.comp_apply, h.code]
  rcases t.code op with fault | _ | w <;> rfl

theorem faults (h : Relabelled r f t t') :
    t'.faults (ops.map (.relabel r f)) = (t.faults ops).map (.relabel r f) := by
  rw [SymbolTable.faults, SymbolTable.faults, h.sound hf herrors, List.filterMap_map,
    List.map_filterMap]
  refine List.filterMap_congr fun op _ => ?_
  simp only [Function.comp_apply, h.code]
  rcases t.code op with fault | _ | w <;> rfl

omit herrors in
/-- Sorting looks at nothing but the order of the lines. -/
theorem byLine_relabel {errors : List Diagnostic}
    (hlines : ∀ d ∈ errors, d.line ∈ ops.map (·.line)) :
    byLine (errors.map (.relabel r f)) = (byLine errors).map (.relabel r f) := by
  rw [byLine, byLine, List.map_mergeSort]
  intro a ha b hb
  exact decide_eq_decide.2 (hf.number_le _ (hlines a ha) _ (hlines b hb)).symm

/-- **The second pass.** Relabelled operations have the same image, or the relabelled report. -/
theorem verdict (h : Relabelled r f t t') :
    t'.verdict (ops.map (.relabel r f)) = (t.verdict ops).mapError (.relabel r f) := by
  have hlines : ∀ d ∈ t.errors.toList ++ t.faults ops, d.line ∈ ops.map (·.line) := by
    intro d hd
    rcases List.mem_append.1 hd with hd | hd
    · exact herrors d hd
    · obtain ⟨op, hop, hfault⟩ := List.mem_filterMap.1 hd
      have hmem : op ∈ ops := List.mem_of_mem_filter hop
      rcases ht : t.code op with fault | word <;> rw [ht] at hfault <;> cases hfault
      exact List.mem_map_of_mem hmem
  have hboth : t'.errors.toList ++ t'.faults (ops.map (.relabel r f)) =
      (t.errors.toList ++ t.faults ops).map (.relabel r f) := by
    rw [h.errors, h.faults hf herrors, Array.toList_map, List.map_append]
  have hsorted := byLine_relabel (r := r) hf hlines
  rw [SymbolTable.verdict, SymbolTable.verdict, hboth, h.words hf herrors]
  generalize t.errors.toList ++ t.faults ops = errors at hsorted
  cases errors with
  | nil => rfl
  | cons d errors =>
    rw [List.map_cons] at hsorted ⊢
    simp only [hsorted, h.warnings, Array.toList_map, Except.mapError, Report.relabel]

end Lines
end Relabelled

/-- The first pass finds faults in lines of the program only. -/
theorem line_mem_of_mem_errors {ops : List Operation} {d : Diagnostic}
    (h : d ∈ (ofProgram ops).errors.toList) : d.line ∈ ops.map (·.line) := by
  rw [errors_ofProgram] at h
  obtain ⟨earlier, op, later, rfl, hrefusal⟩ := (mem_inContext _).1 h
  rw [Naming.line_of_refusal? hrefusal]
  exact List.mem_map_of_mem (by simp)

theorem relabelled_ofProgram {r : String → String} (hr : Function.Injective r)
    (hp : ∀ name ∈ predefinedNames, r name = name) (f : Line → Line) (ops : List Operation) :
    Relabelled r f (ofProgram ops) (ofProgram (ops.map (.relabel r f))) :=
  ((relabelled_initial hr hp f).layoutFrom hr ops 0).table

end SymbolTable

/-! ## Programs -/

namespace Program

/-- Two outcomes are the same under new names and lines. -/
inductive SameOutcome (r : String → String) (f : Line → Line) :
    Except Failure Program → Except Failure Program → Prop where
  /-- The words are the same; the tables bind the new names as the old ones, in the same order. -/
  | ok {words : List Word} {table table' : SymbolTable}
      (tables : SymbolTable.Relabelled r f table table')
      (labels : table'.labelNames = table.labelNames.map r)
      (slots : table'.variableNames = table.variableNames.map r) :
      SameOutcome r f (.ok ⟨words, table⟩) (.ok ⟨words, table'⟩)
  /-- The same faults are told, of the new names and lines. -/
  | aborted (report : Report) :
      SameOutcome r f (.error (.aborted report)) (.error (.aborted (report.relabel r f)))
  | tooLarge (count : Nat) :
      SameOutcome r f (.error (.tooLarge count)) (.error (.tooLarge count))
  /-- The same constant is too long to be told. -/
  | unwritable : SameOutcome r f (.error .unwritable) (.error .unwritable)

/-- **Relabelled operations end in the relabelled outcome.** -/
theorem ofOperations_relabel {r : String → String} {f : Line → Line} {ops : List Operation}
    (hr : Function.Injective r) (hp : ∀ name ∈ predefinedNames, r name = name)
    (hf : Line.KeepsOrder f (ops.map (·.line))) :
    SameOutcome r f (ofOperations ops) (ofOperations (ops.map (.relabel r f))) := by
  have htable := SymbolTable.relabelled_ofProgram hr hp f ops
  have hsound := htable.sound hf fun d => SymbolTable.line_mem_of_mem_errors
  have hverdict := htable.verdict hf fun d => SymbolTable.line_mem_of_mem_errors
  rw [ofOperations, ofOperations, hsound, hverdict]
  simp only [List.forall_mem_map, Operation.tellable_relabel]
  split
  case isFalse => exact .unwritable
  case isTrue =>
    cases (SymbolTable.ofProgram ops).verdict ops with
    | error report => exact .aborted report
    | ok words =>
      by_cases hlarge : romSize < words.length
      · simp only [Except.mapError, ofVerdict, hlarge, if_true]
        exact .tooLarge words.length
      · simp only [Except.mapError, ofVerdict, hlarge, if_false]
        exact .ok htable htable.labelNames htable.variableNames

end Program
end HackAssembler
