import HackAssembler.Proofs.Layout

/-!
# Every declaration counts once

A label declaration is either bound or warned about, and which of the two depends on nothing but the
predefined names and the declarations in front of it. Uses of a name as a variable make the layout
take other ways, since a variable that is declared gives its name away, but they neither add nor
remove nor move a label or a warning.

## Main definitions

* `Operation.declaredName?` — the name that an operation declares.
* `SymbolTable.AccountsFor` — the table accounts for each declaration once.
-/

namespace HackAssembler

/-- The name that an operation declares. -/
def Operation.declaredName? (op : Operation) : Option String :=
  match op.statement with
  | .label name => some name
  | _ => none

namespace Naming
variable {op : Operation} {name : String}

theorem statement_of_isLabel (h : op.isLabel = true) : ∃ name, op.statement = .label name := by
  obtain ⟨statement, line⟩ := op
  cases statement with
  | label name => exact ⟨name, rfl⟩
  | constant | symbol | compute | reserve => simp [Operation.isLabel] at h

theorem declaredName?_of_label (h : op.statement = .label name) :
    op.declaredName? = some name := by simp [Operation.declaredName?, h]

/-- Only declarations are looked at here. -/
theorem of_not_isLabel (h : op.isLabel = false) (earlier : List Operation) :
    op.declaredName? = none ∧ newLabel? earlier op = none ∧ redeclaration? earlier op = none := by
  obtain ⟨statement, line⟩ := op
  cases statement with
  | label name => simp [Operation.isLabel] at h
  | constant | symbol | compute | reserve => exact ⟨rfl, rfl, rfl⟩

theorem declares_iff : declares name op = true ↔ op.declaredName? = some name := by
  obtain ⟨statement, line⟩ := op
  cases statement <;> simp [declares, Operation.declaredName?]

theorem fixed_iff (ops : List Operation) (name : String) :
    Fixed ops name ↔ name ∈ predefinedNames ∨ name ∈ ops.filterMap Operation.declaredName? := by
  rw [Fixed, List.any_eq_true, List.mem_filterMap]
  simp only [declares_iff]

/-! ## Uses of names -/

/-- Whether a name is predefined or declared, its uses do not tell. -/
theorem fixed_filter (ops : List Operation) (name : String) :
    Fixed (ops.filter (·.isLabel)) name ↔ Fixed ops name := by
  have hdeclares (op : Operation) : (op.isLabel && declares name op) = declares name op := by
    obtain ⟨statement, line⟩ := op
    cases statement <;> simp [declares, Operation.isLabel]
  simp only [Fixed, List.any_filter, hdeclares]

theorem newLabels_filter (ops : List Operation) :
    inContext newLabel? (ops.filter (·.isLabel)) = inContext newLabel? ops := by
  apply inContext_filter
  · intro earlier op hop
    exact (of_not_isLabel hop earlier).2.1
  · intro earlier op
    simp only [newLabel?, fixed_filter]

theorem redeclarations_filter (ops : List Operation) :
    inContext redeclaration? (ops.filter (·.isLabel)) = inContext redeclaration? ops := by
  apply inContext_filter
  · intro earlier op hop
    exact (of_not_isLabel hop earlier).2.2
  · intro earlier op
    simp only [redeclaration?, fixed_filter]

/-! ## Counting -/

/-- The labels are the declared names, without those that are predefined and each at its first
place. -/
theorem newLabels_eq_eraseDups (ops : List Operation) : inContext newLabel? ops =
    ((ops.filterMap Operation.declaredName?).filter (· ∉ predefinedNames)).eraseDups := by
  induction ops using List.reverseRecOn with
  | nil => rfl
  | append_singleton ops op ih =>
    rw [inContext_concat, List.filterMap_append, List.filter_append, ih]
    cases hlabel : op.isLabel with
    | false =>
      obtain ⟨hname, hnew, -⟩ := of_not_isLabel hlabel ops
      simp [hname, hnew]
    | true =>
      obtain ⟨name, hop⟩ := statement_of_isLabel hlabel
      have hname : [op].filterMap Operation.declaredName? = [name] := by
        simp [declaredName?_of_label hop]
      have hfixed := fixed_iff ops name
      by_cases hp : name ∈ predefinedNames
      · have hnew : newLabel? ops op = none := by simp [newLabel?, hop, hfixed, hp]
        simp [hname, hnew, hp]
      · have hnew : (newLabel? ops op).toList =
            if name ∈ ops.filterMap Operation.declaredName? then [] else [name] := by
          simp only [newLabel?, hop, hfixed, hp, false_or]
          split <;> rfl
        have hin : [name].filter (· ∉ predefinedNames) = [name] := by simp [hp]
        rw [hname, hnew, hin, eraseDups_concat]
        simp only [List.mem_filter, hp, not_false_eq_true, decide_true, and_true]

/-- A declaration gives a label or a warning, and not both. -/
theorem length_newLabels_add_redeclarations (ops : List Operation) :
    (inContext newLabel? ops).length + (inContext redeclaration? ops).length =
      ops.countP (·.isLabel) := by
  induction ops using List.reverseRecOn with
  | nil => rfl
  | append_singleton ops op ih =>
    rw [inContext_concat, inContext_concat, List.length_append, List.length_append,
      List.countP_append]
    cases hlabel : op.isLabel with
    | false =>
      obtain ⟨-, hnew, hold⟩ := of_not_isLabel hlabel ops
      simp [hnew, hold, hlabel, ih]
    | true =>
      obtain ⟨name, hop⟩ := statement_of_isLabel hlabel
      have hone : [op].countP (·.isLabel) = 1 := by simp [hlabel]
      by_cases hfixed : Fixed ops name
      · simp only [newLabel?, redeclaration?, hop, hfixed, if_true, hone, Option.toList_none,
          Option.toList_some, List.length_nil, List.length_singleton]
        omega
      · simp only [newLabel?, redeclaration?, hop, hfixed, if_false, hone, Option.toList_none,
          Option.toList_some, List.length_nil, List.length_singleton]
        omega

end Naming

namespace SymbolTable

/-- The table accounts for each declaration among the operations once. -/
structure AccountsFor (ops : List Operation) (t : SymbolTable) : Prop where
  /-- Each declaration whose name is predefined or declared in front of it is warned about. -/
  warnings : t.warnings.toList = inContext Naming.redeclaration? ops
  /-- Each other declaration gives a label. -/
  labels : t.labelNames = inContext Naming.newLabel? ops
  /-- So the labels are the declared names, each at its first place. -/
  distinct : t.labelNames =
    ((ops.filterMap Operation.declaredName?).filter (· ∉ predefinedNames)).eraseDups
  total : t.labelNames.length + t.warnings.size = ops.countP (·.isLabel)
  /-- Programs that differ in other operations only have the same labels and warnings. -/
  unaffected : ∀ others : List Operation,
    others.filter (·.isLabel) = ops.filter (·.isLabel) →
      (ofProgram others).labelNames = t.labelNames ∧ (ofProgram others).warnings = t.warnings

/-- **A layout accounts for each declaration once**, whatever names are used as variables. -/
theorem layout_initial_accountsFor (ops : List Operation) :
    ∃ t, initial.layout ops = (.ok (), t) ∧ AccountsFor ops t := by
  have hlabels := labelNames_ofProgram ops
  have hwarnings := warnings_ofProgram ops
  refine ⟨ofProgram ops, layout_initial_eq ops, hwarnings, hlabels, ?_, ?_, ?_⟩
  · rw [hlabels, Naming.newLabels_eq_eraseDups]
  · rw [← Array.length_toList, hlabels, hwarnings, Naming.length_newLabels_add_redeclarations]
  · intro others hothers
    constructor
    · rw [hlabels, labelNames_ofProgram, ← Naming.newLabels_filter others, hothers,
        Naming.newLabels_filter]
    · rw [← Array.toList_inj, hwarnings, warnings_ofProgram, ← Naming.redeclarations_filter others,
        hothers, Naming.redeclarations_filter]

end SymbolTable
end HackAssembler
