import HackAssembler.Proofs.Composition
import HackAssembler.Proofs.LifeCycle

/-!
# Layouts in a frozen table

A frozen table refuses every label and every variable, bound or not, and a layout takes the two
refusals differently: that of a variable is noted with its line and the layout goes on, that of a
label ends it on the spot. Either way no name changes. What has been noted is never struck out
again, so no image is ever made with such a table.

## Main definitions

* `Operation.refusedSlot?` — what a frozen table notes about an operation.
* `SymbolTable.noting` — a table with further errors.
* `SymbolTable.layout_of_frozen` — what a layout in a frozen table comes to.
-/

namespace HackAssembler

/-- What a frozen table notes about an operation: the refusal of a slot, with the line that asks for
it. -/
def Operation.refusedSlot? (op : Operation) : Option Diagnostic :=
  match op.statement with
  | .symbol name true => some ⟨.frozenTable name, op.line⟩
  | _ => none

namespace SymbolTable
variable {t t' : SymbolTable} {ops before : List Operation}

/-- The table with further errors behind those that it has. -/
def noting (t : SymbolTable) (errors : List Diagnostic) : SymbolTable :=
  { t with errors := t.errors ++ errors.toArray }

@[simp] theorem frozen_noting (t : SymbolTable) (errors : List Diagnostic) :
    (t.noting errors).frozen = t.frozen := rfl

@[simp] theorem programLength_noting (t : SymbolTable) (errors : List Diagnostic) :
    (t.noting errors).programLength = t.programLength := rfl

@[simp] theorem errors_noting (t : SymbolTable) (errors : List Diagnostic) :
    (t.noting errors).errors.toList = t.errors.toList ++ errors := by simp [noting]

@[simp] theorem noting_nil (t : SymbolTable) : t.noting [] = t := by simp [noting]

@[simp] theorem noting_noting (t : SymbolTable) (first second : List Diagnostic) :
    (t.noting first).noting second = t.noting (first ++ second) := by
  simp [noting, Array.append_assoc]

/-! ## One layout -/

theorem reference_of_frozen (hf : t.frozen = true) (name : String) (line : Line) :
    t.reference name line = t.noting [⟨.frozenTable name, line⟩] := by
  rw [reference, allocate_of_frozen t name hf]
  simp [recordError, noting]

/-- **One operation.** All that a frozen table does about an operation other than a label is to
note the refusal of a slot. -/
theorem layoutFrom_cons_of_frozen (hf : t.frozen = true) {op : Operation}
    (hop : op.isLabel = false) (count : Nat) (ops : List Operation) :
    t.layoutFrom count (op :: ops) =
      (t.noting op.refusedSlot?.toList).layoutFrom (count + 1) ops := by
  obtain ⟨statement, line⟩ := op
  cases statement with
  | label name => simp [Operation.isLabel] at hop
  | symbol name allocates =>
    cases allocates with
    | true =>
      change (t.reference name line).layoutFrom (count + 1) ops = _
      rw [reference_of_frozen hf]
      rfl
    | false => simp [layoutFrom, Operation.refusedSlot?]
  | constant | compute | reserve => simp [layoutFrom, Operation.refusedSlot?]

/-- **Up to the first label.** The operations in front of it are counted, and the slots that they
ask for are refused one by one. -/
theorem layoutFrom_append_of_frozen (hf : t.frozen = true)
    (hbefore : ∀ op ∈ before, op.isLabel = false) (count : Nat) (ops : List Operation) :
    t.layoutFrom count (before ++ ops) =
      (t.noting (before.filterMap Operation.refusedSlot?)).layoutFrom
        (count + before.length) ops := by
  induction before generalizing t count with
  | nil => simp
  | cons op before ih =>
    have hop : op.isLabel = false := hbefore op List.mem_cons_self
    have hrest : ∀ other ∈ before, other.isLabel = false :=
      fun other hother => hbefore other (List.mem_cons_of_mem op hother)
    have herrors : (op :: before).filterMap Operation.refusedSlot? =
        op.refusedSlot?.toList ++ before.filterMap Operation.refusedSlot? := by
      cases h : op.refusedSlot? <;> simp [h]
    have hcount : count + (op :: before).length = count + 1 + before.length := by
      rw [List.length_cons]
      omega
    rw [List.cons_append, layoutFrom_cons_of_frozen hf hop, ih (by simpa using hf) hrest,
      noting_noting, herrors, hcount]

/-- Without a label the layout reaches its end. -/
theorem layout_of_frozen_of_unlabelled (hf : t.frozen = true)
    (hops : ∀ op ∈ ops, op.isLabel = false) :
    t.layout ops =
      (.ok (), (t.noting (ops.filterMap Operation.refusedSlot?)).finish ops.length) := by
  have h := layoutFrom_append_of_frozen hf hops 0 []
  rw [List.append_nil, Nat.zero_add] at h
  rw [layout, h, layoutFrom]

/-- The first label ends the layout. -/
theorem layout_of_frozen_of_label (hf : t.frozen = true)
    (hbefore : ∀ op ∈ before, op.isLabel = false) (name : String) (line : Line)
    (after : List Operation) :
    t.layout (before ++ ⟨.label name, line⟩ :: after) =
      (.error (.frozenTable name), t.noting (before.filterMap Operation.refusedSlot?)) := by
  rw [layout, layoutFrom_append_of_frozen hf hbefore]
  simp only [layoutFrom]
  rw [declare_of_frozen _ name _ (by simpa using hf)]

/-! ## Errors stay -/

/-- No change strikes an error out. -/
theorem Change.errors_subset (c : Change t t') : t.errors.toList ⊆ t'.errors.toList := by
  cases c with
  | recordError fault line =>
    intro d hd
    simp [SymbolTable.recordError, Array.mem_toList_iff.1 hd]
  | bindLabel | takeOver | giveSlot | recordWarning | finish | freeze => exact List.Subset.refl _

theorem Changes.errors_subset (h : Changes t t') : t.errors.toList ⊆ t'.errors.toList := by
  induction h with
  | refl => exact List.Subset.refl _
  | tail _ change ih => exact List.Subset.trans ih change.errors_subset

/-- A slot that is refused in front of the first label is noted by the layout. -/
theorem mem_errors_layout_of_frozen (hf : t.frozen = true)
    (hbefore : ∀ op ∈ before, op.isLabel = false) (name : String) (line : Line)
    (after : List Operation) :
    ⟨.frozenTable name, line⟩ ∈
      (t.layout (before ++ ⟨.symbol name true, line⟩ :: after)).2.errors.toList := by
  have hupTo : ∀ op ∈ before ++ [⟨.symbol name true, line⟩], op.isLabel = false := by
    intro op hop
    rcases List.mem_append.1 hop with hop | hop
    · exact hbefore op hop
    · rw [List.mem_singleton.1 hop]
      rfl
  rw [layout, List.append_cons, layoutFrom_append_of_frozen hf hupTo]
  apply (changes_layoutFrom after _ _).errors_subset
  simp [Operation.refusedSlot?]

/-- A table that has noted an error makes no image any more, whatever is done with it in between,
and each report tells the error. -/
theorem exists_report_run {d : Diagnostic} (hd : d ∈ t.errors.toList) (actions : List Action)
    (later : List Operation) :
    (t.run actions).image later = .error .unwritable ∨
      ∃ report, (t.run actions).image later = .error (.fault report) ∧ d ∈ report.errors := by
  have hmem := (changes_run actions t).errors_subset hd
  have hwrong : (t.run actions).errors.toList ++ (t.run actions).faults later ≠ [] :=
    List.ne_nil_of_mem (List.mem_append_left _ hmem)
  by_cases htells : (t.run actions).Tells later
  · obtain ⟨report, himage, -, hsorted⟩ := exists_report htells hwrong
    exact .inr ⟨report, himage, hsorted.perm.mem_iff.2 (List.mem_append_left _ hmem)⟩
  · exact .inl (image_eq_unwritable_iff.2 htells)

/-! ## The whole layout -/

/-- **A layout in a frozen table.** Without a label it comes to its end: each variable that asks for
a slot is noted as refused, whether its name is bound or not, and the operations are counted. The
first label ends it with a fault that names the label; only the variables in front of it have been
noted then, and nothing has been counted. No name changes in either case. Once a variable was
noted, every image that is asked for later on is refused: with a report that tells the variable,
unless an operation that is looked at loads a number without a decimal text. -/
theorem layout_of_frozen (t : SymbolTable) (hf : t.frozen = true) (ops : List Operation) :
    let answer := (t.layout ops).1
    let t' := (t.layout ops).2
    ((∀ op ∈ ops, op.isLabel = false) →
      answer = .ok () ∧
      t'.errors.toList = t.errors.toList ++ ops.filterMap Operation.refusedSlot? ∧
      t'.programLength = ops.length) ∧
    (∀ before name line after, ops = before ++ ⟨.label name, line⟩ :: after →
      (∀ op ∈ before, op.isLabel = false) →
      answer = .error (.frozenTable name) ∧
      t'.errors.toList = t.errors.toList ++ before.filterMap Operation.refusedSlot? ∧
      t'.programLength = t.programLength) ∧
    SameNames t t' ∧
    ∀ before name line after, ops = before ++ ⟨.symbol name true, line⟩ :: after →
      (∀ op ∈ before, op.isLabel = false) →
      ∀ actions later,
        ((t'.run actions).image later = .error .unwritable ∨
          ∃ report, (t'.run actions).image later = .error (.fault report) ∧
            ⟨.frozenTable name, line⟩ ∈ report.errors) ∧
        ((t'.run actions).image later = .error .unwritable ↔
          ∃ op ∈ later, (∀ d ∈ (t'.run actions).errors.toList, op.line ≠ d.line) ∧
            ∃ value, (t'.run actions).loaded? op = some value ∧ ¬Text.Writable value) := by
  intro answer t'
  refine ⟨?_, ?_, ?_, ?_⟩
  · intro hops
    simp only [answer, t', layout_of_frozen_of_unlabelled hf hops]
    exact ⟨trivial, errors_noting t _, rfl⟩
  · intro before name line after heq hbefore
    subst heq
    simp only [answer, t', layout_of_frozen_of_label hf hbefore name line after]
    exact ⟨trivial, errors_noting t _, rfl⟩
  · exact sameNames_run hf [.layout ops]
  · intro before name line after heq hbefore actions later
    subst heq
    refine ⟨?_, image_eq_unwritable_iff.trans not_tells_iff⟩
    exact exists_report_run (mem_errors_layout_of_frozen hf hbefore name line after) actions later

/-- Names that are bound already are refused all the same: a variable and a label, each in a layout
of its own, and both in one. The image of a computation is refused with a report ever after. -/
theorem layout_of_frozen_bound :
    let t := ((initial.giveSlot "i").bindLabel "END" 3).freeze
    let load : Operation := ⟨.symbol "i" true, ⟨1, "@i", "@i"⟩⟩
    let jump : Operation := ⟨.compute none "0" (some "JMP"), ⟨2, "0;JMP", "0;JMP"⟩⟩
    let declare : Operation := ⟨.label "END", ⟨3, "(END)", "(END)"⟩⟩
    let refused : Diagnostic := ⟨.frozenTable "i", ⟨1, "@i", "@i"⟩⟩
    (t.layout [load, jump]).1 = .ok () ∧
      (t.layout [load, jump]).2.errors.toList = [refused] ∧
      (t.layout [load, jump]).2.programLength = 2 ∧
      (t.layout [load, declare, load]).1 = .error (.frozenTable "END") ∧
      (t.layout [load, declare, load]).2.errors.toList = [refused] ∧
      (t.layout [load, declare, load]).2.programLength = 0 ∧
      ∀ actions, ∃ report,
        ((t.layout [load, declare, load]).2.run actions).image [jump] = .error (.fault report) ∧
          refused ∈ report.errors := by
  intro t load jump declare refused
  have hf : t.frozen = true := rfl
  obtain ⟨hend, -, -, -⟩ := layout_of_frozen t hf [load, jump]
  obtain ⟨-, hlabel, -, hlater⟩ := layout_of_frozen t hf [load, declare, load]
  obtain ⟨hok, hnoted, hlength⟩ := hend (by decide)
  obtain ⟨herror, hbefore, hkept⟩ := hlabel [load] "END" _ [load] rfl (by decide)
  refine ⟨hok, hnoted, hlength, herror, hbefore, hkept, ?_⟩
  intro actions
  obtain ⟨huntold | hreport, hiff⟩ :=
    hlater [] "i" _ [declare, load] rfl (by decide) actions [jump]
  · obtain ⟨op, hop, -, value, hvalue, -⟩ := hiff.1 huntold
    obtain rfl := List.mem_singleton.1 hop
    cases hvalue
  · exact hreport

/-- **A noted error is not always reported**: not if the operations load a constant that has no
decimal text, on a line of its own. -/
theorem layout_of_frozen_unreported :
    ¬∀ (t : SymbolTable) (name : String) (line : Line) (later : List Operation), t.frozen = true →
      ∃ report, (t.layout [⟨.symbol name true, line⟩]).2.image later = .error (.fault report) := by
  intro hall
  obtain ⟨report, hreport⟩ := hall initial.freeze "x" ⟨1, "", ""⟩
    [⟨.constant Text.firstUnwritable, ⟨2, "", ""⟩⟩] rfl
  have herrors : (initial.freeze.layout [⟨.symbol "x" true, ⟨1, "", ""⟩⟩]).2.errors.toList =
      [⟨.frozenTable "x", ⟨1, "", ""⟩⟩] := by decide
  have hend : (initial.freeze.layout [⟨.symbol "x" true, ⟨1, "", ""⟩⟩]).2.image
      [⟨.constant Text.firstUnwritable, ⟨2, "", ""⟩⟩] = .error .unwritable := by
    rw [image_eq_unwritable_iff, not_tells_iff, herrors]
    exact ⟨_, List.mem_singleton_self _, by simp, _, rfl, Text.not_writable_firstUnwritable⟩
  simp [hend] at hreport

end SymbolTable
end HackAssembler
