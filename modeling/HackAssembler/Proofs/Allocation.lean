import HackAssembler.Proofs.Limits

/-!
# The table that a layout leaves

The outcome of the first pass in closed form, for every list of operations and also when the slots
run out. The names that ask for a slot are numbered in the order in which they ask. The first 65520
of them are given one, and a slot stays used up when a label takes its name over. A name that comes
later is refused whenever it is used, until a label binds it.

## Main definitions

* `Naming.lateUse?` — the fault of a use whose name asked for a slot when none was left.
* `SymbolTable.LaidOut` — the table that the operations describe.
-/

namespace HackAssembler

/-! ## Names that come too late -/

namespace Naming

/-- The fault of an operation of the program `ops`, of which `earlier` is the part in front: it uses
a variable whose number among the names that ask for a slot is 65520 or more, and no label has bound
the name so far. -/
def lateUse? (ops earlier : List Operation) (op : Operation) : Option Diagnostic :=
  match op.statement with
  | .symbol name true =>
    if name ∈ (slotNames ops).drop 65520 ∧ ∀ e ∈ earlier, e.statement ≠ .label name then
      some ⟨.outOfRam name, op.line⟩
    else none
  | _ => none

theorem slotCount_eq_limit : slotCount = 65520 := by decide

section Late
variable {earlier later : List Operation} {op : Operation} {name : String}

/-- The names of the front of a program ask for their slots first. -/
theorem isPrefix_slotNames (earlier later : List Operation) :
    slotNames earlier <+: slotNames (earlier ++ later) :=
  isPrefix_inContext newSlot? earlier later

theorem isPrefix_slotNames_concat (earlier later : List Operation) (op : Operation) :
    slotNames (earlier ++ [op]) <+: slotNames (earlier ++ op :: later) := by
  have h := isPrefix_slotNames (earlier ++ [op]) later
  rwa [← List.append_cons] at h

/-- A variable that is not bound as a label has asked for a slot by now. -/
theorem mem_slotNames_concat (hop : op.statement = .symbol name true)
    (hp : name ∉ predefinedNames) (hd : ∀ e ∈ earlier, e.statement ≠ .label name) :
    name ∈ slotNames (earlier ++ [op]) := by
  refine mem_slotNames hp ?_ ⟨op, by simp, by simp [asksFor, hop]⟩
  intro e he
  rcases List.mem_append.1 he with he | he
  · simpa [declares] using hd e he
  · simp [declares, List.mem_singleton.1 he, hop]

/-- A name lacks a slot when it is one of those that asked too late and no label has bound it. -/
theorem lacksSlot_iff (earlier later : List Operation) (hop : op.statement = .symbol name true) :
    LacksSlot earlier name ↔ name ∈ (slotNames (earlier ++ op :: later)).drop slotCount ∧
      ∀ e ∈ earlier, e.statement ≠ .label name := by
  have hnames := isPrefix_slotNames_concat earlier later op
  rw [LacksSlot, address?_eq, Option.map_eq_none_iff, binding?_eq_none_iff, Fixed, not_or]
  constructor
  · rintro ⟨⟨⟨hp, hd⟩, hslot⟩, hfull⟩
    have hd' : ∀ e ∈ earlier, e.statement ≠ .label name := by simpa [declares] using hd
    refine ⟨?_, hd'⟩
    -- The name has asked, and it is not among the first: it was refused.
    have hasked := mem_slotNames_concat hop hp hd'
    have htake : (slotNames (earlier ++ [op])).take slotCount =
        (slotNames earlier).take slotCount := take_slotNames_concat (.inr hfull)
    rw [← htake] at hslot
    rw [← List.take_append_drop slotCount (slotNames (earlier ++ [op])), List.mem_append] at hasked
    exact (hnames.drop slotCount).subset (hasked.resolve_left hslot)
  · rintro ⟨hlate, hd⟩
    have hp : name ∉ predefinedNames := (mem_slotNames_iff.1 (List.mem_of_mem_drop hlate)).1
    have hslot : name ∉ (slotNames (earlier ++ op :: later)).take slotCount := fun hmem =>
      List.disjoint_take_drop (nodup_slotNames _) (Nat.le_refl slotCount) hmem hlate
    have hearly : name ∉ (slotNames earlier).take slotCount := fun hmem =>
      hslot (((isPrefix_slotNames earlier (op :: later)).take slotCount).subset hmem)
    refine ⟨⟨⟨hp, by simpa [declares] using hd⟩, hearly⟩, ?_⟩
    -- With a slot left over, the name would have one.
    by_contra hroom
    have hlength : (slotNames (earlier ++ [op])).length ≤ slotCount := by
      have hone : (newSlot? earlier op).toList.length ≤ 1 := by cases newSlot? earlier op <;> simp
      rw [slotNames_concat, List.length_append]
      omega
    have hasked := mem_slotNames_concat hop hp hd
    rw [← List.take_of_length_le hlength] at hasked
    exact hslot ((hnames.take slotCount).subset hasked)

theorem refusal?_eq_lateUse? (earlier later : List Operation) (op : Operation) :
    refusal? earlier op = lateUse? (earlier ++ op :: later) earlier op := by
  obtain ⟨statement, line⟩ := op
  cases statement with
  | symbol name allocates =>
    cases allocates with
    | true =>
      have hop : (Operation.mk (.symbol name true) line).statement = .symbol name true := rfl
      have hiff := lacksSlot_iff earlier later hop
      rw [slotCount_eq_limit] at hiff
      exact if_congr hiff rfl rfl
    | false => rfl
  | label | constant | compute | reserve => rfl

end Late

/-! ## Slots by number -/

section Number
variable {ops : List Operation} {name : String}

theorem slotOf?_of_getElem? {k : Nat} (h : (slotNames ops)[k]? = some name) (hk : k < slotCount) :
    slotOf? ops name = some (firstSlot + k) := by
  have htake : ((slotNames ops).take slotCount)[k]? = some name := by
    rw [List.getElem?_take_of_lt hk, h]
  have hnodup : ((slotNames ops).take slotCount).Nodup :=
    (nodup_slotNames ops).sublist (List.take_sublist _ _)
  rw [slotOf?, idxOf?_of_getElem? hnodup htake]
  rfl

theorem slotOf?_eq_none (h : ∀ k : Nat, (slotNames ops)[k]? = some name → slotCount ≤ k) :
    slotOf? ops name = none := by
  rw [slotOf?_eq_none_iff, List.mem_take_iff_getElem]
  rintro ⟨k, hk, rfl⟩
  have hle := h k (List.getElem?_eq_getElem (by omega))
  omega

theorem binding?_of_firstDeclared {before after : List Operation} (hp : name ∉ predefinedNames)
    (h : FirstDeclared ops name before after) :
    binding? ops name = some ⟨.label, instructionCount before⟩ := by
  rw [binding?, (lookup_eq_none_iff name).2 hp, declaredAt?_of_firstDeclared h]
  rfl

/-- A name that is neither predefined nor declared has what slot it was given. -/
theorem binding?_of_undeclared (hp : name ∉ predefinedNames)
    (h : ∀ op ∈ ops, op.statement ≠ .label name) :
    binding? ops name = (slotOf? ops name).map (Binding.mk .slot) := by
  have hnone : declaredAt? ops name = none := by
    rw [declaredAt?_eq_none_iff]
    simpa [declares] using h
  rw [binding?, (lookup_eq_none_iff name).2 hp, hnone]
  rfl

end Number
end Naming

/-! ## The table -/

namespace SymbolTable
open Naming (FirstDeclared instructionCount slotNames slotCount)

/-- Of the names that were given slots, those that no label took over still have them. -/
theorem isSlot_ofProgram {ops : List Operation} {name : String}
    (h : name ∈ (slotNames ops).take slotCount) :
    (ofProgram ops).isSlot name = decide (∀ op ∈ ops, op.statement ≠ .label name) := by
  have hbound : Naming.binding? ops name ≠ none := by
    rw [Ne, Naming.binding?_eq_none_iff, not_and, not_not]
    exact fun _ => h
  obtain ⟨b, hb⟩ := Option.ne_none_iff_exists'.1 hbound
  have hp : name ∉ predefinedNames := (Naming.mem_slotNames_iff.1 (List.mem_of_mem_take h)).1
  have hrole := Naming.role_ne_slot_iff_fixed hb
  rw [Naming.Fixed, or_iff_right hp, ← not_iff_not, not_not] at hrole
  rw [isSlot, binding?_ofProgram, hb, Option.any_some, decide_eq_decide, hrole]
  simp [Naming.declares]

theorem variableNames_eq_filter_isSlot (ops : List Operation) : (ofProgram ops).variableNames =
    ((slotNames ops).take slotCount).filter (ofProgram ops).isSlot := by
  rw [variableNames_eq, ← givenSlots_ofProgram, List.filter_map]
  rfl

theorem variableNames_ofProgram (ops : List Operation) :
    (ofProgram ops).variableNames = ((slotNames ops).take slotCount).filter
      fun name => ∀ op ∈ ops, op.statement ≠ .label name := by
  rw [variableNames_eq_filter_isSlot]
  exact List.filter_congr fun name h => isSlot_ofProgram h

theorem errors_ofProgram_eq_lateUses (ops : List Operation) :
    (ofProgram ops).errors.toList = inContext (Naming.lateUse? ops) ops := by
  rw [errors_ofProgram]
  apply inContext_congr
  rintro earlier op later rfl
  exact Naming.refusal?_eq_lateUse? earlier later op

/-- The table is the one that the operations describe. -/
structure LaidOut (ops : List Operation) (t : SymbolTable) : Prop where
  predefined : ∀ entry ∈ predefinedSymbols, t.binding? entry.1 = some ⟨.predefined, entry.2⟩
  labels : ∀ name before after, name ∉ predefinedNames → FirstDeclared ops name before after →
    t.binding? name = some ⟨.label, instructionCount before⟩
  slots : ∀ name, ∀ k : Nat, (slotNames ops)[k]? = some name → k < 65520 →
    (∀ op ∈ ops, op.statement ≠ .label name) → t.binding? name = some ⟨.slot, 16 + k⟩
  unbound : ∀ name, name ∉ predefinedNames → (∀ op ∈ ops, op.statement ≠ .label name) →
    (∀ k : Nat, (slotNames ops)[k]? = some name → 65520 ≤ k) → t.binding? name = none
  ram : t.ram = 16 + min (slotNames ops).length 65520
  labelNames : t.labelNames = inContext Naming.newLabel? ops
  variableNames : t.variableNames = ((slotNames ops).take 65520).filter
    fun name => ∀ op ∈ ops, op.statement ≠ .label name
  errors : t.errors.toList = inContext (Naming.lateUse? ops) ops
  warnings : t.warnings.toList = inContext Naming.redeclaration? ops
  programLength : t.programLength = instructionCount ops
  frozen : t.frozen = true

/-- **A layout reaches its end and leaves the table that the operations describe**, whether or not
there is a slot for every variable. -/
theorem layout_initial_laidOut (ops : List Operation) :
    ∃ t, initial.layout ops = (.ok (), t) ∧ LaidOut ops t := by
  have hcount := Naming.slotCount_eq_limit
  refine ⟨ofProgram ops, layout_initial_eq ops, ?_⟩
  constructor
  case predefined =>
    intro entry hentry
    exact ((recorded_ofProgram ops).predefined entry.1 entry.2).2 hentry
  case labels =>
    intro name before after hp hfirst
    rw [binding?_ofProgram, Naming.binding?_of_firstDeclared hp hfirst]
  case slots =>
    intro name k hk hlt hd
    have hp := (Naming.mem_slotNames_iff.1 (List.mem_of_getElem? hk)).1
    rw [binding?_ofProgram, Naming.binding?_of_undeclared hp hd,
      Naming.slotOf?_of_getElem? hk (hcount ▸ hlt)]
    rfl
  case unbound =>
    intro name hp hd hlate
    rw [binding?_ofProgram, Naming.binding?_of_undeclared hp hd,
      Naming.slotOf?_eq_none (hcount ▸ hlate)]
    rfl
  case ram => rw [ram_ofProgram, hcount, firstSlot]
  case labelNames => exact labelNames_ofProgram ops
  case variableNames => rw [variableNames_ofProgram, hcount]
  case errors => exact errors_ofProgram_eq_lateUses ops
  case warnings => exact warnings_ofProgram ops
  case programLength => exact programLength_ofProgram ops
  case frozen => exact frozen_ofProgram ops

end SymbolTable
end HackAssembler
