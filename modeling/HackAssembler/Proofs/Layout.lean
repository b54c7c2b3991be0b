import HackAssembler.Proofs.Consistency
import HackAssembler.Proofs.Naming

/-!
# The layout gives names their meaning

The table that a layout builds step by step is the one that the program as a whole describes:
every name has the binding that `Naming.binding?` tells, the next slot comes after the slots that
were asked for, and errors and warnings are those of the single operations.

The invariant is `SymbolTable.Laid`: the table describes the operations that have been laid out so
far. A variable that turns out to be a label later on is a variable in the description of the
operations in front of the declaration, and a label from there on.
-/

namespace HackAssembler.SymbolTable

open Naming (slotNames slotCount instructionCount declares)

/-- The table describes the operations that have been laid out. -/
structure Laid (done : List Operation) (t : SymbolTable) : Prop where
  unfrozen : t.frozen = false
  bindings : ∀ name, t.binding? name = Naming.binding? done name
  ram : t.ram = firstSlot + min (slotNames done).length slotCount
  labels : t.labelNames = inContext Naming.newLabel? done
  slots : t.givenSlots.map Prod.fst = (slotNames done).take slotCount
  errors : t.errors.toList = inContext Naming.refusal? done
  warnings : t.warnings.toList = inContext Naming.redeclaration? done

theorem laid_initial : Laid [] initial where
  unfrozen := rfl
  bindings name := by simp
  ram := rfl
  labels := rfl
  slots := rfl
  errors := rfl
  warnings := rfl

namespace Laid
variable {done : List Operation} {t : SymbolTable} {op : Operation} {name : String}

/-! ## Declarations -/

/-- A declaration binds a name that is neither predefined nor declared. -/
theorem bindLabel (h : Laid done t) (hop : op.statement = .label name)
    (hnew : ¬Naming.Fixed done name) :
    Laid (done ++ [op]) (t.bindLabel name (instructionCount done)) := by
  have hslots := Naming.slotNames_concat_label hop done
  refine ⟨h.unfrozen, ?_, ?_, ?_, ?_, ?_, ?_⟩
  · intro other
    simp [Naming.binding?_concat_label hop, hnew, h.bindings]
  · rw [hslots]
    exact h.ram
  · simp [h.labels, Naming.newLabel?, hop, hnew]
  · rw [hslots, givenSlots_bindLabel]
    exact h.slots
  · rw [inContext_concat_none _ (by simp [Naming.refusal?, hop])]
    exact h.errors
  · rw [inContext_concat_none _ (by simp [Naming.redeclaration?, hop, hnew])]
    exact h.warnings

/-- A variable that turns out to be a label is noted, and nothing else changes. -/
theorem retireSlot (h : Laid done t) (name : String) (slot : Int) :
    Laid done (t.retireSlot name slot) := by
  refine ⟨h.unfrozen, h.bindings, h.ram, ?_, ?_, h.errors, h.warnings⟩
  · simp [h.labels]
  · simp [h.slots]

/-- Any other declaration is only worth a warning. -/
theorem recordWarning (h : Laid done t) (hop : op.statement = .label name)
    (hold : Naming.Fixed done name) : Laid (done ++ [op]) (t.recordWarning name op.line) := by
  have hslots := Naming.slotNames_concat_label hop done
  refine ⟨h.unfrozen, ?_, ?_, ?_, ?_, ?_, ?_⟩
  · intro other
    rw [Naming.binding?_concat_label hop, if_neg (by simp [hold])]
    exact h.bindings other
  · rw [hslots]
    exact h.ram
  · rw [inContext_concat_none _ (by simp [Naming.newLabel?, hop, hold])]
    exact h.labels
  · rw [hslots]
    exact h.slots
  · rw [inContext_concat_none _ (by simp [Naming.refusal?, hop])]
    exact h.errors
  · simp [SymbolTable.recordWarning, Naming.redeclaration?, hop, hold, h.warnings]

/-! ## Other operations -/

/-- A new slot goes to a name without an address. -/
theorem giveSlot (h : Laid done t) (hop : op.statement = .symbol name true)
    (hnew : Naming.newSlot? done op = some name) (hlt : (slotNames done).length < slotCount) :
    Laid (done ++ [op]) (t.giveSlot name) := by
  have hslots : slotNames (done ++ [op]) = slotNames done ++ [name] := by simp [hnew]
  have hlength : (slotNames done ++ [name]).length = (slotNames done).length + 1 := by simp
  have hram : t.ram = firstSlot + (slotNames done).length := by
    rw [h.ram, Nat.min_eq_left (Nat.le_of_lt hlt)]
  refine ⟨h.unfrozen, ?_, ?_, ?_, ?_, ?_, ?_⟩
  · intro other
    simp [Naming.binding?_concat_slot hnew hlt, h.bindings, hram]
  · rw [ram_giveSlot, hram, hslots, hlength, Nat.min_eq_left hlt]
    omega
  · simp [h.labels, Naming.newLabel?, hop]
  · rw [givenSlots_giveSlot, List.map_append, h.slots, hslots,
      List.take_of_length_le (Nat.le_of_lt hlt), List.take_of_length_le (by omega)]
    rfl
  · have hfree : ¬slotCount ≤ (slotNames done).length := by omega
    rw [inContext_concat_none _ (by simp [Naming.refusal?, Naming.LacksSlot, hop, hfree])]
    exact h.errors
  · rw [inContext_concat_none _ (by simp [Naming.redeclaration?, hop])]
    exact h.warnings

/-- An operation that binds no name can only be refused a slot. -/
theorem unbinding (h : Laid done t) (hd : ∀ name, op.statement ≠ .label name)
    (hs : Naming.newSlot? done op = none ∨ slotCount ≤ (slotNames done).length)
    {errors : Array Diagnostic} (he : errors.toList = inContext Naming.refusal? (done ++ [op])) :
    Laid (done ++ [op]) { t with errors := errors } := by
  have htake := Naming.take_slotNames_concat hs
  have hlength := congrArg List.length htake
  rw [List.length_take, List.length_take] at hlength
  have hlabel : Naming.newLabel? done op = none := by
    rw [Naming.newLabel?]
    split
    case h_1 name hop => exact absurd hop (hd name)
    case h_2 => rfl
  have hwarning : Naming.redeclaration? done op = none := by
    rw [Naming.redeclaration?]
    split
    case h_1 name hop => exact absurd hop (hd name)
    case h_2 => rfl
  refine ⟨h.unfrozen, ?_, ?_, ?_, ?_, he, ?_⟩
  · intro other
    rw [Naming.binding?_concat_of_le (fun name => by simp [declares, hd name]) hs]
    exact h.bindings other
  · rw [Nat.min_comm, hlength, Nat.min_comm]
    exact h.ram
  · rw [inContext_concat_none _ hlabel]
    exact h.labels
  · rw [htake]
    exact h.slots
  · rw [inContext_concat_none _ hwarning]
    exact h.warnings

/-! ## Whole layouts -/

theorem declare (h : Laid done t) (hop : op.statement = .label name) :
    ∃ t', Laid (done ++ [op]) t' ∧ ∀ ops, t.layoutFrom (instructionCount done) (op :: ops) =
      t'.layoutFrom (instructionCount done) ops := by
  obtain ⟨hf, -⟩ | ⟨-, hb, ha⟩ | ⟨-, slot, hb, ha⟩ | ⟨-, b, hb, hrole, ha⟩ :=
    declare_cases t name (instructionCount done)
  · simp [h.unfrozen] at hf
  · rw [h.bindings] at hb
    have hnew := ((Naming.binding?_eq_none_iff done name).1 hb).1
    exact ⟨_, h.bindLabel hop hnew, fun ops => by simp [layoutFrom, hop, ha]⟩
  · rw [h.bindings] at hb
    have hnew : ¬Naming.Fixed done name := by simp [← Naming.role_ne_slot_iff_fixed hb]
    exact ⟨_, (h.retireSlot name slot).bindLabel hop hnew, fun ops => by
      simp [layoutFrom, hop, ha]⟩
  · rw [h.bindings] at hb
    have hold := (Naming.role_ne_slot_iff_fixed hb).1 hrole
    exact ⟨_, h.recordWarning hop hold, fun ops => by simp [layoutFrom, hop, ha]⟩

theorem reference (h : Laid done t) (hop : op.statement = .symbol name true) :
    Laid (done ++ [op]) (t.reference name op.line) := by
  have hd : ∀ other, op.statement ≠ .label other := by simp [hop]
  have hcount := Naming.slotCount_eq
  have hram := h.ram
  rw [SymbolTable.reference]
  obtain ⟨hf, -⟩ | ⟨-, b, hb, ha⟩ | ⟨-, hb, hfull, ha⟩ | ⟨-, hb, hroom, ha⟩ :=
    allocate_cases t name
  · simp [h.unfrozen] at hf
  · rw [h.bindings] at hb
    rw [ha]
    refine h.unbinding hd (.inl (Naming.newSlot?_of_bound hop hb)) ?_
    have hbound : ¬Naming.LacksSlot done name := by
      simp [Naming.LacksSlot, Naming.address?_eq, hb]
    rw [inContext_concat_none _ (by simp [Naming.refusal?, hop, hbound])]
    exact h.errors
  · have hle : slotCount ≤ (slotNames done).length := by omega
    rw [h.bindings] at hb
    rw [ha]
    refine h.unbinding hd (.inr hle) ?_
    have hlacks : Naming.LacksSlot done name := ⟨by simp [Naming.address?_eq, hb], hle⟩
    simp [Naming.refusal?, hop, hlacks, h.errors]
  · have hlt : (slotNames done).length < slotCount := by omega
    rw [h.bindings] at hb
    rw [ha]
    exact h.giveSlot hop (Naming.newSlot?_of_unbound hop hb hlt) hlt

/-- An operation that neither declares a name nor asks for one is passed over. -/
theorem skip (h : Laid done t) (hd : ∀ name, op.statement ≠ .label name)
    (hs : ∀ name, op.statement ≠ .symbol name true) : Laid (done ++ [op]) t := by
  have hslot : Naming.newSlot? done op = none := by
    rw [Naming.newSlot?]
    split
    case h_1 name hop => exact absurd hop (hs name)
    case h_2 => rfl
  have hrefusal : Naming.refusal? done op = none := by
    rw [Naming.refusal?]
    split
    case h_1 name hop => exact absurd hop (hs name)
    case h_2 => rfl
  refine h.unbinding hd (.inl hslot) ?_
  rw [inContext_concat_none _ hrefusal]
  exact h.errors

/-- **One operation.** Laying it out leads from a table of the operations in front of it to a
table that describes it as well. -/
theorem step (h : Laid done t) (op : Operation) :
    ∃ t', Laid (done ++ [op]) t' ∧ ∀ ops, t.layoutFrom (instructionCount done) (op :: ops) =
      t'.layoutFrom (instructionCount (done ++ [op])) ops := by
  cases hop : op.statement with
  | label name =>
    have hlabel : op.isLabel = true := by simp [Operation.isLabel, hop]
    rw [Naming.instructionCount_concat, hlabel]
    exact h.declare hop
  | symbol name allocates =>
    have hlabel : op.isLabel = false := by simp [Operation.isLabel, hop]
    rw [Naming.instructionCount_concat, hlabel]
    cases allocates with
    | true => exact ⟨_, h.reference hop, fun ops => by simp [layoutFrom, hop]⟩
    | false =>
      exact ⟨t, h.skip (by simp [hop]) (by simp [hop]), fun ops => by simp [layoutFrom, hop]⟩
  | constant | compute | reserve =>
    have hlabel : op.isLabel = false := by simp [Operation.isLabel, hop]
    rw [Naming.instructionCount_concat, hlabel]
    exact ⟨t, h.skip (by simp [hop]) (by simp [hop]), fun ops => by simp [layoutFrom, hop]⟩

/-- **The rest of a program.** A layout that starts in a table of the operations in front ends in
a table of the whole program; no label is refused on the way. -/
theorem layoutFrom (h : Laid done t) (ops : List Operation) :
    ∃ t', Laid (done ++ ops) t' ∧ t.layoutFrom (instructionCount done) ops =
      (.ok (), t'.finish (instructionCount (done ++ ops))) := by
  induction ops generalizing done t with
  | nil => exact ⟨t, by simpa using h, by simp [SymbolTable.layoutFrom]⟩
  | cons op ops ih =>
    obtain ⟨t₁, h₁, hstep⟩ := h.step op
    obtain ⟨t₂, h₂, hrest⟩ := ih h₁
    refine ⟨t₂, by simpa using h₂, ?_⟩
    rw [hstep, hrest, List.append_assoc, List.singleton_append]

end Laid

/-- The table of a program describes the program. -/
theorem laid_ofProgram (ops : List Operation) :
    ∃ t, Laid ops t ∧ ofProgram ops = t.finish (instructionCount ops) := by
  obtain ⟨t, ht, hlayout⟩ := laid_initial.layoutFrom ops
  refine ⟨t, ht, ?_⟩
  rw [ofProgram, layout]
  exact congrArg Prod.snd hlayout

/-- The initial table refuses no label, so the layout of a program reaches its end. -/
theorem layout_initial_eq (ops : List Operation) :
    initial.layout ops = (.ok (), ofProgram ops) := by
  obtain ⟨t, -, hlayout⟩ := laid_initial.layoutFrom ops
  have hanswer : (initial.layout ops).1 = .ok () := congrArg Prod.fst hlayout
  exact Prod.ext hanswer rfl

/-- **The layout binds every name as the program as a whole describes it.** -/
theorem binding?_ofProgram (ops : List Operation) (name : String) :
    (ofProgram ops).binding? name = Naming.binding? ops name := by
  obtain ⟨t, ht, heq⟩ := laid_ofProgram ops
  rw [heq]
  exact ht.bindings name

theorem address?_ofProgram (ops : List Operation) (name : String) :
    (ofProgram ops).address? name = Naming.address? ops name := by
  rw [address?, binding?_ofProgram, Naming.address?_eq]

theorem ram_ofProgram (ops : List Operation) :
    (ofProgram ops).ram = firstSlot + min (slotNames ops).length slotCount := by
  obtain ⟨t, ht, heq⟩ := laid_ofProgram ops
  rw [heq]
  exact ht.ram

theorem labelNames_ofProgram (ops : List Operation) :
    (ofProgram ops).labelNames = inContext Naming.newLabel? ops := by
  obtain ⟨t, ht, heq⟩ := laid_ofProgram ops
  rw [heq]
  exact ht.labels

/-- The names that were given slots are those that asked while there were slots left. -/
theorem givenSlots_ofProgram (ops : List Operation) :
    (ofProgram ops).givenSlots.map Prod.fst = (slotNames ops).take slotCount := by
  obtain ⟨t, ht, heq⟩ := laid_ofProgram ops
  rw [heq]
  exact ht.slots

theorem errors_ofProgram (ops : List Operation) :
    (ofProgram ops).errors.toList = inContext Naming.refusal? ops := by
  obtain ⟨t, ht, heq⟩ := laid_ofProgram ops
  rw [heq]
  exact ht.errors

theorem warnings_ofProgram (ops : List Operation) :
    (ofProgram ops).warnings.toList = inContext Naming.redeclaration? ops := by
  obtain ⟨t, ht, heq⟩ := laid_ofProgram ops
  rw [heq]
  exact ht.warnings

theorem programLength_ofProgram (ops : List Operation) :
    (ofProgram ops).programLength = instructionCount ops := by
  obtain ⟨t, -, heq⟩ := laid_ofProgram ops
  rw [heq]
  rfl

theorem frozen_ofProgram (ops : List Operation) : (ofProgram ops).frozen = true := by
  obtain ⟨t, -, heq⟩ := laid_ofProgram ops
  rw [heq]
  rfl

end HackAssembler.SymbolTable
