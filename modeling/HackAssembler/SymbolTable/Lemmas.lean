import HackAssembler.SymbolTable.Basic

/-!
# What the operations of a table do to its views

One equation for each operation and view. With these the map inside a table need not be looked
at again.
-/

namespace HackAssembler.SymbolTable

variable (t : SymbolTable) (name other : String) (address : Int)

/-! ## The initial table -/

theorem nodup_predefinedNames : predefinedNames.Nodup := by decide

@[simp] theorem binding?_initial :
    initial.binding? name = (predefinedSymbols.lookup name).map (Binding.mk .predefined) := by
  cases h : predefinedSymbols.lookup name with
  | none =>
    apply Std.TreeMap.getElem?_ofList_of_contains_eq_false
    rw [List.map_map, Bool.eq_false_iff, ne_eq, List.contains_iff_mem, List.mem_map]
    rintro ⟨entry, hentry, rfl⟩
    simpa using List.lookup_eq_none_iff.1 h entry hentry
  | some address =>
    refine Std.TreeMap.getElem?_ofList_of_mem Std.ReflCmp.compare_self ?_ ?_
    · rw [List.pairwise_map]
      exact (List.pairwise_map.1 nodup_predefinedNames).imp fun hne heq =>
        hne (Std.LawfulEqCmp.eq_of_compare heq)
    · obtain ⟨before, after, hl, -⟩ := List.lookup_eq_some_iff.1 h
      exact List.mem_map.2 ⟨(name, address), by simp [hl], rfl⟩

@[simp] theorem labelNames_initial : initial.labelNames = [] := rfl

/-! ## Binding a label -/

@[simp] theorem binding?_bindLabel :
    (t.bindLabel name address).binding? other =
      if name = other then some ⟨.label, address⟩ else t.binding? other := by
  simp [binding?, bindLabel, Std.TreeMap.getElem?_insert]

@[simp] theorem ram_bindLabel : (t.bindLabel name address).ram = t.ram := rfl

@[simp] theorem labelNames_bindLabel :
    (t.bindLabel name address).labelNames = t.labelNames ++ [name] := by
  simp [labelNames, bindLabel, Event.label?]

@[simp] theorem binding?_retireSlot :
    (t.retireSlot name address).binding? other = t.binding? other := rfl

@[simp] theorem labelNames_retireSlot : (t.retireSlot name address).labelNames = t.labelNames := by
  simp [labelNames, retireSlot, Event.label?]

/-- The name of a label is no longer among the variables; the others keep their order. -/
@[simp] theorem variableNames_bindLabel :
    (t.bindLabel name address).variableNames = t.variableNames.filter (· ≠ name) := by
  have hhistory : (t.bindLabel name address).history.toList.filterMap Event.slot? =
      t.history.toList.filterMap Event.slot? := by simp [bindLabel, Event.slot?]
  rw [variableNames, variableNames, hhistory, List.filter_filter]
  apply List.filter_congr
  intro other _
  by_cases h : name = other
  · simp [isSlot, h]
  · simp [isSlot, h, Ne.symm h]

@[simp] theorem variableNames_retireSlot :
    (t.retireSlot name address).variableNames = t.variableNames := by
  have hslot : (t.retireSlot name address).isSlot = t.isSlot := rfl
  rw [variableNames, variableNames, hslot]
  simp [retireSlot, Event.slot?]

/-! ## Giving out a slot -/

@[simp] theorem binding?_giveSlot :
    (t.giveSlot name).binding? other =
      if name = other then some ⟨.slot, t.ram⟩ else t.binding? other := by
  simp [binding?, giveSlot, Std.TreeMap.getElem?_insert]

@[simp] theorem ram_giveSlot : (t.giveSlot name).ram = t.ram + 1 := rfl

@[simp] theorem labelNames_giveSlot : (t.giveSlot name).labelNames = t.labelNames := by
  simp [labelNames, giveSlot, Event.label?]

/-- A name that is given its first slot becomes the last of the variables. -/
theorem variableNames_giveSlot (h : name ∉ t.history.toList.filterMap Event.slot?) :
    (t.giveSlot name).variableNames = t.variableNames ++ [name] := by
  have hhistory : (t.giveSlot name).history.toList.filterMap Event.slot? =
      t.history.toList.filterMap Event.slot? ++ [name] := by simp [giveSlot, Event.slot?]
  rw [variableNames, variableNames, hhistory, List.filter_append]
  congr 1
  · apply List.filter_congr
    intro other hother
    have hne : name ≠ other := fun heq => h (heq ▸ hother)
    simp [isSlot, hne]
  · simp [isSlot]

/-! ## Frozen tables -/

theorem declare_of_frozen (h : t.frozen = true) :
    t.declare name address = (.error (.frozenTable name), t) := by simp [declare, h]

theorem allocate_of_frozen (h : t.frozen = true) :
    t.allocate name = (.error (.frozenTable name), t) := by simp [allocate, h]

/-! ## Refusals -/

/-- A label that is refused leaves the table as it was. -/
theorem declare_snd_of_error {fault : Fault} (h : (t.declare name address).1 = .error fault) :
    (t.declare name address).2 = t := by
  unfold declare at h ⊢
  split
  · rfl
  · split <;> simp_all

/-- A variable that is refused leaves the table as it was. -/
theorem allocate_snd_of_error {fault : Fault} (h : (t.allocate name).1 = .error fault) :
    (t.allocate name).2 = t := by
  unfold allocate at h ⊢
  split
  · rfl
  · split
    · rfl
    · split <;> simp_all

/-! ## Telling a label -/

/-- Telling about a label changes nothing. -/
@[simp] theorem addLabel_snd : (t.addLabel name address).2 = (t.declare name address).2 := by
  rw [addLabel]
  split <;> simp [*]

/-- A refusal is passed on as it is. -/
theorem addLabel_fst_eq_fault_iff {fault : Fault} :
    (t.addLabel name address).1 = .error (.fault fault) ↔
      (t.declare name address).1 = .error fault := by
  rw [addLabel]
  split <;> simp [*]
  split <;> simp

/-- A label with an address that can be told is declared and told. -/
theorem addLabel_of_writable (h : Text.Writable address) :
    t.addLabel name address =
      ((t.declare name address).1.mapError .fault, (t.declare name address).2) := by
  rw [addLabel]
  split
  case h_1 hd =>
    rw [hd]
    rfl
  case h_2 hd =>
    rw [hd, if_pos h]
    rfl
  case h_3 hd =>
    rw [hd]
    rfl

/-- A label cannot be told when it was bound and its address has no decimal text. -/
theorem addLabel_fst_eq_unwritable_iff :
    (t.addLabel name address).1 = .error .unwritable ↔
      (t.declare name address).1 = .ok true ∧ ¬Text.Writable address := by
  rw [addLabel]
  split <;> simp [*]

end HackAssembler.SymbolTable
