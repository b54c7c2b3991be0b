import HackAssembler.Proofs.Lists
import HackAssembler.Proofs.Transition
import Mathlib.Data.List.Nodup

/-!
# The lists and the map of a table agree

A table keeps its bindings in a map and tells its labels and variables in lists. After any run of
actions the two agree: the predefined names, the labels and the variables are three lists without
repetition that share no name, together they are the bound names, and the variables stand in the
order of their slots.

The lists are read off the history of the table, so the invariant that the changes keep is about
the history: it accounts for every binding.

## Main definitions

* `SymbolTable.givenSlots` — all slots that were ever given out.
* `SymbolTable.Recorded` — the invariant of single changes.
* `SymbolTable.Consistent` — how lists, map and next slot agree.
-/

namespace HackAssembler

/-- The name and the slot that it was given, if the event is about that. -/
def Event.given? : Event → Option (String × Int)
  | .slotGiven name address => some (name, address)
  | _ => none

namespace SymbolTable

/-- All slots that were given out, in order; also those that are no longer used. -/
def givenSlots (t : SymbolTable) : List (String × Int) := t.history.toList.filterMap Event.given?

@[simp] theorem givenSlots_initial : initial.givenSlots = [] := rfl

section Views
variable (t : SymbolTable) (name : String) (address : Int)

@[simp] theorem givenSlots_bindLabel : (t.bindLabel name address).givenSlots = t.givenSlots := by
  simp [givenSlots, bindLabel, Event.given?]

@[simp] theorem givenSlots_retireSlot : (t.retireSlot name address).givenSlots = t.givenSlots := by
  simp [givenSlots, retireSlot, Event.given?]

@[simp] theorem givenSlots_giveSlot :
    (t.giveSlot name).givenSlots = t.givenSlots ++ [(name, t.ram)] := by
  simp [givenSlots, giveSlot, Event.given?]

@[simp] theorem ram_retireSlot : (t.retireSlot name address).ram = t.ram := rfl

theorem filterMap_slot?_history :
    t.history.toList.filterMap Event.slot? = t.givenSlots.map Prod.fst := by
  rw [givenSlots, List.map_filterMap]
  congr 1
  funext event
  cases event <;> rfl

/-- The variables are the names that were given slots and still have them. -/
theorem variableNames_eq :
    t.variableNames = (t.givenSlots.filter fun entry => t.isSlot entry.1).map Prod.fst := by
  rw [variableNames, filterMap_slot?_history, List.filter_map]
  rfl

end Views

/-! ## The invariant of single changes -/

/-- The history of a table accounts for its bindings and for its next slot. -/
structure Recorded (t : SymbolTable) : Prop where
  predefined : ∀ name address,
    t.binding? name = some ⟨.predefined, address⟩ ↔ (name, address) ∈ predefinedSymbols
  labels : ∀ name, name ∈ t.labelNames ↔ ∃ address, t.binding? name = some ⟨.label, address⟩
  labels_nodup : t.labelNames.Nodup
  slots : ∀ name address, t.binding? name = some ⟨.slot, address⟩ → (name, address) ∈ t.givenSlots
  /-- A name keeps its slot until a label takes the name over. -/
  given : ∀ name address, (name, address) ∈ t.givenSlots →
    t.binding? name = some ⟨.slot, address⟩ ∨ ∃ label, t.binding? name = some ⟨.label, label⟩
  given_nodup : (t.givenSlots.map Prod.fst).Nodup
  given_increasing : t.givenSlots.Pairwise fun x y => x.2 < y.2
  given_bounds : ∀ entry ∈ t.givenSlots, firstSlot ≤ entry.2 ∧ entry.2 < t.ram
  ram_eq : t.ram = firstSlot + t.givenSlots.length
  ram_le : t.ram ≤ slotLimit

theorem recorded_initial : Recorded initial where
  predefined name address := by
    rw [binding?_initial, ← lookup_eq_some_iff_mem nodup_predefinedNames]
    simp
  labels name := by simp
  labels_nodup := by simp
  slots name address := by simp
  given name address := by simp
  given_nodup := by simp
  given_increasing := by simp
  given_bounds := by simp
  ram_eq := rfl
  ram_le := by decide

/-- The invariant says nothing about the other parts of a table. -/
theorem Recorded.congr {t t' : SymbolTable} (h : Recorded t) (bindings : t'.bindings = t.bindings)
    (history : t'.history = t.history) (ram : t'.ram = t.ram) : Recorded t' := by
  have hb (name : String) : t'.binding? name = t.binding? name := by
    rw [binding?, bindings, binding?]
  have hl : t'.labelNames = t.labelNames := by rw [labelNames, history, labelNames]
  have hg : t'.givenSlots = t.givenSlots := by rw [givenSlots, history, givenSlots]
  constructor <;> simp only [hb, hl, hg, ram]
  · exact h.predefined
  · exact h.labels
  · exact h.labels_nodup
  · exact h.slots
  · exact h.given
  · exact h.given_nodup
  · exact h.given_increasing
  · exact h.given_bounds
  · exact h.ram_eq
  · exact h.ram_le

/-- A name that was given a slot has an address ever after. -/
theorem Recorded.not_mem_given {t : SymbolTable} (h : Recorded t) {name : String}
    (fresh : t.binding? name = none) (address : Int) : (name, address) ∉ t.givenSlots := by
  intro hmem
  obtain hb | ⟨label, hb⟩ := h.given name address hmem <;> simp [fresh] at hb

/-- Binding a label keeps the invariant, whether the name had no address or was a variable. -/
theorem Recorded.bindLabel {t : SymbolTable} (h : Recorded t) {name : String}
    (hp : ∀ address, t.binding? name ≠ some ⟨.predefined, address⟩)
    (hl : ∀ address, t.binding? name ≠ some ⟨.label, address⟩) (address : Int) :
    Recorded (t.bindLabel name address) where
  predefined other a := by
    rw [binding?_bindLabel]
    split
    case isTrue heq =>
      subst heq
      have := hp a
      rw [ne_eq, h.predefined] at this
      simp [this]
    case isFalse => exact h.predefined other a
  labels other := by
    rw [labelNames_bindLabel, binding?_bindLabel, List.mem_append, h.labels]
    by_cases heq : name = other
    · simp [heq]
    · simp [heq, Ne.symm heq]
  labels_nodup := by
    have fresh : name ∉ t.labelNames := by
      rw [h.labels]
      rintro ⟨a, ha⟩
      exact hl a ha
    rw [labelNames_bindLabel, List.nodup_append]
    refine ⟨h.labels_nodup, by simp, ?_⟩
    intro a ha b hb heq
    rw [List.mem_singleton] at hb
    exact fresh (hb ▸ heq ▸ ha)
  slots other a := by
    rw [binding?_bindLabel, givenSlots_bindLabel]
    split
    · simp
    · exact h.slots other a
  given other a := by
    rw [binding?_bindLabel, givenSlots_bindLabel]
    intro hmem
    split
    · exact .inr ⟨address, rfl⟩
    · exact h.given other a hmem
  given_nodup := by simpa using h.given_nodup
  given_increasing := by simpa using h.given_increasing
  given_bounds := by simpa using h.given_bounds
  ram_eq := by simpa using h.ram_eq
  ram_le := h.ram_le

/-- Retiring a slot is only a note in the history. -/
theorem Recorded.retireSlot {t : SymbolTable} (h : Recorded t) (name : String) (slot : Int) :
    Recorded (t.retireSlot name slot) where
  predefined := h.predefined
  labels other := by simpa using h.labels other
  labels_nodup := by simpa using h.labels_nodup
  slots other a := by simpa using h.slots other a
  given other a := by simpa using h.given other a
  given_nodup := by simpa using h.given_nodup
  given_increasing := by simpa using h.given_increasing
  given_bounds := by simpa using h.given_bounds
  ram_eq := by simpa using h.ram_eq
  ram_le := h.ram_le

theorem Recorded.giveSlot {t : SymbolTable} (h : Recorded t) {name : String}
    (fresh : t.binding? name = none) (room : t.ram < slotLimit) : Recorded (t.giveSlot name) where
  predefined other a := by
    rw [binding?_giveSlot]
    split
    case isTrue heq =>
      subst heq
      have := h.predefined name a
      rw [fresh] at this
      simpa using this
    case isFalse => exact h.predefined other a
  labels other := by
    rw [labelNames_giveSlot, binding?_giveSlot, h.labels]
    split
    case isTrue heq => simp [← heq, fresh]
    case isFalse => rfl
  labels_nodup := by simpa using h.labels_nodup
  slots other a := by
    rw [binding?_giveSlot, givenSlots_giveSlot, List.mem_append]
    split
    case isTrue heq => simp_all
    case isFalse => exact fun hb => .inl (h.slots other a hb)
  given other a := by
    rw [binding?_giveSlot, givenSlots_giveSlot, List.mem_append]
    rintro (hmem | hmem)
    · have hne : name ≠ other := by
        rintro rfl
        exact h.not_mem_given fresh a hmem
      simpa [hne] using h.given other a hmem
    · simp_all
  given_nodup := by
    rw [givenSlots_giveSlot, List.map_append, List.nodup_append]
    refine ⟨h.given_nodup, by simp, ?_⟩
    intro x hx y hy heq
    obtain ⟨⟨_, a⟩, hmem, rfl⟩ := List.mem_map.1 hx
    simp only [List.map_cons, List.map_nil, List.mem_singleton] at hy heq
    subst hy heq
    exact h.not_mem_given fresh a hmem
  given_increasing := by
    rw [givenSlots_giveSlot, List.pairwise_append]
    refine ⟨h.given_increasing, by simp, ?_⟩
    intro x hx y hy
    rw [List.mem_singleton.1 hy]
    exact (h.given_bounds x hx).2
  given_bounds entry hentry := by
    rw [givenSlots_giveSlot, List.mem_append] at hentry
    rw [ram_giveSlot]
    obtain hmem | hmem := hentry
    · have := h.given_bounds entry hmem
      omega
    · have := h.ram_eq
      rw [List.mem_singleton.1 hmem]
      omega
  ram_eq := by
    have := h.ram_eq
    rw [ram_giveSlot, givenSlots_giveSlot, List.length_append, List.length_singleton]
    omega
  ram_le := by
    rw [ram_giveSlot]
    omega

/-- **Every change keeps the history in step with the bindings.** -/
theorem Recorded.change {t t' : SymbolTable} (c : Change t t') (h : Recorded t) : Recorded t' := by
  cases c with
  | bindLabel address _ fresh => exact h.bindLabel (by simp [fresh]) (by simp [fresh]) address
  | takeOver address _ taken =>
    exact (h.retireSlot _ _).bindLabel (by simp [taken]) (by simp [taken]) address
  | giveSlot _ fresh room => exact h.giveSlot fresh room
  | recordError | recordWarning | finish | freeze => exact h.congr rfl rfl rfl

theorem recorded_run (actions : List Action) : Recorded (initial.run actions) :=
  (changes_run actions initial).keep Recorded.change recorded_initial

theorem recorded_ofProgram (ops : List Operation) : Recorded (ofProgram ops) :=
  recorded_run [.layout ops]

/-! ## The lists -/

namespace Recorded
variable {t : SymbolTable} (h : Recorded t)
include h

theorem mem_predefinedNames (name : String) :
    name ∈ predefinedNames ↔ ∃ address, t.binding? name = some ⟨.predefined, address⟩ := by
  simp [predefinedNames, h.predefined]

theorem mem_variableNames (name : String) :
    name ∈ t.variableNames ↔ ∃ address, t.binding? name = some ⟨.slot, address⟩ := by
  rw [variableNames_eq, List.mem_map]
  constructor
  · rintro ⟨⟨_, a⟩, hmem, rfl⟩
    obtain ⟨hgiven, hslot⟩ := List.mem_filter.1 hmem
    obtain hb | ⟨label, hb⟩ := h.given _ _ hgiven
    · exact ⟨a, hb⟩
    · simp [isSlot, hb] at hslot
  · rintro ⟨a, hb⟩
    refine ⟨(name, a), List.mem_filter.2 ⟨h.slots name a hb, ?_⟩, rfl⟩
    simp [isSlot, hb]

/-- The addresses of the variables are the slots that they were given. -/
theorem address?_variableNames : t.variableNames.map t.address? =
    ((t.givenSlots.filter fun entry => t.isSlot entry.1).map Prod.snd).map some := by
  rw [variableNames_eq, List.map_map, List.map_map]
  apply List.map_congr_left
  intro entry hentry
  obtain ⟨hgiven, hslot⟩ := List.mem_filter.1 hentry
  obtain hb | ⟨label, hb⟩ := h.given entry.1 entry.2 hgiven
  · simp [address?, hb]
  · simp [isSlot, hb] at hslot

theorem contains_iff (name : String) : t.contains name = true ↔
    name ∈ predefinedNames ∨ name ∈ t.labelNames ∨ name ∈ t.variableNames := by
  rw [h.mem_predefinedNames, h.labels, h.mem_variableNames, contains,
    Std.TreeMap.contains_eq_isSome_getElem?, Option.isSome_iff_exists]
  change (∃ b, t.binding? name = some b) ↔ _
  constructor
  · rintro ⟨⟨role, a⟩, hb⟩
    cases role with
    | predefined => exact .inl ⟨a, hb⟩
    | label => exact .inr (.inl ⟨a, hb⟩)
    | slot => exact .inr (.inr ⟨a, hb⟩)
  · rintro (⟨a, hb⟩ | ⟨a, hb⟩ | ⟨a, hb⟩) <;> exact ⟨_, hb⟩

-- A name has one binding, so it has one role and stands in one list only.
theorem predefined_disjoint_labels : predefinedNames.Disjoint t.labelNames := by
  intro name hp hl
  obtain ⟨a, ha⟩ := (h.mem_predefinedNames name).1 hp
  obtain ⟨b, hb⟩ := (h.labels name).1 hl
  simp [ha] at hb

theorem predefined_disjoint_variables : predefinedNames.Disjoint t.variableNames := by
  intro name hp hv
  obtain ⟨a, ha⟩ := (h.mem_predefinedNames name).1 hp
  obtain ⟨b, hb⟩ := (h.mem_variableNames name).1 hv
  simp [ha] at hb

theorem labels_disjoint_variables : t.labelNames.Disjoint t.variableNames := by
  intro name hl hv
  obtain ⟨a, ha⟩ := (h.labels name).1 hl
  obtain ⟨b, hb⟩ := (h.mem_variableNames name).1 hv
  simp [ha] at hb

theorem variableNames_nodup : t.variableNames.Nodup := by
  rw [variableNames_eq]
  exact h.given_nodup.sublist (List.filter_sublist.map Prod.fst)

/-- A slot that is given out appends the name to the variables. -/
theorem variableNames_giveSlot {name : String} (fresh : t.binding? name = none) :
    (t.giveSlot name).variableNames = t.variableNames ++ [name] := by
  apply SymbolTable.variableNames_giveSlot
  rw [filterMap_slot?_history, List.mem_map]
  rintro ⟨⟨_, address⟩, hmem, rfl⟩
  exact h.not_mem_given fresh address hmem

/-- A label removes its name from the variables, if it is one of them. -/
theorem variableNames_bindLabel (name : String) (address : Int) :
    (t.bindLabel name address).variableNames = t.variableNames.erase name := by
  rw [SymbolTable.variableNames_bindLabel, h.variableNames_nodup.erase_eq_filter]
  simp only [bne, ne_eq, decide_not, beq_eq_decide]

theorem variableNames_takeOver (name : String) (slot address : Int) :
    ((t.retireSlot name slot).bindLabel name address).variableNames =
      t.variableNames.erase name := by
  rw [(h.retireSlot name slot).variableNames_bindLabel, variableNames_retireSlot]

/-- The map holds each name of the three lists once and no other. -/
theorem size_eq :
    t.size = predefinedNames.length + t.labelNames.length + t.variableNames.length := by
  have hnodup : (predefinedNames ++ (t.labelNames ++ t.variableNames)).Nodup := by
    refine nodup_predefinedNames.append ?_ ?_
    · exact h.labels_nodup.append h.variableNames_nodup h.labels_disjoint_variables
    · rw [List.disjoint_append_right]
      exact ⟨h.predefined_disjoint_labels, h.predefined_disjoint_variables⟩
  have hperm : t.bindings.keys.Perm (predefinedNames ++ (t.labelNames ++ t.variableNames)) := by
    rw [List.perm_ext_iff_of_nodup Std.TreeMap.nodup_keys hnodup]
    intro name
    rw [Std.TreeMap.mem_keys, ← Std.TreeMap.contains_iff_mem, List.mem_append, List.mem_append]
    exact h.contains_iff name
  calc t.size = t.bindings.keys.length := Std.TreeMap.length_keys.symm
    _ = (predefinedNames ++ (t.labelNames ++ t.variableNames)).length := hperm.length_eq
    _ = predefinedNames.length + t.labelNames.length + t.variableNames.length := by
      simp only [List.length_append]
      omega

end Recorded

/-! ## Consistency -/

/-- How the lists, the map and the next slot of a table agree. -/
structure Consistent (t : SymbolTable) : Prop where
  predefined : ∀ entry ∈ predefinedSymbols, t.address? entry.1 = some entry.2
  predefined_nodup : predefinedNames.Nodup
  labels_nodup : t.labelNames.Nodup
  variables_nodup : t.variableNames.Nodup
  predefined_disjoint_labels : predefinedNames.Disjoint t.labelNames
  predefined_disjoint_variables : predefinedNames.Disjoint t.variableNames
  labels_disjoint_variables : t.labelNames.Disjoint t.variableNames
  contains_iff : ∀ name, t.contains name = true ↔
    name ∈ predefinedNames ∨ name ∈ t.labelNames ∨ name ∈ t.variableNames
  size_eq : t.size = 23 + t.labelNames.length + t.variableNames.length
  /-- Every variable has an address; in the order of the list the addresses increase, and all of
  them have been given out. -/
  slots : ∃ addresses : List Int, t.variableNames.map t.address? = addresses.map some ∧
    addresses.Pairwise (· < ·) ∧ ∀ address ∈ addresses, 16 ≤ address ∧ address ≤ t.ram - 1
  ram_bounds : 16 ≤ t.ram ∧ t.ram ≤ 65536

theorem Recorded.consistent {t : SymbolTable} (h : Recorded t) : Consistent t where
  predefined entry hentry := by simp [address?, (h.predefined entry.1 entry.2).2 hentry]
  predefined_nodup := nodup_predefinedNames
  labels_nodup := h.labels_nodup
  variables_nodup := h.variableNames_nodup
  predefined_disjoint_labels := h.predefined_disjoint_labels
  predefined_disjoint_variables := h.predefined_disjoint_variables
  labels_disjoint_variables := h.labels_disjoint_variables
  contains_iff := h.contains_iff
  size_eq := h.size_eq
  slots := by
    refine ⟨_, h.address?_variableNames, ?_, ?_⟩
    · exact List.pairwise_map.2 (h.given_increasing.sublist List.filter_sublist)
    · intro address haddress
      obtain ⟨entry, hentry, rfl⟩ := List.mem_map.1 haddress
      have hbounds := h.given_bounds entry (List.mem_of_mem_filter hentry)
      simp only [firstSlot] at hbounds
      omega
  ram_bounds := by
    have hram := h.ram_eq
    have hle := h.ram_le
    simp only [firstSlot] at hram
    simp only [slotLimit] at hle
    omega

/-- **After any run of actions, refused ones included, the lists, the map and the next slot of a
table agree.** -/
theorem consistent_run (actions : List Action) : Consistent (initial.run actions) :=
  (recorded_run actions).consistent

end SymbolTable
end HackAssembler
