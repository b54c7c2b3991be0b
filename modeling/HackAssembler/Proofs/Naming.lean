import HackAssembler.Assembly.Naming
import HackAssembler.Proofs.Lists
import HackAssembler.SymbolTable.Lemmas

/-!
# The meaning of names, one operation at a time

What one more operation adds to the meaning of the names of a program: a declaration may add a
label, and a use of a variable may add a slot. Everything else leaves the names as they are.

## Main definitions

* `Naming.binding?` — the binding of a name; its address is `Naming.address?`.
* `Naming.Fixed` — the name is predefined or declared.
* `Naming.refusal?`, `Naming.redeclaration?`, `Naming.newLabel?` — what else an operation gives,
  knowing those in front of it.
-/

namespace HackAssembler.Naming

/-! ## What an operation gives -/

/-- The binding of a name in a program. -/
def binding? (ops : List Operation) (name : String) : Option Binding :=
  ((predefinedSymbols.lookup name).map (Binding.mk .predefined)).or
    (((declaredAt? ops name).map fun count => ⟨.label, count⟩).or
      ((slotOf? ops name).map (Binding.mk .slot)))

/-- The name can be given no slot: it has no address yet, and all slots are taken. -/
def LacksSlot (earlier : List Operation) (name : String) : Prop :=
  address? earlier name = none ∧ slotCount ≤ (slotNames earlier).length

instance (earlier : List Operation) (name : String) : Decidable (LacksSlot earlier name) :=
  inferInstanceAs (Decidable (_ ∧ _))

/-- The fault of a variable that can be given no slot. -/
def refusal? (earlier : List Operation) (op : Operation) : Option Diagnostic :=
  match op.statement with
  | .symbol name true =>
    if LacksSlot earlier name then some ⟨.outOfRam name, op.line⟩ else none
  | _ => none

/-- The name is predefined or declared, so that no further declaration can bind it. -/
def Fixed (ops : List Operation) (name : String) : Prop :=
  name ∈ predefinedNames ∨ ops.any (declares name) = true

instance (ops : List Operation) (name : String) : Decidable (Fixed ops name) :=
  inferInstanceAs (Decidable (_ ∨ _))

/-- The warning about a declaration that binds nothing. -/
def redeclaration? (earlier : List Operation) (op : Operation) : Option Warning :=
  match op.statement with
  | .label name => if Fixed earlier name then some ⟨op.line, name⟩ else none
  | _ => none

/-- The name that an operation declares as a new label. -/
def newLabel? (earlier : List Operation) (op : Operation) : Option String :=
  match op.statement with
  | .label name => if Fixed earlier name then none else some name
  | _ => none

theorem address?_eq (ops : List Operation) (name : String) :
    address? ops name = (binding? ops name).map (·.address) := by
  rw [address?, binding?]
  cases predefinedSymbols.lookup name with
  | some _ => rfl
  | none =>
    cases declaredAt? ops name with
    | some _ => rfl
    | none => cases slotOf? ops name <;> rfl

theorem lookup_eq_none_iff (name : String) :
    predefinedSymbols.lookup name = none ↔ name ∉ predefinedNames :=
  lookup_eq_none_iff_not_mem

/-! ## Instructions and declarations -/

@[simp] theorem instructionCount_nil : instructionCount [] = 0 := rfl

@[simp] theorem instructionCount_append (xs ys : List Operation) :
    instructionCount (xs ++ ys) = instructionCount xs + instructionCount ys :=
  List.countP_append

theorem instructionCount_concat (ops : List Operation) (op : Operation) :
    instructionCount (ops ++ [op]) = instructionCount ops + if op.isLabel then 0 else 1 := by
  cases h : op.isLabel <;> simp [instructionCount, h]

@[simp] theorem declaredAt?_nil (name : String) : declaredAt? [] name = none := rfl

/-- A name is declared where it is declared first. -/
theorem declaredAt?_concat (ops : List Operation) (op : Operation) (name : String) :
    declaredAt? (ops ++ [op]) name = (declaredAt? ops name).or
      (if declares name op then some (instructionCount ops) else none) := by
  rw [declaredAt?, List.findIdx?_append, declaredAt?]
  cases h : ops.findIdx? (declares name) with
  | some i =>
    have hi : i < ops.length := (List.findIdx?_eq_some_iff_getElem.1 h).1
    simp [List.take_append_of_le_length (Nat.le_of_lt hi)]
  | none =>
    by_cases hop : declares name op = true <;> simp [List.findIdx?_cons, hop]

theorem declaredAt?_eq_none_iff (ops : List Operation) (name : String) :
    declaredAt? ops name = none ↔ ops.any (declares name) = false := by
  simp [declaredAt?]

theorem not_fixed_iff (ops : List Operation) (name : String) :
    ¬Fixed ops name ↔ predefinedSymbols.lookup name = none ∧ declaredAt? ops name = none := by
  rw [Fixed, not_or, lookup_eq_none_iff, declaredAt?_eq_none_iff, Bool.not_eq_true]

/-! ## Slots -/

theorem slotNames_eq (ops : List Operation) : slotNames ops = inContext newSlot? ops := rfl

@[simp] theorem slotNames_nil : slotNames [] = [] := rfl

@[simp] theorem slotNames_concat (ops : List Operation) (op : Operation) :
    slotNames (ops ++ [op]) = slotNames ops ++ (newSlot? ops op).toList :=
  inContext_concat newSlot? ops op

theorem slotCount_eq : (slotCount : Int) = slotLimit - firstSlot := by decide

/-- The operation asks for a new slot. -/
theorem newSlot?_eq_some_iff {earlier : List Operation} {op : Operation} {name : String} :
    newSlot? earlier op = some name ↔ asksFor name op = true ∧ name ∉ predefinedNames ∧
      ∀ e ∈ earlier, declares name e = false ∧ asksFor name e = false := by
  obtain ⟨statement, line⟩ := op
  cases statement with
  | symbol other allocates =>
    cases allocates with
    | true =>
      by_cases heq : other = name
      · subst heq
        simp [newSlot?, asksFor]
      · simp [newSlot?, asksFor, heq]
    | false => simp [newSlot?, asksFor]
  | label | constant | compute | reserve => simp [newSlot?, asksFor]

/-- Only the use of a variable asks for a slot. -/
theorem statement_of_newSlot? {earlier : List Operation} {op : Operation} {name : String}
    (h : newSlot? earlier op = some name) : op.statement = .symbol name true := by
  simpa [asksFor] using (newSlot?_eq_some_iff.1 h).1

/-- Only names that are asked for are given slots. -/
theorem asked_of_mem_slotNames {ops : List Operation} {name : String} (h : name ∈ slotNames ops) :
    ∃ op ∈ ops, asksFor name op = true := by
  rw [slotNames_eq, mem_inContext] at h
  obtain ⟨earlier, op, later, rfl, hop⟩ := h
  exact ⟨op, by simp, (newSlot?_eq_some_iff.1 hop).1⟩

/-- A name that is asked for is given a slot, unless it is predefined or declared. -/
theorem mem_slotNames {ops : List Operation} {name : String} (hp : name ∉ predefinedNames)
    (hd : ∀ op ∈ ops, declares name op = false) (ha : ∃ op ∈ ops, asksFor name op = true) :
    name ∈ slotNames ops := by
  induction ops using List.reverseRecOn with
  | nil => simp at ha
  | append_singleton ops op ih =>
    rw [slotNames_concat, List.mem_append, Option.mem_toList]
    have hd' : ∀ e ∈ ops, declares name e = false := fun e he => hd e (by simp [he])
    by_cases hearlier : ∃ e ∈ ops, asksFor name e = true
    · exact .inl (ih hd' hearlier)
    · right
      have hop : asksFor name op = true := by
        obtain ⟨e, he, hasks⟩ := ha
        rcases List.mem_append.1 he with he | he
        · exact absurd ⟨e, he, hasks⟩ hearlier
        · rwa [List.mem_singleton.1 he] at hasks
      refine newSlot?_eq_some_iff.2 ⟨hop, hp, ?_⟩
      intro e he
      refine ⟨hd' e he, ?_⟩
      by_contra hasks
      exact hearlier ⟨e, he, by simpa using hasks⟩

theorem slotOf?_eq_none_iff (ops : List Operation) (name : String) :
    slotOf? ops name = none ↔ name ∉ (slotNames ops).take slotCount := by
  rw [slotOf?, Option.map_eq_none_iff, List.idxOf?_eq_none_iff]

/-- A declaration asks for no slot. -/
theorem slotNames_concat_label {op : Operation} {name : String} (hop : op.statement = .label name)
    (ops : List Operation) : slotNames (ops ++ [op]) = slotNames ops := by
  simp [newSlot?, hop]

/-- Without a new slot, or once all slots are taken, the same names have slots. -/
theorem take_slotNames_concat {ops : List Operation} {op : Operation}
    (h : newSlot? ops op = none ∨ slotCount ≤ (slotNames ops).length) :
    (slotNames (ops ++ [op])).take slotCount = (slotNames ops).take slotCount := by
  rw [slotNames_concat]
  rcases h with h | h
  · simp [h]
  · exact List.take_append_of_le_length h

theorem slotOf?_concat_of_le {ops : List Operation} {op : Operation}
    (h : newSlot? ops op = none ∨ slotCount ≤ (slotNames ops).length) (name : String) :
    slotOf? (ops ++ [op]) name = slotOf? ops name := by
  rw [slotOf?, take_slotNames_concat h, slotOf?]

/-- A new slot is the one after those that are taken. -/
theorem slotOf?_concat_of_lt {ops : List Operation} {op : Operation} {name : String}
    (hnew : newSlot? ops op = some name) (hlt : (slotNames ops).length < slotCount)
    (other : String) : slotOf? (ops ++ [op]) other =
      (slotOf? ops other).or
        (if name = other then some (firstSlot + (slotNames ops).length) else none) := by
  have hle : (slotNames ops ++ [name]).length ≤ slotCount := by
    rw [List.length_append, List.length_singleton]
    omega
  rw [slotOf?, slotOf?, slotNames_concat, hnew, Option.toList_some, List.take_of_length_le hle,
    List.take_of_length_le (Nat.le_of_lt hlt)]
  simp only [List.idxOf?, List.findIdx?_append]
  cases List.findIdx? (· == other) (slotNames ops) with
  | some k => simp
  | none =>
    by_cases heq : name = other
    · simp [heq, List.findIdx?_cons]
    · simp [heq, List.findIdx?_cons]

/-! ## Bindings -/

@[simp] theorem binding?_nil (name : String) :
    binding? [] name = (predefinedSymbols.lookup name).map (Binding.mk .predefined) := by
  simp [binding?, slotOf?]

theorem binding?_eq_none_iff (ops : List Operation) (name : String) :
    binding? ops name = none ↔ ¬Fixed ops name ∧ name ∉ (slotNames ops).take slotCount := by
  rw [not_fixed_iff, ← slotOf?_eq_none_iff]
  simp [binding?, and_assoc]

/-- A name is more than a variable when it is predefined or declared. -/
theorem role_ne_slot_iff_fixed {ops : List Operation} {name : String} {b : Binding}
    (h : binding? ops name = some b) :
    b.role ≠ .slot ↔ Fixed ops name := by
  rw [← not_iff_not, not_fixed_iff]
  rw [binding?] at h
  cases hlookup : predefinedSymbols.lookup name with
  | some a =>
    rw [hlookup] at h
    cases h
    simp
  | none =>
    cases hdeclared : declaredAt? ops name with
    | some a =>
      rw [hlookup, hdeclared] at h
      cases h
      simp
    | none =>
      rw [hlookup, hdeclared] at h
      obtain ⟨a, -, rfl⟩ := Option.map_eq_some_iff.1 h
      simp

theorem declaredAt?_concat_of_ne {op : Operation} {name : String} (h : declares name op = false)
    (ops : List Operation) : declaredAt? (ops ++ [op]) name = declaredAt? ops name := by
  simp [declaredAt?_concat, h]

/-- A declaration binds its name, unless the name is predefined or declared already. -/
theorem binding?_concat_label {op : Operation} {name : String} (hop : op.statement = .label name)
    (ops : List Operation) (other : String) :
    binding? (ops ++ [op]) other =
      if name = other ∧ ¬Fixed ops name then some ⟨.label, instructionCount ops⟩
      else binding? ops other := by
  have hs : slotOf? (ops ++ [op]) other = slotOf? ops other := by
    rw [slotOf?, slotNames_concat_label hop, slotOf?]
  rw [binding?, hs, binding?]
  by_cases heq : name = other
  · subst heq
    have hdeclares : declares name op = true := by simp [declares, hop]
    rw [declaredAt?_concat, hdeclares]
    cases hlookup : predefinedSymbols.lookup name with
    | some a => simp [not_fixed_iff, hlookup]
    | none =>
      cases hdeclared : declaredAt? ops name <;> simp [not_fixed_iff, hlookup, hdeclared]
  · have hdeclares : declares other op = false := by simp [declares, hop, heq]
    rw [declaredAt?_concat_of_ne hdeclares]
    simp [heq]

/-- A name that is given a slot has no address yet. -/
theorem binding?_of_newSlot? {ops : List Operation} {op : Operation} {name : String}
    (hnew : newSlot? ops op = some name) : binding? ops name = none := by
  obtain ⟨-, hp, hearlier⟩ := newSlot?_eq_some_iff.1 hnew
  refine (binding?_eq_none_iff ops name).2 ⟨?_, ?_⟩
  · rw [Fixed, not_or, Bool.not_eq_true, List.any_eq_false]
    exact ⟨hp, fun e he => by simp [(hearlier e he).1]⟩
  · intro hmem
    obtain ⟨e, he, hasked⟩ := asked_of_mem_slotNames (List.mem_of_mem_take hmem)
    simp [(hearlier e he).2] at hasked

/-- A new slot binds its name. -/
theorem binding?_concat_slot {ops : List Operation} {op : Operation} {name : String}
    (hnew : newSlot? ops op = some name) (hlt : (slotNames ops).length < slotCount)
    (other : String) : binding? (ops ++ [op]) other =
      if name = other then some ⟨.slot, firstSlot + (slotNames ops).length⟩
      else binding? ops other := by
  have hdeclares : declares other op = false := by simp [declares, statement_of_newSlot? hnew]
  rw [binding?, declaredAt?_concat_of_ne hdeclares, slotOf?_concat_of_lt hnew hlt]
  by_cases heq : name = other
  · subst heq
    obtain ⟨hp, hd, hs⟩ : predefinedSymbols.lookup name = none ∧ declaredAt? ops name = none ∧
        slotOf? ops name = none := by simpa [binding?] using binding?_of_newSlot? hnew
    simp [hp, hd, hs]
  · simp [heq, binding?]

/-- Any other operation leaves the names as they are. -/
theorem binding?_concat_of_le {ops : List Operation} {op : Operation}
    (hd : ∀ name, declares name op = false)
    (hs : newSlot? ops op = none ∨ slotCount ≤ (slotNames ops).length) (name : String) :
    binding? (ops ++ [op]) name = binding? ops name := by
  rw [binding?, declaredAt?_concat_of_ne (hd name), slotOf?_concat_of_le hs, binding?]

/-! ## Who is given a slot -/

section NewSlot
variable {ops : List Operation} {op : Operation} {name : String}

/-- A name with an address is given no slot. -/
theorem newSlot?_of_bound {b : Binding} (hop : op.statement = .symbol name true)
    (hb : binding? ops name = some b) : newSlot? ops op = none := by
  rw [Option.eq_none_iff_forall_ne_some]
  intro other hnew
  obtain rfl : name = other := by simpa [asksFor, hop] using (newSlot?_eq_some_iff.1 hnew).1
  simp [binding?_of_newSlot? hnew] at hb

/-- A name without an address is given a slot as long as there is one. -/
theorem newSlot?_of_unbound (hop : op.statement = .symbol name true)
    (hb : binding? ops name = none) (hlt : (slotNames ops).length < slotCount) :
    newSlot? ops op = some name := by
  obtain ⟨hfixed, hslot⟩ := (binding?_eq_none_iff ops name).1 hb
  rw [List.take_of_length_le (Nat.le_of_lt hlt)] at hslot
  rw [Fixed, not_or, Bool.not_eq_true, List.any_eq_false] at hfixed
  have hd : ∀ e ∈ ops, declares name e = false := fun e he => by simpa using hfixed.2 e he
  refine newSlot?_eq_some_iff.2 ⟨by simp [asksFor, hop], hfixed.1, ?_⟩
  intro e he
  refine ⟨hd e he, ?_⟩
  by_contra hasks
  exact hslot (mem_slotNames hfixed.1 hd ⟨e, he, by simpa using hasks⟩)

end NewSlot

/-! ## Longer programs -/

section Longer
variable {earlier later : List Operation} {op : Operation} {name : String}

/-- A name that has an address in the front of a program has one in the whole program. -/
theorem binding?_append_ne_none (h : binding? earlier name ≠ none) (later : List Operation) :
    binding? (earlier ++ later) name ≠ none := by
  rw [Ne, binding?_eq_none_iff, not_and_or, not_not, not_not] at h ⊢
  rcases h with hfixed | hslot
  · rw [Fixed] at hfixed ⊢
    rw [List.any_append, Bool.or_eq_true]
    exact .inl (hfixed.imp_right .inl)
  · exact .inr (((isPrefix_inContext newSlot? earlier later).take slotCount).subset hslot)

theorem length_lt_of_not_lacksSlot (hb : binding? earlier name = none)
    (h : ¬LacksSlot earlier name) : (slotNames earlier).length < slotCount := by
  by_contra hfull
  exact h ⟨by simp [address?_eq, hb], Nat.not_lt.1 hfull⟩

/-- A variable that does not lack a slot has an address in the whole program. -/
theorem address?_ne_none_of_not_lacksSlot (hop : op.statement = .symbol name true)
    (h : ¬LacksSlot earlier name) : address? (earlier ++ op :: later) name ≠ none := by
  rw [address?_eq, Ne, Option.map_eq_none_iff]
  by_cases hb : binding? earlier name = none
  · have hlt := length_lt_of_not_lacksSlot hb h
    have hnew := newSlot?_of_unbound hop hb hlt
    have hbound : binding? (earlier ++ [op]) name ≠ none := by
      simp [binding?_concat_slot hnew hlt]
    simpa using binding?_append_ne_none hbound later
  · exact binding?_append_ne_none hb (op :: later)

/-- An address counts slots or instructions. -/
theorem address?_bounds {ops : List Operation} {value : Int} (h : address? ops name = some value) :
    0 ≤ value ∧ (value < slotLimit ∨ value ≤ ops.length) := by
  have hpredefined : ∀ entry ∈ predefinedSymbols, 0 ≤ entry.2 ∧ entry.2 < slotLimit := by decide
  rw [address?] at h
  cases hlookup : predefinedSymbols.lookup name with
  | some a =>
    have hmem := (lookup_eq_some_iff_mem SymbolTable.nodup_predefinedNames).1 hlookup
    obtain rfl : a = value := by simpa [hlookup] using h
    exact ⟨(hpredefined _ hmem).1, .inl (hpredefined _ hmem).2⟩
  | none =>
    cases hdeclared : declaredAt? ops name with
    | some count =>
      obtain rfl : (count : Int) = value := by simpa [hlookup, hdeclared] using h
      obtain ⟨i, -, rfl⟩ := Option.map_eq_some_iff.1 hdeclared
      have hcount : instructionCount (ops.take i) ≤ (ops.take i).length := List.countP_le_length
      have htake : (ops.take i).length ≤ ops.length := List.length_take_le' i ops
      omega
    | none =>
      obtain ⟨k, hk, rfl⟩ : ∃ k : Nat, ((slotNames ops).take slotCount).idxOf? name = some k ∧
          firstSlot + k = value := by
        simpa [hlookup, hdeclared, slotOf?] using h
      have hlt := (List.findIdx?_eq_some_iff_findIdx_eq.1 hk).1
      have htake : ((slotNames ops).take slotCount).length ≤ slotCount :=
        List.length_take_le slotCount _
      rw [slotCount, firstSlot, slotLimit] at *
      omega

theorem address?_nonneg {ops : List Operation} {value : Int} (h : address? ops name = some value) :
    0 ≤ value :=
  (address?_bounds h).1

end Longer

end HackAssembler.Naming
