import HackAssembler.Proofs.Naming

/-!
# Names by their first declaration and first use

The meaning of a name as a rule about the place where it is declared or used for the first time.
In a program that has a slot for each of its variables, the addresses of names follow this rule.

## Main definitions

* `Naming.FirstDeclared`, `Naming.FirstUsed` — where a name is declared or used first.
* `Naming.TakesSlot` — the name takes up a slot.
* `Naming.Means` — the name has the address.
-/

namespace HackAssembler.Naming

/-- The first declaration of the name stands between these parts of a program. -/
def FirstDeclared (ops : List Operation) (name : String) (before after : List Operation) : Prop :=
  ∃ line, ops = before ++ ⟨.label name, line⟩ :: after ∧
    ∀ op ∈ before, op.statement ≠ .label name

/-- The first use of the name as a variable stands between these parts of a program. -/
def FirstUsed (ops : List Operation) (name : String) (before after : List Operation) : Prop :=
  ∃ line, ops = before ++ ⟨.symbol name true, line⟩ :: after ∧
    ∀ op ∈ before, op.statement ≠ .symbol name true

/-- The name takes up a slot: when it is used as a variable for the first time, it is neither
predefined nor declared. It may be declared later on. -/
def TakesSlot (ops : List Operation) (name : String) : Prop :=
  name ∉ predefinedNames ∧ ∃ before after, FirstUsed ops name before after ∧
    ∀ op ∈ before, op.statement ≠ .label name

/-- The name has the address in a program. A label has the number of instructions in front of its
first declaration, wherever it is used. A variable comes after all names that take up a slot in
front of its first use. -/
inductive Means (ops : List Operation) : String → Int → Prop where
  | predefined {name : String} {value : Int} (entry : (name, value) ∈ predefinedSymbols) :
      Means ops name value
  | label {name : String} {before after : List Operation} (fresh : name ∉ predefinedNames)
      (first : FirstDeclared ops name before after) : Means ops name (instructionCount before)
  | slot {name : String} {before after : List Operation} {others : List String}
      (fresh : name ∉ predefinedNames) (undeclared : ∀ op ∈ ops, op.statement ≠ .label name)
      (first : FirstUsed ops name before after) (distinct : others.Nodup)
      (taken : ∀ other, other ∈ others ↔ TakesSlot before other) :
      Means ops name (16 + others.length)

section First
variable {ops before after : List Operation} {name : String}

/-- An operation that there is at all is there for a first time. -/
theorem exists_first {p : Operation → Bool} (h : ∃ op ∈ ops, p op = true) :
    ∃ before op after, ops = before ++ op :: after ∧ p op = true ∧
      ∀ e ∈ before, p e = false := by
  obtain ⟨op, hop⟩ := Option.isSome_iff_exists.1 (List.find?_isSome.2 h)
  obtain ⟨hp, before, after, hops, hbefore⟩ := List.find?_eq_some_iff_append.1 hop
  exact ⟨before, op, after, hops, hp, by simpa using hbefore⟩

theorem exists_firstDeclared (h : ops.any (declares name) = true) :
    ∃ before after, FirstDeclared ops name before after := by
  obtain ⟨before, op, after, hops, hop, hbefore⟩ := exists_first (List.any_eq_true.1 h)
  obtain ⟨statement, line⟩ := op
  obtain rfl : statement = .label name := by simpa [declares] using hop
  exact ⟨before, after, line, hops, by simpa [declares] using hbefore⟩

theorem exists_firstUsed (h : ∃ op ∈ ops, asksFor name op = true) :
    ∃ before after, FirstUsed ops name before after := by
  obtain ⟨before, op, after, hops, hop, hbefore⟩ := exists_first h
  obtain ⟨statement, line⟩ := op
  obtain rfl : statement = .symbol name true := by simpa [asksFor] using hop
  exact ⟨before, after, line, hops, by simpa [asksFor] using hbefore⟩

/-- A name is declared at the number of instructions in front of its first declaration. -/
theorem declaredAt?_of_firstDeclared (h : FirstDeclared ops name before after) :
    declaredAt? ops name = some (instructionCount before) := by
  obtain ⟨line, rfl, hbefore⟩ := h
  have hnone : before.findIdx? (declares name) = none := by
    rw [List.findIdx?_eq_none_iff]
    simpa [declares] using hbefore
  have hop : declares name ⟨.label name, line⟩ = true := by simp [declares]
  simp [declaredAt?, List.findIdx?_append, hnone, List.findIdx?_cons, hop]

/-- The names that are given slots are those that take one up. -/
theorem mem_slotNames_iff : name ∈ slotNames ops ↔ TakesSlot ops name := by
  rw [slotNames_eq, mem_inContext, TakesSlot]
  constructor
  · rintro ⟨before, ⟨statement, line⟩, after, hops, hnew⟩
    obtain ⟨hasks, hp, hbefore⟩ := newSlot?_eq_some_iff.1 hnew
    obtain rfl : statement = .symbol name true := by simpa [asksFor] using hasks
    refine ⟨hp, before, after, ⟨line, hops, ?_⟩, ?_⟩
    · intro op hop
      simpa [asksFor] using (hbefore op hop).2
    · intro op hop
      simpa [declares] using (hbefore op hop).1
  · rintro ⟨hp, before, after, ⟨line, hops, hused⟩, hdeclared⟩
    refine ⟨before, ⟨.symbol name true, line⟩, after, hops, ?_⟩
    refine newSlot?_eq_some_iff.2 ⟨by simp [asksFor], hp, ?_⟩
    intro op hop
    exact ⟨by simpa [declares] using hdeclared op hop, by simpa [asksFor] using hused op hop⟩

/-- No name is given two slots. -/
theorem nodup_slotNames (ops : List Operation) : (slotNames ops).Nodup := by
  induction ops using List.reverseRecOn with
  | nil => simp
  | append_singleton ops op ih =>
    rw [slotNames_concat]
    cases hnew : newSlot? ops op with
    | none => simpa using ih
    | some name =>
      have hnot : name ∉ slotNames ops := by
        intro hmem
        obtain ⟨e, he, hasks⟩ := asked_of_mem_slotNames hmem
        simp [((newSlot?_eq_some_iff.1 hnew).2.2 e he).2] at hasks
      exact ih.append (List.nodup_singleton name) (List.disjoint_singleton.2 hnot)

/-- A variable gets the slot after those that were asked for in front of its first use. -/
theorem slotOf?_of_firstUsed (hroom : (slotNames ops).length ≤ slotCount)
    (hp : name ∉ predefinedNames) (hd : ∀ op ∈ ops, op.statement ≠ .label name)
    (h : FirstUsed ops name before after) :
    slotOf? ops name = some (16 + (slotNames before).length) := by
  obtain ⟨line, rfl, hbefore⟩ := h
  have hnew : newSlot? before ⟨.symbol name true, line⟩ = some name := by
    refine newSlot?_eq_some_iff.2 ⟨by simp [asksFor], hp, ?_⟩
    intro e he
    exact ⟨by simpa [declares] using hd e (by simp [he]), by simpa [asksFor] using hbefore e he⟩
  have hnot : name ∉ slotNames before := by
    intro hmem
    obtain ⟨e, he, hasks⟩ := asked_of_mem_slotNames hmem
    exact hbefore e he (by simpa [asksFor] using hasks)
  obtain ⟨rest, hrest⟩ := isPrefix_inContext newSlot? (before ++ [⟨.symbol name true, line⟩]) after
  rw [← slotNames_eq, ← slotNames_eq, slotNames_concat, hnew, List.append_assoc,
    List.append_assoc] at hrest
  rw [slotOf?, List.take_of_length_le hroom, ← List.singleton_append, ← hrest]
  have hnone : (slotNames before).findIdx? (· == name) = none := List.idxOf?_eq_none_iff.2 hnot
  simp [List.idxOf?, List.findIdx?_append, List.findIdx?_cons, hnone, firstSlot]

end First

section Means
variable {ops : List Operation} {name : String} {value : Int}

/-- A name with an address has a meaning. -/
theorem exists_means (h : binding? ops name ≠ none) : ∃ value, Means ops name value := by
  by_cases hp : name ∈ predefinedNames
  · obtain ⟨⟨_, value⟩, hentry, rfl⟩ := List.mem_map.1 hp
    exact ⟨value, .predefined hentry⟩
  · rw [Ne, binding?_eq_none_iff, not_and_or, not_not, not_not, Fixed] at h
    by_cases hd : ops.any (declares name) = true
    · obtain ⟨before, after, hfirst⟩ := exists_firstDeclared hd
      exact ⟨_, .label hp hfirst⟩
    · have hslot := (h.resolve_left (not_or.2 ⟨hp, hd⟩))
      have hasked := asked_of_mem_slotNames (List.mem_of_mem_take hslot)
      obtain ⟨before, after, hfirst⟩ := exists_firstUsed hasked
      refine ⟨_, .slot hp ?_ hfirst (nodup_slotNames before) fun _ => mem_slotNames_iff⟩
      simpa [declares] using hd

/-- Where there is a slot for each variable, a name has the address that it means. -/
theorem address?_of_means (hroom : (slotNames ops).length ≤ slotCount) (h : Means ops name value) :
    address? ops name = some value := by
  cases h with
  | predefined entry =>
    rw [address?, (lookup_eq_some_iff_mem SymbolTable.nodup_predefinedNames).2 entry]
    rfl
  | label fresh first =>
    rw [address?, (lookup_eq_none_iff name).2 fresh, declaredAt?_of_firstDeclared first]
    rfl
  | @slot before _ others fresh undeclared first distinct taken =>
    have hd : declaredAt? ops name = none := by
      rw [declaredAt?_eq_none_iff]
      simpa [declares] using undeclared
    have hothers : others.length = (slotNames before).length := by
      refine List.Perm.length_eq ((List.perm_ext_iff_of_nodup distinct (nodup_slotNames _)).2 ?_)
      intro other
      rw [taken, mem_slotNames_iff]
    rw [hothers, address?, (lookup_eq_none_iff name).2 fresh, hd,
      slotOf?_of_firstUsed hroom fresh undeclared first]
    rfl

/-- **The address of a name is what the name means**, if there is a slot for each variable. -/
theorem address?_eq_some_iff (hroom : (slotNames ops).length ≤ slotCount) :
    address? ops name = some value ↔ Means ops name value := by
  constructor
  · intro h
    have hb : binding? ops name ≠ none := by
      intro hnone
      simp [address?_eq, hnone] at h
    -- A name has one address, so it is enough that a bound name means something.
    obtain ⟨other, hmeans⟩ := exists_means hb
    have hsame := address?_of_means hroom hmeans
    rw [h] at hsame
    cases hsame
    exact hmeans
  · exact address?_of_means hroom

end Means

/-- Where no variable is refused, there is a slot for each. -/
theorem length_slotNames_le {ops : List Operation} (h : inContext refusal? ops = []) :
    (slotNames ops).length ≤ slotCount := by
  induction ops using List.reverseRecOn with
  | nil => simp
  | append_singleton ops op ih =>
    rw [inContext_concat, List.append_eq_nil_iff] at h
    have hle := ih h.1
    cases hnew : newSlot? ops op with
    | none => simpa [hnew] using hle
    | some name =>
      have hop := statement_of_newSlot? hnew
      have hfree : ¬LacksSlot ops name := by
        intro hlacks
        simp [refusal?, hop, hlacks] at h
      have hlt := length_lt_of_not_lacksSlot (binding?_of_newSlot? hnew) hfree
      rw [slotNames_concat, hnew, List.length_append]
      exact hlt

end HackAssembler.Naming
