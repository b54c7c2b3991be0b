import HackAssembler.Proofs.Consistency

/-!
# The life of a binding

What a table keeps of any table that it came from. A predefined name or a label stays what it is.
A variable keeps its slot or becomes a label, and never loses its address. The next slot moves by
one for each slot that is given out, so a slot is given out once, even when the variable that had
it has become a label. A frozen table binds nothing more.

## Main definitions

* `SymbolTable.slotsGiven` — the slots that a run gives out, told from the answers.
* `SymbolTable.Kept` — what happens to the bindings in any number of changes.
* `SymbolTable.Continues`, `SymbolTable.SameNames` — the same, told from the lists.
* `SymbolTable.Refuses`, `SymbolTable.Untold` — the action gets no answer, and the one case in which
  it has an effect all the same: `SymbolTable.BindsLabel`.
-/

namespace HackAssembler.SymbolTable

/-! ## Slots that are given out -/

/-- The slot that an allocation gives out. A name that has an address is given none; its address
is only told. -/
def allocated (t : SymbolTable) (name : String) : List (String × Int) :=
  match t.address? name, (t.allocate name).1 with
  | none, .ok slot => [(name, slot)]
  | _, _ => []

/-- The slots that a layout gives out, in order. -/
def layoutSlots (count : Nat) (t : SymbolTable) : List Operation → List (String × Int)
  | [] => []
  | op :: ops =>
    match op.statement with
    | .label name =>
      match t.declare name count with
      | (.ok true, t') => layoutSlots count t' ops
      | (.ok false, t') => layoutSlots count (t'.recordWarning name op.line) ops
      | (.error _, _) => []
    | .symbol name true =>
      t.allocated name ++ layoutSlots (count + 1) (t.reference name op.line) ops
    | _ => layoutSlots (count + 1) t ops

/-- The slots that an action gives out, in order. -/
def actionSlots (t : SymbolTable) : Action → List (String × Int)
  | .allocate name => t.allocated name
  | .layout ops => t.layoutSlots 0 ops
  | .addLabel _ _ | .lookup _ | .freeze | .image _ | .encode _ => []

/-- The slots that some actions give out, in order. -/
def slotsGiven (t : SymbolTable) : List Action → List (String × Int)
  | [] => []
  | action :: actions => t.actionSlots action ++ (t.act action).slotsGiven actions

theorem givenSlots_declare (t : SymbolTable) (name : String) (address : Int) :
    (t.declare name address).2.givenSlots = t.givenSlots := by
  obtain ⟨-, h⟩ | ⟨-, -, h⟩ | ⟨-, slot, -, h⟩ | ⟨-, b, -, -, h⟩ :=
    declare_cases t name address <;> simp [h]

theorem givenSlots_allocate (t : SymbolTable) (name : String) :
    (t.allocate name).2.givenSlots = t.givenSlots ++ t.allocated name := by
  obtain ⟨-, h⟩ | ⟨-, b, hb, h⟩ | ⟨-, hb, -, h⟩ | ⟨-, hb, -, h⟩ := allocate_cases t name
  · simp only [allocated, h, List.self_eq_append_right]
    split <;> simp_all
  · simp [allocated, address?, hb, h]
  · simp [allocated, address?, hb, h]
  · simp [allocated, address?, hb, h]

theorem givenSlots_reference (t : SymbolTable) (name : String) (line : Line) :
    (t.reference name line).givenSlots = t.givenSlots ++ t.allocated name := by
  rw [← givenSlots_allocate, reference]
  cases t.allocate name with
  | mk answer t' => cases answer <;> rfl

theorem givenSlots_layoutFrom (ops : List Operation) (count : Nat) (t : SymbolTable) :
    (t.layoutFrom count ops).2.givenSlots = t.givenSlots ++ t.layoutSlots count ops := by
  induction ops generalizing count t with
  | nil => simp [layoutFrom, layoutSlots, givenSlots, finish]
  | cons op ops ih =>
    obtain ⟨statement, line⟩ := op
    cases statement with
    | label name =>
      have h := givenSlots_declare t name count
      simp only [layoutFrom, layoutSlots]
      cases ha : t.declare name count with
      | mk answer t' =>
        rw [ha] at h
        cases answer with
        | error fault => simpa using h
        | ok new =>
          cases new with
          | true => rw [ih, h]
          | false =>
            have hw : (t'.recordWarning name line).givenSlots = t.givenSlots := h
            rw [ih, hw]
    | symbol name allocates =>
      cases allocates with
      | true => simp only [layoutFrom, layoutSlots, ih, givenSlots_reference, List.append_assoc]
      | false => exact ih (count + 1) t
    | constant | compute | reserve => exact ih (count + 1) t

theorem givenSlots_act (t : SymbolTable) (action : Action) :
    (t.act action).givenSlots = t.givenSlots ++ t.actionSlots action := by
  cases action with
  | addLabel name address => simp [actionSlots, act, givenSlots_declare]
  | allocate name => exact givenSlots_allocate t name
  | layout ops => exact givenSlots_layoutFrom ops 0 t
  | freeze => simp [actionSlots, act, givenSlots, SymbolTable.freeze]
  | lookup | image | encode => simp [actionSlots, act]

/-- The history of a table holds exactly the slots that the answers told. -/
theorem givenSlots_run (actions : List Action) (t : SymbolTable) :
    (t.run actions).givenSlots = t.givenSlots ++ t.slotsGiven actions := by
  induction actions generalizing t with
  | nil => simp [slotsGiven]
  | cons action actions ih => rw [run_cons, ih, givenSlots_act, slotsGiven, List.append_assoc]

/-! ## Bindings -/

/-- What becomes of the bindings of a table. -/
structure Kept (s t : SymbolTable) : Prop where
  fixed : ∀ name b, s.binding? name = some b → b.role ≠ .slot → t.binding? name = some b
  slots : ∀ name slot, s.binding? name = some ⟨.slot, slot⟩ →
    t.binding? name = some ⟨.slot, slot⟩ ∨ ∃ address, t.binding? name = some ⟨.label, address⟩

theorem Kept.of_bindings_eq {s t : SymbolTable} (h : t.bindings = s.bindings) : Kept s t := by
  have hb (name : String) : t.binding? name = s.binding? name := by rw [binding?, h, binding?]
  exact ⟨fun name b hs _ => (hb name).trans hs, fun name slot hs => .inl ((hb name).trans hs)⟩

theorem Kept.trans {s t u : SymbolTable} (hst : Kept s t) (htu : Kept t u) : Kept s u where
  fixed name b hs hrole := htu.fixed name b (hst.fixed name b hs hrole) hrole
  slots name slot hs := by
    obtain ht | ⟨address, ht⟩ := hst.slots name slot hs
    · exact htu.slots name slot ht
    · exact .inr ⟨address, htu.fixed name _ ht (by simp)⟩

/-- A name that has no address can be bound to anything. -/
theorem Kept.of_fresh {s t : SymbolTable} {name : String} (fresh : s.binding? name = none)
    (others : ∀ other, name ≠ other → t.binding? other = s.binding? other) : Kept s t := by
  have bound (other : String) (b : Binding) (hs : s.binding? other = some b) :
      t.binding? other = some b := by
    have hne : name ≠ other := by
      rintro rfl
      simp [fresh] at hs
    rw [others other hne, hs]
  exact ⟨fun other b hs _ => bound other b hs, fun other slot hs => .inl (bound other _ hs)⟩

theorem Change.kept {t t' : SymbolTable} (c : Change t t') : Kept t t' := by
  cases c with
  | bindLabel address _ fresh =>
    refine .of_fresh fresh ?_
    intro other hne
    simp [hne]
  | giveSlot _ fresh _ =>
    refine .of_fresh fresh ?_
    intro other hne
    simp [hne]
  | @takeOver name slot address _ taken =>
    constructor
    · intro other b hb hrole
      have hne : name ≠ other := by
        rintro rfl
        rw [taken, Option.some.injEq] at hb
        exact hrole (by rw [← hb])
      simp [hne, hb]
    · intro other slot' hb
      by_cases heq : name = other
      · exact .inr ⟨address, by simp [heq]⟩
      · exact .inl (by simp [heq, hb])
  | recordError | recordWarning | finish | freeze => exact .of_bindings_eq rfl

theorem kept_run (s : SymbolTable) (actions : List Action) : Kept s (s.run actions) :=
  (changes_run actions s).keep (fun c h => h.trans c.kept) (.of_bindings_eq rfl)

/-! ## Frozen tables -/

/-- Two tables that bind the same names in the same way and have warned of the same. Errors and
the length of the program may differ. -/
structure SameNames (s t : SymbolTable) : Prop where
  bindings : t.bindings = s.bindings
  ram : t.ram = s.ram
  labelNames : t.labelNames = s.labelNames
  variableNames : t.variableNames = s.variableNames
  warnings : t.warnings = s.warnings
  frozen : t.frozen = s.frozen

theorem SameNames.refl (t : SymbolTable) : SameNames t t := ⟨rfl, rfl, rfl, rfl, rfl, rfl⟩

theorem SameNames.trans {s t u : SymbolTable} (hst : SameNames s t) (htu : SameNames t u) :
    SameNames s u :=
  ⟨htu.bindings.trans hst.bindings, htu.ram.trans hst.ram, htu.labelNames.trans hst.labelNames,
    htu.variableNames.trans hst.variableNames, htu.warnings.trans hst.warnings,
    htu.frozen.trans hst.frozen⟩

theorem Change.sameNames {t t' : SymbolTable} (c : Change t t') (hf : t.frozen = true) :
    SameNames t t' := by
  cases c with
  | bindLabel _ unfrozen | takeOver _ unfrozen | giveSlot unfrozen | recordWarning _ _ unfrozen =>
    simp [hf] at unfrozen
  | recordError => exact ⟨rfl, rfl, rfl, rfl, rfl, rfl⟩
  | finish | freeze => exact ⟨rfl, rfl, rfl, rfl, rfl, hf.symm⟩

theorem sameNames_run {s : SymbolTable} (hf : s.frozen = true) (actions : List Action) :
    SameNames s (s.run actions) :=
  (changes_run actions s).keep
    (fun c h => h.trans (c.sameNames (h.frozen.trans hf))) (.refl s)

/-! ## Refusals -/

/-- The action asks for a single name and gets no answer. -/
def Refuses (t : SymbolTable) : Action → Prop
  | .addLabel name address => ∃ stop, (t.addLabel name address).1 = .error stop
  | .allocate name => ∃ fault, (t.allocate name).1 = .error fault
  | .lookup name => ∃ fault, t.lookup name = .error fault
  | .freeze | .layout _ | .image _ | .encode _ => False

/-- The action declares a label that is new, with an address that is too long to be told. -/
def Untold (t : SymbolTable) : Action → Prop
  | .addLabel name address => t.frozen = false ∧ name ∉ predefinedNames ∧ name ∉ t.labelNames ∧
      ¬Text.Writable address
  | _ => False

/-- The name has become a label, and nothing else has happened to the names. -/
structure BindsLabel (t : SymbolTable) (name : String) (address : Int) (t' : SymbolTable) :
    Prop where
  address : t'.address? name = some address
  others : ∀ other, other ≠ name → t'.address? other = t.address? other
  labels : t'.labelNames = t.labelNames ++ [name]
  slots : t'.variableNames = t.variableNames.erase name
  ram : t'.ram = t.ram

/-- A new label is bound, whatever its address is, and whether its name was a variable or not. -/
theorem Recorded.declare {t : SymbolTable} (h : Recorded t) {name : String} (address : Int)
    (unfrozen : t.frozen = false) (hp : name ∉ predefinedNames) (hl : name ∉ t.labelNames) :
    (t.declare name address).1 = .ok true ∧
      BindsLabel t name address (t.declare name address).2 := by
  obtain ⟨hf, -⟩ | ⟨-, hb, hd⟩ | ⟨-, slot, hb, hd⟩ | ⟨-, ⟨role, a⟩, hb, hrole, -⟩ :=
    declare_cases t name address
  · simp [unfrozen] at hf
  · rw [hd]
    refine ⟨rfl, by simp [address?], ?_, by simp, h.variableNames_bindLabel name address, by simp⟩
    intro other hne
    simp [address?, Ne.symm hne]
  · rw [hd]
    refine ⟨rfl, by simp [address?], ?_, by simp, h.variableNames_takeOver name slot address,
      by simp⟩
    intro other hne
    simp [address?, Ne.symm hne]
  · cases role with
    | predefined => exact absurd ((h.mem_predefinedNames name).2 ⟨a, hb⟩) hp
    | label => exact absurd ((h.labels name).2 ⟨a, hb⟩) hl
    | slot => exact absurd rfl hrole

/-- Telling fails for new labels with too long an address, and for these only. -/
theorem Recorded.addLabel_eq_unwritable_iff {t : SymbolTable} (h : Recorded t) {name : String}
    {address : Int} : (t.addLabel name address).1 = .error .unwritable ↔
      t.Untold (.addLabel name address) := by
  rw [addLabel_fst_eq_unwritable_iff]
  constructor
  · rintro ⟨hbound, hlong⟩
    obtain ⟨-, hd⟩ | ⟨hf, hb, -⟩ | ⟨hf, slot, hb, -⟩ | ⟨-, b, -, -, hd⟩ :=
      declare_cases t name address
    · simp [hd] at hbound
    · exact ⟨hf, by simp [h.mem_predefinedNames, hb], by simp [h.labels, hb], hlong⟩
    · exact ⟨hf, by simp [h.mem_predefinedNames, hb], by simp [h.labels, hb], hlong⟩
    · simp [hd] at hbound
  · rintro ⟨unfrozen, hp, hl, hlong⟩
    exact ⟨(h.declare address unfrozen hp hl).1, hlong⟩

/-- A new label is bound before its address turns out to be too long. -/
theorem Recorded.bindsLabel_of_untold {t : SymbolTable} (h : Recorded t) {name : String}
    {address : Int} (huntold : t.Untold (.addLabel name address)) :
    BindsLabel t name address (t.act (.addLabel name address)) := by
  obtain ⟨unfrozen, hp, hl, -⟩ := huntold
  rw [act, addLabel_snd]
  exact (h.declare address unfrozen hp hl).2

/-- A refusal changes nothing, unless it comes from telling about a label that has been bound. -/
theorem Recorded.act_of_refuses {t : SymbolTable} (ht : Recorded t) {action : Action}
    (h : t.Refuses action) (htold : ¬t.Untold action) : t.act action = t := by
  cases action with
  | addLabel name address =>
    obtain ⟨stop, hstop⟩ := h
    cases stop with
    | fault fault =>
      rw [addLabel_fst_eq_fault_iff] at hstop
      rw [act, addLabel_snd]
      exact declare_snd_of_error t name address hstop
    | unwritable => exact absurd (ht.addLabel_eq_unwritable_iff.1 hstop) htold
  | allocate name =>
    obtain ⟨fault, hfault⟩ := h
    exact allocate_snd_of_error t name hfault
  | lookup => rfl
  | freeze | layout | image | encode => exact h.elim

/-! ## The whole life -/

/-- What the names of a table become in a later table, told from the lists. -/
structure Continues (s t : SymbolTable) : Prop where
  predefined : ∀ name ∈ predefinedNames, t.address? name = s.address? name ∧
    name ∉ t.labelNames ∧ name ∉ t.variableNames
  labels : ∀ name ∈ s.labelNames, t.address? name = s.address? name ∧
    name ∈ t.labelNames ∧ name ∉ t.variableNames
  slots : ∀ name ∈ s.variableNames,
    (t.address? name = s.address? name ∧ name ∈ t.variableNames) ∨ name ∈ t.labelNames
  bound : ∀ name, s.contains name = true → t.contains name = true

theorem Kept.continues {s t : SymbolTable} (h : Kept s t) (hs : Recorded s) (ht : Recorded t) :
    Continues s t := by
  have labels (name : String) (hname : name ∈ s.labelNames) :
      t.address? name = s.address? name ∧ name ∈ t.labelNames := by
    obtain ⟨a, ha⟩ := (hs.labels name).1 hname
    have hb := h.fixed name _ ha (by simp)
    exact ⟨by simp [address?, ha, hb], (ht.labels name).2 ⟨a, hb⟩⟩
  have slots (name : String) (hname : name ∈ s.variableNames) :
      (t.address? name = s.address? name ∧ name ∈ t.variableNames) ∨ name ∈ t.labelNames := by
    obtain ⟨a, ha⟩ := (hs.mem_variableNames name).1 hname
    obtain hb | hb := h.slots name a ha
    · exact .inl ⟨by simp [address?, ha, hb], (ht.mem_variableNames name).2 ⟨a, hb⟩⟩
    · exact .inr ((ht.labels name).2 hb)
  refine ⟨?_, ?_, slots, ?_⟩
  · intro name hname
    obtain ⟨a, ha⟩ := (hs.mem_predefinedNames name).1 hname
    have hb := h.fixed name _ ha (by simp)
    exact ⟨by simp [address?, ha, hb], fun hl => ht.predefined_disjoint_labels hname hl,
      fun hv => ht.predefined_disjoint_variables hname hv⟩
  · intro name hname
    have hl := labels name hname
    exact ⟨hl.1, hl.2, fun hv => ht.labels_disjoint_variables hl.2 hv⟩
  · intro name hname
    rw [ht.contains_iff]
    rcases (hs.contains_iff name).1 hname with hp | hl | hv
    · exact .inl hp
    · exact .inr (.inl (labels name hl).2)
    · rcases slots name hv with hv | hl
      · exact .inr (.inr hv.2)
      · exact .inr (.inl hl)

/-- **The life of the bindings in one table, over any two stretches of a run.** What the names of
the first become in the second, how far the next slot has moved, that no slot was given out twice
since the beginning, that a frozen table binds nothing more, and that a refusal changes nothing,
unless all that failed was to tell about a label with too long an address: that label is bound. -/
theorem continues_run (first second : List Action) :
    let s := initial.run first
    let t := s.run second
    Continues s t ∧
      s.ram ≤ t.ram ∧ t.ram = s.ram + (s.slotsGiven second).length ∧
      ((initial.slotsGiven (first ++ second)).map Prod.snd).Nodup ∧
      (s.frozen = true → SameNames s t) ∧
      (∀ action, t.Refuses action → ¬t.Untold action → t.act action = t) ∧
      ∀ name address,
        ((t.addLabel name address).1 = .error .unwritable ↔ t.Untold (.addLabel name address)) ∧
        (t.Untold (.addLabel name address) →
          BindsLabel t name address (t.act (.addLabel name address))) := by
  intro s t
  have hs : Recorded s := recorded_run first
  have ht : Recorded t := by
    have h := recorded_run (first ++ second)
    rwa [run_append] at h
  have hram : t.ram = s.ram + (s.slotsGiven second).length := by
    have hgiven : t.givenSlots = s.givenSlots ++ s.slotsGiven second := givenSlots_run second s
    have hlength := congrArg List.length hgiven
    rw [List.length_append] at hlength
    have := hs.ram_eq
    have := ht.ram_eq
    omega
  have hnodup : ((initial.slotsGiven (first ++ second)).map Prod.snd).Nodup := by
    have hgiven := givenSlots_run (first ++ second) initial
    rw [givenSlots_initial, List.nil_append] at hgiven
    rw [← hgiven, List.nodup_iff_pairwise_ne, List.pairwise_map]
    exact (recorded_run (first ++ second)).given_increasing.imp fun hlt => by omega
  refine ⟨(kept_run s second).continues hs ht, by omega, hram, hnodup, ?_, ?_, ?_⟩
  · intro hf
    exact sameNames_run hf second
  · intro action hrefused htold
    exact ht.act_of_refuses hrefused htold
  · intro name address
    exact ⟨ht.addLabel_eq_unwritable_iff, ht.bindsLabel_of_untold⟩

/-- **A refusal need not leave the table as it was**: the new label stays when its address turns
out to be too long to be told. -/
theorem refusal_binds_label :
    ¬∀ (actions : List Action) (action : Action),
      (initial.run actions).Refuses action →
        (initial.run actions).act action = initial.run actions := by
  intro hall
  have huntold : initial.Untold (.addLabel "X" Text.firstUnwritable) :=
    ⟨rfl, by decide, by decide, Text.not_writable_firstUnwritable⟩
  have hsame := hall [] (.addLabel "X" Text.firstUnwritable)
    ⟨_, recorded_initial.addLabel_eq_unwritable_iff.2 huntold⟩
  have hlabels := (recorded_initial.bindsLabel_of_untold huntold).labels
  rw [run_nil] at hsame
  rw [hsame] at hlabels
  simp at hlabels

end HackAssembler.SymbolTable
