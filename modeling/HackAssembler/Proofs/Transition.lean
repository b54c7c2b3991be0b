import HackAssembler.Assembly.Image
import HackAssembler.Assembly.Layout
import HackAssembler.SymbolTable.Lemmas
import Mathlib.Logic.Relation

/-!
# What can happen to a table

A table is worked on by actions: single declarations, allocations and look-ups, whole layouts and
images. Whatever the action does, and whether it is refused or not, the table goes through a
sequence of elementary changes. There are seven of them, each with the condition under which it
happens, so a property of tables or of pairs of tables has to be checked for these seven only.

## Main definitions

* `SymbolTable.Action`, `SymbolTable.act`, `SymbolTable.run` — actions, and the table they leave.
* `SymbolTable.Change` — the elementary changes.
* `SymbolTable.changes_run` — every run is a sequence of changes.
-/

namespace HackAssembler.SymbolTable

/-! ## Actions -/

/-- What can be asked of a table. -/
inductive Action where
  | addLabel (name : String) (address : Int)
  | allocate (name : String)
  | lookup (name : String)
  | freeze
  /-- The first pass over some operations. -/
  | layout (ops : List Operation)
  /-- The second pass over some operations. -/
  | image (ops : List Operation)
  /-- The word of one operation. -/
  | encode (op : Operation)
deriving DecidableEq, Repr

/-- The table that an action leaves, whether it was refused or not. -/
def act (t : SymbolTable) : Action → SymbolTable
  | .addLabel name address => (t.addLabel name address).2
  | .allocate name => (t.allocate name).2
  | .freeze => t.freeze
  | .layout ops => (t.layout ops).2
  -- These read the table and give it back.
  | .lookup _ | .image _ | .encode _ => t

/-- The table that some actions leave, one after the other. -/
def run (t : SymbolTable) (actions : List Action) : SymbolTable := actions.foldl act t

@[simp] theorem run_nil (t : SymbolTable) : t.run [] = t := rfl

@[simp] theorem run_cons (t : SymbolTable) (action : Action) (actions : List Action) :
    t.run (action :: actions) = (t.act action).run actions := rfl

@[simp] theorem run_append (t : SymbolTable) (first second : List Action) :
    t.run (first ++ second) = (t.run first).run second := by
  simp [run]

/-! ## The cases of declaring and allocating -/

section Cases
variable (t : SymbolTable) (name : String)

/-- The four ways in which the declaration of a label can end. -/
theorem declare_cases (address : Int) :
    (t.frozen = true ∧ t.declare name address = (.error (.frozenTable name), t)) ∨
    (t.frozen = false ∧ t.binding? name = none ∧
      t.declare name address = (.ok true, t.bindLabel name address)) ∨
    (t.frozen = false ∧ ∃ slot, t.binding? name = some ⟨.slot, slot⟩ ∧
      t.declare name address = (.ok true, (t.retireSlot name slot).bindLabel name address)) ∨
    (t.frozen = false ∧ ∃ b, t.binding? name = some b ∧ b.role ≠ .slot ∧
      t.declare name address = (.ok false, t)) := by
  cases hf : t.frozen with
  | true => exact .inl ⟨rfl, declare_of_frozen t name address hf⟩
  | false =>
    cases hb : t.binding? name with
    | none => exact .inr (.inl ⟨rfl, rfl, by simp [declare, hf, hb]⟩)
    | some b =>
      obtain ⟨role, slot⟩ := b
      cases role with
      | slot => exact .inr (.inr (.inl ⟨rfl, slot, rfl, by simp [declare, hf, hb]⟩))
      | predefined => exact .inr (.inr (.inr ⟨rfl, _, rfl, by simp, by simp [declare, hf, hb]⟩))
      | label => exact .inr (.inr (.inr ⟨rfl, _, rfl, by simp, by simp [declare, hf, hb]⟩))

/-- The four ways in which an allocation can end. -/
theorem allocate_cases :
    (t.frozen = true ∧ t.allocate name = (.error (.frozenTable name), t)) ∨
    (t.frozen = false ∧ ∃ b, t.binding? name = some b ∧ t.allocate name = (.ok b.address, t)) ∨
    (t.frozen = false ∧ t.binding? name = none ∧ slotLimit ≤ t.ram ∧
      t.allocate name = (.error (.outOfRam name), t)) ∨
    (t.frozen = false ∧ t.binding? name = none ∧ t.ram < slotLimit ∧
      t.allocate name = (.ok t.ram, t.giveSlot name)) := by
  cases hf : t.frozen with
  | true => exact .inl ⟨rfl, allocate_of_frozen t name hf⟩
  | false =>
    cases hb : t.binding? name with
    | some b => exact .inr (.inl ⟨rfl, b, rfl, by simp [allocate, hf, hb]⟩)
    | none =>
      by_cases hr : slotLimit ≤ t.ram
      · exact .inr (.inr (.inl ⟨rfl, rfl, hr, by simp [allocate, hf, hb, hr]⟩))
      · exact .inr (.inr (.inr ⟨rfl, rfl, by omega, by simp [allocate, hf, hb, hr]⟩))

end Cases

/-! ## Elementary changes -/

/-- One change of a table, and when it happens. -/
inductive Change : SymbolTable → SymbolTable → Prop where
  /-- A name without an address becomes a label. -/
  | bindLabel {t : SymbolTable} {name : String} (address : Int) (unfrozen : t.frozen = false)
      (fresh : t.binding? name = none) : Change t (t.bindLabel name address)
  /-- A variable becomes a label. -/
  | takeOver {t : SymbolTable} {name : String} {slot : Int} (address : Int)
      (unfrozen : t.frozen = false) (taken : t.binding? name = some ⟨.slot, slot⟩) :
      Change t ((t.retireSlot name slot).bindLabel name address)
  /-- A name without an address becomes a variable. -/
  | giveSlot {t : SymbolTable} {name : String} (unfrozen : t.frozen = false)
      (fresh : t.binding? name = none) (room : t.ram < slotLimit) : Change t (t.giveSlot name)
  | recordError (t : SymbolTable) (fault : Fault) (line : Line) :
      Change t (t.recordError fault line)
  | recordWarning {t : SymbolTable} (name : String) (line : Line) (unfrozen : t.frozen = false) :
      Change t (t.recordWarning name line)
  | finish (t : SymbolTable) (count : Nat) : Change t (t.finish count)
  | freeze (t : SymbolTable) : Change t t.freeze

/-- Any number of changes, one after the other. -/
abbrev Changes : SymbolTable → SymbolTable → Prop := Relation.ReflTransGen Change

theorem changes_declare (t : SymbolTable) (name : String) (address : Int) :
    Changes t (t.declare name address).2 := by
  obtain ⟨-, h⟩ | ⟨hf, hb, h⟩ | ⟨hf, slot, hb, h⟩ | ⟨-, b, -, -, h⟩ :=
    declare_cases t name address <;> rw [h]
  · exact .single (.bindLabel address hf hb)
  · exact .single (.takeOver address hf hb)

theorem changes_allocate (t : SymbolTable) (name : String) : Changes t (t.allocate name).2 := by
  obtain ⟨-, h⟩ | ⟨-, b, -, h⟩ | ⟨-, -, -, h⟩ | ⟨hf, hb, hr, h⟩ := allocate_cases t name <;> rw [h]
  exact .single (.giveSlot hf hb hr)

theorem changes_reference (t : SymbolTable) (name : String) (line : Line) :
    Changes t (t.reference name line) := by
  have h := changes_allocate t name
  rw [reference]
  cases ha : t.allocate name with
  | mk answer t' =>
    rw [ha] at h
    cases answer with
    | ok _ => exact h
    | error fault => exact h.tail (.recordError t' fault line)

/-- A layout goes through changes, also when a refused label ends it. -/
theorem changes_layoutFrom (ops : List Operation) (count : Nat) (t : SymbolTable) :
    Changes t (t.layoutFrom count ops).2 := by
  induction ops generalizing count t with
  | nil => exact .single (.finish t count)
  | cons op ops ih =>
    obtain ⟨statement, line⟩ := op
    cases statement with
    | label name =>
      simp only [layoutFrom]
      obtain ⟨-, h⟩ | ⟨hf, hb, h⟩ | ⟨hf, slot, hb, h⟩ | ⟨hf, b, -, -, h⟩ :=
        declare_cases t name count <;> rw [h]
      · exact .head (.bindLabel _ hf hb) (ih count _)
      · exact .head (.takeOver _ hf hb) (ih count _)
      · exact .head (.recordWarning name line hf) (ih count _)
    | symbol name allocates =>
      cases allocates with
      | true => exact (changes_reference t name line).trans (ih (count + 1) _)
      | false => exact ih (count + 1) t
    | constant | compute | reserve => exact ih (count + 1) t

theorem changes_act (t : SymbolTable) (action : Action) : Changes t (t.act action) := by
  cases action with
  | addLabel name address =>
    rw [act, addLabel_snd]
    exact changes_declare t name address
  | allocate name => exact changes_allocate t name
  | freeze => exact .single (.freeze t)
  | layout ops => exact changes_layoutFrom ops 0 t
  | lookup | image | encode => exact .refl

/-- **Every run of actions is a sequence of changes.** -/
theorem changes_run (actions : List Action) (t : SymbolTable) : Changes t (t.run actions) := by
  induction actions generalizing t with
  | nil => exact .refl
  | cons action actions ih => exact (changes_act t action).trans (ih (t.act action))

/-- What every change keeps, every sequence of changes keeps. -/
theorem Changes.keep {P : SymbolTable → Prop} (step : ∀ {t t'}, Change t t' → P t → P t')
    {t t' : SymbolTable} (h : Changes t t') (ht : P t) : P t' := by
  induction h with
  | refl => exact ht
  | tail _ change ih => exact step change ih

end HackAssembler.SymbolTable
