import HackAssembler.Proofs.Allocation

/-!
# Harmless declarations

One more declaration in the middle of a program is harmless in two cases: nobody else mentions its
name, or its name is predefined or declared in front of it. In the first case the table has one
label more, in the second there is one warning more. The words, the faults and the slots are the
same in both, since a declaration takes up no instruction and asks for no slot.

## Main definitions

* `Naming.Harmless` — a declaration of the name at this place is harmless.
* `SymbolTable.GainsLabel`, `SymbolTable.GainsWarning` — what it adds to the table.
* `Program.SameResult` — the same words or the same failure, up to tables and warnings.
-/

namespace HackAssembler

/-- The operation declares or uses the name. -/
def Operation.mentions (name : String) (op : Operation) : Bool :=
  match op.statement with
  | .label other | .symbol other _ => other = name
  | _ => false

/-! ## What names mean -/

namespace Naming

/-- A declaration of the name between these parts of a program is harmless: the name is predefined
or declared in front of it, or no other operation mentions the name. -/
def Harmless (before after : List Operation) (name : String) : Prop :=
  Fixed before name ∨ ∀ x ∈ before ++ after, x.mentions name = false

section Insert
variable {before after : List Operation} {op : Operation} {name other : String}

/-- The names that the other operations mention are not touched by a harmless declaration. -/
theorem Harmless.untouched (h : Harmless before after name) {x : Operation}
    (hx : x ∈ before ++ after) (hmentions : x.mentions other = true) :
    other ≠ name ∨ Fixed before name := by
  refine h.symm.imp_left ?_
  rintro hall rfl
  simp [hall x hx] at hmentions

theorem Harmless.front {x : Operation} {later : List Operation}
    (h : Harmless before (after ++ x :: later) name) : Harmless before after name := by
  refine h.imp_right ?_
  intro hall y hy
  apply hall y
  rcases List.mem_append.1 hy with hy | hy <;> simp [hy]

@[simp] theorem mentions_label (line : Line) :
    (Operation.mk (.label other) line).mentions other := by simp [Operation.mentions]

@[simp] theorem mentions_symbol (allocates : Bool) (line : Line) :
    (Operation.mk (.symbol other allocates) line).mentions other := by simp [Operation.mentions]

theorem declaredAt?_append (l r : List Operation) (name : String) :
    declaredAt? (l ++ r) name =
      (declaredAt? l name).or ((declaredAt? r name).map (instructionCount l + ·)) := by
  induction r using List.reverseRecOn with
  | nil => simp
  | append_singleton r x ih =>
    rw [← List.append_assoc, declaredAt?_concat, ih, declaredAt?_concat, instructionCount_append]
    cases declaredAt? l name with
    | some a => rfl
    | none => cases declaredAt? r name <;> by_cases hx : declares name x = true <;> simp [hx]

theorem mentions_of_asksFor {x : Operation} (h : asksFor other x = true) :
    x.mentions other = true := by
  obtain ⟨statement, line⟩ := x
  obtain rfl : statement = .symbol other true := by simpa [asksFor] using h
  exact mentions_symbol true line

theorem mentions_of_declares {x : Operation} (h : declares other x = true) :
    x.mentions other = true := by
  obtain ⟨statement, line⟩ := x
  obtain rfl : statement = .label other := by simpa [declares] using h
  exact mentions_label line

theorem not_fixed_of_unmentioned {ops : List Operation} (hp : name ∉ predefinedNames)
    (h : ∀ x ∈ ops, x.mentions name = false) : ¬Fixed ops name := by
  rw [Fixed, not_or, List.any_eq_true]
  refine ⟨hp, ?_⟩
  rintro ⟨x, hx, hdeclares⟩
  exact absurd (mentions_of_declares hdeclares) (by simp [h x hx])

/-- A name that nobody mentions has no address. -/
theorem binding?_of_unmentioned {ops : List Operation} (hp : name ∉ predefinedNames)
    (h : ∀ x ∈ ops, x.mentions name = false) : binding? ops name = none := by
  rw [binding?_eq_none_iff]
  refine ⟨not_fixed_of_unmentioned hp h, ?_⟩
  intro hslot
  obtain ⟨x, hx, hasks⟩ := asked_of_mem_slotNames (List.mem_of_mem_take hslot)
  exact absurd (mentions_of_asksFor hasks) (by simp [h x hx])

theorem newSlot?_eq_some_iff_fixed {earlier : List Operation} {x : Operation} :
    newSlot? earlier x = some other ↔
      asksFor other x = true ∧ ¬Fixed earlier other ∧ ∀ e ∈ earlier, asksFor other e = false := by
  rw [newSlot?_eq_some_iff, Fixed, not_or, Bool.not_eq_true, List.any_eq_false, and_assoc]
  simp only [forall_and, Bool.not_eq_true]

/-- What is predefined or declared stays so. -/
theorem Fixed.append (h : Fixed before name) (after : List Operation) :
    Fixed (before ++ after) name := by
  rw [Fixed, List.any_append, Bool.or_eq_true]
  exact h.imp_right .inl

section Label
variable (hop : op.statement = .label name)
include hop

theorem instructionCount_insert (before after : List Operation) :
    instructionCount (before ++ op :: after) = instructionCount (before ++ after) := by
  have hlabel : op.isLabel = true := by simp [Operation.isLabel, hop]
  have hone : instructionCount (op :: after) = instructionCount after := by
    simp [instructionCount, hlabel]
  rw [instructionCount_append, instructionCount_append, hone]

theorem firstDeclared_insert (hfresh : ¬Fixed before name) (after : List Operation) :
    FirstDeclared (before ++ op :: after) name before after := by
  refine ⟨op.line, by rw [← hop], ?_⟩
  rw [Fixed, not_or] at hfresh
  simpa [declares] using hfresh.2

theorem fixed_insert (hother : other ≠ name ∨ Fixed before name) (after : List Operation) :
    Fixed (before ++ op :: after) other ↔ Fixed (before ++ after) other := by
  by_cases heq : other = name
  · have hfixed : Fixed before other := heq ▸ hother.resolve_left (not_not.2 heq)
    exact iff_of_true (hfixed.append _) (hfixed.append _)
  · have hdeclares : declares other op = false := by simp [declares, hop, Ne.symm heq]
    simp [Fixed, hdeclares]

/-- A harmless declaration has no influence on whether an operation asks for a new slot. -/
theorem newSlot?_insert {x : Operation}
    (hx : ∀ other, x.mentions other = true → other ≠ name ∨ Fixed before name)
    (after : List Operation) :
    newSlot? (before ++ op :: after) x = newSlot? (before ++ after) x := by
  have hasks (other : String) : asksFor other op = false := by simp [asksFor, hop]
  ext other
  rw [newSlot?_eq_some_iff_fixed, newSlot?_eq_some_iff_fixed]
  refine and_congr_right fun hother => and_congr ?_ ?_
  · exact not_congr (fixed_insert hop (hx other (mentions_of_asksFor hother)) after)
  · simp [hasks, or_imp, forall_and]

variable (h : Harmless before after name)
include h

theorem slotNames_insert : slotNames (before ++ op :: after) = slotNames (before ++ after) := by
  have hinsert : ∀ earlier x later, after = earlier ++ x :: later →
      newSlot? (before ++ op :: earlier) x = newSlot? (before ++ earlier) x := by
    rintro earlier x later rfl
    exact newSlot?_insert hop (fun other => h.untouched (by simp)) earlier
  have hnone : newSlot? before op = none := by simp [newSlot?, hop]
  obtain ⟨rest, hold, hnew⟩ := inContext_insert newSlot? hinsert
  rw [slotNames_eq, slotNames_eq, hold, hnew, hnone]
  simp

/-- A harmless declaration leaves all other names what they are, and its own name as well if that
was predefined or declared. -/
theorem binding?_insert (hother : other ≠ name ∨ Fixed before name) :
    binding? (before ++ op :: after) other = binding? (before ++ after) other := by
  have hslot : slotOf? (before ++ op :: after) other = slotOf? (before ++ after) other := by
    rw [slotOf?, slotNames_insert hop h, slotOf?]
  rw [binding?, binding?, hslot]
  by_cases heq : other = name
  · -- The name's own meaning was fixed in front of the declaration.
    subst heq
    rcases hother.resolve_left (not_not.2 rfl) with hp | hd
    · obtain ⟨value, hvalue⟩ := Option.ne_none_iff_exists'.1
        (mt (lookup_eq_none_iff other).1 (not_not.2 hp))
      rw [hvalue]
      rfl
    · obtain ⟨count, hcount⟩ : ∃ count, declaredAt? before other = some count := by
        rw [← Option.ne_none_iff_exists', Ne, declaredAt?_eq_none_iff, hd]
        simp
      rw [declaredAt?_append, declaredAt?_append, hcount]
      rfl
  · -- The declaration is of another name and takes up no instruction.
    have hdeclares : declares other op = false := by simp [declares, hop, Ne.symm heq]
    have hfirst : declaredAt? [op] other = none := by simp [declaredAt?, hdeclares]
    have hcount : instructionCount [op] = 0 := by
      simpa using instructionCount_insert hop [] []
    have hcons : declaredAt? (op :: after) other = declaredAt? after other := by
      rw [← List.singleton_append, declaredAt?_append, hfirst, hcount]
      simp
    rw [declaredAt?_append, hcons, ← declaredAt?_append]

/-- A harmless declaration has no influence on which variables are refused. -/
theorem refusals_insert :
    inContext refusal? (before ++ op :: after) = inContext refusal? (before ++ after) := by
  have hinsert : ∀ earlier x later, after = earlier ++ x :: later →
      refusal? (before ++ op :: earlier) x = refusal? (before ++ earlier) x := by
    rintro earlier ⟨statement, line⟩ later rfl
    cases statement with
    | symbol other allocates =>
      cases allocates with
      | true =>
        have hother : other ≠ name ∨ Fixed before name :=
          h.untouched (by simp) (mentions_symbol true line)
        have haddress : address? (before ++ op :: earlier) other =
            address? (before ++ earlier) other := by
          rw [address?_eq, binding?_insert hop h.front hother, address?_eq]
        have hlacks : LacksSlot (before ++ op :: earlier) other ↔
            LacksSlot (before ++ earlier) other := by
          rw [LacksSlot, haddress, slotNames_insert hop h.front, LacksSlot]
        simp only [refusal?, hlacks]
      | false => rfl
    | label | constant | compute | reserve => rfl
  have hnone : refusal? before op = none := by simp [refusal?, hop]
  obtain ⟨rest, hold, hnew⟩ := inContext_insert refusal? hinsert
  rw [hold, hnew, hnone]
  simp

/-- A harmless declaration adds its own label or warning and leaves those of the others. -/
theorem declarations_insert :
    (∃ rest, inContext newLabel? (before ++ after) = inContext newLabel? before ++ rest ∧
      inContext newLabel? (before ++ op :: after) =
        inContext newLabel? before ++ (newLabel? before op).toList ++ rest) ∧
    ∃ rest, inContext redeclaration? (before ++ after) = inContext redeclaration? before ++ rest ∧
      inContext redeclaration? (before ++ op :: after) =
        inContext redeclaration? before ++ (redeclaration? before op).toList ++ rest := by
  have hinsert : ∀ earlier x later, after = earlier ++ x :: later →
      newLabel? (before ++ op :: earlier) x = newLabel? (before ++ earlier) x ∧
        redeclaration? (before ++ op :: earlier) x = redeclaration? (before ++ earlier) x := by
    rintro earlier ⟨statement, line⟩ later rfl
    cases statement with
    | label other =>
      have hother : other ≠ name ∨ Fixed before name := h.untouched (by simp) (mentions_label line)
      simp only [newLabel?, redeclaration?, fixed_insert hop hother, and_self]
    | symbol | constant | compute | reserve => exact ⟨rfl, rfl⟩
  constructor
  · exact inContext_insert newLabel? fun earlier x later hx => (hinsert earlier x later hx).1
  · exact inContext_insert redeclaration? fun earlier x later hx => (hinsert earlier x later hx).2

end Label
end Insert
end Naming

/-! ## The table -/

namespace SymbolTable
open Naming (Fixed Harmless instructionCount slotNames slotCount)

/-- What a harmless declaration leaves as it is. -/
structure SameSlots (t t' : SymbolTable) : Prop where
  ram : t'.ram = t.ram
  variableNames : t'.variableNames = t.variableNames
  errors : t'.errors = t.errors
  programLength : t'.programLength = t.programLength
  frozen : t'.frozen = t.frozen

/-- The second table has one label more. It comes after the labels `front`. -/
structure GainsLabel (front : List String) (name : String) (address : Int) (t t' : SymbolTable) :
    Prop extends SameSlots t t' where
  unbound : t.binding? name = none
  bound : t'.binding? name = some ⟨.label, address⟩
  others : ∀ other, other ≠ name → t'.binding? other = t.binding? other
  labelNames : ∃ rest, t.labelNames = front ++ rest ∧ t'.labelNames = front ++ name :: rest
  warnings : t'.warnings = t.warnings

/-- One warning more, after the warnings `front`. -/
def OneMore (front : List Warning) (w : Warning) (warnings warnings' : List Warning) : Prop :=
  ∃ rest, warnings = front ++ rest ∧ warnings' = front ++ w :: rest

/-- The second table has one warning more. It comes after the warnings `front`. -/
structure GainsWarning (front : List Warning) (w : Warning) (t t' : SymbolTable) : Prop
    extends SameSlots t t' where
  bindings : ∀ name, t'.binding? name = t.binding? name
  labelNames : t'.labelNames = t.labelNames
  warnings : OneMore front w t.warnings.toList t'.warnings.toList

/-- A report has the warnings of its table. -/
theorem warnings_of_verdict {t : SymbolTable} {ops : List Operation} {report : Report}
    (h : t.verdict ops = .error report) : report.warnings = t.warnings.toList := by
  rw [verdict] at h
  split at h <;> cases h
  rfl

section Insert
variable {before after : List Operation} {op : Operation} {name : String}
  (hop : op.statement = .label name) (h : Harmless before after name)
include hop h

theorem sameSlots_insert :
    SameSlots (ofProgram (before ++ after)) (ofProgram (before ++ op :: after)) where
  ram := by rw [ram_ofProgram, ram_ofProgram, Naming.slotNames_insert hop h]
  variableNames := by
    rw [variableNames_eq_filter_isSlot, variableNames_eq_filter_isSlot,
      Naming.slotNames_insert hop h]
    -- Whoever was given a slot asked for it, so that its name is one that is not touched.
    apply List.filter_congr
    intro other hother
    obtain ⟨x, hx, hasks⟩ := Naming.asked_of_mem_slotNames (List.mem_of_mem_take hother)
    have huntouched := h.untouched hx (Naming.mentions_of_asksFor hasks)
    rw [isSlot, isSlot, binding?_ofProgram, binding?_ofProgram,
      Naming.binding?_insert hop h huntouched]
  errors := by
    rw [← Array.toList_inj, errors_ofProgram, errors_ofProgram, Naming.refusals_insert hop h]
  programLength := by
    rw [programLength_ofProgram, programLength_ofProgram, Naming.instructionCount_insert hop]
  frozen := by rw [frozen_ofProgram, frozen_ofProgram]

/-- The other operations are encoded as before. -/
theorem code_insert {x : Operation} (hx : x ∈ before ++ after) :
    (ofProgram (before ++ op :: after)).code x = (ofProgram (before ++ after)).code x := by
  apply code_congr
  intro other allocates hx'
  have hmentions : x.mentions other = true := by simp [Operation.mentions, hx']
  have huntouched := h.untouched hx hmentions
  rw [lookup, lookup, address?, address?, binding?_ofProgram, binding?_ofProgram,
    Naming.binding?_insert hop h huntouched]

/-- **The second pass.** A harmless declaration leaves the image and the errors of a report. -/
theorem verdict_insert :
    (ofProgram (before ++ op :: after)).verdict (before ++ op :: after) =
      ((ofProgram (before ++ after)).verdict (before ++ after)).mapError fun report =>
        ⟨report.errors, (ofProgram (before ++ op :: after)).warnings.toList⟩ := by
  have hlabel : op.isLabel = true := by simp [Operation.isLabel, hop]
  have herrors := (sameSlots_insert hop h).errors
  obtain ⟨hwords, hfaults⟩ := words_faults_congr herrors fun x hx => code_insert hop h hx
  -- From here on it matters no more where the tables come from.
  generalize ofProgram (before ++ op :: after) = t' at *
  generalize ofProgram (before ++ after) = t at *
  obtain ⟨hnoWord, hnoFault⟩ := words_faults_label t' hlabel
  have hwords' : t'.words (before ++ op :: after) = t.words (before ++ after) := by
    rw [List.append_cons, words_append, words_append, hnoWord, List.append_nil, ← words_append,
      hwords]
  have hfaults' : t'.faults (before ++ op :: after) = t.faults (before ++ after) := by
    rw [List.append_cons, faults_append, faults_append, hnoFault, List.append_nil,
      ← faults_append, hfaults]
  rw [verdict, verdict, herrors, hwords', hfaults']
  cases t.errors.toList ++ t.faults (before ++ after) <;> rfl

/-- A declaration loads no number, so it makes no difference to what can be told. -/
theorem tellable_insert :
    (∀ x ∈ (ofProgram (before ++ op :: after)).sound (before ++ op :: after), x.Tellable) ↔
      ∀ x ∈ (ofProgram (before ++ after)).sound (before ++ after), x.Tellable := by
  have hop' : op.Tellable := by simp [Operation.Tellable, hop]
  simp only [sound, (sameSlots_insert hop h).errors, List.mem_filter, List.mem_append,
    List.mem_cons]
  constructor
  · rintro hall x ⟨hx, hline⟩
    exact hall x ⟨hx.imp_right .inr, hline⟩
  · rintro hall x ⟨hx | rfl | hx, hline⟩
    · exact hall x ⟨.inl hx, hline⟩
    · exact hop'
    · exact hall x ⟨.inr hx, hline⟩

end Insert

section Gains
variable {before after : List Operation} {op : Operation} {name : String}
  (hop : op.statement = .label name)
include hop

/-- A name that nobody else mentions becomes a label. -/
theorem gainsLabel_insert (hp : name ∉ predefinedNames)
    (h : ∀ x ∈ before ++ after, x.mentions name = false) :
    GainsLabel (ofProgram before).labelNames name (instructionCount before)
      (ofProgram (before ++ after)) (ofProgram (before ++ op :: after)) := by
  have hbefore : ∀ x ∈ before, x.mentions name = false := fun x hx => h x (by simp [hx])
  have hfresh := Naming.not_fixed_of_unmentioned hp hbefore
  obtain ⟨⟨labels, hold, hnew⟩, warnings, hold', hnew'⟩ :=
    Naming.declarations_insert hop (.inr h)
  have hlabel : Naming.newLabel? before op = some name := by simp [Naming.newLabel?, hop, hfresh]
  have hwarning : Naming.redeclaration? before op = none := by
    simp [Naming.redeclaration?, hop, hfresh]
  refine ⟨sameSlots_insert hop (.inr h), ?_, ?_, ?_, ⟨labels, ?_, ?_⟩, ?_⟩
  · rw [binding?_ofProgram, Naming.binding?_of_unmentioned hp h]
  · have hfirst := Naming.firstDeclared_insert hop hfresh after
    rw [binding?_ofProgram, Naming.binding?_of_firstDeclared hp hfirst]
  · intro other hne
    rw [binding?_ofProgram, binding?_ofProgram, Naming.binding?_insert hop (.inr h) (.inl hne)]
  · rw [labelNames_ofProgram, labelNames_ofProgram, hold]
  · rw [labelNames_ofProgram, labelNames_ofProgram, hnew, hlabel]
    simp
  · rw [← Array.toList_inj, warnings_ofProgram, warnings_ofProgram, hold', hnew', hwarning]
    simp

/-- A name that is predefined or declared already gives a warning. -/
theorem gainsWarning_insert (hfixed : Fixed before name) (after : List Operation) :
    GainsWarning (ofProgram before).warnings.toList ⟨op.line, name⟩
      (ofProgram (before ++ after)) (ofProgram (before ++ op :: after)) := by
  obtain ⟨⟨labels, hold, hnew⟩, warnings, hold', hnew'⟩ :=
    Naming.declarations_insert hop (.inl hfixed : Harmless before after name)
  have hlabel : Naming.newLabel? before op = none := by simp [Naming.newLabel?, hop, hfixed]
  have hwarning : Naming.redeclaration? before op = some ⟨op.line, name⟩ := by
    simp [Naming.redeclaration?, hop, hfixed]
  refine ⟨sameSlots_insert hop (.inl hfixed), ?_, ?_, warnings, ?_, ?_⟩
  · intro other
    rw [binding?_ofProgram, binding?_ofProgram,
      Naming.binding?_insert hop (.inl hfixed) (.inr hfixed)]
  · rw [labelNames_ofProgram, labelNames_ofProgram, hold, hnew, hlabel]
    simp
  · rw [warnings_ofProgram, warnings_ofProgram, hold']
  · rw [warnings_ofProgram, warnings_ofProgram, hnew', hwarning]
    simp

end Gains

end SymbolTable

/-! ## Programs -/

namespace Program
open Naming (Fixed instructionCount)
open SymbolTable (GainsLabel GainsWarning OneMore ofProgram)

/-- The same words or the same failure. The tables of programs and the warnings of reports are
compared as given. -/
inductive SameResult (tables : SymbolTable → SymbolTable → Prop)
    (warnings : List Warning → List Warning → Prop) :
    Except Failure Program → Except Failure Program → Prop where
  | ok {words : List Word} {t t' : SymbolTable} (h : tables t t') :
      SameResult tables warnings (.ok ⟨words, t⟩) (.ok ⟨words, t'⟩)
  | aborted {errors : List Diagnostic} {w w' : List Warning} (h : warnings w w') :
      SameResult tables warnings (.error (.aborted ⟨errors, w⟩)) (.error (.aborted ⟨errors, w'⟩))
  | tooLarge (count : Nat) :
      SameResult tables warnings (.error (.tooLarge count)) (.error (.tooLarge count))
  | unwritable : SameResult tables warnings (.error .unwritable) (.error .unwritable)

theorem sameResult_of_verdict {tables : SymbolTable → SymbolTable → Prop}
    {warnings : List Warning → List Warning → Prop} {ops ops' : List Operation}
    (htellable : (∀ op ∈ (ofProgram ops').sound ops', op.Tellable) ↔
      ∀ op ∈ (ofProgram ops).sound ops, op.Tellable)
    (hverdict : (ofProgram ops').verdict ops' = ((ofProgram ops).verdict ops).mapError fun report =>
      ⟨report.errors, (ofProgram ops').warnings.toList⟩)
    (htables : tables (ofProgram ops) (ofProgram ops'))
    (hwarnings : warnings (ofProgram ops).warnings.toList (ofProgram ops').warnings.toList) :
    SameResult tables warnings (ofOperations ops) (ofOperations ops') := by
  by_cases htold : ∀ op ∈ (ofProgram ops).sound ops, op.Tellable
  · rw [ofOperations, ofOperations, if_pos htold, if_pos (htellable.2 htold), hverdict]
    cases hend : (ofProgram ops).verdict ops with
    | error report =>
      rw [← SymbolTable.warnings_of_verdict hend] at hwarnings
      exact .aborted hwarnings
    | ok words =>
      simp only [Except.mapError, ofVerdict]
      by_cases hlarge : romSize < words.length
      · rw [if_pos hlarge, if_pos hlarge]
        exact .tooLarge words.length
      · rw [if_neg hlarge, if_neg hlarge]
        exact .ok htables
  · rw [ofOperations, ofOperations, if_neg htold, if_neg (mt htellable.1 htold)]
    exact .unwritable

/-- **A harmless declaration stays harmless**, wherever it is put into a program. If nobody else
mentions its name, the table gains a label and nothing else changes. If its name is predefined or
declared in front of it, one more warning is told and nothing else changes. -/
theorem ofOperations_insert_label (before after : List Operation) (name : String) (line : Line) :
    (name ∉ predefinedNames → (∀ x ∈ before ++ after, x.mentions name = false) →
      GainsLabel (ofProgram before).labelNames name (instructionCount before)
        (ofProgram (before ++ after)) (ofProgram (before ++ ⟨.label name, line⟩ :: after)) ∧
      SameResult (GainsLabel (ofProgram before).labelNames name (instructionCount before)) (· = ·)
        (ofOperations (before ++ after)) (ofOperations (before ++ ⟨.label name, line⟩ :: after))) ∧
    (Fixed before name →
      GainsWarning (ofProgram before).warnings.toList ⟨line, name⟩
        (ofProgram (before ++ after)) (ofProgram (before ++ ⟨.label name, line⟩ :: after)) ∧
      SameResult (GainsWarning (ofProgram before).warnings.toList ⟨line, name⟩)
        (OneMore (ofProgram before).warnings.toList ⟨line, name⟩)
        (ofOperations (before ++ after))
        (ofOperations (before ++ ⟨.label name, line⟩ :: after))) := by
  have hop : (Operation.mk (.label name) line).statement = .label name := rfl
  constructor
  · intro hp hunmentioned
    have hgains := SymbolTable.gainsLabel_insert hop hp hunmentioned
    have htellable := SymbolTable.tellable_insert hop (.inr hunmentioned)
    have hverdict := SymbolTable.verdict_insert hop (.inr hunmentioned)
    exact ⟨hgains, sameResult_of_verdict htellable hverdict hgains (by rw [hgains.warnings])⟩
  · intro hfixed
    have hharmless : Naming.Harmless before after name := .inl hfixed
    have hgains := SymbolTable.gainsWarning_insert hop hfixed after
    have htellable := SymbolTable.tellable_insert hop hharmless
    have hverdict := SymbolTable.verdict_insert hop hharmless
    exact ⟨hgains, sameResult_of_verdict htellable hverdict hgains hgains.warnings⟩

/-- A label that nobody uses, and a name that is declared again after it was used as a variable. -/
theorem ofOperations_insert_label_loop :
    let before : List Operation :=
      [⟨.symbol "i" true, ⟨1, "@i", "@i"⟩⟩, ⟨.label "i", ⟨2, "(i)", "(i)"⟩⟩]
    let after : List Operation := [⟨.compute none "0" (some "JMP"), ⟨4, "0;JMP", "0;JMP"⟩⟩]
    let line : Line := ⟨3, "(END)", "(END)"⟩
    let again : Line := ⟨3, "(i)", "(i)"⟩
    (∀ x ∈ before ++ after, x.mentions "END" = false) ∧
      SameResult (GainsLabel ["i"] "END" 1) (· = ·)
        (ofOperations (before ++ after)) (ofOperations (before ++ ⟨.label "END", line⟩ :: after)) ∧
      Fixed before "i" ∧
      SameResult (GainsWarning [] ⟨again, "i"⟩) (OneMore [] ⟨again, "i"⟩)
        (ofOperations (before ++ after))
        (ofOperations (before ++ ⟨.label "i", again⟩ :: after)) := by
  intro before after line again
  have hlabels : (ofProgram before).labelNames = ["i"] := by decide
  have hwarnings : (ofProgram before).warnings.toList = [] := by decide
  have hunmentioned : ∀ x ∈ before ++ after, x.mentions "END" = false := by decide
  have hfixed : Fixed before "i" := by decide
  have hfresh := ((ofOperations_insert_label before after "END" line).1 (by decide) hunmentioned).2
  have hagain := ((ofOperations_insert_label before after "i" again).2 hfixed).2
  rw [hlabels] at hfresh
  rw [hwarnings] at hagain
  exact ⟨hunmentioned, hfresh, hfixed, hagain⟩

end Program
end HackAssembler
