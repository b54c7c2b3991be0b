import HackAssembler.Proofs.Outcome
import HackAssembler.Proofs.Relabelling
import Mathlib.Logic.Equiv.Basic

/-!
# What the outcome does not depend on

The spelling of names does not matter as long as different names stay different and the predefined
ones keep their meaning. Nor does it matter where the lines of a source stand and what surrounds the
instructions on them: two sources that say the same end in the same way, and what is wrong with them
is wrong at the same instruction.

## Main definitions

* `Line.SamePlace` — two lines hold the same instruction of two sources, counted from the front.
* `Line.counterpart` — the line at the same place.
-/

namespace HackAssembler

/-! ## Names -/

namespace Program

/-- **Renaming the names of a program renames its outcome.** The words are the same and the table
binds the new names to the old addresses, in the same order; or the same operations are faulty, in
the same way and at the same lines; or the program has too many words under both names; or, under
both names, a constant is too long to be told. -/
theorem ofOperations_rename {r : String → String} (hr : Function.Injective r)
    (hp : ∀ name ∈ predefinedNames, r name = name) (ops : List Operation) :
    SameOutcome r id (ofOperations ops) (ofOperations (ops.map (.relabel r id))) ∧
      (ofOperations ops = .error .unwritable ↔
        ∃ op ∈ ops, (∀ d ∈ (SymbolTable.ofProgram ops).errors.toList, op.line ≠ d.line) ∧
          ∃ value, op.statement = .constant value ∧ ¬Text.Writable value) := by
  refine ⟨ofOperations_relabel hr hp ?_, ofOperations_eq_unwritable_iff⟩
  constructor
  · exact fun a _ b _ heq => heq
  · exact fun a _ b _ => Iff.rfl

/-- A variable and a label can exchange their names; what makes the variable one is not its
spelling. -/
theorem ofOperations_rename_swap :
    let r := Equiv.swap "sum" "LOOP"
    let ops : List Operation :=
      [⟨.symbol "sum" true, ⟨1, "@sum", "@sum"⟩⟩, ⟨.label "LOOP", ⟨2, "(LOOP)", "(LOOP)"⟩⟩,
        ⟨.symbol "LOOP" false, ⟨3, "@LOOP", "@LOOP"⟩⟩]
    Function.Injective r ∧ (∀ name ∈ predefinedNames, r name = name) ∧
      SameOutcome r id (ofOperations ops) (ofOperations (ops.map (.relabel r id))) := by
  have hp : ∀ name ∈ predefinedNames, Equiv.swap "sum" "LOOP" name = name := by decide
  exact ⟨Equiv.injective _, hp, (ofOperations_rename (Equiv.injective _) hp _).1⟩

/-- **Not every outcome is a program, a report or a count of words**: there is no report of a
constant that has no decimal text. -/
theorem ofOperations_unreported :
    ¬∀ ops : List Operation, (∃ program, ofOperations ops = .ok program) ∨
      (∃ report, ofOperations ops = .error (.aborted report)) ∨
      ∃ count, ofOperations ops = .error (.tooLarge count) := by
  intro hall
  have hend : ofOperations [⟨.constant Text.firstUnwritable, ⟨1, "", ""⟩⟩] = .error .unwritable :=
    ofOperations_eq_unwritable_iff.2
      ⟨_, List.mem_singleton_self _, fun _ hd => absurd hd List.not_mem_nil, _, rfl,
        Text.not_writable_firstUnwritable⟩
  rcases hall [⟨.constant Text.firstUnwritable, ⟨1, "", ""⟩⟩] with
    ⟨program, h⟩ | ⟨report, h⟩ | ⟨count, h⟩ <;> rw [hend] at h <;> cases h

end Program

/-! ## Lines -/

namespace Line

/-- The lines hold the same instruction of two sources, counted from the front. -/
def SamePlace (source source' : String) (l l' : Line) : Prop :=
  ∃ i : Nat, (ofSource source)[i]? = some l ∧ (ofSource source')[i]? = some l'

/-- The line at the same place among other lines. -/
def counterpart (lines lines' : List Line) (l : Line) : Line :=
  (lines'[lines.idxOf l]?).getD l

section Counterpart
variable {lines lines' : List Line}

/-- Where lines are ordered by their numbers, the numbers tell the places. -/
theorem number_le_iff (h : lines.Pairwise fun a b => a.number < b.number) {i j : Nat}
    (hi : i < lines.length) (hj : j < lines.length) :
    lines[i].number ≤ lines[j].number ↔ i ≤ j := by
  rw [List.pairwise_iff_getElem] at h
  constructor
  · intro hle
    by_contra hlt
    have := h j i hj hi (Nat.not_le.1 hlt)
    omega
  · intro hle
    rcases Nat.lt_or_eq_of_le hle with hlt | rfl
    · exact Int.le_of_lt (h i j hi hj hlt)
    · exact Int.le_refl _

theorem nodup_of_pairwise (h : lines.Pairwise fun a b => a.number < b.number) : lines.Nodup := by
  refine h.imp ?_
  rintro a b hlt rfl
  exact Int.lt_irrefl _ hlt

theorem counterpart_getElem (hn : lines.Nodup) (hlength : lines.length = lines'.length) {i : Nat}
    (hi : i < lines.length) : counterpart lines lines' lines[i] = lines'[i] := by
  rw [counterpart, hn.idxOf_getElem, List.getElem?_eq_getElem (hlength ▸ hi), Option.getD_some]

theorem map_counterpart (hn : lines.Nodup) (hlength : lines.length = lines'.length) :
    lines.map (counterpart lines lines') = lines' := by
  refine List.ext_getElem (by simpa using hlength) ?_
  intro i hi _
  rw [List.getElem_map, counterpart_getElem hn hlength]

/-- Lines at the same place are told apart and ordered alike. -/
theorem keepsOrder_counterpart (h : lines.Pairwise fun a b => a.number < b.number)
    (h' : lines'.Pairwise fun a b => a.number < b.number)
    (hlength : lines.length = lines'.length) :
    KeepsOrder (counterpart lines lines') lines := by
  have hn := nodup_of_pairwise h
  constructor
  · intro a ha b hb heq
    obtain ⟨i, hi, rfl⟩ := List.getElem_of_mem ha
    obtain ⟨j, hj, rfl⟩ := List.getElem_of_mem hb
    rw [counterpart_getElem hn hlength, counterpart_getElem hn hlength,
      (nodup_of_pairwise h').getElem_inj_iff] at heq
    simp only [heq]
  · intro a ha b hb
    obtain ⟨i, hi, rfl⟩ := List.getElem_of_mem ha
    obtain ⟨j, hj, rfl⟩ := List.getElem_of_mem hb
    rw [counterpart_getElem hn hlength, counterpart_getElem hn hlength, number_le_iff h,
      number_le_iff h']

end Counterpart

theorem samePlace_counterpart {source source' : String} {l : Line}
    (hlength : (ofSource source).length = (ofSource source').length) (hl : l ∈ ofSource source) :
    SamePlace source source' l (counterpart (ofSource source) (ofSource source') l) := by
  have hn := nodup_of_pairwise (pairwise_number_ofSource source)
  obtain ⟨i, hi, rfl⟩ := List.getElem_of_mem hl
  refine ⟨i, List.getElem?_eq_getElem hi, ?_⟩
  rw [counterpart_getElem hn hlength, List.getElem?_eq_getElem]

end Line

/-- Lines that say the same are read as the same statements. -/
theorem Operation.ofLines_map {f : Line → Line} {lines : List Line}
    (h : ∀ l ∈ lines, (f l).text = l.text) :
    ofLines (lines.map f) = (ofLines lines).map (List.map (.relabel id f)) := by
  induction lines with
  | nil => rfl
  | cons l lines ih =>
    have hrest := ih fun x hx => h x (List.mem_cons_of_mem l hx)
    have hline : ofLine (f l) = (ofLine l).map (.relabel id f) := by
      rw [ofLine, ofLine, h l List.mem_cons_self]
      cases Statement.ofText l.text with
      | error cause => rfl
      | ok s => simp [Except.map, Operation.relabel]
    rw [ofLines] at hrest ⊢
    rw [ofLines, List.map_cons]
    cases hl : ofLine l with
    | error cause =>
      rw [hl] at hline
      rw [mapM_cons_error ofLine hl, mapM_cons_error ofLine hline]
      rfl
    | ok op =>
      rw [hl] at hline
      rw [mapM_cons_ok ofLine hl, mapM_cons_ok ofLine hline, hrest, ofLines]
      cases List.mapM ofLine lines <;> rfl

namespace Naming

theorem line_mem_of_mem_diagnostics {ops : List Operation} {d : Diagnostic}
    (h : d ∈ diagnostics ops) : d.line ∈ ops.map (·.line) := by
  obtain ⟨earlier, op, later, hops, hd⟩ := (mem_inContext _).1 h
  obtain ⟨fault, -, rfl⟩ := Option.map_eq_some_iff.1 hd
  exact List.mem_map_of_mem (by simp [hops])

theorem line_mem_of_mem_redeclarations {ops : List Operation} {w : Warning}
    (h : w ∈ redeclarations ops) : w.line ∈ ops.map (·.line) := by
  obtain ⟨earlier, op, later, hops, hw⟩ := (mem_inContext _).1 h
  rw [redeclaration?] at hw
  split at hw
  case h_1 =>
    split at hw
    · cases hw
      exact List.mem_map_of_mem (by simp [hops])
    · cases hw
  case h_2 => cases hw

end Naming

/-- A report tells of lines of the program only. -/
theorem Program.lines_of_aborted {ops : List Operation} (hwell : Operation.WellRead ops)
    {report : Report} (h : ofOperations ops = .error (.aborted report)) :
    (∀ d ∈ report.errors, d.line ∈ ops.map (·.line)) ∧
      ∀ w ∈ report.warnings, w.line ∈ ops.map (·.line) := by
  obtain rfl := report_of_aborted hwell h
  exact ⟨fun d => Naming.line_mem_of_mem_diagnostics,
    fun w => Naming.line_mem_of_mem_redeclarations⟩

/-- Two sources end in the same way: with the same words, or for the same reason. A report tells
the same of both, each time at the same instruction. -/
inductive SameEnd (source source' : String) :
    Except Failure (List Word) → Except Failure (List Word) → Prop where
  | words (words : List Word) : SameEnd source source' (.ok words) (.ok words)
  | malformed (cause : Statement.Malformed) :
      SameEnd source source' (.error (.malformed cause)) (.error (.malformed cause))
  | aborted {report report' : Report}
      (errors : List.Forall₂
        (fun d d' => d'.fault = d.fault ∧ Line.SamePlace source source' d.line d'.line)
        report.errors report'.errors)
      (warnings : List.Forall₂
        (fun w w' => w'.name = w.name ∧ Line.SamePlace source source' w.line w'.line)
        report.warnings report'.warnings) :
      SameEnd source source' (.error (.aborted report)) (.error (.aborted report'))
  | tooLarge (count : Nat) :
      SameEnd source source' (.error (.tooLarge count)) (.error (.tooLarge count))

/-- New lines at the same places make a report that tells the same. -/
theorem SameEnd.of_relabel {source source' : String} {f : Line → Line} {report : Report}
    (herrors : ∀ d ∈ report.errors, Line.SamePlace source source' d.line (f d.line))
    (hwarnings : ∀ w ∈ report.warnings, Line.SamePlace source source' w.line (f w.line)) :
    SameEnd source source' (.error (.aborted report)) (.error (.aborted (report.relabel id f))) := by
  constructor
  · rw [Report.relabel, List.forall₂_map_right_iff, List.forall₂_same]
    exact fun d hd => ⟨d.fault.rename_id, herrors d hd⟩
  · rw [Report.relabel, List.forall₂_map_right_iff, List.forall₂_same]
    exact fun w hw => ⟨rfl, hwarnings w hw⟩

/-- **Only the instructions of a source matter.** Sources that say the same end in the same way,
wherever their lines stand and whatever else is written on them. -/
theorem assemble_of_instructions_eq {source source' : String}
    (h : Line.instructions source = Line.instructions source') :
    SameEnd source source' (assemble source) (assemble source') := by
  have hlength : (Line.ofSource source).length = (Line.ofSource source').length := by
    simpa [Line.instructions] using congrArg List.length h
  have hordered := Line.pairwise_number_ofSource source
  have hf := Line.keepsOrder_counterpart hordered (Line.pairwise_number_ofSource source') hlength
  have hmap := Line.map_counterpart (Line.nodup_of_pairwise hordered) hlength
  have hplace := fun l => Line.samePlace_counterpart (l := l) hlength
  generalize Line.counterpart (Line.ofSource source) (Line.ofSource source') = f at *
  have htext : ∀ l ∈ Line.ofSource source, (f l).text = l.text := by
    rw [Line.instructions, Line.instructions, ← hmap, List.map_map] at h
    exact fun l hl => (List.map_inj_left.1 h l hl).symm
  have hread' : Operation.ofSource source' =
      (Operation.ofSource source).map (List.map (.relabel id f)) := by
    rw [Operation.ofSource, ← hmap, Operation.ofLines_map htext, Operation.ofSource]
  cases hread : Operation.ofSource source with
  | error cause =>
    rw [hread] at hread'
    rw [assemble_of_error hread, assemble_of_error hread']
    exact .malformed cause
  | ok ops =>
    rw [hread] at hread'
    have hlines := Operation.lines_of_ofSource hread
    have hwell := Operation.wellRead_of_ofSource hread
    rw [← hlines] at hf hplace
    have hsame := Program.ofOperations_relabel Function.injective_id (fun _ _ => rfl) hf
    rw [assemble_of_ok hread, assemble_of_ok hread']
    generalize hend : Program.ofOperations ops = outcome at hsame
    generalize Program.ofOperations (ops.map (.relabel id f)) = outcome' at hsame
    cases hsame with
    | ok => exact .words _
    | tooLarge count => exact .tooLarge count
    | unwritable =>
      -- What was read can be told.
      obtain ⟨op, hop, -, value, hvalue, hlong⟩ := Program.ofOperations_eq_unwritable_iff.1 hend
      exact absurd (hwell.tellable op hop value hvalue) hlong
    | aborted report =>
      obtain ⟨herrors, hwarnings⟩ := Program.lines_of_aborted hwell hend
      exact .of_relabel (fun d hd => hplace d.line (herrors d hd))
        fun w hw => hplace w.line (hwarnings w hw)

/-- The same two faulty instructions, once bare and once with comments and blanks around them. -/
theorem assemble_of_instructions_eq_faulty :
    Line.instructions "@LOST\nD=Q" = Line.instructions "// a\n @ LOST // b\r\n\n\tD = Q" ∧
      SameEnd "@LOST\nD=Q" "// a\n @ LOST // b\r\n\n\tD = Q" (assemble "@LOST\nD=Q")
        (assemble "// a\n @ LOST // b\r\n\n\tD = Q") := by
  have h : Line.instructions "@LOST\nD=Q" =
      Line.instructions "// a\n @ LOST // b\r\n\n\tD = Q" := by decide
  exact ⟨h, assemble_of_instructions_eq h⟩

end HackAssembler
