import HackAssembler.Assembly.Program
import HackAssembler.Proofs.Phrases

/-!
# The fields of any text

Every text that does not start like an address instruction is read, however it is written. A label
declaration gives the name in front of its last closing parenthesis, and a computation is cut at the
first equals sign and at the first semicolon behind it. Two kinds of text are not read as they
stand: a declaration without a closing parenthesis, whose name loses its last character, and a
computation with a semicolon in front of its first equals sign, which is taken into the target.

## Main definitions

* `Statement.NameStands`, `Statement.FieldsStand` — the fields are where the text has them.
* `Statement.SemicolonFirst` — a semicolon in front of the first equals sign.
* `Statement.exists_separable` — every text is written with fields that can be told apart.
-/

namespace HackAssembler

namespace Statement

/-! ## Where fields stand -/

/-- The name stands strictly between the first opening parenthesis and the last closing one; without
a closing one it runs to the end of the text. -/
def NameStands (text name : String) : Prop :=
  (∃ back, text = "(" ++ name ++ ")" ++ back ∧ ')' ∉ back.toList) ∨
    (text = "(" ++ name ∧ ')' ∉ name.toList)

/-- The field is what stands left of the first separator; there is none when the text has no
separator. -/
def LeftOf (sep : Char) (text : String) : Option String → Prop
  | none => sep ∉ text.toList
  | some field => ∃ back, text.toList = field.toList ++ sep :: back ∧ sep ∉ field.toList

/-- The field is what stands right of the first separator; there is none when the text has no
separator. -/
def RightOf (sep : Char) (text : String) : Option String → Prop
  | none => sep ∉ text.toList
  | some field => ∃ front, text.toList = front ++ sep :: field.toList ∧ sep ∉ front

/-- The fields of a computation stand where the text has them: the target left of the first equals
sign, the jump right of the first semicolon, and the computation between the two signs, whichever
of them comes first. -/
structure FieldsStand (text : String) (target : Option String) (computation : String)
    (jump : Option String) : Prop where
  left : LeftOf '=' text target
  right : RightOf ';' text jump
  between : text = target.elim "" (· ++ "=") ++ computation ++ jump.elim "" (";" ++ ·) ∨
    ∃ front back, target = some (front ++ ";" ++ computation) ∧
      jump = some (computation ++ "=" ++ back)

/-- A semicolon stands in front of the first equals sign. -/
def SemicolonFirst (text : String) : Prop :=
  ∃ front back, text = front ++ "=" ++ back ∧ '=' ∉ front.toList ∧ ';' ∈ front.toList

/-! ## Names -/

/-- Without a closing parenthesis the name lacks the last character. -/
theorem labelName_of_notMem {cs : List Char} (h : ')' ∉ cs) :
    labelName ('(' :: cs) = cs.dropLast := by
  have hstop : Text.beforeLast? ')' ('(' :: cs) = none :=
    Text.beforeLast?_of_notMem (by simpa using h)
  cases cs with
  | nil => rfl
  | cons c cs => simp [labelName, hstop, List.findIdx?_cons]

/-- A name that starts behind the opening parenthesis stands where the text has it exactly when the
parenthesis is closed or nothing follows it. -/
theorem nameStands_labelName_iff (rest : String) :
    NameStands ("(" ++ rest) (String.ofList (labelName ('(' :: rest.toList))) ↔
      ')' ∈ rest.toList ∨ rest = "" := by
  rcases Text.beforeLast?_cases ')' rest.toList with ⟨hnone, -⟩ | ⟨name, back, hrest, hback, -⟩
  · rw [labelName_of_notMem hnone]
    constructor
    · rintro (⟨back, heq, -⟩ | ⟨heq, -⟩)
      · have hclosed : ')' ∈ ("(" ++ rest).toList := by rw [heq]; simp
        exact .inl (by simpa using hclosed)
      · rw [String.append_right_inj, ← String.toList_inj, String.toList_ofList] at heq
        have hlength := congrArg List.length heq
        rw [List.length_dropLast] at hlength
        exact .inr (by rw [← String.toList_eq_nil_iff, ← List.length_eq_zero_iff]; omega)
    · rintro (hclosed | rfl)
      · exact absurd hclosed hnone
      · exact .inr ⟨rfl, by decide⟩
  · have hstands : NameStands ("(" ++ rest) (String.ofList name) := by
      refine .inl ⟨String.ofList back, ?_, by simpa using hback⟩
      rw [← String.toList_inj]
      simp [hrest]
    rw [hrest, labelName_append name hback]
    exact iff_of_true hstands (by simp)

/-! ## Computations -/

/-- Every text is cut at the first semicolon. -/
theorem exists_jump (text : String) :
    ∃ (computation : String) (jump : Option String),
      text = computation ++ jump.elim "" (";" ++ ·) ∧ ';' ∉ computation.toList := by
  rcases Text.splitFirst?_cases ';' text.toList with ⟨hnone, -⟩ | ⟨front, back, htext, hfront, -⟩
  · exact ⟨text, none, by simp, hnone⟩
  · refine ⟨String.ofList front, some (String.ofList back), ?_, by simpa using hfront⟩
    rw [← String.toList_inj, htext]
    simp

/-- **Every text is a computation**: it is written with fields that can be told apart. -/
theorem exists_separable (text : String) :
    ∃ target computation jump, text = render (.compute target computation jump) ∧
      Separable target computation jump := by
  rcases Text.splitFirst?_cases '=' text.toList with ⟨hnone, -⟩ | ⟨front, back, htext, hfront, -⟩
  · obtain ⟨computation, jump, rfl, hcomputation⟩ := exists_jump text
    refine ⟨none, computation, jump, by simp [render], by simp, hcomputation, ?_⟩
    intro _
    rw [String.toList_append, List.mem_append, not_or] at hnone
    refine ⟨hnone.1, ?_⟩
    intro field hfield
    obtain rfl := Option.mem_def.1 hfield
    simpa using hnone.2
  · obtain ⟨computation, jump, hback, hcomputation⟩ := exists_jump (String.ofList back)
    refine ⟨some (String.ofList front), computation, jump, ?_, ?_, hcomputation, by simp⟩
    · have hwhole : text = String.ofList front ++ "=" ++ String.ofList back := by
        rw [← String.toList_inj, htext]
        simp
      rw [hwhole, hback]
      simp [render, String.append_assoc]
    · intro field hfield
      obtain rfl := Option.mem_some.1 hfield
      simpa using hfront

section Compute
variable {target : Option String} {computation : String} {jump : Option String}

theorem Separable.leftOf (h : Separable target computation jump) :
    LeftOf '=' (render (.compute target computation jump)) target := by
  cases htarget : target with
  | some field =>
    exact ⟨_, by simp [render]; rfl, h.target_end field htarget⟩
  | none =>
    obtain ⟨hcomputation, hjump⟩ := h.untargeted htarget
    cases jump with
    | none => simpa [LeftOf, render] using hcomputation
    | some field => simpa [LeftOf, render, hcomputation] using hjump field rfl

/-- What is written behind a semicolon stands right of the first one when none comes before. -/
theorem rightOf_append_iff (front : String) :
    RightOf ';' (front ++ jump.elim "" (";" ++ ·)) jump ↔ ';' ∉ front.toList := by
  cases jump with
  | none => simp [RightOf]
  | some field =>
    have hwhole : (front ++ (some field).elim "" (";" ++ ·)).toList =
        front.toList ++ ';' :: field.toList := by simp
    rw [RightOf, hwhole]
    constructor
    · rintro ⟨front', heq, hfront'⟩
      rwa [List.append_cancel_right heq]
    · intro hfront
      exact ⟨_, rfl, hfront⟩

/-- The first equals sign of a text ends its target. -/
theorem Separable.semicolonFirst_iff (h : Separable target computation jump) :
    SemicolonFirst (render (.compute target computation jump)) ↔
      ∃ field ∈ target, ';' ∈ field.toList := by
  have hleft := h.leftOf
  generalize render (.compute target computation jump) = text at hleft
  constructor
  · intro hfirst
    obtain ⟨front, back, htext, hfront, hsemicolon⟩ := hfirst
    have hcut : text.toList = front.toList ++ '=' :: back.toList := by simp [htext]
    cases target with
    | none => exact absurd (by simp [hcut]) hleft
    | some field =>
      obtain ⟨back', hcut', hfield⟩ := hleft
      have hsame := Text.splitFirst?_append hfield back'
      rw [← hcut', hcut, Text.splitFirst?_append hfront, Option.some.injEq, Prod.mk.injEq] at hsame
      exact ⟨field, rfl, hsame.1 ▸ hsemicolon⟩
  · intro hin
    obtain ⟨field, htarget, hsemicolon⟩ := hin
    obtain rfl := Option.mem_def.1 htarget
    obtain ⟨back, hcut, hfield⟩ := hleft
    refine ⟨field, String.ofList back, ?_, hfield, hsemicolon⟩
    rw [← String.toList_inj, hcut]
    simp

/-- **The fields stand where the text has them unless a semicolon comes first.** -/
theorem Separable.fieldsStand_iff (h : Separable target computation jump) :
    FieldsStand (render (.compute target computation jump)) target computation jump ↔
      ¬SemicolonFirst (render (.compute target computation jump)) := by
  have hright : RightOf ';' (render (.compute target computation jump)) jump ↔
      ¬∃ field ∈ target, ';' ∈ field.toList := by
    rw [render, rightOf_append_iff, String.toList_append, List.mem_append, not_or,
      and_iff_left h.computation_end]
    cases target <;> simp
  rw [h.semicolonFirst_iff, ← hright]
  constructor
  · intro hstand
    exact hstand.right
  · intro hjump
    exact ⟨h.leftOf, hjump, .inl rfl⟩

end Compute
end Statement

/-! ## Lines -/

namespace Operation

theorem ofLine_of_ofText {line : Line} {s : Statement} (h : Statement.ofText line.text = .ok s) :
    ofLine line = .ok ⟨s, line⟩ := by
  rw [ofLine, h]
  rfl

/-- **What any line is read as.** A declaration is read as a label. Its name stands where the text
has it if the parenthesis is closed or nothing follows it; otherwise the name lacks the last
character. Any other line that loads no address is read as a computation: its text is written with
the fields again, the target ends at the first equals sign and the computation at the first
semicolon behind it. The fields stand where the text has them exactly when no semicolon comes in
front of the first equals sign. -/
theorem ofLine_fields (line : Line) :
    (∀ rest, line.text = "(" ++ rest →
      ∃ name, ofLine line = .ok ⟨.label name, line⟩ ∧
        (')' ∉ rest.toList → name.toList = rest.toList.dropLast) ∧
        (Statement.NameStands line.text name ↔ ')' ∈ rest.toList ∨ rest = "")) ∧
    ∀ c ∈ line.text.toList.head?, c ≠ '(' → c ≠ '@' →
      ∃ target computation jump, ofLine line = .ok ⟨.compute target computation jump, line⟩ ∧
        line.text = (Statement.compute target computation jump).render ∧
        Statement.Separable target computation jump ∧
        (Statement.FieldsStand line.text target computation jump ↔
          ¬Statement.SemicolonFirst line.text) := by
  refine ⟨?_, ?_⟩
  · intro rest htext
    have hlist : line.text.toList = '(' :: rest.toList := by simp [htext]
    have hread := Statement.ofText_of_toList hlist
    rw [if_pos rfl] at hread
    refine ⟨_, ofLine_of_ofText hread, ?_, ?_⟩
    · intro hopen
      rw [Statement.labelName_of_notMem hopen, String.toList_ofList]
    · rw [htext]
      exact Statement.nameStands_labelName_iff rest
  · intro c hc hparen hat
    obtain ⟨target, computation, jump, htext, hseparable⟩ := Statement.exists_separable line.text
    obtain ⟨cs, hlist⟩ : ∃ cs, line.text.toList = c :: cs := List.head?_eq_some_iff.1 hc
    have hread : Statement.ofText line.text = .ok (.compute target computation jump) := by
      rw [htext] at hlist ⊢
      exact Statement.ofText_render_compute hseparable hlist hparen hat
    refine ⟨target, computation, jump, ofLine_of_ofText hread, htext, hseparable, ?_⟩
    rw [htext]
    exact hseparable.fieldsStand_iff

/-- Parentheses inside a name, a name that is not closed, and a semicolon on either side of the
equals sign. -/
theorem ofLine_fields_signs :
    (∃ name, ofLine ⟨1, "(a(b)c)d", ""⟩ = .ok ⟨.label name, ⟨1, "(a(b)c)d", ""⟩⟩ ∧
      Statement.NameStands "(a(b)c)d" name) ∧
    (∃ name, ofLine ⟨2, "(END", ""⟩ = .ok ⟨.label name, ⟨2, "(END", ""⟩⟩ ∧
      name.toList = ['E', 'N'] ∧ ¬Statement.NameStands "(END" name) ∧
    (∃ target computation jump,
      ofLine ⟨3, "D=M;J=;", ""⟩ = .ok ⟨.compute target computation jump, ⟨3, "D=M;J=;", ""⟩⟩ ∧
        Statement.FieldsStand "D=M;J=;" target computation jump) ∧
    ∃ target computation jump,
      ofLine ⟨4, "D;J=M", ""⟩ = .ok ⟨.compute target computation jump, ⟨4, "D;J=M", ""⟩⟩ ∧
        ¬Statement.FieldsStand "D;J=M" target computation jump := by
  obtain ⟨name, hclosed, -, hstands⟩ := (ofLine_fields ⟨1, "(a(b)c)d", ""⟩).1 "a(b)c)d" rfl
  obtain ⟨name', hopen, hlast, hlacks⟩ := (ofLine_fields ⟨2, "(END", ""⟩).1 "END" rfl
  obtain ⟨t, c, j, hread, -, -, hfields⟩ :=
    (ofLine_fields ⟨3, "D=M;J=;", ""⟩).2 'D' (by decide) (by decide) (by decide)
  obtain ⟨t', c', j', hread', -, -, hfields'⟩ :=
    (ofLine_fields ⟨4, "D;J=M", ""⟩).2 'D' (by decide) (by decide) (by decide)
  have hregular : ¬Statement.SemicolonFirst "D=M;J=;" := by
    have hseparable : Statement.Separable (some "D") "M" (some "J=;") := by decide
    have hnone : ¬∃ field ∈ some "D", ';' ∈ field.toList := by simp
    rwa [← hseparable.semicolonFirst_iff] at hnone
  have hfirst : Statement.SemicolonFirst "D;J=M" := ⟨"D;J", "M", by decide, by decide, by decide⟩
  exact ⟨⟨name, hclosed, hstands.2 (.inl (by decide))⟩,
    ⟨name', hopen, hlast (by decide), fun h => absurd (hlacks.1 h) (by decide)⟩,
    ⟨t, c, j, hread, hfields.2 hregular⟩,
    ⟨t', c', j', hread', fun h => hfields'.1 h hfirst⟩⟩

/-- Fields do not always stand where the text has them. A name that is not closed is cut short, and
a jump that comes in front of the equals sign is taken for a target, so that the line is assembled
as one that stores the result and goes on. -/
theorem ofLine_fields_misread :
    ofLine ⟨1, "(LOOP", "(LOOP"⟩ = .ok ⟨.label "LOO", ⟨1, "(LOOP", "(LOOP"⟩⟩ ∧
      ¬Statement.NameStands "(LOOP" "LOO" ∧
      ofLine ⟨1, "0;JMP=D", "0;JMP=D"⟩ =
        .ok ⟨.compute (some "0;JMP") "D" none, ⟨1, "0;JMP=D", "0;JMP=D"⟩⟩ ∧
      ¬Statement.FieldsStand "0;JMP=D" (some "0;JMP") "D" none ∧
      assemble "0;JMP=D" = assemble "M=D" := by
  refine ⟨by decide, ?_, by decide, ?_, by decide +kernel⟩
  · intro hstands
    rcases hstands with ⟨back, heq, -⟩ | ⟨heq, -⟩
    · have hclosed : ')' ∈ "(LOOP".toList := by rw [heq]; simp
      exact absurd hclosed (by decide)
    · exact absurd heq (by decide)
  · intro hstand
    have hnone : ';' ∉ "0;JMP=D".toList := hstand.right
    exact absurd hnone (by decide)

end Operation
end HackAssembler
