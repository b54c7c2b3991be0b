import HackAssembler.Proofs.Printing
import Mathlib.Data.Nat.Digits.Defs

/-!
# Reading undoes writing

Everything that the language can say is written on a line of its own and read back as it was. Names
may hold the very characters that statements are built with: a label ends at the last closing
parenthesis, a target at the first equals sign, and a computation at the first semicolon behind it.

## Main definitions

* `Phrase` — what can be written on a line, with `Phrase.text` and `Phrase.meaning`.
* `Phrase.Distinct` — the kind and the fields of a phrase can be told from its text.
* `Phrase.Legible` — the text is also kept whole when its line is read.

## Main statements

* `Phrase.ofText_text` — a phrase is read as what it stands for.
* `Operation.ofSource_phrases` — legible phrases on lines of their own are read one by one, with the
  lines that they stand on.
-/

namespace HackAssembler

/-- What is written on a line. A number is kept by its digits, which may start with zeros. -/
inductive Phrase where
  | label (name : String)
  | number (digits : String)
  | symbol (name : String)
  | compute (target : Option String) (computation : String) (jump : Option String)
deriving DecidableEq, Repr

namespace Phrase

/-- The text on the line. -/
def text : Phrase → String
  | .label name => "(" ++ name ++ ")"
  | .number digits => "@" ++ digits
  | .symbol name => "@" ++ name
  | .compute target computation jump =>
    target.elim "" (· ++ "=") ++ computation ++ jump.elim "" (";" ++ ·)

/-- The number that a row of digits spells in decimal notation. -/
def decimal (digits : String) : Nat :=
  Nat.ofDigits 10 (digits.toList.map fun c => c.toNat - '0'.toNat).reverse

/-- The statement that the phrase stands for. A name is variable-style when it differs from its
upper-casing. -/
def meaning : Phrase → Statement
  | .label name => .label name
  | .number digits => .constant (decimal digits)
  | .symbol name => .symbol name (name ≠ Text.upper name)
  | .compute target computation jump => .compute target computation jump

/-- The kind and the fields of the phrase can be told from its text. A label may have any name; a
name that is loaded must not be a row of digits. -/
def Distinct : Phrase → Prop
  | .label _ => True
  | .number digits => digits ≠ "" ∧ (∀ c ∈ digits.toList, c.isDigit = true) ∧ digits.length ≤ 4300
  | .symbol name => ¬(name ≠ "" ∧ ∀ c ∈ name.toList, c.isDigit = true)
  | .compute target computation jump =>
    Statement.Separable target computation jump ∧
      ∃ c ∈ (text (.compute target computation jump)).toList.head?, c ≠ '(' ∧ c ≠ '@'

instance (target : Option String) (computation : String) (jump : Option String) :
    Decidable (Statement.Separable target computation jump) :=
  decidable_of_iff
    ((∀ text ∈ target, '=' ∉ text.toList) ∧ ';' ∉ computation.toList ∧
      (target = none → '=' ∉ computation.toList ∧ ∀ text ∈ jump, '=' ∉ text.toList))
    ⟨fun ⟨htarget, hcomputation, hnone⟩ => ⟨htarget, hcomputation, hnone⟩,
      fun h => ⟨h.target_end, h.computation_end, h.untargeted⟩⟩

-- The quantifiers run over the characters of the text and not over all characters.
instance : DecidablePred Distinct
  | .label _ => inferInstanceAs (Decidable True)
  | .number digits =>
    haveI : Decidable (∀ c ∈ digits.toList, c.isDigit = true) := List.decidableBAll _ _
    inferInstanceAs (Decidable (digits ≠ "" ∧ _ ∧ digits.length ≤ 4300))
  | .symbol name =>
    haveI : Decidable (∀ c ∈ name.toList, c.isDigit = true) := List.decidableBAll _ _
    inferInstanceAs (Decidable (¬(name ≠ "" ∧ _)))
  | .compute target computation jump =>
    haveI : Decidable
        (∃ c ∈ (text (.compute target computation jump)).toList.head?, c ≠ '(' ∧ c ≠ '@') :=
      Option.decidableExistsMem _
    inferInstanceAs (Decidable (Statement.Separable target computation jump ∧ _))

/-- The phrase can be told from its text, and nothing of the text is lost on a line. -/
structure Legible (p : Phrase) : Prop where
  distinct : p.Distinct
  noBlank : ∀ c ∈ p.text.toList, Text.isBlank c = false
  noComment : ¬['/', '/'] <:+: p.text.toList

instance : DecidablePred Legible := fun p =>
  haveI : Decidable (∀ c ∈ p.text.toList, Text.isBlank c = false) := List.decidableBAll _ _
  decidable_of_iff (p.Distinct ∧ _ ∧ ¬['/', '/'] <:+: p.text.toList)
    ⟨fun ⟨hdistinct, hblank, hcomment⟩ => ⟨hdistinct, hblank, hcomment⟩,
      fun h => ⟨h.distinct, h.noBlank, h.noComment⟩⟩

end Phrase

/-! ## Statements -/

namespace Statement

/-- A row of digits is read in decimal notation. -/
theorem digitsValue_eq_decimal (digits : String) :
    digitsValue digits.toList = Phrase.decimal digits := by
  rw [Phrase.decimal]
  induction digits.toList using List.reverseRecOn with
  | nil => rfl
  | append_singleton cs c ih =>
    -- The last character is the lowest digit, so it comes first in the reversed row.
    have hlast : digitsValue (cs ++ [c]) = 10 * digitsValue cs + (c.toNat - '0'.toNat) := by
      simp [digitsValue]
    rw [hlast, ih, List.map_append, List.reverse_append, List.map_singleton,
      List.reverse_singleton, List.singleton_append, Nat.ofDigits_cons]
    exact Nat.add_comm _ _

/-- Whatever stands in front of the last closing parenthesis is the name. -/
theorem labelName_append (cs : List Char) {back : List Char} (h : ')' ∉ back) :
    labelName ('(' :: (cs ++ ')' :: back)) = cs := by
  have hstop : Text.beforeLast? ')' ('(' :: (cs ++ ')' :: back)) = some ('(' :: cs) :=
    Text.beforeLast?_append ('(' :: cs) h
  simp [labelName, hstop, List.findIdx?_cons]

theorem isNumber_iff (cs : List Char) :
    isNumber cs = true ↔ cs ≠ [] ∧ ∀ c ∈ cs, c.isDigit = true := by
  simp [isNumber]

end Statement

namespace Phrase

theorem toList_label (name : String) :
    (text (.label name)).toList = '(' :: (name.toList ++ [')']) := by simp [text]

theorem toList_number (digits : String) :
    (text (.number digits)).toList = '@' :: digits.toList := by simp [text]

theorem toList_symbol (name : String) :
    (text (.symbol name)).toList = '@' :: name.toList := by simp [text]

/-- **A phrase is read as what it stands for.** -/
theorem ofText_text {p : Phrase} (h : p.Distinct) : Statement.ofText p.text = .ok p.meaning := by
  cases p with
  | label name =>
    rw [Statement.ofText_of_toList (toList_label name), if_pos rfl,
      Statement.labelName_append _ List.not_mem_nil, String.ofList_toList]
    rfl
  | number digits =>
    obtain ⟨hne, hdigits, hlength⟩ := h
    have hnumber : Statement.isNumber digits.toList = true :=
      (Statement.isNumber_iff _).2 ⟨by simpa using hne, hdigits⟩
    have htext : text (.number digits) = String.ofList ('@' :: digits.toList) := by
      rw [← toList_number, String.ofList_toList]
    rw [htext, Statement.ofText_digits hnumber hlength, Statement.digitsValue_eq_decimal]
    rfl
  | symbol name =>
    have hnumber : ¬Statement.isNumber name.toList = true := by
      rw [Statement.isNumber_iff]
      rintro ⟨hne, hdigits⟩
      exact h ⟨by simpa using hne, hdigits⟩
    have hvariable : Statement.isVariable name = decide (name ≠ Text.upper name) := by
      simp [Statement.isVariable, bne, Bool.beq_eq_decide_eq, eq_comm]
    rw [Statement.ofText_of_toList (toList_symbol name), if_neg (by decide), if_pos rfl,
      if_neg hnumber, String.ofList_toList, hvariable]
    rfl
  | compute target computation jump =>
    -- The text of a computation is the one that the statement is written with.
    obtain ⟨hseparable, c, hc, hparen, hat⟩ := h
    obtain ⟨cs, htext⟩ : ∃ cs, _ = c :: cs := List.head?_eq_some_iff.1 hc
    exact Statement.ofText_render_compute hseparable htext hparen hat

/-- An empty text says nothing, and a phrase is read as something. -/
theorem Distinct.text_ne_empty {p : Phrase} (h : p.Distinct) : p.text ≠ "" := by
  intro hempty
  have hread := ofText_text h
  rw [hempty] at hread
  cases hread

theorem Legible.plain {p : Phrase} (h : p.Legible) : Line.Plain p.text :=
  ⟨h.distinct.text_ne_empty, h.noBlank, h.noComment⟩

end Phrase

/-! ## Sources -/

/-- **Reading undoes writing**: legible phrases, written one to a line, are the operations of the
source, in order and with their texts kept. -/
theorem Operation.ofSource_phrases (phrases : List Phrase) (h : ∀ p ∈ phrases, p.Legible) :
    Operation.ofSource ("\n".intercalate (phrases.map Phrase.text)) =
      .ok ((phrases.zipIdx 1).map fun (p, i) => ⟨p.meaning, ⟨i, p.text, p.text⟩⟩) := by
  have hplain : ∀ text ∈ phrases.map Phrase.text, Line.Plain text := by
    intro text htext
    obtain ⟨p, hp, rfl⟩ := List.mem_map.1 htext
    exact (h p hp).plain
  rw [ofSource, ofLines, Line.ofSource_intercalate hplain, List.zipIdx_map, List.map_map,
    List.mapM_map]
  apply mapM_eq_ok
  rintro ⟨p, i⟩ hmem
  have hread : Statement.ofText p.text = .ok p.meaning :=
    Phrase.ofText_text (h p (List.fst_mem_of_mem_zipIdx hmem)).distinct
  change ofLine ⟨i, p.text, p.text⟩ = _
  rw [ofLine, hread]
  rfl

/-- Parentheses, digits and separators in places where they end nothing. -/
theorem Operation.ofSource_phrases_separators :
    Operation.ofSource "(a)@(1)\n()\n@007\n@\n@٣\n@7i=\n;A=D;J;=" = .ok [
      ⟨.label "a)@(1", ⟨1, "(a)@(1)", "(a)@(1)"⟩⟩,
      ⟨.label "", ⟨2, "()", "()"⟩⟩,
      ⟨.constant 7, ⟨3, "@007", "@007"⟩⟩,
      ⟨.symbol "" false, ⟨4, "@", "@"⟩⟩,
      ⟨.symbol "٣" false, ⟨5, "@٣", "@٣"⟩⟩,
      ⟨.symbol "7i=" true, ⟨6, "@7i=", "@7i="⟩⟩,
      ⟨.compute (some ";A") "D" (some "J;="), ⟨7, ";A=D;J;=", ";A=D;J;="⟩⟩] := by
  exact Operation.ofSource_phrases [.label "a)@(1", .label "", .number "007", .symbol "",
    .symbol "٣", .symbol "7i=", .compute (some ";A") "D" (some "J;=")] (by decide)

end HackAssembler
