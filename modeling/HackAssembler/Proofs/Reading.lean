import HackAssembler.Operation
import HackAssembler.Proofs.Lists

/-!
# What reading a source gives

A source is read as one operation for each line that says something, in order and with the line it
comes from. Lines are told apart by their numbers. The only text that cannot be read is a number
with too many digits.

## Main definitions

* `Statement.overlong?` — the length of a number with too many digits.
* `Operation.ofSource_eq_error_iff` — when a source cannot be read.
* `Operation.lines_of_ofSource` — what a source that can be read gives.
-/

namespace HackAssembler

/-! ## Texts -/

namespace Statement

/-- The number of digits of a text that loads a number with more than 4300 of them. -/
def overlong? : List Char → Option Nat
  | '@' :: digits =>
    if digits.all Char.isDigit ∧ 4300 < digits.length then some digits.length else none
  | _ => none

theorem kind?_cons (c : Char) (cs : List Char) :
    kind? (c :: cs) = if c = '(' then some .label
      else if c = '@' then some (if isNumber cs then .constant else .symbol)
      else some .compute := by
  by_cases hparen : c = '('
  · subst hparen
    rfl
  · by_cases hat : c = '@'
    · subst hat
      rfl
    · rw [kind?] <;> simp_all

/-- How a text is read, by its first character. -/
theorem ofText_of_toList {text : String} {c : Char} {cs : List Char} (h : text.toList = c :: cs) :
    ofText text = if c = '(' then .ok (.label (String.ofList (labelName (c :: cs))))
      else if c = '@' then
        if isNumber cs then readConstant cs
        else .ok (.symbol (String.ofList cs) (isVariable (String.ofList cs)))
      else .ok (Fields.ofText (c :: cs)).toStatement := by
  rw [ofText]
  simp only [h, kind?_cons]
  by_cases hparen : c = '('
  · simp [hparen]
  · by_cases hat : c = '@'
    · subst hat
      cases isNumber cs <;> simp
    · simp [hparen, hat]

theorem exists_cons_of_ne_empty {text : String} (h : text ≠ "") :
    ∃ c cs, text.toList = c :: cs := by
  apply List.exists_cons_of_ne_nil
  simpa using h

/-- The only text that says something and cannot be read is a number with too many digits. -/
theorem ofText_eq_error_iff {text : String} (hne : text ≠ "") (cause : Malformed) :
    ofText text = .error cause ↔ (overlong? text.toList).map .tooManyDigits = some cause := by
  obtain ⟨c, cs, hcs⟩ := exists_cons_of_ne_empty hne
  rw [ofText_of_toList hcs, hcs]
  by_cases hparen : c = '('
  · subst hparen
    simp [overlong?]
  · by_cases hat : c = '@'
    · subst hat
      by_cases hlong : cs.all Char.isDigit ∧ 4300 < cs.length
      · have hnumber : isNumber cs = true := by
          have hne : cs ≠ [] := List.ne_nil_of_length_pos (by omega)
          simp [isNumber, hlong.1, hne]
        simp [overlong?, hlong, hnumber, readConstant, Text.maxDigits]
      · have hnone : overlong? ('@' :: cs) = none := if_neg hlong
        cases hnumber : isNumber cs with
        | true =>
          have hshort : ¬4300 < cs.length := by
            intro hlt
            simp only [isNumber, Bool.and_eq_true] at hnumber
            exact hlong ⟨hnumber.2, hlt⟩
          simp [hnone, readConstant, Text.maxDigits, hshort]
        | false => simp [hnone]
    · have hnone : overlong? (c :: cs) = none := by rw [overlong?]; simp [hat]
      simp [hparen, hat, hnone]

theorem digitsValue_lt {cs : List Char} (h : cs.all Char.isDigit = true) :
    digitsValue cs < Nat.pow 10 cs.length := by
  induction cs using List.reverseRecOn with
  | nil => decide
  | append_singleton cs c ih =>
    rw [List.all_append, Bool.and_eq_true] at h
    have hdigit : c.isDigit = true := by simpa using h.2
    have hc : c.toNat ≤ 57 := by
      simp only [Char.isDigit, Bool.and_eq_true, decide_eq_true_eq] at hdigit
      exact hdigit.2
    have hlast : digitsValue (cs ++ [c]) = 10 * digitsValue cs + (c.toNat - 48) := by
      simp [digitsValue]
    have hfront := ih h.1
    rw [hlast, List.length_append, List.length_singleton]
    have hpow : Nat.pow 10 (cs.length + 1) = Nat.pow 10 cs.length * 10 := rfl
    omega

/-- What a text can be read as. A number is never negative and can be told again, and a name is
variable-style by its letters alone. -/
theorem of_ofText_eq_ok {text : String} {s : Statement} (h : ofText text = .ok s) :
    (∃ name, s = .label name) ∨ (∃ n : Nat, s = .constant n ∧ Text.Writable n) ∨
      (∃ name, s = .symbol name (isVariable name)) ∨
      ∃ target computation jump, s = .compute target computation jump := by
  by_cases hne : text = ""
  · subst hne
    cases h
  · obtain ⟨c, cs, hcs⟩ := exists_cons_of_ne_empty hne
    rw [ofText_of_toList hcs] at h
    split at h
    · cases h
      exact .inl ⟨_, rfl⟩
    · split at h
      · split at h
        case isTrue.isTrue hnumber =>
          rw [readConstant] at h
          split at h
          case isTrue => cases h
          case isFalse hshort =>
            cases h
            rw [isNumber, Bool.and_eq_true] at hnumber
            have hwritable : Text.Writable (digitsValue cs) :=
              .of_lt_pow (digitsValue_lt hnumber.2) (Nat.not_lt.1 hshort)
            exact .inr (.inl ⟨_, rfl, hwritable⟩)
        · cases h
          exact .inr (.inr (.inl ⟨_, rfl⟩))
      · cases h
        exact .inr (.inr (.inr ⟨_, _, _, rfl⟩))

end Statement

/-! ## Lines -/

namespace Line

/-- The lines of a source stand in the order of their numbers, and no two have the same. -/
theorem pairwise_number_ofSource (source : String) :
    (ofSource source).Pairwise fun a b => a.number < b.number := by
  rw [ofSource, collect]
  refine List.Pairwise.filter _ (List.pairwise_map.2 ?_)
  have hindex (pieces : List String) : (pieces.zipIdx 1).Pairwise fun a b => a.2 < b.2 := by
    have h : ((pieces.zipIdx 1).map Prod.snd).Pairwise (· < ·) := by
      rw [List.zipIdx_map_snd]
      exact List.pairwise_lt_range'
    exact List.pairwise_map.1 h
  refine (hindex _).imp ?_
  intro a b hlt
  simpa using hlt

end Line

/-! ## Operations -/

namespace Operation
variable {source : String} {ops : List Operation}

/-- **A source cannot be read when some line has too many digits**; the first such line is told. -/
theorem ofSource_eq_error_iff (source : String) (cause : Statement.Malformed) :
    ofSource source = .error cause ↔
      ∃ count, (Line.ofSource source).findSome? (fun l => Statement.overlong? l.text.toList) =
        some count ∧ cause = .tooManyDigits count := by
  have herror : ∀ l ∈ Line.ofSource source, ∀ e, ofLine l = .error e ↔
      (Statement.overlong? l.text.toList).map .tooManyDigits = some e := by
    intro l hl e
    rw [← Statement.ofText_eq_error_iff (Line.text_ne_empty_of_mem_collect hl), ofLine]
    cases Statement.ofText l.text <;> simp [Except.map]
  have hfirst : (Line.ofSource source).findSome?
      (fun l => (Statement.overlong? l.text.toList).map Statement.Malformed.tooManyDigits) =
      ((Line.ofSource source).findSome? fun l => Statement.overlong? l.text.toList).map
        .tooManyDigits := List.map_findSome?.symm
  rw [ofSource, ofLines, mapM_eq_error_iff ofLine herror, hfirst, Option.map_eq_some_iff]
  simp only [eq_comm]

theorem of_ofLine_eq_ok {l : Line} {op : Operation} (h : ofLine l = .ok op) :
    op.line = l ∧ Statement.ofText l.text = .ok op.statement := by
  rw [ofLine] at h
  cases hs : Statement.ofText l.text with
  | error e =>
    rw [hs] at h
    cases h
  | ok s =>
    rw [hs] at h
    cases h
    exact ⟨rfl, rfl⟩

theorem forall₂_of_ofSource (h : ofSource source = .ok ops) :
    List.Forall₂ (fun l op => op.line = l ∧ Statement.ofText l.text = .ok op.statement)
      (Line.ofSource source) ops :=
  (forall₂_of_mapM_eq_ok ofLine h).imp fun _ _ hop => of_ofLine_eq_ok hop

/-- Each line that says something is read as one operation. -/
theorem lines_of_ofSource (h : ofSource source = .ok ops) :
    ops.map (·.line) = Line.ofSource source := by
  have hall : List.Forall₂ (· = ·) (Line.ofSource source) (ops.map (·.line)) := by
    rw [List.forall₂_map_right_iff]
    exact (forall₂_of_ofSource h).imp fun _ _ hop => hop.1.symm
  rw [List.forall₂_eq_eq_eq] at hall
  exact hall.symm

theorem ofText_of_mem_ofSource (h : ofSource source = .ok ops) {op : Operation} (hop : op ∈ ops) :
    Statement.ofText op.line.text = .ok op.statement := by
  have hall := forall₂_of_ofSource h
  generalize Line.ofSource source = lines at hall
  clear h
  induction hall with
  | nil => simp at hop
  | cons hhead _ ih =>
    rcases List.mem_cons.1 hop with rfl | hop
    · rw [hhead.1]
      exact hhead.2
    · exact ih hop

/-- What the operations of a source have in common: their lines stand in order, no number is
negative or too long to be told, and nothing is reserved. -/
structure WellRead (ops : List Operation) : Prop where
  ordered : ops.Pairwise fun a b => a.line.number < b.line.number
  nonneg : ∀ op ∈ ops, ∀ value, op.statement = .constant value → 0 ≤ value
  tellable : ∀ op ∈ ops, op.Tellable
  unreserved : ∀ op ∈ ops, op.statement ≠ .reserve

theorem wellRead_of_ofSource (h : ofSource source = .ok ops) : WellRead ops where
  ordered := by
    have hlines := Line.pairwise_number_ofSource source
    rwa [← lines_of_ofSource h, List.pairwise_map] at hlines
  nonneg op hop value hvalue := by
    have hread := Statement.of_ofText_eq_ok (ofText_of_mem_ofSource h hop)
    rw [hvalue] at hread
    obtain ⟨n, rfl, -⟩ : ∃ n : Nat, value = n ∧ Text.Writable n := by simpa using hread
    omega
  tellable op hop value hvalue := by
    have hread := Statement.of_ofText_eq_ok (ofText_of_mem_ofSource h hop)
    rw [hvalue] at hread
    obtain ⟨n, rfl, hwritable⟩ : ∃ n : Nat, value = n ∧ Text.Writable n := by simpa using hread
    exact hwritable
  unreserved op hop hreserve := by
    have hread := Statement.of_ofText_eq_ok (ofText_of_mem_ofSource h hop)
    simp [hreserve] at hread

theorem WellRead.nodup_line (h : WellRead ops) : (ops.map (·.line)).Nodup := by
  rw [List.Nodup, List.pairwise_map]
  refine h.ordered.imp ?_
  intro a b hlt heq
  rw [heq] at hlt
  exact Int.lt_irrefl _ hlt

end Operation
end HackAssembler
