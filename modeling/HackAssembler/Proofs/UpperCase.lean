import HackAssembler.Statement
import Mathlib.Data.List.Chain

/-!
# What upper-casing changes

Upper-casing can make a text longer, so the characters of the result need not stand where those of
the text stood, and comparing the two as wholes could in principle miss a change. It does not: the
upper-casing of a character that changes starts with another character. The first change of a text
therefore shows at its own place, whatever follows, and a text stays as it is exactly when each of
its characters does. The style of a name, which is told by such a comparison, is thus a matter of
its characters one by one.

That no change starts with the character itself is read off the table: each row moves its code
points by a distance that is not zero. The rows ascend, so the row found for a character is the only
one that can cover it.

## Main definitions

* `Text.CaseRow.Precedes` — the order of the rows.
-/

namespace HackAssembler

namespace Text

/-! ## Rows -/

/-- The row is not empty, and it ends before the other one starts. -/
def CaseRow.Precedes (r later : CaseRow) : Prop := r.first ≤ r.last ∧ r.last < later.first

instance (r later : CaseRow) : Decidable (r.Precedes later) := inferInstanceAs (Decidable (_ ∧ _))

instance : Trans CaseRow.Precedes CaseRow.Precedes CaseRow.Precedes where
  trans := by
    intro r s t hrs hst
    have hlast : r.last < t.first := by
      calc r.last < s.first := hrs.2
        _ ≤ s.last := hst.1
        _ < t.first := hst.2
    exact ⟨hrs.1, hlast⟩

/-- The rows ascend and do not overlap. -/
theorem pairwise_caseRows : caseRows.Pairwise CaseRow.Precedes := by
  -- Neighbours are compared one by one; for rows further apart the order is transitive.
  rw [← List.isChain_iff_pairwise]
  decide +kernel

/-- The null character is in no row, and no row leaves its characters where they are. -/
theorem caseRows_move : ∀ r ∈ caseRows, 0 < r.first ∧ r.shift ≠ 0 := by decide +kernel

/-- The only row that starts in ASCII is the one of the letters from a to z. -/
theorem caseRows_ascii : ∀ r ∈ caseRows, r.first < 128 → r.first = 0x61 ∧ r.last = 0x7A := by
  decide +kernel

/-- A row that covers a code point is the one that is found for it. -/
theorem find?_of_covers {r : CaseRow} {n : Nat} (hr : r ∈ caseRows) (h : r.covers n = true) :
    caseRows.find? (fun row => n ≤ row.last) = some r := by
  obtain ⟨hfirst, hlast, -⟩ := CaseRow.covers_iff.1 h
  obtain ⟨front, back, hsplit⟩ := List.append_of_mem hr
  have hrows := pairwise_caseRows
  rw [hsplit, List.pairwise_append] at hrows
  refine List.find?_eq_some_iff_append.2 ⟨by simpa using hlast, front, back, hsplit, ?_⟩
  intro row hrow
  have hends : row.last < r.first := (hrows.2.2 row hrow r List.mem_cons_self).2
  have hmissed : ¬n ≤ row.last := by omega
  simpa using hmissed

/-! ## Characters -/

section Character
variable {r : CaseRow} {c : Char}

/-- A character is upper-cased by the row that covers it. -/
theorem upperChar_of_covers (hr : r ∈ caseRows) (h : r.covers c.toNat = true) :
    upperChar c = r.apply c.toNat := by
  rw [upperChar, find?_of_covers hr h]
  exact if_pos h

/-- A character that no row covers stays as it is. -/
theorem upperChar_of_uncovered (h : ∀ r ∈ caseRows, r.covers c.toNat ≠ true) :
    upperChar c = [c] := by
  rw [upperChar]
  cases hfound : caseRows.find? fun r => c.toNat ≤ r.last with
  | none => rfl
  | some r => exact if_neg (h r (List.mem_of_find?_eq_some hfound))

/-- A number that is no code point stands for the null character. -/
theorem toNat_charOfNat (n : Nat) : (Char.ofNat n).toNat = n ∨ (Char.ofNat n).toNat = 0 := by
  by_cases hvalid : n.isValidChar
  · rw [Char.ofNat, dif_pos hvalid]
    exact .inl rfl
  · rw [Char.ofNat, dif_neg hvalid]
    exact .inr rfl

/-- What a row makes of a character starts with another one. -/
theorem exists_apply_eq_cons (hr : r ∈ caseRows) (h : r.covers c.toNat = true) :
    ∃ d rest, r.apply c.toNat = d :: rest ∧ d ≠ c := by
  refine ⟨_, _, rfl, ?_⟩
  intro heq
  obtain ⟨hpos, hshift⟩ := caseRows_move r hr
  have hfirst : r.first ≤ c.toNat := (CaseRow.covers_iff.1 h).1
  have hcode := toNat_charOfNat (c.toNat + r.shift).toNat
  rw [heq] at hcode
  omega

/-- Upper-casing changes the characters that a row covers and no others. -/
theorem upperChar_ne_iff (c : Char) :
    upperChar c ≠ [c] ↔ ∃ r ∈ caseRows, r.covers c.toNat = true := by
  constructor
  · intro hchanged
    by_contra hnone
    exact hchanged (upperChar_of_uncovered fun r hr h => hnone ⟨r, hr, h⟩)
  · intro hcovered heq
    obtain ⟨r, hr, h⟩ := hcovered
    obtain ⟨d, rest, happly, hne⟩ := exists_apply_eq_cons hr h
    rw [upperChar_of_covers hr h, happly] at heq
    exact hne (List.cons_eq_cons.1 heq).1

/-- **A character stays as it is, or its upper-casing starts with another one.** -/
theorem upperChar_cases (c : Char) :
    upperChar c = [c] ∨ ∃ d rest, upperChar c = d :: rest ∧ d ≠ c := by
  by_cases hkept : upperChar c = [c]
  · exact .inl hkept
  · obtain ⟨r, hr, h⟩ := (upperChar_ne_iff c).1 hkept
    rw [upperChar_of_covers hr h]
    exact .inr (exists_apply_eq_cons hr h)

/-- Of the characters of ASCII, upper-casing changes the letters from a to z. -/
theorem upperChar_ne_iff_of_ascii (hc : c.toNat < 128) :
    upperChar c ≠ [c] ↔ 'a' ≤ c ∧ c ≤ 'z' := by
  have hletter : 'a' ≤ c ∧ c ≤ 'z' ↔ 0x61 ≤ c.toNat ∧ c.toNat ≤ 0x7A := Iff.rfl
  rw [upperChar_ne_iff, hletter]
  constructor
  · intro hcovered
    obtain ⟨r, hr, h⟩ := hcovered
    obtain ⟨hfirst, hlast, -⟩ := CaseRow.covers_iff.1 h
    have hrow := caseRows_ascii r hr (by omega)
    omega
  · intro hrange
    refine ⟨⟨0x61, 0x7A, 1, -32, []⟩, List.mem_cons_self, ?_⟩
    simpa [Nat.mod_one] using hrange

end Character

/-! ## Texts -/

/-- A text stays as it is exactly when each of its characters does. -/
theorem flatMap_upperChar_eq_self_iff (cs : List Char) :
    cs.flatMap upperChar = cs ↔ ∀ c ∈ cs, upperChar c = [c] := by
  induction cs with
  | nil => simp
  | cons c cs ih =>
    rw [List.flatMap_cons, List.forall_mem_cons]
    rcases upperChar_cases c with hkept | ⟨d, rest, hmoved, hne⟩
    · rw [hkept, List.singleton_append, List.cons_inj_right, ih]
      exact (and_iff_right rfl).symm
    · -- The two texts differ in their first character, so what follows cannot make them equal.
      rw [hmoved]
      refine iff_of_false ?_ ?_
      · intro heq
        exact hne (List.cons_eq_cons.1 heq).1
      · intro hkept
        exact hne (List.cons_eq_cons.1 hkept.1).1

theorem upper_eq_self_iff (s : String) : upper s = s ↔ ∀ c ∈ s.toList, upperChar c = [c] := by
  rw [← flatMap_upperChar_eq_self_iff, ← String.toList_inj, upper, String.toList_ofList]

theorem upper_singleton_eq_self_iff (c : Char) :
    upper (String.singleton c) = String.singleton c ↔ upperChar c = [c] := by
  simp [upper_eq_self_iff]

end Text

/-! ## Names -/

namespace Statement

theorem isVariable_iff (name : String) :
    isVariable name = true ↔ ∃ c ∈ name.toList, Text.upperChar c ≠ [c] := by
  simp [isVariable, Text.upper_eq_self_iff]

/-- **The style of a name is decided character by character.** A name is variable-style exactly when
it holds a character that upper-casing changes. Two names put together are variable-style exactly
when one of them is, and a name in ASCII exactly when it holds a letter from a to z. -/
theorem isVariable_characterwise :
    (∀ name : String, isVariable name = true ↔
      ∃ c ∈ name.toList, Text.upper (String.singleton c) ≠ String.singleton c) ∧
    (∀ front back : String, isVariable (front ++ back) = true ↔
      isVariable front = true ∨ isVariable back = true) ∧
    ∀ name : String, (∀ c ∈ name.toList, c.toNat < 128) →
      (isVariable name = true ↔ ∃ c ∈ name.toList, 'a' ≤ c ∧ c ≤ 'z') := by
  refine ⟨?_, ?_, ?_⟩
  · intro name
    simp only [isVariable_iff, ne_eq, Text.upper_singleton_eq_self_iff]
  · intro front back
    simp only [isVariable_iff, String.toList_append, List.mem_append, or_and_right, exists_or]
  · intro name hascii
    rw [isVariable_iff]
    refine exists_congr fun c => and_congr_right fun hc => ?_
    exact Text.upperChar_ne_iff_of_ascii (hascii c hc)

/-- One character that becomes two, a name put together from both styles, and two names in ASCII
that differ in one letter. -/
theorem isVariable_characterwise_styles :
    isVariable "STRAßE" = true ∧ isVariable ("LOOP" ++ ".ŉ") = true ∧
      isVariable "LOoP.1" = true ∧ isVariable "LOOP.1" ≠ true := by
  obtain ⟨hcharacter, happend, hascii⟩ := isVariable_characterwise
  refine ⟨?_, ?_, ?_, ?_⟩
  · exact (hcharacter _).2 ⟨'ß', by decide, by decide⟩
  · exact (happend _ _).2 (.inr ((hcharacter _).2 ⟨'ŉ', by decide, by decide⟩))
  · exact (hascii _ (by simp)).2 ⟨'o', by decide, by decide⟩
  · rw [ne_eq, hascii _ (by simp)]
    simp

end Statement
end HackAssembler
