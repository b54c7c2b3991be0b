import HackAssembler.Proofs.Reading
import HackAssembler.Statement.Printer
import HackAssembler.SymbolTable.Listing
import Mathlib.Data.List.DropRight
import Mathlib.Data.List.TakeWhile

/-!
# Reading what was written

Texts that stand on lines of their own, without blanks and comments, are read as they are: one
operation for each text, with the number of its line. A number that is written in digits and a
computation whose separators can be found again are read as what they were.

## Main definitions

* `Line.Plain` — a text that a line says as it is written.
* `Statement.Separable` — the fields of a computation can be told apart in its text.
-/

namespace HackAssembler

/-! ## Cutting a text -/

namespace Text
variable {sep : Char} {cs before after : List Char}

theorem splitFirst?_of_notMem (h : sep ∉ cs) : splitFirst? sep cs = none := by
  have hdrop : cs.dropWhile (· ≠ sep) = [] := by
    rw [List.dropWhile_eq_nil_iff]
    intro c hc
    exact decide_eq_true fun heq => h (heq ▸ hc)
  rw [splitFirst?, hdrop]

theorem splitFirst?_append (h : sep ∉ before) (after : List Char) :
    splitFirst? sep (before ++ sep :: after) = some (before, after) := by
  have hbefore : ∀ c ∈ before, decide (c ≠ sep) = true :=
    fun c hc => decide_eq_true fun heq => h (heq ▸ hc)
  rw [splitFirst?, List.dropWhile_append_of_pos hbefore, List.takeWhile_append_of_pos hbefore]
  simp

/-- A text has no separator, or it is cut at the first one. -/
theorem splitFirst?_cases (sep : Char) (cs : List Char) :
    (sep ∉ cs ∧ splitFirst? sep cs = none) ∨
      ∃ before after, cs = before ++ sep :: after ∧ sep ∉ before ∧
        splitFirst? sep cs = some (before, after) := by
  by_cases h : sep ∈ cs
  · obtain ⟨before, after, rfl, hbefore⟩ := List.eq_append_cons_of_mem h
    exact .inr ⟨before, after, rfl, hbefore, splitFirst?_append hbefore after⟩
  · exact .inl ⟨h, splitFirst?_of_notMem h⟩

/-- The last separator is the first one of the text read backwards. -/
theorem beforeLast?_eq (sep : Char) (cs : List Char) :
    beforeLast? sep cs = (splitFirst? sep cs.reverse).map (·.2.reverse) := by
  rw [beforeLast?, splitFirst?]
  split <;> rfl

theorem beforeLast?_of_notMem (h : sep ∉ cs) : beforeLast? sep cs = none := by
  rw [beforeLast?_eq, splitFirst?_of_notMem (by simpa using h)]
  rfl

theorem beforeLast?_append (before : List Char) (h : sep ∉ after) :
    beforeLast? sep (before ++ sep :: after) = some before := by
  have hback : (before ++ sep :: after).reverse = after.reverse ++ sep :: before.reverse := by simp
  rw [beforeLast?_eq, hback, splitFirst?_append (by simpa using h)]
  simp

/-- A text has no separator, or it is cut at the last one. -/
theorem beforeLast?_cases (sep : Char) (cs : List Char) :
    (sep ∉ cs ∧ beforeLast? sep cs = none) ∨
      ∃ before after, cs = before ++ sep :: after ∧ sep ∉ after ∧
        beforeLast? sep cs = some before := by
  rcases splitFirst?_cases sep cs.reverse with ⟨h, -⟩ | ⟨after, before, hcs, hafter, -⟩
  · have hnone : sep ∉ cs := by simpa using h
    exact .inl ⟨hnone, beforeLast?_of_notMem hnone⟩
  · have hcut : cs = before.reverse ++ sep :: after.reverse := by
      simpa using congrArg List.reverse hcs
    have hlast : sep ∉ after.reverse := by simpa using hafter
    exact .inr ⟨_, _, hcut, hlast, by rw [hcut, beforeLast?_append _ hlast]⟩

theorem afterLast_of_notMem (h : sep ∉ cs) : afterLast sep cs = cs := by
  have htake : cs.reverse.takeWhile (· ≠ sep) = cs.reverse := by
    rw [List.takeWhile_eq_self_iff]
    intro c hc
    exact decide_eq_true fun heq => h (heq ▸ List.mem_reverse.1 hc)
  rw [afterLast, htake, List.reverse_reverse]

theorem afterLast_append (before : List Char) (h : sep ∉ after) :
    afterLast sep (before ++ sep :: after) = after := by
  have hback : (before ++ sep :: after).reverse = after.reverse ++ sep :: before.reverse := by simp
  have hafter : ∀ c ∈ after.reverse, decide (c ≠ sep) = true :=
    fun c hc => decide_eq_true fun heq => h (heq ▸ List.mem_reverse.1 hc)
  rw [afterLast, hback, List.takeWhile_append_of_pos hafter]
  simp

theorem dropBlanks_of_forall (h : ∀ c ∈ cs, isBlank c = false) : dropBlanks cs = cs := by
  rw [dropBlanks, List.filter_eq_self]
  intro c hc
  simp [h c hc]

/-- A digit is no blank and no slash. -/
theorem of_isDigit {c : Char} (h : c.isDigit = true) : isBlank c = false ∧ c ≠ '/' := by
  have hbounds : 48 ≤ c.toNat ∧ c.toNat ≤ 57 := by
    simpa [Char.isDigit, UInt32.le_iff_toNat_le] using h
  refine ⟨?_, ?_⟩
  · rw [isBlank, Bool.eq_false_iff, ne_eq, inRanges_iff]
    simp only [blankRanges, List.mem_cons, List.not_mem_nil, or_false, exists_eq_or_imp,
      exists_eq_left]
    omega
  · rintro rfl
    exact absurd hbounds.1 (by decide)

theorem trimEnd_eq (p : Char → Bool) (cs : List Char) : trimEnd p cs = cs.rdropWhile p := rfl

theorem trimEnd_of_forall {p : Char → Bool} (h : ∀ c ∈ cs, p c = false) : trimEnd p cs = cs := by
  rw [trimEnd_eq, List.rdropWhile_eq_self_iff]
  intro hne
  simp [h _ (List.getLast_mem hne)]

end Text

/-! ## Texts made of lines -/

theorem toList_unlines (lines : List String) :
    (unlines lines).toList = lines.flatMap fun line => line.toList ++ ['\n'] := by
  rw [unlines, String.toList_join, List.flatMap_map]
  simp

/-- Cut at the line ends, a text that was made of lines gives the lines back. -/
theorem splitOn_unlines {lines : List String} (h : ∀ line ∈ lines, '\n' ∉ line.toList) :
    (unlines lines).toList.splitOn '\n' = lines.map String.toList ++ [[]] := by
  rw [toList_unlines]
  induction lines with
  | nil => rfl
  | cons line lines ih =>
    have hline : '\n' ∉ line.toList := h line List.mem_cons_self
    rw [List.flatMap_cons, List.append_assoc, List.singleton_append,
      List.splitOn_append_cons_self_of_not_mem hline,
      ih fun other hother => h other (List.mem_cons_of_mem line hother)]
    rfl

/-! ## Lines -/

namespace Line

theorem beforeComment_of_noComment {cs : List Char} (h : ¬['/', '/'] <:+: cs) :
    beforeComment cs = cs := by
  induction cs with
  | nil => rfl
  | cons c cs ih =>
    have hrest : ¬['/', '/'] <:+: cs := fun hin => h (hin.trans (List.suffix_cons c cs).isInfix)
    have hfirst : c = '/' → cs.head? ≠ some '/' := by
      rintro rfl hhead
      obtain ⟨rest, rfl⟩ : ∃ rest, cs = '/' :: rest := List.head?_eq_some_iff.1 hhead
      exact h (List.prefix_append ['/', '/'] rest).isInfix
    rw [beforeComment_cons hfirst, ih hrest]

/-- The text is what a line says on which nothing else is written. -/
structure Plain (text : String) : Prop where
  nonempty : text ≠ ""
  noBlank : ∀ c ∈ text.toList, Text.isBlank c = false
  noComment : ¬['/', '/'] <:+: text.toList

namespace Plain
variable {text : String}

/-- Without blanks and slashes nothing is lost on a line. -/
theorem of_forall (hne : text ≠ "")
    (h : ∀ c ∈ text.toList, Text.isBlank c = false ∧ c ≠ '/') : Plain text where
  nonempty := hne
  noBlank c hc := (h c hc).1
  noComment hin := (h '/' (hin.subset List.mem_cons_self)).2 rfl

variable (h : Plain text)
include h

theorem clean_eq : clean text = text := by
  rw [clean, beforeComment_of_noComment h.noComment, Text.dropBlanks_of_forall h.noBlank,
    String.ofList_toList]

theorem newline_notMem : '\n' ∉ text.toList := by
  intro hmem
  have := h.noBlank '\n' hmem
  simp [Text.isBlank, Text.inRanges, Text.blankRanges, Text.CodeRange.holds] at this

theorem ofPiece_eq (number : Int) : ofPiece number text = ⟨number, text, text⟩ := by
  have hend : ∀ c ∈ text.toList, isLineEnd c = false := by
    intro c hc
    by_contra hne
    have hblank : Text.isBlank c = true := by
      have hcase : c = '\r' ∨ c = '\n' := by
        rw [Bool.not_eq_false] at hne
        simpa [isLineEnd] using hne
      rcases hcase with rfl | rfl <;> decide
    simp [h.noBlank c hc] at hblank
  rw [ofPiece, h.clean_eq, Text.trimEnd_of_forall hend, String.ofList_toList]

end Plain

/-- Plain texts on lines of their own are the lines of the source. -/
theorem ofSource_intercalate {texts : List String} (h : ∀ text ∈ texts, Plain text) :
    ofSource ("\n".intercalate texts) =
      (texts.zipIdx 1).map fun (text, i) => ⟨i, text, text⟩ := by
  cases texts with
  | nil => decide
  | cons first rest =>
    have hsplit : (("\n".intercalate (first :: rest)).toList.splitOn '\n').map String.ofList =
        first :: rest := by
      have hpieces : ∀ piece ∈ (first :: rest).map String.toList, '\n' ∉ piece := by
        intro piece hpiece
        obtain ⟨text, htext, rfl⟩ := List.mem_map.1 hpiece
        exact (h text htext).newline_notMem
      rw [String.toList_intercalate]
      change (List.splitOn '\n' (['\n'].intercalate _)).map String.ofList = _
      rw [List.splitOn_intercalate '\n' hpieces (by simp), List.map_map]
      simp [Function.comp_def]
    rw [ofSource, hsplit, collect]
    generalize first :: rest = texts at h
    have hlines : ((texts.zipIdx 1).map fun (text, i) => ofPiece i text) =
        (texts.zipIdx 1).map fun (text, i) => ⟨i, text, text⟩ := by
      apply List.map_congr_left
      rintro ⟨text, i⟩ hmem
      exact (h text (List.fst_mem_of_mem_zipIdx hmem)).ofPiece_eq i
    rw [hlines, List.filter_eq_self]
    intro line hline
    obtain ⟨⟨text, i⟩, hmem, rfl⟩ := List.mem_map.1 hline
    exact decide_eq_true (h text (List.fst_mem_of_mem_zipIdx hmem)).nonempty

end Line

/-! ## Statements -/

namespace Statement

/-- The value of a row of digits is the number that it spells. -/
theorem digitsValue_eq (cs : List Char) : digitsValue cs = Nat.ofDigitChars 10 cs 0 :=
  Nat.ofDigitChars_eq_foldl.symm

/-- A row of digits is read as the number that it spells. -/
theorem ofText_digits {digits : List Char} (h : isNumber digits = true)
    (hlength : digits.length ≤ Text.maxDigits) :
    ofText (String.ofList ('@' :: digits)) = .ok (.constant (digitsValue digits)) := by
  rw [ofText_of_toList (by simp : _ = '@' :: digits)]
  simp [h, readConstant, Nat.not_lt.2 hlength]

/-- A number that is written in decimal is read as it is. -/
theorem ofText_toString {n : Nat} (h : (toString n).length ≤ Text.maxDigits) :
    ofText ("@" ++ toString n) = .ok (.constant n) := by
  have htext : "@" ++ toString n = String.ofList ('@' :: Nat.toDigits 10 n) := by
    rw [← String.toList_inj, String.toList_append, Nat.toString_eq_ofList_toDigits]
    simp
  have hnumber : isNumber (Nat.toDigits 10 n) = true := by
    have hdigits : ∀ c ∈ Nat.toDigits 10 n, c.isDigit = true :=
      fun c hc => Nat.isDigit_of_mem_toDigits (by omega) (by omega) hc
    simpa [isNumber, Nat.toDigits_ne_nil] using hdigits
  have hlength : (Nat.toDigits 10 n).length ≤ Text.maxDigits := by
    rwa [Nat.toString_eq_ofList_toDigits, String.length_ofList] at h
  rw [htext, ofText_digits hnumber hlength, digitsValue_eq, Nat.ofDigitChars_ten_toDigits]

/-- The fields of a computation can be told apart in its text: no field holds the separator that
ends it, and without a target nothing is taken for one. -/
structure Separable (target : Option String) (computation : String) (jump : Option String) :
    Prop where
  target_end : ∀ text ∈ target, '=' ∉ text.toList
  computation_end : ';' ∉ computation.toList
  untargeted : target = none → '=' ∉ computation.toList ∧ ∀ text ∈ jump, '=' ∉ text.toList

section Compute
variable {target : Option String} {computation : String} {jump : Option String}

theorem Fields.ofRest_eq (h : ';' ∉ computation.toList) (target : Option (List Char)) :
    Fields.ofRest target
        (computation.toList ++ (jump.elim "" (";" ++ ·)).toList) =
      ⟨target, computation.toList, jump.map String.toList⟩ := by
  cases jump with
  | none => simp [Fields.ofRest, Text.splitFirst?_of_notMem h]
  | some text =>
    have htext : (";" ++ text).toList = ';' :: text.toList := by simp
    simp only [Option.elim_some, htext, Fields.ofRest, Text.splitFirst?_append h, Option.map_some]

theorem Fields.ofText_render (h : Separable target computation jump) :
    Fields.ofText (render (.compute target computation jump)).toList =
      ⟨target.map String.toList, computation.toList, jump.map String.toList⟩ := by
  rw [Fields.ofText]
  cases htarget : target with
  | some text =>
    have hcut : (render (.compute (some text) computation jump)).toList =
        text.toList ++ '=' :: (computation.toList ++ (jump.elim "" (";" ++ ·)).toList) := by
      simp [render]
    rw [hcut, Text.splitFirst?_append (h.target_end text htarget)]
    exact ofRest_eq h.computation_end _
  | none =>
    obtain ⟨hcomputation, hjump⟩ := h.untargeted htarget
    have hcut : (render (.compute none computation jump)).toList =
        computation.toList ++ (jump.elim "" (";" ++ ·)).toList := by simp [render]
    have hnone : '=' ∉ computation.toList ++ (jump.elim "" (";" ++ ·)).toList := by
      rw [List.mem_append, not_or]
      refine ⟨hcomputation, ?_⟩
      cases jump with
      | none => simp
      | some text => simpa using hjump text rfl
    rw [hcut, Text.splitFirst?_of_notMem hnone]
    exact ofRest_eq h.computation_end _

/-- **A computation is read as it was written**, if its fields can be told apart and its text starts
like a computation. -/
theorem ofText_render_compute (h : Separable target computation jump) {c : Char} {cs : List Char}
    (htext : (render (.compute target computation jump)).toList = c :: cs) (hparen : c ≠ '(')
    (hat : c ≠ '@') :
    ofText (render (.compute target computation jump)) =
      .ok (.compute target computation jump) := by
  rw [ofText_of_toList htext, if_neg hparen, if_neg hat, ← htext, Fields.ofText_render h,
    Fields.toStatement]
  simp [Function.comp_def]

end Compute
end Statement

/-! ## Sources -/

/-- Plain texts on lines of their own are read one by one. -/
theorem Operation.ofSource_intercalate {texts : List String} {statements : List Statement}
    (hplain : ∀ text ∈ texts, Line.Plain text)
    (h : List.Forall₂ (fun text s => Statement.ofText text = .ok s) texts statements) :
    ∃ ops, ofSource ("\n".intercalate texts) = .ok ops ∧ ops.map (·.statement) = statements := by
  have hlines : List.Forall₂ (fun l s => Statement.ofText l.text = .ok s)
      (Line.ofSource ("\n".intercalate texts)) statements := by
    have htexts : (Line.ofSource ("\n".intercalate texts)).map (·.text) = texts := by
      rw [Line.ofSource_intercalate hplain, List.map_map]
      exact List.zipIdx_map_fst 1 texts
    rwa [← htexts, List.forall₂_map_left_iff] at h
  rw [ofSource, ofLines]
  generalize Line.ofSource ("\n".intercalate texts) = lines at hlines
  clear h hplain
  induction hlines with
  | nil => exact ⟨[], rfl, rfl⟩
  | @cons l s lines statements hhead _ ih =>
    obtain ⟨ops, hops, rfl⟩ := ih
    have hline : ofLine l = .ok ⟨s, l⟩ := by
      rw [ofLine, hhead]
      rfl
    exact ⟨⟨s, l⟩ :: ops, by rw [mapM_cons_ok ofLine hline, hops]; rfl, rfl⟩

end HackAssembler
