import HackAssembler.Assembly.Program
import HackAssembler.Proofs.Cleaning
import HackAssembler.Text.Newline

/-!
# Carriage returns

A file is read with its line ends made one, a text in memory is taken as it is. Line by line the
two differ by carriage returns at the ends of the lines, and there a carriage return is a blank
that is part of the line end: it changes neither what a line says nor how it is shown.

## Main definitions

* `Text.dropReturns` — carriage returns before line feeds are left out.
* `Text.normalize` — a text with line feeds only.
* `Text.Paired` — carriage returns stand nowhere but before line feeds.
-/

namespace HackAssembler

/-! ## Line ends -/

namespace Text

/-- The text without each carriage return that has a line feed right after it. -/
def dropReturns : List Char → List Char
  | [] => []
  | '\r' :: '\n' :: cs => '\n' :: dropReturns cs
  | c :: cs => c :: dropReturns cs

/-- A carriage return as a line feed; everything else as it is. -/
def feed (c : Char) : Char := if c = '\r' then '\n' else c

/-- The text with a line feed in place of each carriage return and line feed, and then of each
carriage return that is left. -/
def normalize (text : String) : String := String.ofList ((dropReturns text.toList).map feed)

/-- After each carriage return there is a line feed. -/
def Paired (cs : List Char) : Prop :=
  ∀ before after, cs = before ++ '\r' :: after → after.head? = some '\n'

/-- Reading in one sweep does what the two replacements do. -/
theorem unifyNewlinesFrom_eq (done cs : List Char) :
    unifyNewlinesFrom done cs = done.reverse ++ (dropReturns cs).map feed := by
  fun_induction unifyNewlinesFrom done cs with
  | case1 done => simp [dropReturns]
  | case2 done cs ih => simp [dropReturns, feed, ih]
  | case3 done c cs hpair ih =>
    have hkeep : dropReturns (c :: cs) = c :: dropReturns cs := by
      rw [dropReturns]
      exact hpair
    simp [hkeep, feed, ih]

theorem ofList_unifyNewlines (text : String) :
    String.ofList (unifyNewlines text.toList) = normalize text := by
  rw [unifyNewlines, unifyNewlinesFrom_eq, normalize]
  rfl

@[simp] theorem paired_nil : Paired [] := by
  rintro before after h
  simp at h

theorem paired_cons {c : Char} {cs : List Char} :
    Paired (c :: cs) ↔ (c = '\r' → cs.head? = some '\n') ∧ Paired cs := by
  constructor
  · intro h
    refine ⟨?_, ?_⟩
    · rintro rfl
      exact h [] cs rfl
    · rintro before after rfl
      exact h (c :: before) after rfl
  · rintro ⟨hfirst, hrest⟩ before after h
    rcases List.cons_eq_append_iff.1 h with ⟨rfl, hcs⟩ | ⟨front, rfl, hcs⟩
    · obtain ⟨rfl, rfl⟩ := List.cons_eq_cons.1 hcs
      exact hfirst rfl
    · exact hrest front after hcs

/-- Carriage returns stand only before line feeds when none is left once those are dropped. -/
theorem paired_iff (cs : List Char) : Paired cs ↔ '\r' ∉ dropReturns cs := by
  fun_induction dropReturns cs with
  | case1 => simp
  | case2 cs ih => simp [paired_cons, ih]
  | case3 c cs hpair ih =>
    have hfirst : (c = '\r' → cs.head? = some '\n') ↔ '\r' ≠ c := by
      constructor
      · rintro h rfl
        obtain ⟨rest, hcs⟩ := List.head?_eq_some_iff.1 (h rfl)
        exact hpair rest rfl hcs
      · exact fun hne heq => absurd heq.symm hne
    rw [paired_cons, ih, hfirst, List.mem_cons, not_or]

instance (cs : List Char) : Decidable (Paired cs) := decidable_of_iff _ (paired_iff cs).symm

theorem normalize_of_paired {text : String} (h : Paired text.toList) :
    normalize text = String.ofList (dropReturns text.toList) := by
  have hkeep : (dropReturns text.toList).map feed = dropReturns text.toList := by
    conv_rhs => rw [← List.map_id (dropReturns text.toList)]
    apply List.map_congr_left
    intro c hc
    have hne : c ≠ '\r' := fun heq => (paired_iff _).1 h (heq ▸ hc)
    simp [feed, hne]
  rw [normalize, hkeep]

end Text

/-! ## Pieces between line feeds -/

/-- The same piece, or the same piece and a carriage return. -/
def ReturnAtEnd (p q : List Char) : Prop := p = q ∨ p = q ++ ['\r']

theorem ReturnAtEnd.cons {p q : List Char} (c : Char) (h : ReturnAtEnd p q) :
    ReturnAtEnd (c :: p) (c :: q) := by
  rcases h with rfl | rfl
  · exact .inl rfl
  · exact .inr rfl

theorem splitOn_newline_cons (c : Char) (cs : List Char) : (c :: cs).splitOn '\n' =
    if c = '\n' then [] :: cs.splitOn '\n' else (cs.splitOn '\n').modifyHead (c :: ·) := by
  rw [List.splitOn_eq_splitOnP, List.splitOnP_cons_eq_if_modifyHead]
  simp only [beq_iff_eq]
  rfl

/-- The carriage returns that are dropped stood at the ends of pieces. -/
theorem returnAtEnd_splitOn (cs : List Char) :
    List.Forall₂ ReturnAtEnd (cs.splitOn '\n') ((Text.dropReturns cs).splitOn '\n') := by
  fun_induction Text.dropReturns cs with
  | case1 => exact .cons (.inl rfl) .nil
  | case2 cs ih =>
    have hlong : ('\r' :: '\n' :: cs).splitOn '\n' = ['\r'] :: cs.splitOn '\n' := by
      simp [splitOn_newline_cons]
    have hshort : ('\n' :: Text.dropReturns cs).splitOn '\n' =
        [] :: (Text.dropReturns cs).splitOn '\n' := by simp [splitOn_newline_cons]
    rw [hlong, hshort]
    exact .cons (.inr rfl) ih
  | case3 c cs hpair ih =>
    rw [splitOn_newline_cons, splitOn_newline_cons]
    split
    case isTrue => exact .cons (.inl rfl) ih
    case isFalse =>
      -- The character goes to the front of the first piece on both sides.
      generalize cs.splitOn '\n' = ps, (Text.dropReturns cs).splitOn '\n' = qs at ih
      cases ih with
      | nil => exact .nil
      | cons hhead htail => exact .cons (hhead.cons c) htail

/-! ## Lines -/

namespace Line

/-- A carriage return at the end of a line is a blank, or part of the comment. -/
theorem dropBlanks_beforeComment_return (cs : List Char) :
    Text.dropBlanks (beforeComment (cs ++ ['\r'])) = Text.dropBlanks (beforeComment cs) := by
  have hblank : ∀ c ∈ ['\r'], Text.isBlank c = true := List.forall_mem_singleton.2 (by decide)
  have hmeet : ¬SlashesMeet cs [] := by simp [SlashesMeet]
  simpa using dropBlanks_beforeComment_blanks hblank hmeet

theorem ofPiece_of_returnAtEnd {p q : List Char} (h : ReturnAtEnd p q) (number : Int) :
    ofPiece number (String.ofList p) = ofPiece number (String.ofList q) := by
  rcases h with rfl | rfl
  · rfl
  · have hclean : clean (String.ofList (q ++ ['\r'])) = clean (String.ofList q) := by
      rw [clean, clean, String.toList_ofList, String.toList_ofList, dropBlanks_beforeComment_return]
    have hraw : Text.trimEnd isLineEnd (q ++ ['\r']) = Text.trimEnd isLineEnd q := by
      rw [Text.trimEnd_eq, Text.trimEnd_eq, List.rdropWhile_concat_pos _ _ _ rfl]
    rw [ofPiece, ofPiece, hclean, String.toList_ofList, String.toList_ofList, hraw]

theorem map_ofPiece_of_returnAtEnd {ps qs : List (List Char)} (h : List.Forall₂ ReturnAtEnd ps qs)
    (first : Nat) :
    (((ps.map String.ofList).zipIdx first).map fun (piece, i) => ofPiece i piece) =
      ((qs.map String.ofList).zipIdx first).map fun (piece, i) => ofPiece i piece := by
  induction h generalizing first with
  | nil => rfl
  | cons hhead _ ih =>
    simp only [List.map_cons, List.zipIdx_cons]
    rw [ofPiece_of_returnAtEnd hhead, ih]

/-- **Carriage returns before line feeds are not seen**: the lines are the same, with their
numbers and as they were written. -/
theorem ofSource_dropReturns (text : String) :
    ofSource (String.ofList (Text.dropReturns text.toList)) = ofSource text := by
  rw [ofSource, ofSource, collect, collect, String.toList_ofList,
    map_ofPiece_of_returnAtEnd (returnAtEnd_splitOn text.toList)]

theorem ofSource_normalize {text : String} (h : Text.Paired text.toList) :
    ofSource (Text.normalize text) = ofSource text := by
  rw [Text.normalize_of_paired h, ofSource_dropReturns]

end Line

theorem Program.ofSource_normalize {text : String} (h : Text.Paired text.toList) :
    ofSource (Text.normalize text) = ofSource text := by
  rw [ofSource, ofSource, Operation.ofSource, Operation.ofSource, Line.ofSource_normalize h]

end HackAssembler
