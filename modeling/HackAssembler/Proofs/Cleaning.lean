import HackAssembler.Proofs.Printing

/-!
# How a line may be laid out

Blanks can be put in and taken out anywhere but between two slashes, where they decide whether a
comment starts, and a comment can be put behind anything that does not end in a slash. What a line
says has no blanks left, but it can hold two slashes in a row that stood apart on the line; read
once more, they would start a comment.

## Main definitions

* `Line.SlashesMeet` — two slashes come together where two texts are joined.
-/

namespace HackAssembler.Line
variable {a b blanks cs : List Char}

/-- The first text ends in a slash and the second starts with one. -/
def SlashesMeet (a b : List Char) : Prop := a.getLast? = some '/' ∧ b.head? = some '/'

instance (a b : List Char) : Decidable (SlashesMeet a b) := inferInstanceAs (Decidable (_ ∧ _))

/-! ## The first comment of a text -/

/-- A comment starts at the first character, or that character is kept and one starts later. -/
theorem comment_cases {c : Char} (h : ['/', '/'] <:+: c :: cs) :
    (∃ rest, c = '/' ∧ cs = '/' :: rest) ∨
      (c = '/' → cs.head? ≠ some '/') ∧ ['/', '/'] <:+: cs := by
  by_cases hopens : c = '/' ∧ cs.head? = some '/'
  · obtain ⟨rfl, hhead⟩ := hopens
    obtain ⟨rest, rfl⟩ := List.head?_eq_some_iff.1 hhead
    exact .inl ⟨rest, rfl, rfl⟩
  · rcases List.infix_cons_iff.1 h with ⟨rest, hrest⟩ | hlater
    · obtain ⟨rfl, rfl⟩ := List.cons_eq_cons.1 hrest
      exact absurd ⟨rfl, rfl⟩ hopens
    · exact .inr ⟨fun hc hhead => hopens ⟨hc, hhead⟩, hlater⟩

/-- Behind a comment nothing counts. -/
theorem beforeComment_append_of_comment (h : ['/', '/'] <:+: a) (b : List Char) :
    beforeComment (a ++ b) = beforeComment a := by
  induction a with
  | nil => simp at h
  | cons c cs ih =>
    rcases comment_cases h with ⟨rest, rfl, rfl⟩ | ⟨hkept, hlater⟩
    · rfl
    · have hne : cs ≠ [] := by
        rintro rfl
        simp at hlater
      have hkept' : c = '/' → (cs ++ b).head? ≠ some '/' := by
        rwa [List.head?_append_of_ne_nil cs hne]
      rw [List.cons_append, beforeComment_cons hkept', beforeComment_cons hkept, ih hlater]

/-- A text without a comment is kept, and the comment is looked for in what follows. -/
theorem beforeComment_append_of_noComment (h : ¬['/', '/'] <:+: a) (hmeet : ¬SlashesMeet a b) :
    beforeComment (a ++ b) = a ++ beforeComment b := by
  induction a with
  | nil => rfl
  | cons c cs ih =>
    cases cs with
    | nil =>
      have hkept : c = '/' → b.head? ≠ some '/' := by
        rintro rfl hhead
        exact hmeet ⟨rfl, hhead⟩
      exact beforeComment_cons hkept
    | cons d ds =>
      have hkept : c = '/' → some d ≠ some '/' := by
        rintro rfl hd
        obtain rfl := Option.some_inj.1 hd
        exact h (List.prefix_append ['/', '/'] ds).isInfix
      have hrest : ¬['/', '/'] <:+: d :: ds := fun hin => h (List.infix_cons hin)
      have hlast : ¬SlashesMeet (d :: ds) b := hmeet
      rw [List.cons_append, beforeComment_cons hkept, ih hrest hlast]
      rfl

/-- A comment takes something away. -/
theorem length_beforeComment_lt (h : ['/', '/'] <:+: cs) :
    (beforeComment cs).length < cs.length := by
  induction cs with
  | nil => simp at h
  | cons c cs ih =>
    rcases comment_cases h with ⟨rest, rfl, rfl⟩ | ⟨hkept, hlater⟩
    · simp
    · rw [beforeComment_cons hkept, List.length_cons, List.length_cons]
      exact Nat.succ_lt_succ (ih hlater)

/-! ## Blanks and comments on a line -/

/-- Blanks that do not keep two slashes apart make no difference. -/
theorem dropBlanks_beforeComment_blanks (hblanks : ∀ c ∈ blanks, Text.isBlank c = true)
    (hmeet : ¬SlashesMeet a b) :
    Text.dropBlanks (beforeComment (a ++ blanks ++ b)) =
      Text.dropBlanks (beforeComment (a ++ b)) := by
  rw [List.append_assoc]
  by_cases hcomment : ['/', '/'] <:+: a
  · rw [beforeComment_append_of_comment hcomment, beforeComment_append_of_comment hcomment]
  · have hslash : '/' ∉ blanks := fun hmem => absurd (hblanks '/' hmem) (by decide)
    have hfront : ¬SlashesMeet a (blanks ++ b) := by
      cases blanks with
      | nil => exact hmeet
      | cons c cs =>
        rintro ⟨-, hhead⟩
        obtain rfl : c = '/' := by simpa using hhead
        exact hslash List.mem_cons_self
    have hback : ¬SlashesMeet blanks b := fun hends => hslash (List.mem_of_getLast? hends.1)
    have hnone : ¬['/', '/'] <:+: blanks := fun hin => hslash (hin.subset List.mem_cons_self)
    have hgone : Text.dropBlanks blanks = [] := by
      rw [Text.dropBlanks, List.filter_eq_nil_iff]
      intro c hc
      simp [hblanks c hc]
    rw [beforeComment_append_of_noComment hcomment hfront,
      beforeComment_append_of_noComment hnone hback,
      beforeComment_append_of_noComment hcomment hmeet, Text.dropBlanks_append,
      Text.dropBlanks_append, Text.dropBlanks_append, hgone, List.nil_append]

/-- A comment behind a text leaves the text. -/
theorem beforeComment_append_comment (h : a.getLast? ≠ some '/') (b : List Char) :
    beforeComment (a ++ '/' :: '/' :: b) = beforeComment a := by
  by_cases hcomment : ['/', '/'] <:+: a
  · exact beforeComment_append_of_comment hcomment _
  · rw [beforeComment_append_of_noComment hcomment fun hmeet => h hmeet.1,
      beforeComment_slash_slash, List.append_nil, beforeComment_of_noComment hcomment]

theorem isBlank_of_mem_clean {s : String} {c : Char} (h : c ∈ (clean s).toList) :
    Text.isBlank c = false := by
  rw [toList_clean] at h
  exact Text.isBlank_of_mem_dropBlanks h

/-- What a line says is said again unless it holds a comment. -/
theorem clean_clean_eq_iff (s : String) :
    clean (clean s) = clean s ↔ ¬['/', '/'] <:+: (clean s).toList := by
  have hblank : ∀ c ∈ (clean s).toList, Text.isBlank c = false :=
    fun c hc => isBlank_of_mem_clean hc
  rw [← String.toList_inj, toList_clean]
  generalize (clean s).toList = cs at hblank
  constructor
  · intro heq hcomment
    have hshorter : (Text.dropBlanks (beforeComment cs)).length < cs.length :=
      Nat.lt_of_le_of_lt (List.length_filter_le _ _) (length_beforeComment_lt hcomment)
    rw [heq] at hshorter
    exact Nat.lt_irrefl _ hshorter
  · intro hcomment
    rw [beforeComment_of_noComment hcomment, Text.dropBlanks_of_forall hblank]

/-- **How a line may be laid out.** Blanks may stand anywhere but between two slashes, a comment
behind anything but a slash. What is left has no blanks, and it stays as it is unless two slashes
have come together in it, which does happen. -/
theorem clean_layout :
    (∀ a b blanks : String, (∀ c ∈ blanks.toList, Text.isBlank c = true) →
      ¬SlashesMeet a.toList b.toList → clean (a ++ blanks ++ b) = clean (a ++ b)) ∧
    (∀ a b : String, a.toList.getLast? ≠ some '/' → clean (a ++ "//" ++ b) = clean a) ∧
    (∀ a : String, ∀ c ∈ (clean a).toList, Text.isBlank c = false) ∧
    (∀ a : String, clean (clean a) = clean a ↔ ¬['/', '/'] <:+: (clean a).toList) ∧
    ∃ a : String, ['/', '/'] <:+: (clean a).toList := by
  refine ⟨?_, ?_, fun a c hc => isBlank_of_mem_clean hc, clean_clean_eq_iff, ?_⟩
  · intro a b blanks hblanks hmeet
    rw [clean, clean, String.toList_append, String.toList_append, String.toList_append,
      dropBlanks_beforeComment_blanks hblanks hmeet]
  · intro a b hlast
    have htext : (a ++ "//" ++ b).toList = a.toList ++ '/' :: '/' :: b.toList := by simp
    rw [clean, clean, htext, beforeComment_append_comment hlast]
  · exact ⟨"/ /", by decide⟩

-- A blank between two slashes keeps a comment from starting.
example : clean ("D" ++ "/" ++ " " ++ "/") = "D//" ∧ clean ("D" ++ "/" ++ "/") = "D" := by decide

/-- Blanks of several kinds next to a slash, and a comment behind a slash that stands alone. -/
theorem clean_layout_slashes :
    clean ("D/" ++ "\t\u3000" ++ "A / / 1") = clean ("D/" ++ "A / / 1") ∧
      clean ("D/A " ++ "//" ++ "/ //") = clean "D/A " ∧
      clean (clean "D/A / / 1") ≠ clean "D/A / / 1" := by
  obtain ⟨hblanks, hcomment, -, hagain, -⟩ := clean_layout
  have hall : ∀ c ∈ "\t\u3000".toList, Text.isBlank c = true := List.all_eq_true.1 (by decide)
  refine ⟨hblanks _ _ _ hall (by decide), hcomment _ _ (by decide), ?_⟩
  rw [ne_eq, hagain]
  decide

end HackAssembler.Line
