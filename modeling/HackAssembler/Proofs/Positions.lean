import HackAssembler.Proofs.LineEnds

/-!
# Where lines stand

A line is found again by its number: it says what the piece of text between two line feeds says that
has as many line feeds in front of it. Pieces that say nothing leave a gap in the numbers, and no
character but the line feed starts a new piece. So the lines of two texts can be put together, if
those of the second are counted on.

## Main definitions

* `Line.StandsAt` — the piece of a text with a number.
* `Line.Places` — the lines tell what the pieces say, under the numbers of the pieces.
* `Line.shift` — a line some lines further down.
-/

namespace HackAssembler

/-! ## Pieces between line feeds -/

theorem length_splitOn_newline (cs : List Char) :
    (cs.splitOn '\n').length = cs.count '\n' + 1 := by
  induction cs with
  | nil => rfl
  | cons c cs ih =>
    rw [splitOn_newline_cons, List.count_cons]
    by_cases hc : c = '\n' <;> simp [hc, ih]

/-- A piece has no line feed inside, and one on either side unless the text ends there. -/
theorem getElem?_splitOn_newline_iff {cs piece : List Char} {i : Nat} :
    (cs.splitOn '\n')[i]? = some piece ↔ '\n' ∉ piece ∧ ∃ before after,
      cs = before ++ piece ++ after ∧ (before = [] ∨ before.getLast? = some '\n') ∧
        (after = [] ∨ after.head? = some '\n') ∧ before.count '\n' = i := by
  constructor
  · intro h
    -- The first piece reaches up to the first line feed; the others are pieces of what follows.
    induction i generalizing cs with
    | zero =>
      by_cases hfeed : '\n' ∈ cs
      · obtain ⟨first, rest, rfl, hfirst⟩ := List.eq_append_cons_of_mem hfeed
        rw [List.splitOn_append_cons_self_of_not_mem hfirst] at h
        obtain rfl : first = piece := by simpa using h
        exact ⟨hfirst, [], '\n' :: rest, rfl, .inl rfl, .inr rfl, rfl⟩
      · rw [List.splitOn_eq_singleton hfeed] at h
        obtain rfl : cs = piece := by simpa using h
        exact ⟨hfeed, [], [], by simp, .inl rfl, .inl rfl, rfl⟩
    | succ i ih =>
      by_cases hfeed : '\n' ∈ cs
      · obtain ⟨first, rest, rfl, hfirst⟩ := List.eq_append_cons_of_mem hfeed
        rw [List.splitOn_append_cons_self_of_not_mem hfirst, List.getElem?_cons_succ] at h
        obtain ⟨hpiece, before, after, rfl, hbefore, hafter, hcount⟩ := ih h
        refine ⟨hpiece, first ++ '\n' :: before, after, by simp, .inr ?_, hafter, ?_⟩
        · rcases hbefore with rfl | hlast
          · simp
          · simp [List.getLast?_cons, hlast]
        · rw [List.count_append, List.count_eq_zero.2 hfirst, List.count_cons_self, hcount]
          omega
      · rw [List.splitOn_eq_singleton hfeed] at h
        simp at h
  · rintro ⟨hpiece, before, after, rfl, hbefore, hafter, rfl⟩
    have hfirst : ((piece ++ after).splitOn '\n')[0]? = some piece := by
      rcases hafter with rfl | hhead
      · rw [List.append_nil, List.splitOn_eq_singleton hpiece]
        rfl
      · obtain ⟨rest, rfl⟩ := List.head?_eq_some_iff.1 hhead
        rw [List.splitOn_append_cons_self_of_not_mem hpiece]
        rfl
    rw [List.append_assoc]
    rcases hbefore with rfl | hlast
    · exact hfirst
    · obtain ⟨front, rfl⟩ := List.getLast?_eq_some_iff.1 hlast
      have hcount : (front ++ ['\n']).count '\n' = (front.splitOn '\n').length := by
        rw [length_splitOn_newline, List.count_append, List.count_singleton_self]
      rw [List.append_assoc, List.singleton_append, List.splitOn_append_cons_self, hcount,
        List.getElem?_append_right (Nat.le_refl _), Nat.sub_self]
      exact hfirst

theorem Text.trimEnd_congr {p q : Char → Bool} {cs : List Char} (h : ∀ c ∈ cs, p c = q c) :
    trimEnd p cs = trimEnd q cs := by
  rw [trimEnd_eq, trimEnd_eq]
  induction cs using List.reverseRecOn with
  | nil => rfl
  | append_singleton cs c ih =>
    have hlast : p c = q c := h c (by simp)
    have hfront := ih fun x hx => h x (List.mem_append_left [c] hx)
    rw [List.rdropWhile_concat, List.rdropWhile_concat, hlast, hfront]

namespace Line

/-- The piece of the text with the number: it starts at the front or behind a line feed, it reaches
to the next line feed or to the end, and the line feeds in front of it give its number. -/
def StandsAt (source : String) (number : Int) (piece : String) : Prop :=
  '\n' ∉ piece.toList ∧ ∃ before after : List Char,
    source.toList = before ++ piece.toList ++ after ∧
    (before = [] ∨ before.getLast? = some '\n') ∧ (after = [] ∨ after.head? = some '\n') ∧
    number = before.count '\n' + 1

/-- The text without the carriage returns at its end. -/
def withoutReturns (piece : String) : String :=
  String.ofList (Text.trimEnd (· = '\r') piece.toList)

/-- The lines tell what the pieces of the text say. -/
structure Places (source : String) (lines : List Line) : Prop where
  ordered : lines.Pairwise fun a b => a.number < b.number
  /-- Nothing but a line feed starts a new piece. -/
  pieces : ∀ number, (∃ piece, StandsAt source number piece) ↔
    1 ≤ number ∧ number ≤ source.toList.count '\n' + 1
  unique : ∀ number piece other,
    StandsAt source number piece → StandsAt source number other → piece = other
  /-- A number is missing when its piece says nothing. -/
  occurs : ∀ number, number ∈ lines.map (·.number) ↔
    ∃ piece, StandsAt source number piece ∧ clean piece ≠ ""
  entry : ∀ l ∈ lines, ∀ piece, StandsAt source l.number piece →
    l = ⟨l.number, clean piece, withoutReturns piece⟩
  /-- Without a line feed all is one piece, whatever other characters there are. -/
  unbroken : '\n' ∉ source.toList →
    lines = if clean source = "" then [] else [⟨1, clean source, withoutReturns source⟩]

/-- The line so many lines further down. -/
def shift (count : Int) (l : Line) : Line := { l with number := l.number + count }

/-! ## Pieces and lines -/

variable {source piece : String} {number : Int}

theorem standsAt_iff : StandsAt source number piece ↔
    ∃ i : Nat, number = i + 1 ∧ (source.toList.splitOn '\n')[i]? = some piece.toList := by
  simp only [StandsAt, getElem?_splitOn_newline_iff]
  constructor
  · rintro ⟨hpiece, before, after, htext, hbefore, hafter, hnumber⟩
    exact ⟨_, hnumber, hpiece, before, after, htext, hbefore, hafter, rfl⟩
  · rintro ⟨i, hnumber, hpiece, before, after, htext, hbefore, hafter, rfl⟩
    exact ⟨hpiece, before, after, htext, hbefore, hafter, hnumber⟩

theorem StandsAt.eq {other : String} (h : StandsAt source number piece)
    (hother : StandsAt source number other) : piece = other := by
  obtain ⟨i, hi, hpiece⟩ := standsAt_iff.1 h
  obtain ⟨j, hj, hother⟩ := standsAt_iff.1 hother
  obtain rfl : i = j := by omega
  rw [hpiece, Option.some_inj, String.toList_inj] at hother
  exact hother

theorem exists_standsAt_iff (source : String) (number : Int) :
    (∃ piece, StandsAt source number piece) ↔
      1 ≤ number ∧ number ≤ source.toList.count '\n' + 1 := by
  have hlength := length_splitOn_newline source.toList
  constructor
  · rintro ⟨piece, hpiece⟩
    obtain ⟨i, rfl, hi⟩ := standsAt_iff.1 hpiece
    obtain ⟨hlt, -⟩ := List.getElem?_eq_some_iff.1 hi
    omega
  · rintro ⟨hlow, hhigh⟩
    obtain ⟨i, rfl⟩ : ∃ i : Nat, number = i + 1 := ⟨(number - 1).toNat, by omega⟩
    have hlt : i < (source.toList.splitOn '\n').length := by omega
    refine ⟨String.ofList (source.toList.splitOn '\n')[i], standsAt_iff.2 ⟨i, rfl, ?_⟩⟩
    rw [String.toList_ofList, List.getElem?_eq_getElem hlt]

/-- A piece ends in no line feed, so that only carriage returns are taken away. -/
theorem ofPiece_of_notMem (h : '\n' ∉ piece.toList) (number : Int) :
    ofPiece number piece = ⟨number, clean piece, withoutReturns piece⟩ := by
  have hends : ∀ c ∈ piece.toList, isLineEnd c = decide (c = '\r') := by
    intro c hc
    have hne : c ≠ '\n' := fun heq => h (heq ▸ hc)
    simp [isLineEnd, hne]
  rw [ofPiece, Text.trimEnd_congr hends, withoutReturns]

/-- A line of a source is a piece that says something. -/
theorem mem_ofSource_iff {l : Line} : l ∈ ofSource source ↔ ∃ piece,
    StandsAt source l.number piece ∧ clean piece ≠ "" ∧
      l = ⟨l.number, clean piece, withoutReturns piece⟩ := by
  rw [ofSource, collect, List.mem_filter, List.mem_map, decide_eq_true_eq]
  constructor
  · rintro ⟨⟨⟨piece, i⟩, hmem, rfl⟩, htext⟩
    obtain ⟨hi, hpiece⟩ := List.mk_mem_zipIdx_iff_le_and_getElem?_sub.1 hmem
    obtain ⟨cs, hcs, rfl⟩ : ∃ cs, (source.toList.splitOn '\n')[i - 1]? = some cs ∧
        String.ofList cs = piece := by simpa using hpiece
    have hstands : StandsAt source i (String.ofList cs) :=
      standsAt_iff.2 ⟨i - 1, by omega, by rw [hcs, String.toList_ofList]⟩
    exact ⟨String.ofList cs, hstands, htext, ofPiece_of_notMem hstands.1 i⟩
  · rintro ⟨piece, hstands, htext, hl⟩
    obtain ⟨i, hi, hpiece⟩ := standsAt_iff.1 hstands
    have hl' : ofPiece l.number piece = l := (ofPiece_of_notMem hstands.1 _).trans hl.symm
    refine ⟨⟨(piece, 1 + i), ?_, ?_⟩, ?_⟩
    · rw [List.mk_add_mem_zipIdx_iff_getElem?, List.getElem?_map, hpiece, Option.map_some,
        String.ofList_toList]
    · rw [← hl', hi, Int.add_comm]
      rfl
    · rw [hl]
      exact htext

/-! ## Texts put together -/

theorem collect_eq (pieces : List String) : collect pieces =
    ((pieces.zipIdx 1).map fun entry => ofPiece entry.2 entry.1).filter (·.text ≠ "") := rfl

/-- Lines of two lists of pieces are those of the first and, counted on, those of the second. -/
theorem collect_append (pieces others : List String) :
    collect (pieces ++ others) = collect pieces ++ (collect others).map (shift pieces.length) := by
  have hmoved : ((others.zipIdx (1 + pieces.length)).map fun entry => ofPiece entry.2 entry.1) =
      ((others.zipIdx 1).map fun entry => ofPiece entry.2 entry.1).map (shift pieces.length) := by
    rw [List.zipIdx_eq_map_add, List.zipIdx_eq_map_add (i := 1), List.map_map, List.map_map,
      List.map_map]
    apply List.map_congr_left
    intro entry _
    simp [shift, ofPiece, Int.add_comm, Int.add_left_comm]
  have hkept (lines : List Line) : (lines.map (shift pieces.length)).filter (·.text ≠ "") =
      (lines.filter (·.text ≠ "")).map (shift pieces.length) := List.filter_map
  rw [collect_eq, List.zipIdx_append, List.map_append, List.filter_append, hmoved, hkept,
    ← collect_eq, ← collect_eq]

theorem ofSource_append_newline (a b : String) :
    ofSource (a ++ "\n" ++ b) =
      ofSource a ++ (ofSource b).map (shift (1 + a.toList.count '\n')) := by
  have htext : (a ++ "\n" ++ b).toList = a.toList ++ '\n' :: b.toList := by simp
  rw [ofSource, htext, List.splitOn_append_cons_self, List.map_append, collect_append,
    List.length_map, length_splitOn_newline, Nat.add_comm]
  rfl

theorem ofSource_of_unbroken (h : '\n' ∉ source.toList) : ofSource source =
    if clean source = "" then [] else [⟨1, clean source, withoutReturns source⟩] := by
  rw [ofSource, List.splitOn_eq_singleton h, collect, ← ofPiece_of_notMem h]
  by_cases hclean : clean source = "" <;> simp [hclean]

/-- **Lines are found where they stand.** A line feed between two texts puts their lines together,
the second text counted on from the first; and each line of a text is the piece with its number, if
that piece says something. -/
theorem ofSource_places :
    (∀ a b : String, ofSource (a ++ "\n" ++ b) =
      ofSource a ++ (ofSource b).map (shift (1 + a.toList.count '\n'))) ∧
    ∀ source : String, Places source (ofSource source) := by
  refine ⟨ofSource_append_newline, fun source => ?_⟩
  refine ⟨pairwise_number_ofSource source, exists_standsAt_iff source,
    fun number piece other h hother => h.eq hother, ?_, ?_, ofSource_of_unbroken⟩
  · intro number
    rw [List.mem_map]
    constructor
    · rintro ⟨l, hl, rfl⟩
      obtain ⟨piece, hstands, hclean, -⟩ := mem_ofSource_iff.1 hl
      exact ⟨piece, hstands, hclean⟩
    · rintro ⟨piece, hstands, hclean⟩
      exact ⟨⟨number, clean piece, withoutReturns piece⟩,
        mem_ofSource_iff.2 ⟨piece, hstands, hclean, rfl⟩, rfl⟩
  · intro l hl piece hstands
    obtain ⟨piece', hstands', -, heq⟩ := mem_ofSource_iff.1 hl
    rwa [hstands'.eq hstands] at heq

-- A form feed, a line separator and a carriage return inside a line start no new line.
example : ofSource "@1\x0cD\r=A\u2028;\r\r\n\n //\n@2" =
    [⟨1, "@1D=A;", "@1\x0cD\r=A\u2028;"⟩, ⟨4, "@2", "@2"⟩] := by decide

end Line
end HackAssembler
