import HackAssembler.Text.Blank

/-!
# Source lines

A source text is cut into lines at line feeds and nowhere else. A comment runs from the first
`//` to the end of its line, and blanks mean nothing, so a line is kept as the text without
either, next to its number and the line as it was written. Lines with nothing left are dropped
after they have been counted.
-/

namespace HackAssembler

/-- A line that says something. -/
structure Line where
  /-- The position in the source, from 1 on. -/
  number : Int
  /-- What the line says: no comment, no blanks. -/
  text : String
  /-- The line as it was written, without its line end. -/
  raw : String
deriving DecidableEq, Repr, Inhabited

namespace Line

/-! ## One line -/

/-- Reads up to the first `//`; `seen` holds what was read so far, backwards. -/
def beforeCommentFrom (seen : List Char) : List Char → List Char
  | [] => seen.reverse
  | '/' :: '/' :: _ => seen.reverse
  | c :: cs => beforeCommentFrom (c :: seen) cs

/-- The part of a line before its comment. -/
def beforeComment (cs : List Char) : List Char := beforeCommentFrom [] cs

theorem beforeCommentFrom_eq (seen cs : List Char) :
    beforeCommentFrom seen cs = seen.reverse ++ beforeComment cs := by
  induction cs generalizing seen with
  | nil => simp [beforeComment, beforeCommentFrom]
  | cons c cs ih =>
    unfold beforeComment
    by_cases h : ∃ rest, c = '/' ∧ cs = '/' :: rest
    · obtain ⟨rest, rfl, rfl⟩ := h
      simp [beforeCommentFrom]
    · have step (s : List Char) :
          beforeCommentFrom s (c :: cs) = beforeCommentFrom (c :: s) cs := by
        rw [beforeCommentFrom]
        intro rest hc hcs
        exact h ⟨rest, hc, hcs⟩
      rw [step, step, ih, ih [c]]
      simp

@[simp] theorem beforeComment_nil : beforeComment [] = [] := rfl

@[simp] theorem beforeComment_slash_slash (cs : List Char) :
    beforeComment ('/' :: '/' :: cs) = [] := rfl

/-- A character that does not open a comment is kept. -/
theorem beforeComment_cons {c : Char} {cs : List Char}
    (h : c = '/' → cs.head? ≠ some '/') :
    beforeComment (c :: cs) = c :: beforeComment cs := by
  have step : beforeCommentFrom [] (c :: cs) = beforeCommentFrom [c] cs := by
    rw [beforeCommentFrom]
    rintro rest rfl rfl
    exact h rfl rfl
  rw [beforeComment, step, beforeCommentFrom_eq]
  rfl

/-- What a line says. The comment goes first, so blanks between two slashes do not make them
a comment. -/
def clean (s : String) : String := String.ofList (Text.dropBlanks (beforeComment s.toList))

@[simp] theorem toList_clean (s : String) :
    (clean s).toList = Text.dropBlanks (beforeComment s.toList) := by simp [clean]

/-- The characters that end a written line. -/
def isLineEnd (c : Char) : Bool := c = '\r' || c = '\n'

/-- The line with a number, as it was written. -/
def ofPiece (number : Int) (piece : String) : Line :=
  ⟨number, clean piece, String.ofList (Text.trimEnd isLineEnd piece.toList)⟩

@[simp] theorem number_ofPiece (n : Int) (s : String) : (ofPiece n s).number = n := rfl
@[simp] theorem text_ofPiece (n : Int) (s : String) : (ofPiece n s).text = clean s := rfl

/-! ## All lines of a source -/

/-- The lines that say something, out of all lines in order. -/
def collect (pieces : List String) : List Line :=
  ((pieces.zipIdx 1).map fun (piece, i) => ofPiece i piece).filter (·.text ≠ "")

/-- The lines of a source text that say something. -/
def ofSource (source : String) : List Line :=
  collect ((source.toList.splitOn '\n').map String.ofList)

theorem text_ne_empty_of_mem_collect {l : Line} {pieces : List String} (h : l ∈ collect pieces) :
    l.text ≠ "" := by simpa using (List.mem_filter.1 h).2

/-- What the lines of a source say, in order. -/
def instructions (source : String) : List String := (ofSource source).map (·.text)

end Line
end HackAssembler
