import HackAssembler.Text.CodeRange

/-!
# Blank characters

Blanks carry no meaning in a source line. The class is the white space of Unicode together
with the four separators U+001C to U+001F; the zero width space U+200B, the byte order mark
U+FEFF and U+180E are not in it.
-/

namespace HackAssembler.Text

/-- The blank characters, in ascending order. -/
def blankRanges : List CodeRange :=
  [⟨0x09, 0x0D⟩, ⟨0x1C, 0x20⟩, ⟨0x85, 0x85⟩, ⟨0xA0, 0xA0⟩, ⟨0x1680, 0x1680⟩,
    ⟨0x2000, 0x200A⟩, ⟨0x2028, 0x2029⟩, ⟨0x202F, 0x202F⟩, ⟨0x205F, 0x205F⟩, ⟨0x3000, 0x3000⟩]

/-- A blank may be dropped from a line without changing what the line says. -/
def isBlank (c : Char) : Bool := inRanges blankRanges c

/-- The text without any of its blanks. -/
def dropBlanks (cs : List Char) : List Char := cs.filter fun c => !isBlank c

@[simp] theorem dropBlanks_nil : dropBlanks [] = [] := rfl

@[simp] theorem dropBlanks_append (a b : List Char) :
    dropBlanks (a ++ b) = dropBlanks a ++ dropBlanks b := by simp [dropBlanks]

/-- No blank is left in the result. -/
theorem isBlank_of_mem_dropBlanks {c : Char} {cs : List Char} (h : c ∈ dropBlanks cs) :
    isBlank c = false := by simpa using (List.mem_filter.1 h).2

/-- The text without the characters of a class at its end. -/
def trimEnd (p : Char → Bool) (cs : List Char) : List Char :=
  (cs.reverse.dropWhile p).reverse

/-- The text without the blanks around it; blanks inside it stay. -/
def trim (cs : List Char) : List Char := trimEnd isBlank (cs.dropWhile isBlank)

end HackAssembler.Text
