/-!
# Machine words

A program is a list of 16-bit words. A word is written as sixteen digits, the highest bit
first.
-/

namespace HackAssembler

/-- A word of the machine. -/
abbrev Word := BitVec 16

namespace Word

/-- The digit of a bit. -/
def digit (b : Bool) : Char := if b then '1' else '0'

/-- The sixteen digits of a word. -/
def digits (w : Word) : List Char := (List.range 16).map fun i => digit (w.getMsbD i)

@[simp] theorem length_digits (w : Word) : w.digits.length = 16 := by simp [digits]

/-- A word as it is written to a file. -/
def render (w : Word) : String := String.ofList w.digits

@[simp] theorem toList_render (w : Word) : w.render.toList = w.digits := by simp [render]

end Word
end HackAssembler
