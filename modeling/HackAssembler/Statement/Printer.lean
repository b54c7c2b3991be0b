import HackAssembler.Statement

/-!
# Writing statements

A statement as source text. Reading the text of a statement gives the statement back when its
fields hold no blank, no comment mark and none of the characters that end a field.
-/

namespace HackAssembler.Statement

/-- The source text of a statement. A place without a word has none. -/
def render : Statement → String
  | .label name => "(" ++ name ++ ")"
  | .constant value => "@" ++ toString value
  | .symbol name _ => "@" ++ name
  | .compute target computation jump =>
    target.elim "" (· ++ "=") ++ computation ++ jump.elim "" (";" ++ ·)
  | .reserve => ""

end HackAssembler.Statement
