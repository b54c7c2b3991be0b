/-!
# Line ends

In a file a line may end with a line feed, with a carriage return, or with both in this
order. Once read, every line ends with a single line feed.
-/

namespace HackAssembler.Text

/-- Makes the three kinds of line end one; `done` holds the text so far, backwards. -/
def unifyNewlinesFrom (done : List Char) : List Char → List Char
  | [] => done.reverse
  | '\r' :: '\n' :: cs => unifyNewlinesFrom ('\n' :: done) cs
  | c :: cs => unifyNewlinesFrom ((if c = '\r' then '\n' else c) :: done) cs

/-- Every carriage return, together with a line feed right after it, becomes one line feed. -/
def unifyNewlines (cs : List Char) : List Char := unifyNewlinesFrom [] cs

end HackAssembler.Text
