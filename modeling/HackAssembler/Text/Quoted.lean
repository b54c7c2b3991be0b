import HackAssembler.Text.Printable

/-!
# Quoted text

Names and paths are shown in quotes, so that their ends and any invisible character can be
seen. Single quotes are used unless the text holds one and no double quote.
-/

namespace HackAssembler.Text.Quoted

/-- The quote that goes around the text. -/
def mark (cs : List Char) : Char :=
  if cs.contains '\'' && !cs.contains '"' then '"' else '\''

/-- The number in lower-case hexadecimal, with zeros in front up to the width. -/
def hex (width n : Nat) : List Char := (Nat.toDigits 16 n).leftpad width '0'

/-- A character by its code point, in the shortest of the three forms that holds it. -/
def codePoint (c : Char) : List Char :=
  if c.toNat < 0x100 then '\\' :: 'x' :: hex 2 c.toNat
  else if c.toNat < 0x10000 then '\\' :: 'u' :: hex 4 c.toNat
  else '\\' :: 'U' :: hex 8 c.toNat

/-- One character inside quotes. -/
def escape (quote c : Char) : List Char :=
  if c = quote || c = '\\' then ['\\', c]
  else if c = '\n' then ['\\', 'n']
  else if c = '\r' then ['\\', 'r']
  else if c = '\t' then ['\\', 't']
  else if isPrintable c then [c]
  else codePoint c

/-- The text in quotes. -/
def render (s : String) : String :=
  let cs := s.toList
  let quote := mark cs
  String.ofList (quote :: cs.flatMap (escape quote) ++ [quote])

end HackAssembler.Text.Quoted
