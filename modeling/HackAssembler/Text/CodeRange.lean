/-!
# Ranges of code points

A class of characters is given by a list of closed ranges of code points. The lists are
short enough to be searched from the front; nothing here depends on their order.
-/

namespace HackAssembler.Text

/-- The code points from `first` to `last`, both included. -/
structure CodeRange where
  first : Nat
  last : Nat
deriving DecidableEq, Repr

/-- A character is in a range when its code point lies between the two ends. -/
def CodeRange.holds (r : CodeRange) (c : Char) : Bool :=
  r.first ≤ c.toNat && c.toNat ≤ r.last

@[simp] theorem CodeRange.holds_iff {r : CodeRange} {c : Char} :
    r.holds c = true ↔ r.first ≤ c.toNat ∧ c.toNat ≤ r.last := by
  simp [CodeRange.holds]

/-- A character is in a class when one of the ranges of the class holds it. -/
def inRanges (rs : List CodeRange) (c : Char) : Bool := rs.any (·.holds c)

@[simp] theorem inRanges_iff {rs : List CodeRange} {c : Char} :
    inRanges rs c = true ↔ ∃ r ∈ rs, r.first ≤ c.toNat ∧ c.toNat ≤ r.last := by
  simp [inRanges]

end HackAssembler.Text
