/-!
# The length of decimal texts

Numbers are read and told in decimal, and no text of more than `maxDigits` digits is read or
made. A number beyond that can be kept and compared; only telling it fails.
-/

namespace HackAssembler.Text

/-- The most digits a decimal text may have. -/
def maxDigits : Nat := 4300

/-- The least number with more digits. -/
@[irreducible] def firstUnwritable : Nat := Nat.pow 10 maxDigits

/-- The number has a decimal text; its sign is not counted. -/
def Writable (n : Int) : Prop := n.natAbs < firstUnwritable

instance : DecidablePred Writable := fun n =>
  inferInstanceAs (Decidable (n.natAbs < firstUnwritable))

/-- What is said when a number has no decimal text. -/
def unwritableMessage : String :=
  "Exceeds the limit (" ++ toString maxDigits ++ " digits) for integer string conversion; " ++
    "use sys.set_int_max_str_digits() to increase the limit"

/-- The limit is one on the number of digits. -/
theorem writable_iff_length_toDigits (n : Int) :
    Writable n ↔ (Nat.toDigits 10 n.natAbs).length ≤ maxDigits := by
  have hpos : 0 < maxDigits := by decide
  -- With the limit a variable, nothing tries to compute the power.
  unfold Writable firstUnwritable
  generalize maxDigits = m at hpos ⊢
  exact (Nat.length_toDigits_le_iff (by decide) hpos).symm

/-- A number of at most `k` digits is writable as long as `k` is within the limit. -/
theorem Writable.of_lt_pow {n : Int} {k : Nat} (h : n.natAbs < Nat.pow 10 k) (hk : k ≤ maxDigits) :
    Writable n := by
  unfold Writable firstUnwritable
  generalize maxDigits = m at hk ⊢
  exact Nat.lt_of_lt_of_le h (Nat.pow_le_pow_right (by decide) hk)

/-- Every number that a word can hold is writable. -/
theorem Writable.of_lt_slots {n : Int} (h : 0 ≤ n) (h' : n < 65536) : Writable n :=
  .of_lt_pow (k := 5) (Nat.lt_of_lt_of_le (by omega : n.natAbs < 65536) (by decide)) (by decide)

theorem not_writable_firstUnwritable : ¬Writable firstUnwritable := by simp [Writable]

end HackAssembler.Text
