import HackAssembler.Text.Utf8

/-!
# Decoding undoes encoding

A text that was written as bytes is read back as it was. A character is written as one to four
bytes; the reader is followed through them, from the lead byte, which tells how many bytes are to
come, to the last one. The tighter bounds on the second byte never turn a written character down:
no character is a surrogate, and each is written with as few bytes as it takes.
-/

namespace HackAssembler.Text.Utf8

/-! ## Steps of the reader -/

section Step
variable {position : Nat} {done : List Char} {p : Pending} {b : UInt8}

theorem toNat_ofNat {n : Nat} (h : n < 256) : (UInt8.ofNat n).toNat = n :=
  UInt8.toNat_ofNat_of_lt' h

/-- A lead byte opens a character. -/
theorem decodeFrom_lead (h : Pending.ofLead? position b = some p) (bs : List UInt8) :
    decodeFrom position done none (b :: bs) = decodeFrom (position + 1) done (some p) bs := by
  have hlead : ¬b.toNat < 0x80 := by
    intro hlt
    rw [Pending.ofLead?, if_pos (by omega)] at h
    cases h
  rw [decodeFrom, if_neg hlead, h]

/-- A continuation byte adds six bits. -/
theorem decodeFrom_next {n : Nat} (hn : n < 64) (hb : p.low ≤ n + 128 ∧ n + 128 ≤ p.high)
    (hneeded : p.needed ≠ 1) (bs : List UInt8) :
    decodeFrom position done (some p) (UInt8.ofNat (n + 128) :: bs) =
      decodeFrom (position + 1) done (some ⟨p.position, p.lead, p.read + 1, p.needed - 1, 0x80, 0xBF,
        p.value * 64 + n⟩) bs := by
  have hbyte : (UInt8.ofNat (n + 128)).toNat = n + 128 := toNat_ofNat (by omega)
  rw [decodeFrom, hbyte, if_pos hb, if_neg hneeded, Nat.add_sub_cancel]

/-- The last continuation byte completes the character. -/
theorem decodeFrom_last {n : Nat} (hn : n < 64) (hb : p.low ≤ n + 128 ∧ n + 128 ≤ p.high)
    (hneeded : p.needed = 1) (bs : List UInt8) :
    decodeFrom position done (some p) (UInt8.ofNat (n + 128) :: bs) =
      decodeFrom (position + 1) (Char.ofNat (p.value * 64 + n) :: done) none bs := by
  have hbyte : (UInt8.ofNat (n + 128)).toNat = n + 128 := toNat_ofNat (by omega)
  rw [decodeFrom, hbyte, if_pos hb, if_pos hneeded, Nat.add_sub_cancel]

end Step

/-! ## Characters of one to four bytes -/

section Character
variable (position : Nat) (done : List Char) (bs : List UInt8) {v : Nat}

theorem decodeFrom_one (hhigh : v ≤ 0x7F) :
    decodeFrom position done none (UInt8.ofNat v :: bs) =
      decodeFrom (position + 1) (Char.ofNat v :: done) none bs := by
  have hbyte : (UInt8.ofNat v).toNat = v := toNat_ofNat (by omega)
  rw [decodeFrom, hbyte, if_pos (by omega)]

theorem decodeFrom_two (hlow : 0x7F < v) (hhigh : v ≤ 0x7FF) :
    decodeFrom position done none
        (UInt8.ofNat (v / 64 % 32 + 192) :: UInt8.ofNat (v % 64 + 128) :: bs) =
      decodeFrom (position + 2) (Char.ofNat v :: done) none bs := by
  have hbyte : (UInt8.ofNat (v / 64 % 32 + 192)).toNat = v / 64 + 192 := by
    rw [toNat_ofNat (by omega)]
    omega
  generalize UInt8.ofNat (v / 64 % 32 + 192) = lead at hbyte
  have hlead : Pending.ofLead? position lead =
      some ⟨position, lead, 1, 1, 0x80, 0xBF, v / 64⟩ := by
    rw [Pending.ofLead?, hbyte, if_neg (by omega), if_pos (by omega), Nat.add_sub_cancel]
  have hvalue : v / 64 * 64 + v % 64 = v := by omega
  rw [decodeFrom_lead hlead, decodeFrom_last (by omega) (by simp only; omega) rfl, hvalue]

theorem decodeFrom_three (hlow : 0x7FF < v) (hhigh : v ≤ 0xFFFF) (hvalid : v.isValidChar) :
    decodeFrom position done none (UInt8.ofNat (v / 4096 % 16 + 224) ::
        UInt8.ofNat (v / 64 % 64 + 128) :: UInt8.ofNat (v % 64 + 128) :: bs) =
      decodeFrom (position + 3) (Char.ofNat v :: done) none bs := by
  have hbyte : (UInt8.ofNat (v / 4096 % 16 + 224)).toNat = v / 4096 + 224 := by
    rw [toNat_ofNat (by omega)]
    omega
  generalize UInt8.ofNat (v / 4096 % 16 + 224) = lead at hbyte
  obtain ⟨low, high, hlead, hsecond⟩ : ∃ low high,
      Pending.ofLead? position lead = some ⟨position, lead, 1, 2, low, high, v / 4096⟩ ∧
        low ≤ v / 64 % 64 + 128 ∧ v / 64 % 64 + 128 ≤ high := by
    rw [Pending.ofLead?, hbyte, if_neg (by omega), if_neg (by omega), if_pos (by omega),
      Nat.add_sub_cancel]
    refine ⟨_, _, rfl, ?_⟩
    -- E0 would start something shorter, and ED is followed by no surrogate.
    rcases hvalid with hbelow | habove <;> constructor <;> split <;> omega
  have hvalue : (v / 4096 * 64 + v / 64 % 64) * 64 + v % 64 = v := by omega
  rw [decodeFrom_lead hlead, decodeFrom_next (by omega) hsecond (by simp),
    decodeFrom_last (by omega) (by simp only; omega) rfl, hvalue]

theorem decodeFrom_four (hlow : 0xFFFF < v) (hvalid : v.isValidChar) :
    decodeFrom position done none (UInt8.ofNat (v / 262144 % 8 + 240) ::
        UInt8.ofNat (v / 4096 % 64 + 128) :: UInt8.ofNat (v / 64 % 64 + 128) ::
        UInt8.ofNat (v % 64 + 128) :: bs) =
      decodeFrom (position + 4) (Char.ofNat v :: done) none bs := by
  have hbound : v < 0x110000 := by
    rcases hvalid with hbelow | habove <;> omega
  have hbyte : (UInt8.ofNat (v / 262144 % 8 + 240)).toNat = v / 262144 + 240 := by
    rw [toNat_ofNat (by omega)]
    omega
  generalize UInt8.ofNat (v / 262144 % 8 + 240) = lead at hbyte
  obtain ⟨low, high, hlead, hsecond⟩ : ∃ low high,
      Pending.ofLead? position lead = some ⟨position, lead, 1, 3, low, high, v / 262144⟩ ∧
        low ≤ v / 4096 % 64 + 128 ∧ v / 4096 % 64 + 128 ≤ high := by
    rw [Pending.ofLead?, hbyte, if_neg (by omega), if_neg (by omega), if_neg (by omega),
      if_pos (by omega), Nat.add_sub_cancel]
    refine ⟨_, _, rfl, ?_⟩
    -- F0 would start something shorter, and F4 is followed by nothing above U+10FFFF.
    constructor <;> split <;> omega
  have hvalue : ((v / 262144 * 64 + v / 4096 % 64) * 64 + v / 64 % 64) * 64 + v % 64 = v := by omega
  rw [decodeFrom_lead hlead, decodeFrom_next (by omega) hsecond (by simp),
    decodeFrom_next (by omega) (by simp only; omega) (by simp),
    decodeFrom_last (by omega) (by simp only; omega) rfl, hvalue]

/-- **A written character is read back**, whatever follows it. -/
theorem decodeFrom_utf8EncodeChar (c : Char) :
    decodeFrom position done none (String.utf8EncodeChar c ++ bs) =
      decodeFrom (position + (String.utf8EncodeChar c).length) (c :: done) none bs := by
  have hvalid : c.val.toNat.isValidChar := c.valid
  have hchar : Char.ofNat c.val.toNat = c := c.ofNat_toNat
  rw [String.utf8EncodeChar]
  generalize c.val.toNat = v at hvalid hchar
  split
  case isTrue hone => simpa [hchar] using decodeFrom_one position done bs hone
  case isFalse hone =>
    split
    case isTrue htwo => simpa [hchar] using decodeFrom_two position done bs (by omega) htwo
    case isFalse htwo =>
      split
      case isTrue hthree =>
        simpa [hchar] using decodeFrom_three position done bs (by omega) hthree hvalid
      case isFalse hthree =>
        simpa [hchar] using decodeFrom_four position done bs (by omega) hvalid

end Character

/-! ## Texts -/

theorem decodeFrom_encode (cs : List Char) (position : Nat) (done : List Char) :
    decodeFrom position done none (encode cs) = .ok (done.reverse ++ cs) := by
  induction cs generalizing position done with
  | nil => simp [encode, decodeFrom]
  | cons c cs ih =>
    have hencode : encode (c :: cs) = String.utf8EncodeChar c ++ encode cs := rfl
    rw [hencode, decodeFrom_utf8EncodeChar, ih]
    simp

/-- **Decoding undoes encoding.** -/
theorem decode_encode (cs : List Char) : decode (encode cs) = .ok cs := by
  rw [decode, decodeFrom_encode]
  rfl

end HackAssembler.Text.Utf8
