/-!
# UTF-8

Reading and writing text as bytes. Reading is strict: no surrogates, no overlong forms,
nothing above U+10FFFF. A fault tells which bytes are wrong, from the lead byte to the last
continuation byte that was still allowed.
-/

namespace HackAssembler.Text.Utf8

/-- The bytes of a text. -/
def encode (cs : List Char) : List UInt8 := cs.flatMap String.utf8EncodeChar

/-- What is wrong with a piece of the input. -/
inductive Cause where
  /-- The byte can start no character. -/
  | start
  /-- The character is broken off by a byte that cannot continue it. -/
  | continuation
  /-- The input ends within a character. -/
  | ending
deriving DecidableEq, Repr

/-- A wrong piece: `length` bytes from the offset `position` on, the first of them `lead`. -/
structure Fault where
  position : Nat
  length : Nat
  lead : UInt8
  cause : Cause
deriving DecidableEq, Repr

/-- A character of which some bytes have been read: the next byte has to lie between `low` and
`high`, and `needed` bytes are still to come. -/
structure Pending where
  position : Nat
  lead : UInt8
  read : Nat
  needed : Nat
  low : Nat
  high : Nat
  value : Nat
deriving DecidableEq, Repr

/-- What a lead byte of several bytes promises. The tighter bounds on the second byte keep
out overlong forms (after E0 and F0), surrogates (after ED) and what lies above U+10FFFF
(after F4). -/
def Pending.ofLead? (position : Nat) (lead : UInt8) : Option Pending :=
  let b := lead.toNat
  if b < 0xC2 then none
  else if b < 0xE0 then some ⟨position, lead, 1, 1, 0x80, 0xBF, b - 0xC0⟩
  else if b < 0xF0 then
    some ⟨position, lead, 1, 2, if b = 0xE0 then 0xA0 else 0x80, if b = 0xED then 0x9F else 0xBF,
      b - 0xE0⟩
  else if b < 0xF5 then
    some ⟨position, lead, 1, 3, if b = 0xF0 then 0x90 else 0x80, if b = 0xF4 then 0x8F else 0xBF,
      b - 0xF0⟩
  else none

/-- The fault of a character that is broken off. -/
def Pending.fault (p : Pending) (cause : Cause) : Fault := ⟨p.position, p.read, p.lead, cause⟩

/-- Reads the bytes from the offset `position` on; `done` holds the characters so far, the last
one first, and `pending` the character that is being read. -/
def decodeFrom (position : Nat) (done : List Char) :
    Option Pending → List UInt8 → Except Fault (List Char)
  | none, [] => .ok done.reverse
  | some p, [] => .error (p.fault .ending)
  | none, b :: bs =>
    if b.toNat < 0x80 then decodeFrom (position + 1) (Char.ofNat b.toNat :: done) none bs
    else
      match Pending.ofLead? position b with
      | none => .error ⟨position, 1, b, .start⟩
      | some p => decodeFrom (position + 1) done (some p) bs
  | some p, b :: bs =>
    if p.low ≤ b.toNat ∧ b.toNat ≤ p.high then
      let value := p.value * 64 + (b.toNat - 0x80)
      if p.needed = 1 then decodeFrom (position + 1) (Char.ofNat value :: done) none bs
      else
        decodeFrom (position + 1) done
          (some ⟨p.position, p.lead, p.read + 1, p.needed - 1, 0x80, 0xBF, value⟩) bs
    else .error (p.fault .continuation)

/-- The text that the bytes spell. -/
def decode (bytes : List UInt8) : Except Fault (List Char) := decodeFrom 0 [] none bytes

/-- A byte as two digits. -/
def byteText (b : UInt8) : String := String.ofList ((Nat.toDigits 16 b.toNat).leftpad 2 '0')

/-- The reason given to the reader of a report. -/
def Cause.message : Cause → String
  | .start => "invalid start byte"
  | .continuation => "invalid continuation byte"
  | .ending => "unexpected end of data"

/-- Where the fault is and what it is. -/
def Fault.message (f : Fault) : String :=
  let place :=
    if f.length = 1 then "byte 0x" ++ byteText f.lead ++ " in position " ++ toString f.position
    else "bytes in position " ++ toString f.position ++ "-" ++ toString (f.position + f.length - 1)
  "'utf-8' codec can't decode " ++ place ++ ": " ++ f.cause.message

end HackAssembler.Text.Utf8
