/-! # UTF-8

Bytes are read strictly: no overlong form, no surrogate, nothing past `U+10FFFF`. All three are
kept out by the range that the second byte of a character may come from. -/

namespace OnePage.Text

namespace Utf8

def encode (cs : List Char) : List UInt8 := cs.flatMap String.utf8EncodeChar

/-- A character of which some bytes have been read. -/
structure Partial where
  /-- The bits read so far. -/
  value : Nat
  /-- How many bytes are missing. -/
  missing : Nat
  /-- The range that the next byte has to be in. -/
  low : UInt8 := 0x80
  high : UInt8 := 0xBF

/-- What a leading byte tells about its character. -/
def Partial.ofLead? (b : UInt8) : Option Partial :=
  let n := b.toNat
  if b ≤ 0x7F then some { value := n, missing := 0 }
  else if b < 0xC2 then none
  else if b ≤ 0xDF then some { value := n - 0xC0, missing := 1 }
  else if b == 0xE0 then some { value := n - 0xE0, missing := 2, low := 0xA0 }
  else if b == 0xED then some { value := n - 0xE0, missing := 2, high := 0x9F }
  else if b ≤ 0xEF then some { value := n - 0xE0, missing := 2 }
  else if b == 0xF0 then some { value := n - 0xF0, missing := 3, low := 0x90 }
  else if b ≤ 0xF3 then some { value := n - 0xF0, missing := 3 }
  else if b == 0xF4 then some { value := n - 0xF0, missing := 3, high := 0x8F }
  else none

/-- One more byte of the character. -/
def Partial.next? (p : Partial) (b : UInt8) : Option Partial :=
  if p.low ≤ b ∧ b ≤ p.high then
    some { value := p.value * 64 + (b.toNat - 0x80), missing := p.missing - 1 }
  else none

/-- Reads on within a character, or between two where there is none. -/
def decodeFrom : Option Partial → List UInt8 → Option (List Char)
  | none, [] => some []
  | some _, [] => none
  | reading, b :: rest =>
    match reading.elim (Partial.ofLead? b) (Partial.next? · b) with
    | none => none
    | some p =>
      if p.missing = 0 then (decodeFrom none rest).map (Char.ofNat p.value :: ·)
      else decodeFrom (some p) rest

def decode (bytes : List UInt8) : Option (List Char) := decodeFrom none bytes

@[simp] theorem encode_nil : encode [] = [] := rfl

@[simp] theorem encode_append (cs ds : List Char) : encode (cs ++ ds) = encode cs ++ encode ds := by
  simp [encode]

@[simp] theorem decode_nil : decode [] = some [] := rfl

end Utf8

/-- The bytes of a text. -/
def bytes (s : String) : List UInt8 := Utf8.encode s.toList

end OnePage.Text
