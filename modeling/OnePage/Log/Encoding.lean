/-! # Bytes in the log

Control bytes, bytes outside ASCII and double quotes are written as `%` and two upper-case digits
of base sixteen, so that what a peer sent can neither end a quotation nor start a line. -/

namespace OnePage.Log

def needsEscape (b : UInt8) : Bool := b < 0x20 || b ≥ 0x7F || b == 0x22

def hexDigit (n : Nat) : Char :=
  if n < 10 then Char.ofNat ('0'.toNat + n) else Char.ofNat ('A'.toNat + (n - 10))

def encodeByte (b : UInt8) : List Char :=
  if needsEscape b then ['%', hexDigit (b.toNat / 16), hexDigit (b.toNat % 16)]
  else [Char.ofNat b.toNat]

def encode (bytes : List UInt8) : List Char := bytes.flatMap encodeByte

@[simp] theorem encode_nil : encode [] = [] := rfl

@[simp] theorem encode_cons (b : UInt8) (bytes : List UInt8) :
    encode (b :: bytes) = encodeByte b ++ encode bytes := rfl

@[simp] theorem encode_append (as bs : List UInt8) :
    encode (as ++ bs) = encode as ++ encode bs := by
  simp [encode]

end OnePage.Log
