import OnePage.Proofs.LogLines

/-! # Reading escapes

A reader of the log puts one byte for each `%` with two digits after it (`decode`). What it gets is
the same whether the bytes were encoded or not (`decode_written`), since neither `%` nor a digit is
ever escaped, and so bytes without a `%` are read back as they were. -/

namespace OnePage.Log

def percent : UInt8 := 0x25

/-- The number that a digit of base sixteen stands for, the letters in upper case. -/
def hexValue? (b : UInt8) : Option Nat :=
  let n := b.toNat
  if 0x30 ≤ n ∧ n ≤ 0x39 then some (n - 0x30)
  else if 0x41 ≤ n ∧ n ≤ 0x46 then some (n - 0x41 + 10)
  else none

/-- The byte that three bytes denote, if they are a `%` and two digits. -/
def escape? (b high low : UInt8) : Option UInt8 :=
  match hexValue? high, hexValue? low with
  | some h, some l => if b = percent then some (UInt8.ofNat (16 * h + l)) else none
  | _, _ => none

/-- Bytes with each `%XX` in them replaced by the byte that it denotes. -/
def decode : List UInt8 → List UInt8
  | b :: high :: low :: rest =>
    match escape? b high low with
    | some c => c :: decode rest
    | none => b :: decode (high :: low :: rest)
  | bytes => bytes

/-- The bytes of the text that is written for some bytes. -/
def written (bytes : List UInt8) : List UInt8 := Text.Utf8.encode (encode bytes)

def startsWithDigit (bytes : List UInt8) : Bool := bytes.head?.any fun b => (hexValue? b).isSome

/-- Whether bytes begin with two digits. -/
def startsWithPair : List UInt8 → Bool
  | [] => false
  | high :: rest => (hexValue? high).isSome && startsWithDigit rest

variable {b c high low : UInt8} {bytes rest : List UInt8}

/-! ## Characters and their bytes -/

theorem utf8_of_quotable {c : Char} (h : Quotable c) :
    String.utf8EncodeChar c = [UInt8.ofNat c.toNat] := by
  have hle : c.val.toNat ≤ 0x7F := Nat.le_succ_of_le h.1.2
  simp only [String.utf8EncodeChar, if_pos hle]
  rfl

theorem toNat_of_quotable {c : Char} (h : Quotable c) : (UInt8.ofNat c.toNat).toNat = c.toNat := by
  have hle := h.1.2
  rw [UInt8.toNat_ofNat', Nat.mod_eq_of_lt (by omega)]

theorem encodeByte_of_quotable {c : Char} (h : Quotable c) :
    encodeByte (UInt8.ofNat c.toNat) = [c] := by
  have hnat := toNat_of_quotable h
  obtain ⟨⟨hlow, hhigh⟩, hquote⟩ := h
  have hkept : needsEscape (UInt8.ofNat c.toNat) = false := by
    simp only [needsEscape, Bool.or_eq_false_iff, decide_eq_false_iff_not, beq_eq_false_iff_ne,
      UInt8.lt_iff_toNat_lt, UInt8.le_iff_toNat_le, ge_iff_le, ne_eq, ← UInt8.toNat_inj, hnat]
    refine ⟨⟨Nat.not_lt.2 hlow, Nat.not_le.2 (Nat.lt_succ_of_le hhigh)⟩, fun h => hquote ?_⟩
    exact Char.toNat_inj.1 h
  simp [encodeByte, hkept, hnat]

/-- Nothing is done to a text that could stand between quotes. -/
theorem encode_of_quotable {cs : List Char} (h : ∀ c ∈ cs, Quotable c) :
    encode (Text.Utf8.encode cs) = cs := by
  induction cs with
  | nil => rfl
  | cons c cs ih =>
    obtain ⟨hc, hcs⟩ := List.forall_mem_cons.1 h
    rw [Text.Utf8.encode, List.flatMap_cons, utf8_of_quotable hc, encode_append, encode_cons,
      encodeByte_of_quotable hc, encode_nil, List.append_nil, ← Text.Utf8.encode, ih hcs]
    rfl

/-! ## Escaped bytes -/

/-- The byte for a digit. -/
def hexByte (n : Nat) : UInt8 := UInt8.ofNat (hexDigit n).toNat

theorem hexValue?_hexByte : ∀ n < 16, hexValue? (hexByte n) = some n := by decide

theorem hexValue?_percent : hexValue? percent = none := by decide

/-- No digit is ever escaped. -/
theorem hexValue?_of_needsEscape (h : needsEscape b) : hexValue? b = none := by
  simp only [needsEscape, Bool.or_eq_true, decide_eq_true_eq, beq_iff_eq, UInt8.lt_iff_toNat_lt,
    UInt8.le_iff_toNat_le, ge_iff_le, ← UInt8.toNat_inj, UInt8.toNat_ofNat] at h
  simp only [hexValue?]
  rw [if_neg (by omega), if_neg (by omega)]

theorem kept_of_hexValue? (h : (hexValue? b).isSome) : needsEscape b = false := by
  refine Bool.eq_false_iff.2 fun hesc => ?_
  simp [hexValue?_of_needsEscape hesc] at h

theorem written_cons_escaped (h : needsEscape b) (bytes : List UInt8) : written (b :: bytes) =
    percent :: hexByte (b.toNat / 16) :: hexByte (b.toNat % 16) :: written bytes := by
  have hb := b.toNat_lt
  have hpercent : Quotable '%' := by decide
  simp only [written, encode_cons, encodeByte, if_pos h, Text.Utf8.encode, List.flatMap_append,
    List.flatMap_cons, List.flatMap_nil, utf8_of_quotable hpercent,
    utf8_of_quotable (hexDigit_quotable (b.toNat / 16) (by omega)).1,
    utf8_of_quotable (hexDigit_quotable (b.toNat % 16) (by omega)).1]
  rfl

theorem written_cons_kept (h : needsEscape b = false) (bytes : List UInt8) :
    written (b :: bytes) = b :: written bytes := by
  have hchar := (encodeByte_quotable b (Char.ofNat b.toNat) (by simp [encodeByte, h])).1
  have hb : UInt8.ofNat (Char.ofNat b.toNat).toNat = b := by rw [toNat_ofNat_byte]; simp
  simp [written, encodeByte, h, Text.Utf8.encode, utf8_of_quotable hchar, hb]

/-! ## Decoding -/

theorem escape?_eq_none_iff (rest : List UInt8) : escape? b high low = none ↔
    (b = percent → startsWithPair (high :: low :: rest) = false) := by
  unfold escape? startsWithPair startsWithDigit
  split
  · rename_i hhigh hlow
    simp [hhigh, hlow]
  · rename_i hnot
    cases hhigh : hexValue? high with
    | none => simp [hhigh]
    | some h =>
      cases hlow : hexValue? low with
      | none => simp [hlow]
      | some l => exact absurd hlow (hnot h l hhigh)

/-- Nothing in an escape is escaped itself. -/
theorem kept_of_escape? (h : escape? b high low = some c) :
    needsEscape b = false ∧ needsEscape high = false ∧ needsEscape low = false := by
  unfold escape? at h
  split at h
  · rename_i hhigh hlow
    split at h
    · rename_i hb
      exact ⟨by rw [hb]; decide, kept_of_hexValue? (by rw [hhigh]; rfl),
        kept_of_hexValue? (by rw [hlow]; rfl)⟩
    · cases h
  · cases h

/-- A byte that no escape starts with stands for itself. -/
theorem decode_cons (h : b = percent → startsWithPair bytes = false) :
    decode (b :: bytes) = b :: decode bytes := by
  match bytes with
  | [] => rfl
  | [_] => rfl
  | high :: low :: rest => simp only [decode, (escape?_eq_none_iff rest).2 h]

theorem decode_escaped (b : UInt8) (rest : List UInt8) :
    decode (percent :: hexByte (b.toNat / 16) :: hexByte (b.toNat % 16) :: rest) =
      b :: decode rest := by
  have hb := b.toNat_lt
  have hvalue : 16 * (b.toNat / 16) + b.toNat % 16 = b.toNat := Nat.div_add_mod _ _
  have hescape : escape? percent (hexByte (b.toNat / 16)) (hexByte (b.toNat % 16)) = some b := by
    simp only [escape?, hexValue?_hexByte (b.toNat / 16) (by omega),
      hexValue?_hexByte (b.toNat % 16) (by omega), if_true, hvalue, UInt8.ofNat_toNat]
  simp only [decode, hescape]

theorem startsWithDigit_written (bytes : List UInt8) :
    startsWithDigit (written bytes) = startsWithDigit bytes := by
  cases bytes with
  | nil => rfl
  | cons b bytes =>
    cases hb : needsEscape b with
    | true =>
      rw [written_cons_escaped hb]
      simp [startsWithDigit, hexValue?_percent, hexValue?_of_needsEscape hb]
    | false =>
      rw [written_cons_kept hb]
      rfl

/-- What is written begins with two digits exactly if they were there before. -/
theorem startsWithPair_written (bytes : List UInt8) :
    startsWithPair (written bytes) = startsWithPair bytes := by
  cases bytes with
  | nil => rfl
  | cons b bytes =>
    cases hb : needsEscape b with
    | true =>
      rw [written_cons_escaped hb]
      simp [startsWithPair, hexValue?_percent, hexValue?_of_needsEscape hb]
    | false =>
      rw [written_cons_kept hb]
      simp [startsWithPair, startsWithDigit_written]

/-- A byte that no escape starts with is read back, whether it is written as one or not. -/
theorem decode_written_cons (h : b = percent → startsWithPair bytes = false) :
    decode (written (b :: bytes)) = b :: decode (written bytes) := by
  cases hb : needsEscape b with
  | true => rw [written_cons_escaped hb, decode_escaped]
  | false =>
    rw [written_cons_kept hb, decode_cons]
    rwa [startsWithPair_written]

/-- For a reader of escapes nothing has been done to the bytes. -/
theorem decode_written (bytes : List UInt8) : decode (written bytes) = decode bytes := by
  fun_induction decode bytes with
  | case1 b high low rest c hc ih =>
    obtain ⟨hb, hhigh, hlow⟩ := kept_of_escape? hc
    rw [written_cons_kept hb, written_cons_kept hhigh, written_cons_kept hlow]
    simp only [decode, hc, ih]
  | case2 b high low rest hc ih =>
    rw [decode_written_cons ((escape?_eq_none_iff rest).1 hc), ih]
  | case3 bytes hshort =>
    match bytes with
    | [] => rfl
    | [b] => exact decode_written_cons fun _ => rfl
    | [b, c] =>
      have hpair : startsWithPair [c] = false := by simp [startsWithPair, startsWithDigit]
      rw [decode_written_cons fun _ => hpair, decode_written_cons fun _ => rfl]
      rfl
    | b :: high :: low :: rest => exact (hshort b high low rest rfl).elim

theorem decode_of_not_mem (h : percent ∉ bytes) : decode bytes = bytes := by
  induction bytes with
  | nil => rfl
  | cons b bytes ih =>
    rw [List.mem_cons, not_or] at h
    rw [decode_cons fun he => absurd he.symm h.1, ih h.2]

/-- **Encoding loses nothing.** Bytes without a `%` are read back from what is written for them, and
a reader of escapes can never tell whether the bytes were encoded. What is written for bytes in a
row is what is written for them one after the other. It is printable, has no quote in it, and is
written again as it is. -/
theorem encoding_loses_nothing (bytes : List UInt8) :
    (percent ∉ bytes → decode (written bytes) = bytes) ∧
    decode (written bytes) = decode bytes ∧
    (∀ more, encode (bytes ++ more) = encode bytes ++ encode more) ∧
    (∀ c ∈ encode bytes, 0x20 ≤ c.toNat ∧ c.toNat ≤ 0x7E ∧ c ≠ '"') ∧
    encode (written bytes) = encode bytes := by
  have hquotable := encode_quotable bytes
  refine ⟨fun h => ?_, decode_written bytes, encode_append bytes, fun c hc => ?_,
    encode_of_quotable hquotable⟩
  · rw [decode_written, decode_of_not_mem h]
  · obtain ⟨⟨hlow, hhigh⟩, hquote⟩ := hquotable c hc
    exact ⟨hlow, hhigh, hquote⟩

/-- A quote, a control character, and bytes outside ASCII. -/
def crab : List UInt8 := Text.bytes "some\"log\tcrab🦀"

theorem encoding_loses_nothing_crab :
    percent ∉ crab ∧ encode crab = "some%22log%09crab%F0%9F%A6%80".toList ∧
    decode (written crab) = crab ∧
    '%' ∈ encode crab ∧ (0x20 ≤ '%'.toNat ∧ '%'.toNat ≤ 0x7E ∧ '%' ≠ '"') :=
  have hnot : percent ∉ crab := by decide
  have hmem : '%' ∈ encode crab := by decide
  ⟨hnot, by decide, (encoding_loses_nothing crab).1 hnot, hmem,
    (encoding_loses_nothing crab).2.2.2.1 '%' hmem⟩

/-- What is lost where there is a `%` already. -/
example : encode (Text.bytes "%22") = encode (Text.bytes "\"") := by decide

end OnePage.Log
