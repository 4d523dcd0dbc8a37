import OnePage.Log.Access

/-! # Lines of the access log

A line tells five things of a connection (`Log.Entry`). What a peer has sent stands between the
only two quotes of the line, and nothing in it is a control character or outside ASCII, so the five
can be read off the line (`Entry.Sound.split`) and different entries have different lines
(`Entry.Sound.line_injective`). -/

namespace OnePage

/-! ## Splitting and joining -/

namespace Text
variable {α : Type} {separates : α → Bool} {as : List α}

theorem split_eq_singleton (h : ∀ a ∈ as, separates a = false) : split separates as = [as] := by
  induction as with
  | nil => rfl
  | cons a as ih =>
    obtain ⟨ha, h⟩ := List.forall_mem_cons.1 h
    simp [split, ha, ih h]

theorem split_append_cons (h : ∀ a ∈ as, separates a = false) {s : α} (hs : separates s)
    (bs : List α) : split separates (as ++ s :: bs) = as :: split separates bs := by
  induction as with
  | nil => exact split_cons_of_separates hs bs
  | cons a as ih =>
    obtain ⟨ha, h⟩ := List.forall_mem_cons.1 h
    simp [split, ha, ih h]

/-- A token is not empty and holds nothing that separates. -/
theorem of_mem_tokens {token : List α} (h : token ∈ tokens separates as) :
    token ≠ [] ∧ ∀ a ∈ token, separates a = false := by
  obtain ⟨hmem, hne⟩ := List.mem_filter.1 h
  exact ⟨by simpa using hne, fun a ha => not_separator_of_mem_split hmem ha⟩

end Text

/-- What is taken for the three parts of a request line. -/
theorem Request.of_parse {request : List UInt8} {line : RequestLine}
    (h : parse request = .ok line) : ∀ token ∈ [line.method, line.uri, line.version],
      token ≠ [] ∧ ∀ b ∈ token, isSeparator b = false := by
  have hmem : ∀ token ∈ [line.method, line.uri, line.version],
      token ∈ Text.tokens isSeparator (firstLine request) := by
    unfold parse at h
    split at h <;> cases h
    rename_i method uri version rest htokens
    rw [htokens]
    simp
  exact fun token ht => Text.of_mem_tokens (hmem token ht)

theorem Status.code_injective {status status' : Status} (h : status.code = status'.code) :
    status = status' := by
  cases status <;> cases status' <;> first | rfl | cases h

namespace Net.IPv4

theorem toList_text (ip : IPv4) : ip.text.toList =
    Nat.toDigits 10 ip.a.toNat ++ '.' :: (Nat.toDigits 10 ip.b.toNat ++ '.' ::
      (Nat.toDigits 10 ip.c.toNat ++ '.' :: Nat.toDigits 10 ip.d.toNat)) := by
  simp [text, String.toList_append]

end Net.IPv4

namespace Log

/-! ## Characters -/

/-- Whether a character is one of ASCII that is no control character. -/
def Printable (c : Char) : Prop := 0x20 ≤ c.toNat ∧ c.toNat ≤ 0x7E

/-- Whether a character can stand between quotes. -/
def Quotable (c : Char) : Prop := Printable c ∧ c ≠ '"'

instance (c : Char) : Decidable (Printable c) :=
  inferInstanceAs (Decidable (0x20 ≤ c.toNat ∧ c.toNat ≤ 0x7E))

instance (c : Char) : Decidable (Quotable c) :=
  inferInstanceAs (Decidable (Printable c ∧ c ≠ '"'))

/-- The characters of a text are tried one by one. -/
theorem forall_quotable {text : List Char} (h : text.all fun c => decide (Quotable c)) :
    ∀ c ∈ text, Quotable c := by
  simpa using h

theorem quotable_of_isDigit {c : Char} (h : c.isDigit) : Quotable c ∧ c ≠ ' ' ∧ c ≠ '.' := by
  have hc : 48 ≤ c.toNat ∧ c.toNat ≤ 57 := by
    simpa [Char.isDigit, UInt32.le_iff_toNat_le] using h
  refine ⟨⟨⟨by omega, by omega⟩, ?_⟩, ?_, ?_⟩ <;> rintro rfl <;> simp at hc

theorem quotable_toDigits (n : Nat) :
    ∀ c ∈ Nat.toDigits 10 n, Quotable c ∧ c ≠ ' ' ∧ c ≠ '.' := fun _ hc =>
  quotable_of_isDigit (Nat.isDigit_of_mem_toDigits (by decide) (Nat.le_refl _) hc)

/-- A number is read off its digits. -/
theorem toDigits_injective {m n : Nat} (h : Nat.toDigits 10 m = Nat.toDigits 10 n) : m = n := by
  rw [← Nat.ofDigitChars_toDigits (n := m) (by decide : 1 < 10) (Nat.le_refl _), h,
    Nat.ofDigitChars_toDigits (by decide) (Nat.le_refl _)]

theorem quotable_text (ip : Net.IPv4) : ∀ c ∈ ip.text.toList, Quotable c ∧ c ≠ ' ' := by
  have hdigits (n : Nat) : ∀ c ∈ Nat.toDigits 10 n, Quotable c ∧ c ≠ ' ' := fun c hc =>
    ⟨(quotable_toDigits n c hc).1, (quotable_toDigits n c hc).2.1⟩
  have hdot : Quotable '.' ∧ '.' ≠ ' ' := by decide
  rw [ip.toList_text]
  refine List.forall_mem_append.2 ⟨hdigits _, List.forall_mem_cons.2 ⟨hdot, ?_⟩⟩
  refine List.forall_mem_append.2 ⟨hdigits _, List.forall_mem_cons.2 ⟨hdot, ?_⟩⟩
  exact List.forall_mem_append.2 ⟨hdigits _, List.forall_mem_cons.2 ⟨hdot, hdigits _⟩⟩

/-- The four numbers of an address are what its text has between the dots. -/
theorem split_text (ip : Net.IPv4) : Text.split (· == '.') ip.text.toList =
    [Nat.toDigits 10 ip.a.toNat, Nat.toDigits 10 ip.b.toNat, Nat.toDigits 10 ip.c.toNat,
      Nat.toDigits 10 ip.d.toNat] := by
  have hdigits (n : Nat) : ∀ c ∈ Nat.toDigits 10 n, (c == '.') = false := fun c hc => by
    simpa using (quotable_toDigits n c hc).2.2
  rw [ip.toList_text, Text.split_append_cons (hdigits _) rfl,
    Text.split_append_cons (hdigits _) rfl, Text.split_append_cons (hdigits _) rfl,
    Text.split_eq_singleton (hdigits _)]

theorem text_injective {ip ip' : Net.IPv4} (h : ip.text.toList = ip'.text.toList) : ip = ip' := by
  have hsplit := congrArg (Text.split (· == '.')) h
  simp only [split_text, List.cons.injEq, and_true] at hsplit
  obtain ⟨ha, hb, hc, hd⟩ := hsplit
  cases ip
  cases ip'
  simp only [Net.IPv4.mk.injEq]
  exact ⟨UInt8.toNat_inj.1 (toDigits_injective ha), UInt8.toNat_inj.1 (toDigits_injective hb),
    UInt8.toNat_inj.1 (toDigits_injective hc), UInt8.toNat_inj.1 (toDigits_injective hd)⟩

/-! ## Encoded bytes -/

theorem hexDigit_quotable : ∀ n < 16, Quotable (hexDigit n) ∧ hexDigit n ≠ ' ' := by decide

theorem toNat_ofNat_byte (b : UInt8) : (Char.ofNat b.toNat).toNat = b.toNat := by
  have hb := b.toNat_lt
  have hvalid : b.toNat.isValidChar := .inl (by omega)
  unfold Char.ofNat
  rw [dif_pos hvalid]
  rfl

/-- Of what a byte is written as, only a space is written as one. -/
theorem encodeByte_quotable (b : UInt8) :
    ∀ c ∈ encodeByte b, Quotable c ∧ (c = ' ' → b = 0x20) := by
  have hb := b.toNat_lt
  unfold encodeByte
  split
  · have hhigh := hexDigit_quotable (b.toNat / 16) (by omega)
    have hlow := hexDigit_quotable (b.toNat % 16) (by omega)
    have hpercent : Quotable '%' := by decide
    simp only [List.forall_mem_cons, List.not_mem_nil, false_implies, implies_true, and_true]
    have hne : '%' ≠ ' ' := by decide
    exact ⟨⟨hpercent, fun h => absurd h hne⟩, ⟨hhigh.1, fun h => absurd h hhigh.2⟩,
      hlow.1, fun h => absurd h hlow.2⟩
  · rename_i hescape
    simp only [needsEscape, Bool.or_eq_true, decide_eq_true_eq, beq_iff_eq, not_or,
      UInt8.lt_iff_toNat_lt, UInt8.le_iff_toNat_le, ge_iff_le, Nat.not_lt, Nat.not_le] at hescape
    obtain ⟨⟨hlow, hhigh⟩, hquote⟩ := hescape
    have hchar := toNat_ofNat_byte b
    have hlow : 0x20 ≤ b.toNat := hlow
    have hhigh : b.toNat < 0x7F := hhigh
    refine List.forall_mem_singleton.2 ⟨⟨⟨by omega, by omega⟩, fun h => hquote ?_⟩, fun h => ?_⟩
    · rw [h] at hchar
      exact UInt8.toNat_inj.1 hchar.symm
    · rw [h] at hchar
      exact UInt8.toNat_inj.1 hchar.symm

theorem encodeByte_ne_nil (b : UInt8) : encodeByte b ≠ [] := by
  unfold encodeByte
  split <;> exact List.cons_ne_nil _ _

theorem encode_quotable (bytes : List UInt8) : ∀ c ∈ encode bytes, Quotable c := fun c hc => by
  obtain ⟨b, -, hb⟩ := List.mem_flatMap.1 hc
  exact (encodeByte_quotable b c hb).1

theorem encode_ne_nil {bytes : List UInt8} (h : bytes ≠ []) : encode bytes ≠ [] := by
  cases bytes with
  | nil => exact absurd rfl h
  | cons b bytes => simp [encodeByte_ne_nil]

/-- A token of the request line is written without a space. -/
theorem encode_no_space {bytes : List UInt8} (h : ∀ b ∈ bytes, Request.isSeparator b = false) :
    ∀ c ∈ encode bytes, (c == ' ') = false := fun c hc => by
  obtain ⟨b, hb, hc⟩ := List.mem_flatMap.1 hc
  refine beq_eq_false_iff_ne.2 fun he => ?_
  have hsep := h b hb
  rw [(encodeByte_quotable b c hc).2 he] at hsep
  cases hsep

/-! ## Dates -/

theorem padded_quotable (width n : Nat) : ∀ c ∈ padded width n, Quotable c := by
  have hzero : Quotable '0' := by decide
  refine List.forall_mem_append.2 ⟨fun c hc => ?_, fun c hc => (quotable_toDigits n c hc).1⟩
  rwa [List.eq_of_mem_replicate hc]

theorem year_quotable (y : Int) : ∀ c ∈ year y, Quotable c := by
  have hsign : Quotable (if y < 0 then '-' else '+') := by split <;> decide
  unfold year
  split
  · exact padded_quotable _ _
  · exact List.forall_mem_cons.2 ⟨hsign, padded_quotable _ _⟩

theorem monthName_quotable (month : Nat) : ∀ c ∈ (Date.monthName month).toList, Quotable c := by
  unfold Date.monthName
  split <;> exact forall_quotable (by decide)

theorem zone_quotable (seconds : Int) : ∀ c ∈ zone seconds, Quotable c := by
  have hsign : Quotable (if seconds < 0 then '-' else '+') := by split <;> decide
  exact List.forall_mem_cons.2
    ⟨hsign, List.forall_mem_append.2 ⟨padded_quotable _ _, padded_quotable _ _⟩⟩

theorem stamp_quotable (seconds offset : Int) : ∀ c ∈ stamp seconds offset, Quotable c := by
  have hmark : ∀ c ∈ ['[', ']', '/', ':', ' '], Quotable c :=
    forall_quotable (by decide)
  simp only [stamp, List.forall_mem_append, List.forall_mem_singleton]
  simp only [List.forall_mem_cons, List.not_mem_nil, false_implies, implies_true,
    and_true] at hmark
  obtain ⟨hopen, hclose, hslash, hcolon, hspace⟩ := hmark
  simp only [hopen, hclose, hslash, hcolon, hspace, true_and, and_true]
  exact ⟨⟨⟨⟨⟨⟨padded_quotable _ _, monthName_quotable _⟩, year_quotable _⟩,
    padded_quotable _ _⟩, padded_quotable _ _⟩, padded_quotable _ _⟩, zone_quotable _⟩

/-! ## Entries -/

/-- What a line of the access log tells. -/
structure Entry where
  ip : Net.IPv4
  date : String
  request : String
  status : Status
  bytes : Nat
  deriving DecidableEq, Repr

namespace Entry

def line (e : Entry) : String :=
  e.ip.text ++ " - - " ++ e.date ++ " \"" ++ e.request ++ "\" " ++ toString e.status.code ++ " " ++
    toString e.bytes

/-- The line up to the quotes, between them, and after them. -/
def parts (e : Entry) : List (List Char) :=
  [e.ip.text.toList ++ " - - ".toList ++ e.date.toList ++ [' '], e.request.toList,
    [' '] ++ Nat.toDigits 10 e.status.code ++ [' '] ++ Nat.toDigits 10 e.bytes]

/-- Whether nothing in the date and the request can be taken for the end of a quotation, or for
that of the line. -/
structure Sound (e : Entry) : Prop where
  date : ∀ c ∈ e.date.toList, Quotable c
  request : ∀ c ∈ e.request.toList, Quotable c

theorem toList_line (e : Entry) : e.line.toList =
    (e.ip.text.toList ++ " - - ".toList ++ e.date.toList ++ [' ']) ++ '"' ::
      (e.request.toList ++ '"' ::
        ([' '] ++ Nat.toDigits 10 e.status.code ++ [' '] ++ Nat.toDigits 10 e.bytes)) := by
  simp [line, String.toList_append]

/-- A line begins with a number. -/
theorem isDigit_head (e : Entry) : ∃ c ∈ e.line.toList.head?, c.isDigit := by
  obtain ⟨c, cs, hc⟩ := List.exists_cons_of_ne_nil
    (Nat.toDigits_ne_nil (n := e.ip.a.toNat) (b := 10))
  refine ⟨c, by simp [toList_line, Net.IPv4.toList_text, hc], ?_⟩
  exact Nat.isDigit_of_mem_toDigits (n := e.ip.a.toNat) (by decide) (Nat.le_refl 10) (by simp [hc])

namespace Sound
variable {e e' : Entry}

theorem quotable_parts (H : e.Sound) : ∀ part ∈ e.parts, ∀ c ∈ part, Quotable c := by
  have hspace : Quotable ' ' := by decide
  have hdashes : ∀ c ∈ " - - ".toList, Quotable c := forall_quotable (by decide)
  simp only [parts, List.forall_mem_cons, List.not_mem_nil, false_implies, implies_true, and_true,
    List.forall_mem_append]
  exact ⟨⟨⟨⟨fun c hc => (quotable_text e.ip c hc).1, hdashes⟩, H.date⟩, hspace⟩, H.request,
    ⟨⟨hspace, fun c hc => (quotable_toDigits _ c hc).1⟩, hspace⟩,
    fun c hc => (quotable_toDigits _ c hc).1⟩

/-- The line is cut at its quotes into what was put together. -/
theorem split (H : e.Sound) : Text.split (· == '"') e.line.toList = e.parts := by
  have hparts : ∀ part ∈ e.parts, ∀ c ∈ part, (c == '"') = false := fun part hpart c hc =>
    beq_eq_false_iff_ne.2 (H.quotable_parts part hpart c hc).2
  simp only [parts, List.forall_mem_cons, List.not_mem_nil, false_implies, implies_true,
    and_true] at hparts
  obtain ⟨hbefore, hrequest, hafter⟩ := hparts
  rw [toList_line, Text.split_append_cons hbefore rfl, Text.split_append_cons hrequest rfl,
    Text.split_eq_singleton hafter, parts]

theorem printable (H : e.Sound) : ∀ c ∈ e.line.toList, Printable c := by
  have hquote : Printable '"' := by decide
  have hparts := H.quotable_parts
  simp only [parts, List.forall_mem_cons, List.not_mem_nil, false_implies, implies_true,
    and_true] at hparts
  obtain ⟨hbefore, hrequest, hafter⟩ := hparts
  rw [toList_line]
  exact List.forall_mem_append.2 ⟨fun c hc => (hbefore c hc).1, List.forall_mem_cons.2 ⟨hquote,
    List.forall_mem_append.2 ⟨fun c hc => (hrequest c hc).1, List.forall_mem_cons.2 ⟨hquote,
      fun c hc => (hafter c hc).1⟩⟩⟩⟩

theorem count_quote (H : e.Sound) : e.line.toList.count '"' = 2 := by
  have hlength := Text.length_split (· == '"') e.line.toList
  rw [H.split] at hlength
  simpa [parts, List.count] using hlength.symm

/-- What is written between quotes never keeps a line from the system's log. -/
theorem no_nul (H : e.Sound) : e.line.toList.contains (Char.ofNat 0) = false := by
  refine Bool.eq_false_iff.2 fun h => ?_
  have hnul := (H.printable _ (List.contains_iff_mem.1 h)).1
  exact absurd hnul (by decide)

/-- Different entries have different lines. -/
theorem line_injective (H : e.Sound) (H' : e'.Sound) (h : e.line = e'.line) : e = e' := by
  have hparts : e.parts = e'.parts := by rw [← H.split, h, H'.split]
  simp only [parts, List.cons.injEq, and_true] at hparts
  obtain ⟨hbefore, hrequest, hafter⟩ := hparts
  have hspaces {cs : List Char} (h : ∀ c ∈ cs, Quotable c ∧ c ≠ ' ') :
      ∀ c ∈ cs, (c == ' ') = false := fun c hc => beq_eq_false_iff_ne.2 (h c hc).2
  have hdigits (n : Nat) : ∀ c ∈ Nat.toDigits 10 n, Quotable c ∧ c ≠ ' ' := fun c hc =>
    ⟨(quotable_toDigits n c hc).1, (quotable_toDigits n c hc).2.1⟩
  -- the address goes as far as the first space
  have hip : e.ip = e'.ip := by
    have hsplit := congrArg (Text.split (· == ' ')) hbefore
    have hdashes : " - - ".toList = ' ' :: "- - ".toList := by decide
    simp only [hdashes, List.append_assoc, List.cons_append] at hsplit
    rw [Text.split_append_cons (hspaces (quotable_text _)) rfl,
      Text.split_append_cons (hspaces (quotable_text _)) rfl] at hsplit
    exact text_injective (List.cons.inj hsplit).1
  have hdate : e.date = e'.date := by
    rw [hip] at hbefore
    exact String.toList_inj.1 (List.append_cancel_left (List.append_cancel_right hbefore))
  have hnumbers := congrArg (Text.split (· == ' ')) hafter
  simp only [List.append_assoc, List.cons_append, List.nil_append] at hnumbers
  rw [Text.split_cons_of_separates rfl, Text.split_cons_of_separates rfl,
    Text.split_append_cons (hspaces (hdigits _)) rfl,
    Text.split_append_cons (hspaces (hdigits _)) rfl, Text.split_eq_singleton (hspaces (hdigits _)),
    Text.split_eq_singleton (hspaces (hdigits _))] at hnumbers
  simp only [List.cons.injEq, true_and, and_true] at hnumbers
  obtain ⟨hcode, hbytes⟩ := hnumbers
  have hstatus := Status.code_injective (toDigits_injective hcode)
  have hsent := toDigits_injective hbytes
  cases e
  cases e'
  simp_all [String.toList_inj]

end Sound

end Entry

/-! ## Entries of connections -/

/-- The entry for a connection that is closed `seconds` after the start of 1970, if it has one. -/
def entryOf? (c : Connection) (seconds zone : Int) : Option Entry := do
  let status ← c.status
  let request ← c.requestLine
  return ⟨c.peer.ip, String.ofList (stamp seconds zone), request, status, c.bytesSent⟩

theorem entryOf?_eq_some {c : Connection} {seconds zone : Int} {e : Entry} :
    entryOf? c seconds zone = some e ↔ c.status = some e.status ∧ c.requestLine = some e.request ∧
      e.ip = c.peer.ip ∧ e.date = String.ofList (stamp seconds zone) ∧ e.bytes = c.bytesSent := by
  unfold entryOf?
  cases c.status with
  | none => simp
  | some status =>
    cases c.requestLine with
    | none => simp
    | some request =>
      cases e
      simp only [Option.bind_eq_bind, Option.bind_some, Option.pure_def, Option.some.injEq,
        Entry.mk.injEq]
      exact ⟨fun ⟨hip, hdate, hrequest, hstatus, hbytes⟩ =>
          ⟨hstatus, hrequest, hip.symm, hdate.symm, hbytes.symm⟩,
        fun ⟨hstatus, hrequest, hip, hdate, hbytes⟩ =>
          ⟨hip.symm, hdate.symm, hrequest, hstatus, hbytes.symm⟩⟩

theorem accessLine_eq (c : Connection) (seconds zone : Int) :
    accessLine c seconds zone = (entryOf? c seconds zone).map Entry.line := by
  cases hs : c.status <;> cases hr : c.requestLine <;>
    simp [accessLine, entryOf?, hs, hr, Entry.line]

/-- A request line as it is written is quotable, and has a space between its three parts alone. -/
theorem logRequest_quotable (line : RequestLine) :
    ∀ c ∈ (Connection.logRequest line).toList, Quotable c := by
  have hspace : Quotable ' ' := by decide
  simp only [Connection.logRequest, String.toList_ofList, List.forall_mem_append,
    List.forall_mem_singleton]
  exact ⟨⟨⟨⟨encode_quotable _, hspace⟩, encode_quotable _⟩, hspace⟩, encode_quotable _⟩

theorem logRejected_quotable {received : List UInt8} {request : String}
    (h : Connection.logRejected received = some request) : ∀ c ∈ request.toList, Quotable c := by
  obtain ⟨cs, -, rfl⟩ := Option.map_eq_some_iff.1 h
  rw [String.toList_ofList]
  exact encode_quotable _

theorem split_logRequest {request : List UInt8} {line : RequestLine}
    (h : Request.parse request = .ok line) :
    Text.split (· == ' ') (Connection.logRequest line).toList =
      [encode line.method, encode line.uri, encode line.version] ∧
    encode line.method ≠ [] ∧ encode line.uri ≠ [] ∧ encode line.version ≠ [] := by
  have htokens := Request.of_parse h
  simp only [List.forall_mem_cons, List.not_mem_nil, false_implies, implies_true,
    and_true] at htokens
  obtain ⟨hmethod, huri, hversion⟩ := htokens
  refine ⟨?_, encode_ne_nil hmethod.1, encode_ne_nil huri.1, encode_ne_nil hversion.1⟩
  simp only [Connection.logRequest, String.toList_ofList, List.append_assoc, List.cons_append,
    List.nil_append]
  rw [Text.split_append_cons (encode_no_space hmethod.2) rfl,
    Text.split_append_cons (encode_no_space huri.2) rfl,
    Text.split_eq_singleton (encode_no_space hversion.2)]

end Log

end OnePage
