import OnePage.Proofs.Delivery

/-! # Resumption

A reply goes out over any number of calls to `Response.send`. The socket takes as much of it as it
likes each time, any operation may fail, and others may change the file between any two
operations. What is out at any time is the beginning of the header and then of the page, each byte
of the page as it was in the file when it was sent (`Response.Traced`), and a call to send on
tells with its result how far the reply is (`Transmission.Resumed`). -/

namespace OnePage

namespace Operation

/-- The part of the page that an operation has put on the socket. -/
def carried : Operation → List UInt8
  | .sendfile _ _ (.ok data) => data
  | _ => []

/-- Where an operation reads in the file. -/
def offset : Operation → Nat
  | .sendfile offset .. => offset
  | _ => 0

end Operation

/-- What has been done for a reply, each operation with the files as they were then. -/
abbrev Dispatches := List (Files × Operation)

namespace Dispatches

def emitted (log : Dispatches) : List UInt8 := log.flatMap fun entry => entry.2.written

/-- What of the page is out. -/
def page (log : Dispatches) : List UInt8 := log.flatMap fun entry => entry.2.carried

@[simp] theorem emitted_append (log more : Dispatches) :
    emitted (log ++ more) = log.emitted ++ emitted more := List.flatMap_append

@[simp] theorem page_append (log more : Dispatches) :
    page (log ++ more) = log.page ++ page more := List.flatMap_append

@[simp] theorem emitted_singleton (files : Files) (op : Operation) :
    emitted [(files, op)] = op.written := List.append_nil _

@[simp] theorem page_singleton (files : Files) (op : Operation) :
    page [(files, op)] = op.carried := List.append_nil _

end Dispatches

namespace Response

/-- What a reply of `length` bytes may ask of the socket after `before`: the rest of the header,
or, once that is out, a part of the page that begins where the last one ended. -/
def Fits (length : Nat) (before : Dispatches) : Operation → Prop
  | .send asked _ =>
    before.page = [] ∧ 0 < asked ∧ before.emitted.length + asked = header.length
  | .sendfile offset asked _ =>
    before.emitted = header ++ before.page ∧ offset = before.page.length ∧
      0 < asked ∧ asked ≤ chunk ∧ offset + asked ≤ length
  | _ => False

/-- Byte `i` of the page has been sent, by a `sendfile` that found this byte in the file. -/
def Carried (file : FileId) (log : Dispatches) (i : Nat) : Prop :=
  ∃ before files offset asked data,
    before ++ [(files, .sendfile offset asked (.ok data))] <+: log ∧
    offset ≤ i ∧ i < offset + data.length ∧
    i < ((files.content? file).getD .empty).size ∧
    log.page[i]? = ((files.content? file).getD .empty).bytes[i]?

/-- How far a reply is that was `start` before all that was done for it. -/
structure Traced (start : Response) (log : Dispatches) (r : Response) : Prop where
  file : r.file = start.file
  length : r.length = start.length
  regular : r.Regular
  emitted : log.emitted = header.take r.headerSent ++ log.page
  page : log.page.length = r.sent
  carried : ∀ i < r.sent, Carried start.file log i
  fits : ∀ before files op, before ++ [(files, op)] <+: log → Fits start.length before op

/-! ## One operation -/

variable {start r r' : Response} {log : Dispatches} {files : Files} {op : Operation}
variable {page : Nat → Content} {ops last : List Operation} {result : Except SendError Progress}

theorem Traced.nil {path : String} (H : ofPath files path = .ok start) :
    Traced start [] start := by
  obtain ⟨-, -, hh, hs⟩ := ofPath_spec H
  exact {
    file := rfl
    length := rfl
    regular := ofPath_regular H
    emitted := by rw [hh]; rfl
    page := hs.symm
    carried := fun i h => absurd (hs ▸ h) (Nat.not_lt_zero i)
    fits := by simp }

theorem Carried.append {file : FileId} {i : Nat} (h : Carried file log i) (more : Dispatches) :
    Carried file (log ++ more) i := by
  obtain ⟨before, files, offset, asked, data, hp, hle, hlt, hi, he⟩ := h
  refine ⟨before, files, offset, asked, data, hp.trans (List.prefix_append ..), hle, hlt, hi, ?_⟩
  have : i < log.page.length := by
    have hget := List.getElem?_eq_getElem (l := ((files.content? file).getD .empty).bytes)
      (by rw [Content.length_bytes]; exact hi)
    rw [← he] at hget
    exact (List.getElem?_eq_some_iff.1 hget).1
  rw [Dispatches.page_append, List.getElem?_append_left this, he]

/-- All that is asked of the socket fits, whatever comes of it. -/
theorem Traced.fits_header (H : Traced start log r) (hh : r.headerSent < header.length)
    (result : Except Errno (List UInt8)) :
    Fits start.length log (.send (header.length - r.headerSent) result) := by
  have hpage : log.page = [] := List.eq_nil_of_length_eq_zero <| H.page.trans <|
    Nat.eq_zero_of_not_pos fun h => by
      have := H.regular.header_first h
      omega
  refine ⟨hpage, by omega, ?_⟩
  rw [H.emitted, hpage, List.append_nil, List.length_take]
  omega

theorem Traced.fits_body (H : Traced start log r) (hh : header.length ≤ r.headerSent)
    (hs : r.sent < r.length) (result : Except Errno (List UInt8)) :
    Fits start.length log (.sendfile r.sent r.request result) := by
  refine ⟨by rw [H.emitted, List.take_of_length_le hh], H.page.symm, ?_⟩
  have := H.length
  simp only [request, chunk]
  omega

theorem Traced.fits_snoc (H : Traced start log r) (hf : Fits start.length log op) :
    ∀ before files' op', before ++ [(files', op')] <+: log ++ [(files, op)] →
      Fits start.length before op' := by
  intro before files' op' h
  rcases List.prefix_concat_iff.1 h with h | h
  · obtain ⟨hbefore, hop⟩ := List.append_inj' h rfl
    cases hop
    exact hbefore ▸ hf
  · exact H.fits before files' op' h

/-- After an operation that puts nothing on the socket all is as before. -/
theorem Traced.idle (H : Traced start log r) (hw : op.written = []) (hc : op.carried = [])
    (hf : Fits start.length log op) : Traced start (log ++ [(files, op)]) r where
  file := H.file
  length := H.length
  regular := H.regular
  emitted := by simp [H.emitted, hw, hc]
  page := by simp [H.page, hc]
  carried i h := (H.carried i h).append _
  fits := H.fits_snoc hf

/-- The bytes that a `sendfile` puts behind the others are those of the file. -/
theorem Carried.sendfile {file : FileId} {data : List UInt8} {i asked : Nat}
    (hdata : data =
      (((files.content? file).getD .empty).bytes.drop log.page.length).take data.length)
    (hge : log.page.length ≤ i) (hlt : i < log.page.length + data.length) :
    Carried file (log ++ [(files, .sendfile log.page.length asked (.ok data))]) i := by
  have hi : i < ((files.content? file).getD .empty).size := by
    have hlength := congrArg List.length hdata
    rw [List.length_take, List.length_drop, Content.length_bytes] at hlength
    omega
  refine ⟨log, files, _, asked, data, List.prefix_rfl, hge, hlt, hi, ?_⟩
  rw [Dispatches.page_append, List.getElem?_append_right hge, Dispatches.page_singleton,
    Operation.carried, hdata, List.getElem?_take_of_lt (by omega), List.getElem?_drop,
    Nat.add_sub_cancel' hge]

theorem Traced.advance (H : Traced start log r) (h : Advances page r op r')
    (hpage : page op.offset = (files.content? start.file).getD .empty) :
    Traced start (log ++ [(files, op)]) r' := by
  cases h with
  | @header n hn hle =>
    obtain ⟨hsent, hr'⟩ := H.regular.addHeader hn hle
    have hnil : log.page = [] := List.eq_nil_of_length_eq_zero (H.page.trans hsent)
    exact {
      file := H.file
      length := H.length
      regular := hr'
      emitted := by
        simp only [Dispatches.emitted_append, Dispatches.page_append, H.emitted, hnil]
        simp [Operation.written, Operation.carried, List.take_add]
      page := by simp [H.page, Operation.carried]
      carried := fun i hi => (H.carried i hi).append _
      fits := H.fits_snoc (H.fits_header (by omega) _) }
  | @body data hh hs ho hn hdata hle =>
    rw [show page r.sent = _ from hpage] at hdata
    exact {
      file := H.file
      length := H.length
      regular := H.regular.addBody hh hs hle
      emitted := by simp [H.emitted, Operation.written, Operation.carried]
      page := by simp [H.page, Operation.carried]
      carried := fun i hi => by
        by_cases hlt : i < r.sent
        · exact (H.carried i hlt).append _
        rw [← H.page] at hdata hi hlt ⊢
        exact .sendfile hdata (by omega) hi
      fits := H.fits_snoc (H.fits_body hh hs _) }

/-! ## One call -/

theorem Regular.isComplete_iff (hr : r.Regular) :
    r.IsComplete ↔ r.headerSent = header.length ∧ r.sent = r.length :=
  and_congr ⟨Nat.le_antisymm hr.header_le, Nat.le_of_eq ∘ Eq.symm⟩
    ⟨Nat.le_antisymm hr.sent_le, Nat.le_of_eq ∘ Eq.symm⟩

theorem Proceeds.not_blocked (Hp : Proceeds page r ops r') : ∀ op ∈ ops, op.isBlocked = false := by
  induction Hp with
  | nil => simp
  | cons h _ ih => exact List.forall_mem_cons.2 ⟨by cases h <;> rfl, ih⟩

/-- The operation that is blocked, if one is, is the last of a call. -/
theorem Proceeds.last_blocked_iff (Hp : Proceeds page r ops r') (hlast : last.length ≤ 1) :
    (∃ op ∈ (ops ++ last).getLast?, op.isBlocked) ↔ ∃ op ∈ last, op.isBlocked := by
  match last, hlast with
  | [], _ =>
    rw [List.append_nil]
    refine iff_of_false ?_ (by simp)
    rintro ⟨op, hop, hb⟩
    rw [Hp.not_blocked op (List.mem_of_getLast? hop)] at hb
    contradiction
  | [op], _ => simp

/-- Every operation that takes a reply further has put a byte on the socket. -/
theorem Proceeds.length_le (Hp : Proceeds page r ops r') :
    ops.length ≤ (ops.flatMap Operation.written).length := by
  induction Hp with
  | nil => exact Nat.le_refl _
  | @cons _ _ _ op _ h _ ih =>
    have hpos : 0 < op.written.length := by
      cases h with
      | header hn hle => simpa only [Operation.written, length_headerPart hle] using hn
      | body _ _ _ hn => exact List.length_pos_iff.2 hn
    simp only [List.length_cons, List.flatMap_cons, List.length_append]
    omega

/-- Nothing takes a reply further that is all out. -/
theorem Proceeds.eq_nil (Hp : Proceeds page r ops r') (hr : r.IsComplete) : ops = [] ∧ r' = r := by
  cases Hp with
  | nil => exact ⟨rfl, rfl⟩
  | cons h =>
    cases h with
    | header hn hle => exact absurd hr.1 (by omega)
    | body _ hs => exact absurd hr.2 (Nat.not_le_of_lt hs)

theorem Stops.eq_nil (Hs : Stops r last result) (hr : r.IsComplete) : last = [] := by
  cases Hs with
  | headerStopped hh | headerClosed hh => exact absurd hr.1 (Nat.not_le_of_lt hh)
  | bodyStopped _ hs | shrank _ hs => exact absurd hr.2 (Nat.not_le_of_lt hs)
  | _ => rfl

theorem Stops.complete_iff (Hs : Stops r last result) :
    result = .ok .complete ↔ r.IsComplete := by
  constructor
  · rintro rfl
    generalize hresult : (.ok .complete : Except SendError Progress) = result at Hs
    cases Hs with
    | complete hh hs => exact ⟨hh, hs⟩
    | headerStopped | bodyStopped => split at hresult <;> cases hresult
    | _ => cases hresult
  · rintro ⟨hh, hs⟩
    cases Hs with
    | complete => rfl
    | headerStopped hh' | headerClosed hh' => exact absurd hh (Nat.not_le_of_lt hh')
    | tooLarge _ hs' | bodyStopped _ hs' | shrank _ hs' => exact absurd hs (Nat.not_le_of_lt hs')

theorem Stops.blocked_iff (Hs : Stops r last result) :
    result = .ok .blocked ↔ ∃ op ∈ last, op.isBlocked := by
  cases Hs with
  | @headerStopped e | @bodyStopped e => cases e <;> simp [Operation.isBlocked]
  | _ => simp [Operation.isBlocked]

theorem Stops.ne_tooLarge (Hs : Stops r last result) (hl : r.length < offsetLimit) :
    result ≠ .error .tooLarge := by
  rintro rfl
  generalize hresult : (.error .tooLarge : Except SendError Progress) = result at Hs
  cases Hs with
  | tooLarge _ hs ho => omega
  | headerStopped | bodyStopped => split at hresult <;> cases hresult
  | _ => cases hresult

theorem Stops.length_le (Hs : Stops r last result) : last.length ≤ 1 := by
  cases Hs <;> simp

theorem Stops.written (Hs : Stops r last result) : last.flatMap Operation.written = [] := by
  cases Hs <;> rfl

end Response

/-- A call to send on: the files as they are when the page is read from an offset, and the results
that the socket has yet to give. -/
structure Resumption where
  files : Nat → Files
  pending : Pending

/-- The operations of a call, each with the files as they are then. -/
def Resumption.dispatches (call : Resumption) (ops : List Operation) : Dispatches :=
  ops.map fun op => (call.files op.offset, op)

namespace Response
variable {start r r' : Response} {log : Dispatches}
variable {ops last : List Operation} {result : Except SendError Progress} {call : Resumption}

theorem Traced.proceeds (H : Traced start log r) (Hp : Proceeds (r.page call.files) r ops r') :
    Traced start (log ++ call.dispatches ops) r' := by
  generalize hpage : r.page call.files = page at Hp
  have hfile : ∀ offset,
      page offset = ((call.files offset).content? start.file).getD .empty := by
    rw [← hpage, ← H.file]
    exact fun _ => rfl
  clear hpage
  induction Hp generalizing log with
  | nil => simpa [Resumption.dispatches] using H
  | @cons r _ _ op ops h _ ih =>
    rw [← List.singleton_append, Resumption.dispatches, List.map_append, ← List.append_assoc]
    exact ih (H.advance h (hfile _))

theorem Traced.stops (H : Traced start log r) (Hs : Stops r last result) :
    Traced start (log ++ call.dispatches last) r := by
  cases Hs with
  | complete | tooLarge => simpa [Resumption.dispatches] using H
  | headerStopped hh | headerClosed hh => exact H.idle rfl rfl (H.fits_header hh _)
  | bodyStopped hh hs | shrank hh hs => exact H.idle rfl rfl (H.fits_body hh hs _)

end Response

/-- A reply on its way, with the totals and all that has been done for it. -/
structure Transmission where
  response : Response
  stats : Stats
  log : Dispatches

namespace Transmission
open Response

/-- What a call to send on comes to. -/
def outcome (t : Transmission) (call : Resumption) :
    (Except SendError Progress × Response) × Exchange :=
  t.response.sendAmid call.files ⟨call.pending, #[], t.stats⟩

def result (t : Transmission) (call : Resumption) : Except SendError Progress :=
  (t.outcome call).1.1

/-- What a call does with the socket. -/
def operations (t : Transmission) (call : Resumption) : List Operation :=
  (t.outcome call).2.done.toList

def resume (t : Transmission) (call : Resumption) : Transmission where
  response := (t.outcome call).1.2
  stats := (t.outcome call).2.stats
  log := t.log ++ call.dispatches (t.operations call)

def resumeAll (t : Transmission) (calls : List Resumption) : Transmission := calls.foldl resume t

/-- A reply that is to be sent, for which nothing has been done yet. -/
def begin (r : Response) (stats : Stats) : Transmission := ⟨r, stats, []⟩

theorem resume_spec (t : Transmission) (call : Resumption) :
    ∃ ops last, t.operations call = ops ++ last ∧
      Proceeds (t.response.page call.files) t.response ops (t.resume call).response ∧
      Stops (t.resume call).response last (t.result call) ∧
      (t.resume call).stats = t.stats.addSent (ops.flatMap Operation.written).length := by
  obtain ⟨result, r', x', hx, ops, last, hdone, Hp, Hs, hstats⟩ :=
    t.response.sendAmid_transmits call.files ⟨call.pending, #[], t.stats⟩
  have houtcome : t.outcome call = ((result, r'), x') := hx
  refine ⟨ops, last, ?_, ?_, ?_, ?_⟩
  · rw [operations, houtcome, hdone]
    simp
  · rwa [resume, houtcome]
  · rwa [resume, Transmission.result, houtcome]
  · rwa [resume, houtcome]

/-- What a call to send on tells and does. -/
structure Resumed (t : Transmission) (call : Resumption) : Prop where
  /-- A call during which the files stay as they are is one to `Response.send`. -/
  steady : ∀ files, (∀ offset, call.files offset = files) →
    t.outcome call = t.response.send files ⟨call.pending, #[], t.stats⟩
  complete : t.result call = .ok .complete ↔
    (t.resume call).response.headerSent = header.length ∧
      (t.resume call).response.sent = t.response.length
  blocked : t.result call = .ok .blocked ↔
    ∃ op ∈ (t.operations call).getLast?, op.isBlocked
  ne_tooLarge : t.result call ≠ .error .tooLarge
  /-- The totals grow by what the call has put on the socket, also where it fails. -/
  counted : (t.resume call).stats =
    t.stats.addSent ((t.operations call).flatMap Operation.written).length
  length_le : (t.operations call).length ≤
    ((t.operations call).flatMap Operation.written).length + 1
  /-- When all is out, a call does nothing. -/
  idle : t.response.headerSent = header.length ∧ t.response.sent = t.response.length →
    t.result call = .ok .complete ∧ t.operations call = [] ∧ t.resume call = t

variable {start : Response} {stats : Stats} {t : Transmission} {call : Resumption}

theorem traced_resume (H : Traced start t.log t.response) :
    Traced start (t.resume call).log (t.resume call).response := by
  obtain ⟨ops, last, hops, Hp, Hs, -⟩ := t.resume_spec call
  rw [resume, hops, Resumption.dispatches, List.map_append, ← List.append_assoc]
  exact (H.proceeds Hp).stops Hs

theorem written_operations (t : Transmission) (call : Resumption) :
    (call.dispatches (t.operations call)).emitted =
      (t.operations call).flatMap Operation.written := by
  rw [Dispatches.emitted, Resumption.dispatches, List.flatMap_map]

theorem resumed (H : Traced start t.log t.response) (hl : start.length < offsetLimit) :
    Resumed t call := by
  obtain ⟨ops, last, hops, Hp, Hs, hstats⟩ := t.resume_spec call
  have H' := (traced_resume H : Traced start (t.resume call).log _)
  have hlength : (t.resume call).response.length = t.response.length :=
    H'.length.trans H.length.symm
  have hwritten :
      (t.operations call).flatMap Operation.written = ops.flatMap Operation.written := by
    rw [hops, List.flatMap_append, Hs.written, List.append_nil]
  refine {
    steady := ?_, complete := ?_, blocked := ?_
    ne_tooLarge := Hs.ne_tooLarge (H'.length ▸ hl)
    counted := by rw [hstats, hwritten]
    length_le := ?_, idle := ?_ }
  · intro files hfiles
    rw [outcome, funext hfiles, sendAmid_const]
  · rw [Hs.complete_iff, H'.regular.isComplete_iff, hlength]
  · rw [Hs.blocked_iff, hops, Hp.last_blocked_iff Hs.length_le]
  · rw [hwritten, hops, List.length_append]
    exact Nat.add_le_add Hp.length_le Hs.length_le
  · intro hr
    have hr := H.regular.isComplete_iff.2 hr
    obtain ⟨rfl, hr'⟩ := Hp.eq_nil hr
    rw [← hr'] at hr
    have hnil : t.operations call = [] := by rw [hops, Hs.eq_nil hr, List.append_nil]
    refine ⟨Hs.complete_iff.2 hr, hnil, ?_⟩
    have hlog : (t.resume call).log = t.log := by
      rw [resume, hnil]
      exact List.append_nil _
    calc t.resume call
      _ = ⟨(t.resume call).response, (t.resume call).stats, (t.resume call).log⟩ := rfl
      _ = t := by rw [hr', hstats, hlog]; rfl

/-- How far a reply is after some calls, and how the totals have grown since it was begun. -/
theorem traced_resumeAll (calls : List Resumption)
    (H : Traced start t.log t.response) (hstats : t.stats = stats.addSent t.log.emitted.length)
    (hl : start.length < offsetLimit) :
    Traced start (t.resumeAll calls).log (t.resumeAll calls).response ∧
      (t.resumeAll calls).stats = stats.addSent (t.resumeAll calls).log.emitted.length := by
  induction calls generalizing t with
  | nil => exact ⟨H, hstats⟩
  | cons call calls ih =>
    refine ih (traced_resume H) ?_
    rw [(resumed H hl).counted, hstats, Stats.addSent_addSent, ← written_operations, resume,
      Dispatches.emitted_append, List.length_append]

end Transmission

open Transmission

/-- **A reply is exact, however it goes out.** It is begun on a file and sent in any number of
calls; the socket takes what it likes each time or fails, and the file changes at any time. After
each call the bytes that are out are the beginning of the header and then, once all of the header
is out, the beginning of the page, every byte of it as the `sendfile` that carried it found it in
the file. Nothing is asked for past the size that the file had at first, the totals count what is
out, and the result of each call tells whether the reply is complete or the socket is full. -/
theorem reply_exact {files : Files} {path : String} {r : Response}
    (H : Response.ofPath files path = .ok r) (hl : r.length < Response.offsetLimit) (stats : Stats)
    (calls : List Resumption) :
    Response.Traced r ((begin r stats).resumeAll calls).log
        ((begin r stats).resumeAll calls).response ∧
      ((begin r stats).resumeAll calls).stats =
        stats.addSent ((begin r stats).resumeAll calls).log.emitted.length ∧
      ∀ call, Resumed ((begin r stats).resumeAll calls) call := by
  obtain ⟨HT, hstats⟩ :=
    traced_resumeAll (t := begin r stats) calls (.nil H) rfl hl
  exact ⟨HT, hstats, fun call => resumed HT hl⟩

/-- A page of three bytes, that a longer one takes the place of after its first byte is sent. -/
def Files.paged (text : String) : Files := Files.initial.change (.write "page" (Text.bytes text))

def Response.opened : Response := { file := 6, headerSent := 0, length := 3, sent := 0 }

/-- The first call does not get to the end of the header. -/
def Resumption.halting : List Resumption :=
  [{ files := fun _ => .paged "one", pending := { send := [.ok 40, .error .EAGAIN] } },
    { files := fun offset => .paged (if offset = 0 then "one" else "two and more")
      pending := { sendfile := [.ok 1] } }]

theorem reply_exact_halting :
    Response.ofPath (.paged "one") "page" = .ok .opened ∧
      ((begin .opened {}).resumeAll Resumption.halting).log.page = Text.bytes "owo" ∧
      Response.Traced .opened ((begin .opened {}).resumeAll Resumption.halting).log
        ((begin .opened {}).resumeAll Resumption.halting).response := by
  have H : Response.ofPath (.paged "one") "page" = .ok .opened := by rfl
  exact ⟨H, by decide +kernel, (reply_exact H (by decide) {} Resumption.halting).1⟩

end OnePage
