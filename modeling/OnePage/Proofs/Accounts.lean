import Mathlib.Algebra.Ring.Nat
import OnePage.Proofs.Coherence
import OnePage.Proofs.LogLines

/-! # What the log is told

A call that hands a line of the access log to the log is an entry (`Call.IsEntry`). Nothing else
that the server tells is taken for one. The log is given the line whole, and only a file that does
not take all of it is complained of (`LogSink.Takes`). What the line for a connection tells is in
the connection's record, and the record is what the operations on its socket have made of it
(`Connection.Accounts`). -/

namespace OnePage

/-! ## Calls that hand lines to the log -/

/-- Whether a line is handed to the log. -/
def Call.Shows (line : String) : Call → Prop
  | .log severity message _ => severity.label ++ message = line
  | _ => False

/-- Whether a line of the access log is handed to the log. -/
def Call.IsEntry (call : Call) : Prop := ∃ e : Log.Entry, call.Shows e.line

theorem Call.Shows.isMessage {line : String} {call : Call} (H : call.Shows line) :
    call.isMessage := by
  cases call <;> first | rfl | cases H

theorem Call.not_isEntry {call : Call} (h : call.isMessage = false) : ¬ call.IsEntry := by
  rintro ⟨e, he⟩
  rw [he.isMessage] at h
  cases h

namespace LogSink

/-- What becomes of a line of the access log. The standard output or the system's log is given it,
or it is written to the log's file, after what was kept for that before. If the file does not take
all of this there is a complaint, and what is not lost is kept for later. -/
inductive Takes (e : Log.Entry) : LogSink → Call → Prop
  | printed {output : Output} (H : Stream.stdout.Delivers (line .info e.line) output) :
    Takes e .stdout (.log .info e.line [output])
  | reported :
    Takes e .syslog (.log .info e.line [.syslog Severity.info.priority messageFormat e.line])
  | written {id : FileId} (left : List UInt8) :
    Takes e (.file id) (.log .info e.line [.append (left ++ line .info e.line)])
  | kept {id : FileId} {left taken left' : List UInt8} {cause : WriteError} {output : Output}
    (h : (taken ++ left').Sublist (left ++ line .info e.line))
    (H : Stream.stderr.Delivers (Text.bytes (complaint cause.message)) output) :
    Takes e (.file id) (.log .info e.line [.append taken, output])

variable {sink : LogSink} {severity : Severity} {message : String} {call : Call}

/-- No message but a line of the access log begins with a digit. -/
theorem Writes.not_isEntry (H : sink.Writes severity message call)
    (hp : Plain (severity, message)) : ¬ call.IsEntry := by
  obtain ⟨left, outputs, left', -, rfl⟩ := H
  rintro ⟨e, he⟩
  have he : severity.label ++ message = e.line := he
  obtain ⟨c, hc, hdigit⟩ := e.isDigit_head
  rw [← he, String.toList_append] at hc
  cases severity with
  | info => exact absurd (hp rfl c (by simpa [Severity.label] using hc)) (by simp [hdigit])
  | warning | error =>
    simp only [Severity.label] at hc
    simp at hc
    subst hc
    cases hdigit

theorem Tells.not_isEntry {messages : List (Severity × String)} {calls : List Call}
    (H : sink.Tells messages calls) (hp : ∀ message ∈ messages, Plain message) :
    ∀ call ∈ calls, ¬ call.IsEntry := by
  induction H with
  | nil => exact List.forall_mem_nil _
  | cons H _ ih =>
    obtain ⟨hfirst, hp⟩ := List.forall_mem_cons.1 hp
    exact List.forall_mem_cons.2 ⟨H.not_isEntry hfirst, ih hp⟩

/-- The system's log never turns a line of the access log away. -/
theorem Writes.takes {e : Log.Entry} (H : sink.Writes .info e.line call) (he : e.Sound) :
    sink.Takes e call := by
  have hempty : Severity.info.label ++ e.line = e.line := String.empty_append
  obtain ⟨left, outputs, left', H, rfl⟩ := H
  cases H with
  | printed H => exact .printed H
  | reported =>
    rw [hempty]
    exact .reported
  | unreported h =>
    rw [hempty, he.no_nul] at h
    cases h
  | written => exact .written left
  | kept h H => exact .kept h H

end LogSink

/-! ## What a connection has come to -/

/-- The bytes of the page that an operation has sent. -/
def Operation.pageBytes : Operation → Nat
  | .sendfile _ _ (.ok data) => data.length
  | _ => 0

/-- How much of the page has been sent. -/
def pageSent (ops : List Operation) : Nat := (ops.map Operation.pageBytes).sum

/-- Whether the page is opened, and is there. -/
def Operation.opens : Operation → Bool
  | .openPage _ opened => opened
  | _ => false

/-- Whether the refusal is sent. It is told from the header by how long it is
(`Response.header_length_lt`). -/
def Operation.refuses : Operation → Bool
  | .send asked _ => asked == Response.badRequestBytes.length
  | _ => false

/-- Whether the page has been opened. -/
def Opened (ops : List Operation) : Prop := ∃ path, .openPage path true ∈ ops

/-- Whether the refusal has been sent, or tried to. -/
def Refused (ops : List Operation) : Prop :=
  ∃ result, .send Response.badRequestBytes.length result ∈ ops

instance : DecidablePred Opened := fun ops => decidable_of_iff (ops.any Operation.opens) <| by
  refine List.any_eq_true.trans ⟨fun ⟨op, hmem, hop⟩ => ?_, fun ⟨path, hmem⟩ => ⟨_, hmem, rfl⟩⟩
  cases op <;> cases hop
  exact ⟨_, hmem⟩

instance : DecidablePred Refused := fun ops => decidable_of_iff (ops.any Operation.refuses) <| by
  refine List.any_eq_true.trans ⟨fun ⟨op, hmem, hop⟩ => ?_, fun ⟨result, hmem⟩ =>
    ⟨_, hmem, beq_self_eq_true _⟩⟩
  cases op with
  | send asked result => exact ⟨result, eq_of_beq hop ▸ hmem⟩
  | _ => cases hop

section
variable {ops more : List Operation}

@[simp] theorem pageSent_nil : pageSent [] = 0 := rfl

@[simp] theorem pageSent_cons (op : Operation) (ops : List Operation) :
    pageSent (op :: ops) = op.pageBytes + pageSent ops := rfl

@[simp] theorem pageSent_append (ops more : List Operation) :
    pageSent (ops ++ more) = pageSent ops + pageSent more := by
  simp [pageSent]

theorem pageSent_of_transfers_eq_nil (h : transfers ops = []) : pageSent ops = 0 := by
  induction ops with
  | nil => rfl
  | cons op ops ih =>
    cases op with
    | send | sendfile => cases h
    | openPage | recv | takeError => exact (Nat.zero_add _).trans (ih h)

theorem opened_append : Opened (ops ++ more) ↔ Opened ops ∨ Opened more := by
  simp [Opened, exists_or]

theorem refused_append : Refused (ops ++ more) ↔ Refused ops ∨ Refused more := by
  simp [Refused, exists_or]

end

theorem Response.header_length_lt : header.length < badRequestBytes.length := by decide +kernel

namespace Response.Delivers
variable {content : Content} {r r' : Response} {stats stats' : Stats} {ops : List Operation}
variable {result : Except SendError Progress}

theorem pageSent (H : Delivers content r stats ops result r' stats') :
    r'.sent = r.sent + OnePage.pageSent ops := by
  induction H with
  | header _ _ _ ih => exact ih.trans (congrArg _ (Nat.zero_add _).symm)
  | body _ _ _ _ _ _ _ ih => exact ih.trans (Nat.add_assoc ..)
  | _ => rfl

/-- No call that sends the header asks for as much as the refusal has. -/
theorem not_refused (H : Delivers content r stats ops result r' stats') : ¬ Refused ops := by
  have hlt (n : Nat) : Response.badRequestBytes.length ≠ Response.header.length - n := by
    have := Response.header_length_lt
    omega
  rintro ⟨reply, hop⟩
  induction H with
  | complete | tooLarge => cases hop
  | headerStopped | headerClosed | bodyStopped | shrank =>
    simp only [List.mem_singleton, Operation.send.injEq, reduceCtorEq] at hop
    try exact hlt _ hop.1
  | header _ _ _ ih =>
    rcases List.mem_cons.1 hop with hop | hop
    · exact hlt _ (Operation.send.inj hop).1
    · exact ih hop
  | body _ _ _ _ _ _ _ ih =>
    rcases List.mem_cons.1 hop with hop | hop
    · cases hop
    · exact ih hop

end Response.Delivers

/-- What the record of a connection tells of the operations on its socket. -/
inductive Connection.Accounts (c : Connection) (ops : List Operation) : Prop
  | unanswered (ho : ¬ Opened ops) (hr : ¬ Refused ops) (hs : c.status = none)
  | opened {line : RequestLine} (ho : Opened ops) (hr : ¬ Refused ops)
    (hp : Request.parse (received ops) = .ok line) (hs : c.status = some .ok)
    (hl : c.requestLine = some (logRequest line)) (hb : c.bytesSent = pageSent ops)
  | refused (ho : ¬ Opened ops) (hr : Refused ops) (hs : c.status = some .badRequest)
    (hl : c.requestLine = logRejected (received ops)) (hb : c.bytesSent = 0)

namespace Connection
section
variable {c c' : Connection} {ready : Conditions} {files : Files} {page : String}
variable {now : Nanoseconds} {stats stats' : Stats} {ops more : List Operation} {verdict : Verdict}
variable {turns : List Turn}

theorem bytesSent_continued {r : Response} {result : Except SendError Progress}
    (h : c.continued r result = (verdict, c')) : c'.bytesSent = r.sent := by
  rw [bytesSent, continued_response h]

theorem record_continued {r : Response} {result : Except SendError Progress}
    (h : c.continued r result = (verdict, c')) :
    c'.status = c.status ∧ c'.requestLine = c.requestLine ∧ c'.peer = c.peer := by
  unfold continued at h
  split at h
  · cases h
    exact ⟨rfl, rfl, rfl⟩
  · split at h <;> cases h <;> exact ⟨rfl, rfl, rfl⟩
  · cases h
    exact ⟨rfl, rfl, rfl⟩

theorem Handles.peer (H : c.Handles ready files page now stats ops verdict c' stats') :
    c'.peer = c.peer := by
  cases H with
  | replied _ _ _ _ _ _ _ _ hc | resumed _ _ _ _ _ _ hc => exact (record_continued hc).2.2
  | _ => rfl

/-- Giving a connection up leaves its record as it is to the log. -/
theorem Accounts.fail (H : c.Accounts ops) : c.fail.Accounts ops := by
  cases H with
  | unanswered ho hr hs => exact .unanswered ho hr hs
  | opened ho hr hp hs hl hsent => exact .opened ho hr hp hs hl hsent
  | refused ho hr hs hl hsent => exact .refused ho hr hs hl hsent

theorem Accounts.refuse {op : Operation} {result : Except Errno (List UInt8)} {room : Nat}
    {d : Connection} (ho : ¬ Opened ops) (hr : d.response = none) (hl : d.requestLine = none)
    (Hr : Response.Refuses stats op stats')
    (hrecv : received (ops ++ [.recv room result, op]) = d.request) :
    d.rejected.Accounts (ops ++ [.recv room result, op]) := by
  obtain ⟨reply, rfl, -⟩ := Hr.eq_send
  refine .refused ?_ (refused_append.2 (.inr ⟨reply, by simp⟩)) rfl ?_ ?_
  · rw [opened_append]
    simpa [Opened] using ho
  · simp [rejected, hrecv, hl]
  · simp [bytesSent, rejected, hr]

/-- A turn of a connection that waits for its request. -/
theorem Accounts.hear (H : Awaiting ops turns c.request) (ho : ¬ Opened ops)
    (hs : c.stage = .accepted) (hresponse : c.response = none) (hstatus : c.status = none)
    (hline : c.requestLine = none)
    (Hh : c.Handles ready files page now stats more verdict c' stats') :
    c'.Accounts (ops ++ more) := by
  have hr : ¬ Refused ops := by
    rintro ⟨reply, hop⟩
    have hmem : Operation.send Response.badRequestBytes.length reply ∈ transfers ops :=
      List.mem_filter.2 ⟨hop, rfl⟩
    rw [H.silent] at hmem
    cases hmem
  have hwait {d : Connection} (ho' : ¬ Opened more) (hr' : ¬ Refused more)
      (hd : d.status = none) : d.Accounts (ops ++ more) :=
    .unanswered (by simp [opened_append, ho, ho']) (by simp [refused_append, hr, hr']) hd
  cases Hh with
  | broken | recvFailed | nothing | more | gone | unopened =>
    exact hwait (by simp [Opened]) (by simp [Refused]) hstatus
  | cutOff _ _ _ hno Hr =>
    exact .refuse ho hresponse hline Hr (by simp [H.received, hno.received, Hr.received])
  | unfinished _ _ _ _ _ _ Hr | malformed _ _ _ _ _ _ Hr =>
    exact .refuse ho hresponse hline Hr (by simp [H.received, Hr.received, gather])
  | @replied data line r r' sending _ _ _ _ _ _ _ _ _ hp hopen Hd hc =>
    obtain ⟨hstatus', hline', -⟩ := record_continued hc
    have hnone : r.sent = 0 := (Response.ofPath_spec hopen).2.2.2
    have hmore : OnePage.received (ops ++ .recv (room c.request) (.ok data) ::
        .openPage page true :: sending) = c.request ++ data := by
      simp [H.received, received_of_isTransfer Hd.isTransfer]
    refine .opened (opened_append.2 (.inr ⟨page, by simp⟩)) ?_ (hmore ▸ hp) hstatus' hline' ?_
    · rw [refused_append]
      rintro (h | ⟨reply, hop⟩)
      · exact hr h
      · exact Hd.not_refused ⟨reply, by simpa using hop⟩
    · rw [bytesSent_continued hc, Hd.pageSent, hnone, pageSent_append,
        pageSent_of_transfers_eq_nil H.silent]
      simp [Operation.pageBytes]
  | closedEarly _ hs' | notWritable _ hs' | unanswerable _ hs' | resumed _ hs' =>
    cases hs.symm.trans hs'
  | spent _ hs' => exact absurd hs hs'

/-- A turn of a connection whose reply has been begun. -/
theorem Accounts.reply {r : Response} {line : RequestLine} (ho : Opened ops) (hr : ¬ Refused ops)
    (hp : Request.parse (received ops) = .ok line) (hstatus : c.status = some .ok)
    (hl : c.requestLine = some (logRequest line)) (hb : c.bytesSent = pageSent ops)
    (hs : c.stage = .requestReceived) (hresponse : c.response = some r)
    (Hh : c.Handles ready files page now stats more verdict c' stats') :
    c'.Accounts (ops ++ more) := by
  have hidle (hr' : ¬ Refused more) (hrecv : received more = []) (hsent : pageSent more = 0) :
      c.Accounts (ops ++ more) := by
    refine .opened (opened_append.2 (.inl ho)) ?_ ?_ hstatus hl ?_
    · simp [refused_append, hr, hr']
    · simpa [hrecv] using hp
    · simpa [hsent] using hb
  cases Hh with
  | broken | closedEarly | notWritable | spent =>
    exact hidle (by simp [Refused]) rfl rfl
  | unanswerable _ _ hr' => cases hresponse.symm.trans hr'
  | @resumed r₁ r' sending _ _ _ _ _ _ hr' _ _ Hd hc =>
    cases hresponse.symm.trans hr'
    obtain ⟨hstatus', hline, -⟩ := record_continued hc
    have hsent : c.bytesSent = r.sent := by simp [bytesSent, hresponse]
    refine .opened (opened_append.2 (.inl ho)) ?_ ?_ (hstatus'.trans hstatus) (hline.trans hl) ?_
    · simp [refused_append, hr, Hd.not_refused]
    · simpa [received_of_isTransfer Hd.isTransfer] using hp
    · rw [bytesSent_continued hc, Hd.pageSent, ← hsent, hb, pageSent_append]
  | nothing _ hs' | recvFailed _ hs' | gone _ hs' | cutOff _ hs' | more _ hs' | unfinished _ hs'
    | malformed _ hs' | unopened _ hs' | replied _ hs' => cases hs.symm.trans hs'

theorem Accounts.turn (H : c.Accounts ops) (Hc : c.Coherent) (Hu : Underway page c ops turns)
    (Hh : c.Handles ready files page now stats more verdict c' stats') :
    c'.Accounts (ops ++ more) := by
  cases Hc with
  | waiting hs _ hr hstatus hline =>
    cases Hu with
    | awaiting _ _ Ha =>
      cases H with
      | unanswered ho => exact .hear Ha ho hs hr hstatus hline Hh
      | opened _ _ _ h | refused _ _ h => rw [hstatus] at h; cases h
    | answered hs' => cases hs.symm.trans hs'
  | replying hs _ hresponse _ hstatus =>
    cases H with
    | unanswered _ _ h | refused _ _ h => rw [hstatus] at h; cases h
    | opened ho hr hp _ hl hb => exact .reply ho hr hp hstatus hl hb hs hresponse Hh

end

/-- What the record of a connection tells of its life. -/
structure Recorded (c : Connection) (L : List Occurrence) : Prop where
  accounts : c.Accounts (operations L)
  peer : ∀ t ∈ turns L, t.before.peer = c.peer

theorem Recorded.fail {c : Connection} {L : List Occurrence} (H : c.Recorded L) :
    c.fail.Recorded L := ⟨H.accounts.fail, H.peer⟩

end Connection

section
variable {page : String} {fd : Fd} {token : Token} {c c' : Connection} {L : List Occurrence}
variable {ready : Conditions} {files : Files} {now : Nanoseconds} {stats stats' : Stats}
variable {ops : List Operation} {verdict : Verdict}

/-- A turn, with calls after it that are no operations. -/
theorem Connection.Recorded.turn (H : c.Recorded L) (rest : List Call)
    (HL : Lived page fd token c L)
    (Hh : c.Handles ready files page now stats ops verdict c' stats')
    (hrest : operations (rest.map .call) = []) :
    c'.Recorded (L ++ .turn ⟨c, ready, files, now, verdict, c'⟩ ::
      (ops.map (Call.operation fd) ++ rest).map .call) where
  accounts := by
    rw [operations_taken _ _ _ hrest]
    exact H.accounts.turn HL.course.1 HL.underway Hh
  peer := by
    rw [turns_taken, Hh.peer]
    exact List.forall_mem_append.2 ⟨H.peer, List.forall_mem_singleton.2 rfl⟩

/-- The record of a connection in the table tells of all that has been done. -/
theorem Lived.recorded (H : Lived page fd token c L) : c.Recorded L := by
  induction H with
  | @registered now peer calls hr =>
    have hops : operations ((Call.setNonblocking fd (.ok ()) :: calls).map .call) = [] :=
      hr.operations
    have hturns : turns ((Call.setNonblocking fd (.ok ()) :: calls).map .call) = [] :=
      turns_calls _
    refine ⟨?_, by rw [hturns]; exact List.forall_mem_nil _⟩
    rw [hops]
    exact .unanswered (by simp [Opened]) (by simp [Refused]) rfl
  | @waited c c' L ready files now _ _ ops H Hh ih =>
    have Hr := ih.turn [] H Hh rfl
    rwa [List.append_nil] at Hr
  | rearmed H Hh ih => exact ih.turn _ H Hh rfl

end

/-- What the log is told of a connection can be told from the rest of the line. -/
theorem Connection.Accounts.sound {c : Connection} {ops : List Operation} (H : c.Accounts ops)
    {seconds zone : Int} {e : Log.Entry} (he : Log.entryOf? c seconds zone = some e) : e.Sound := by
  obtain ⟨hs, hl, -, hdate, -⟩ := Log.entryOf?_eq_some.1 he
  refine ⟨fun c hc => Log.stamp_quotable seconds zone c (by simpa [hdate] using hc), ?_⟩
  cases H with
  | unanswered _ _ hs' => rw [hs'] at hs; cases hs
  | opened _ _ _ _ hl' =>
    rw [← Option.some.inj (hl'.symm.trans hl)]
    exact Log.logRequest_quotable _
  | refused _ _ _ hl' => exact Log.logRejected_quotable (hl'.symm.trans hl)

end OnePage
