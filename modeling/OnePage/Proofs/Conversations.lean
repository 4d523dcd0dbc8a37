import OnePage.Proofs.Lifetimes

/-! # Conversations

What is said on a connection in its whole life. Until the request line is there nothing is
written; then there is one reply, either the refusal, in one call, or the header and the page in
their order, and never parts of both (`Conversation`). Which of them it is depends on the bytes
received. -/

namespace OnePage

namespace Operation

/-- The bytes that an operation has taken from the socket. -/
def received : Operation → List UInt8
  | recv _ (.ok data) => data
  | _ => []

@[simp] theorem received_recv_ok (room : Nat) (data : List UInt8) :
    (recv room (.ok data)).received = data := rfl

@[simp] theorem received_openPage (path : String) (opened : Bool) :
    (openPage path opened).received = [] := rfl

@[simp] theorem written_recv (room : Nat) (result : Except Errno (List UInt8)) :
    (recv room result).written = [] := rfl

@[simp] theorem written_openPage (path : String) (opened : Bool) :
    (openPage path opened).written = [] := rfl

theorem received_of_isTransfer {op : Operation} (h : op.isTransfer) : op.received = [] := by
  cases op with
  | send | sendfile => rfl
  | _ => cases h

theorem written_of_not_isTransfer {op : Operation} (h : op.isTransfer = false) :
    op.written = [] := by
  cases op with
  | send | sendfile => cases h
  | _ => rfl

end Operation

namespace Occurrence

def operation? : Occurrence → Option Operation
  | call (.operation _ op) => some op
  | _ => none

def turn? : Occurrence → Option Turn
  | turn t => some t
  | call _ => none

end Occurrence

/-- What is done on a connection's socket, apart from the calls that set it up and close it. -/
def operations (occurrences : List Occurrence) : List Operation :=
  occurrences.filterMap Occurrence.operation?

def turns (occurrences : List Occurrence) : List Turn := occurrences.filterMap Occurrence.turn?

def received (ops : List Operation) : List UInt8 := ops.flatMap Operation.received

def written (ops : List Operation) : List UInt8 := ops.flatMap Operation.written

def transfers (ops : List Operation) : List Operation := ops.filter Operation.isTransfer

section
variable {fd : Fd} {ops more : List Operation} {L : List Occurrence} {calls : List Call}

@[simp] theorem operations_append (L L' : List Occurrence) :
    operations (L ++ L') = operations L ++ operations L' := List.filterMap_append

@[simp] theorem turns_append (L L' : List Occurrence) : turns (L ++ L') = turns L ++ turns L' :=
  List.filterMap_append

@[simp] theorem operations_turn (t : Turn) (L : List Occurrence) :
    operations (.turn t :: L) = operations L := rfl

@[simp] theorem turns_turn (t : Turn) (L : List Occurrence) :
    turns (.turn t :: L) = t :: turns L := rfl

@[simp] theorem operations_operations (fd : Fd) (ops : List Operation) :
    operations ((ops.map (Call.operation fd)).map .call) = ops := by
  induction ops with
  | nil => rfl
  | cons op ops ih => exact congrArg (op :: ·) ih

@[simp] theorem turns_calls (calls : List Call) : turns (calls.map .call) = [] := by
  induction calls with
  | nil => rfl
  | cons call calls ih => exact ih

@[simp] theorem turns_taken (L : List Occurrence) (t : Turn) (calls : List Call) :
    turns (L ++ .turn t :: calls.map .call) = turns L ++ [t] := by
  rw [turns_append, turns_turn, turns_calls]

/-- What a connection does in a turn, with calls after it that are no operations. -/
theorem operations_taken (L : List Occurrence) (t : Turn) (ops : List Operation)
    (h : operations (calls.map .call) = []) :
    operations (L ++ .turn t :: (ops.map (Call.operation fd) ++ calls).map .call) =
      operations L ++ ops := by
  rw [List.map_append, operations_append, operations_turn, operations_append,
    operations_operations, h, List.append_nil]

theorem EventQueue.Registration.operations {token : Token} {interest : Interest}
    {result : Outcome} (H : EventQueue.Registration fd token interest result calls) :
    operations (calls.map .call) = [] := by
  cases H <;> rfl

@[simp] theorem received_cons (op : Operation) (ops : List Operation) :
    received (op :: ops) = op.received ++ received ops := rfl

@[simp] theorem written_cons (op : Operation) (ops : List Operation) :
    written (op :: ops) = op.written ++ written ops := rfl

@[simp] theorem received_nil : received [] = [] := rfl

@[simp] theorem written_nil : written [] = [] := rfl

@[simp] theorem received_append (ops more : List Operation) :
    received (ops ++ more) = received ops ++ received more := List.flatMap_append

@[simp] theorem written_append (ops more : List Operation) :
    written (ops ++ more) = written ops ++ written more := List.flatMap_append

@[simp] theorem transfers_append (ops more : List Operation) :
    transfers (ops ++ more) = transfers ops ++ transfers more := List.filter_append ..

theorem received_of_isTransfer (h : ∀ op ∈ ops, op.isTransfer) : received ops = [] :=
  List.flatMap_eq_nil_iff.2 fun op ho => Operation.received_of_isTransfer (h op ho)

theorem written_of_transfers_eq_nil (h : transfers ops = []) : written ops = [] :=
  List.flatMap_eq_nil_iff.2 fun op ho =>
    Operation.written_of_not_isTransfer (by simpa using List.filter_eq_nil_iff.1 h op ho)

end

namespace Request

/-- The tokens of the first line, as far as it has come. -/
def tokens (request : List UInt8) : List (List UInt8) :=
  Text.tokens isSeparator (firstLine request)

theorem tokens_of_parse_error {request : List UInt8} {error : RequestError}
    (h : parse request = .error error) : (tokens request).length < 3 := by
  unfold parse at h
  unfold tokens
  split at h <;> simp_all

theorem tokens_of_parse_ok {request : List UInt8} {line : RequestLine}
    (h : parse request = .ok line) : 3 ≤ (tokens request).length := by
  unfold parse at h
  unfold tokens
  split at h <;> simp_all

end Request

/-! ## What a conversation comes to -/

/-- While a reply is under way the file that is sent keeps its content. -/
def Steady (content : Content) (turns : List Turn) : Prop :=
  ∀ t ∈ turns, ∀ r ∈ t.after.response, t.files.content? r.file = some content

instance (content : Content) (turns : List Turn) : Decidable (Steady content turns) :=
  inferInstanceAs (Decidable (∀ t ∈ turns, ∀ r ∈ t.after.response,
    t.files.content? r.file = some content))

/-- Whether a connection has sent all of its reply. -/
def Finished (turns : List Turn) : Prop := ∃ t ∈ turns, t.after.stage = .responseSent

/-- Whether the peer has been seen to send no more. -/
def HungUp (ops : List Operation) (turns : List Turn) : Prop :=
  (∃ room, .recv room (.ok []) ∈ ops) ∨ ∃ t ∈ turns, t.conditions.isHangup

/-- Whether bytes are a request that is answered with the page. -/
def Understood (request : List UInt8) : Prop :=
  Request.hasLine request ∧ 3 ≤ (Request.tokens request).length

/-- Whether what has been received is refused: a line with too little on it, or no line where
there will be none. -/
inductive Rejected (ops : List Operation) (turns : List Turn) : Prop
  | malformed (hl : Request.hasLine (received ops))
    (ht : (Request.tokens (received ops)).length < 3)
  | tooLong (hl : Request.hasLine (received ops) = false)
    (hlen : (received ops).length = Connection.requestSize)
  | cutOff (hl : Request.hasLine (received ops) = false) (hne : received ops ≠ [])
    (hh : HungUp ops turns)

/-- What is said in a whole life. -/
inductive Conversation (page : String) (content : Content) (ops : List Operation)
    (turns : List Turn) : Prop
  /-- Nothing is sent, and nothing is tried to. -/
  | silent (ht : transfers ops = [])
  | refused {result : Except Errno (List UInt8)}
    (ht : transfers ops = [.send Response.badRequestBytes.length result])
    (hw : written ops <+: Response.badRequestBytes) (hr : Rejected ops turns)
  | answered (hu : Understood (received ops))
    (ho : ∃ t ∈ turns, ∃ id, t.files.find page = .ok id ∧ t.files.content? id = some content)
    (hw : written ops <+: Response.header ++ content.bytes)
    (hf : written ops = Response.header ++ content.bytes ↔ Finished turns)

/-! ## One turn -/

/-- How it is while the request line is awaited and `request` has come of it. -/
structure Awaiting (ops : List Operation) (turns : List Turn) (request : List UInt8) : Prop where
  silent : transfers ops = []
  received : received ops = request
  length_lt : request.length < Connection.requestSize
  noLine : Request.hasLine request = false
  unanswered : ∀ t ∈ turns, t.after.stage = .accepted ∧ t.after.response = none

/-- How it is once a reply has been begun and `r` tells how far it is. -/
structure Answered (page : String) (ops : List Operation) (turns : List Turn) (r : Response) :
    Prop where
  length_le : (received ops).length ≤ Connection.requestSize
  understood : Understood (received ops)
  regular : r.Regular
  opened : ∃ t ∈ turns, t.files.find page = .ok r.file ∧
    (∃ content, t.files.content? r.file = some content ∧ content.size = r.length) ∧
    ∃ r', t.after.response = some r' ∧ r'.file = r.file
  written : ∀ content, Steady content turns → written ops = r.sentBytes content
  finished : Finished turns ↔ r.IsComplete

/-- What a turn with a reply under way comes to. -/
inductive Reached (r : Response) : Verdict → Connection → Prop
  | complete {c : Connection} (hs : c.stage = .responseSent) (hr : c.response = some r)
    (hc : r.IsComplete) : Reached r .close c
  | underWay {verdict : Verdict} {c : Connection} (hs : c.stage = .requestReceived)
    (hr : c.response = some r) (hc : ¬ r.IsComplete) : Reached r verdict c

theorem Reached.response {r : Response} {verdict : Verdict} {c : Connection}
    (H : Reached r verdict c) : c.response = some r := by
  cases H with
  | complete _ hr | underWay _ hr => exact hr

theorem Response.Delivers.reached {content : Content} {r r' : Response} {stats stats' : Stats}
    {ops : List Operation} {result : Except SendError Progress} {c c' : Connection}
    {verdict : Verdict} (H : Response.Delivers content r stats ops result r' stats')
    (hstage : c.stage = .requestReceived) (hc : c.continued r' result = (verdict, c')) :
    Reached r' verdict c' := by
  have hr := Connection.continued_response hc
  rcases Connection.continued_stage hc with ⟨hresult, rfl, hs⟩ | ⟨hresult, hs⟩
  · exact .complete hs hr (H.complete_iff.1 hresult)
  · exact .underWay (hs.trans hstage) hr fun hc => hresult (H.complete_iff.2 hc)

theorem Steady.append_left {content : Content} {turns more : List Turn}
    (H : Steady content (turns ++ more)) : Steady content turns := fun t ht =>
  H t (List.mem_append_left _ ht)

theorem Steady.last {content : Content} {turns : List Turn} {t : Turn} {r : Response}
    (H : Steady content (turns ++ [t])) (hr : t.after.response = some r) :
    t.files.content? r.file = some content :=
  H t (List.mem_append_right _ (List.mem_singleton_self t)) r hr

/-- A reply is complete with the turn that completes it. -/
theorem Reached.finished {turns : List Turn} {t : Turn} {r : Response} {verdict : Verdict}
    (H : Reached r verdict t.after) (hn : ¬ Finished turns) :
    Finished (turns ++ [t]) ↔ r.IsComplete := by
  cases H with
  | complete hs _ hc =>
    exact iff_of_true ⟨t, List.mem_append_right _ (List.mem_singleton_self t), hs⟩ hc
  | underWay hs _ hc =>
    refine iff_of_false ?_ hc
    rintro ⟨u, hu, hs'⟩
    rcases List.mem_append.1 hu with hu | hu
    · exact hn ⟨u, hu, hs'⟩
    · rw [List.mem_singleton.1 hu, hs] at hs'
      cases hs'

/-- What can be said of all that has been said so far. -/
structure Upright (page : String) (ops : List Operation) (turns : List Turn) : Prop where
  length_le : (received ops).length ≤ Connection.requestSize
  conversation {content : Content} (hs : Steady content turns) :
    Conversation page content ops turns

namespace Answered
variable {page : String} {ops more : List Operation} {turns : List Turn} {r r' : Response}
variable {t : Turn} {verdict : Verdict}

theorem content_size (H : Answered page ops turns r) {content : Content}
    (hs : Steady content turns) :
    content.size = r.length ∧ ∃ t ∈ turns, ∃ id, t.files.find page = .ok id ∧
      t.files.content? id = some content := by
  obtain ⟨t, ht, hfind, ⟨content', hcontent, hsize⟩, r', hr', hfile⟩ := H.opened
  have h := hs t ht r' hr'
  rw [hfile, hcontent] at h
  cases h
  exact ⟨hsize, t, ht, r.file, hfind, hcontent⟩

/-- The reply goes on, or does not get anywhere. -/
theorem step (H : Answered page ops turns r) (hn : ¬ r.IsComplete) (hfile : r'.file = r.file)
    (hlength : r'.length = r.length) (hr : r'.Regular) (hrecv : received more = [])
    (hwritten : ∀ content, t.files.content? r.file = some content →
      r.sentBytes content ++ OnePage.written more = r'.sentBytes content)
    (ht : Reached r' verdict t.after) : Answered page (ops ++ more) (turns ++ [t]) r' where
  length_le := by rw [received_append, hrecv, List.append_nil]; exact H.length_le
  understood := by rw [received_append, hrecv, List.append_nil]; exact H.understood
  regular := hr
  opened := by
    obtain ⟨u, hu, h⟩ := H.opened
    rw [hfile, hlength]
    exact ⟨u, List.mem_append_left _ hu, h⟩
  written content hs := by
    rw [written_append, H.written content hs.append_left]
    exact hwritten content (hfile ▸ hs.last ht.response)
  finished := ht.finished fun h => hn (H.finished.1 h)

/-- All of the reply is out when all of the header and the page is. -/
theorem upright (H : Answered page ops turns r) : Upright page ops turns where
  length_le := H.length_le
  conversation {content} hs := by
    obtain ⟨hsize, ho⟩ := H.content_size hs
    refine .answered H.understood ho ?_ (Iff.trans ?_ H.finished.symm)
    · rw [H.written content hs]
      exact H.regular.sentBytes_prefix content
    · rw [H.written content hs]
      exact Response.sentBytes_eq_iff hsize

end Answered

/-- A refusal is one call to send, which takes the beginning of the text. -/
theorem Response.Refuses.eq_send {stats stats' : Stats} {op : Operation}
    (H : Response.Refuses stats op stats') : ∃ result,
      op = .send badRequestBytes.length result ∧ op.written <+: badRequestBytes := by
  cases H with
  | sent => exact ⟨_, rfl, List.take_prefix ..⟩
  | failed => exact ⟨_, rfl, List.nil_prefix⟩

theorem Response.Refuses.received {stats stats' : Stats} {op : Operation}
    (H : Response.Refuses stats op stats') : op.received = [] := by
  cases H <;> rfl

namespace Awaiting
variable {page : String} {ops more : List Operation} {turns : List Turn} {request : List UInt8}
variable {t : Turn} {verdict : Verdict} {data : List UInt8}

theorem unfinished (H : Awaiting ops turns request) : ¬ Finished turns := by
  rintro ⟨t, ht, hs⟩
  have h := (H.unanswered t ht).1
  rw [hs] at h
  cases h

theorem upright (H : Awaiting ops turns request) : Upright page ops turns where
  length_le := H.received ▸ Nat.le_of_lt H.length_lt
  conversation _ := .silent H.silent

/-- Part of the request, or nothing of it, has come. -/
theorem wait (H : Awaiting ops turns request) {request' : List UInt8}
    (hsilent : transfers more = []) (hrecv : request' = request ++ OnePage.received more)
    (hlt : request'.length < Connection.requestSize) (hl : Request.hasLine request' = false)
    (ht : t.after.stage = .accepted ∧ t.after.response = none) :
    Awaiting (ops ++ more) (turns ++ [t]) request' where
  silent := by rw [transfers_append, H.silent, hsilent]; rfl
  received := by rw [received_append, H.received, hrecv]
  length_lt := hlt
  noLine := hl
  unanswered u hu := by
    rcases List.mem_append.1 hu with hu | hu
    · exact H.unanswered u hu
    · rw [List.mem_singleton.1 hu]
      exact ht

theorem length_append_le (H : Awaiting ops turns request)
    (hle : data.length ≤ Connection.room request) :
    (request ++ data).length ≤ Connection.requestSize := by
  have := H.length_lt
  rw [Connection.room] at hle
  rw [List.length_append]
  omega

/-- The connection is given up without a word. -/
theorem giveUp (H : Awaiting ops turns request) (hsilent : transfers more = [])
    {turns' : List Turn} (hle : (OnePage.received more).length ≤ Connection.room request) :
    Upright page (ops ++ more) turns' where
  length_le := by
    rw [received_append, H.received]
    exact H.length_append_le hle
  conversation _ := .silent (by rw [transfers_append, H.silent, hsilent]; rfl)

/-- The connection is given up with a refusal. -/
theorem refuse (H : Awaiting ops turns request) {result : Except Errno (List UInt8)}
    {op : Operation} {stats stats' : Stats} {turns' : List Turn}
    (hdata : (Operation.recv (Connection.room request) result).received = data)
    (hle : data.length ≤ Connection.room request) (Hr : Response.Refuses stats op stats')
    (hr : OnePage.received (ops ++ [.recv (Connection.room request) result, op]) =
      request ++ data → Rejected (ops ++ [.recv (Connection.room request) result, op]) turns') :
    Upright page (ops ++ [.recv (Connection.room request) result, op]) turns' := by
  obtain ⟨reply, rfl, hprefix⟩ := Hr.eq_send
  have hrecv : OnePage.received [.recv (Connection.room request) result,
      .send Response.badRequestBytes.length reply] = data := by
    rw [← hdata]
    exact List.append_nil _
  have hwritten : written [.recv (Connection.room request) result,
      .send Response.badRequestBytes.length reply] <+: Response.badRequestBytes := by
    simpa using hprefix
  have htransfers : transfers (ops ++ [.recv (Connection.room request) result,
      .send Response.badRequestBytes.length reply]) =
      [.send Response.badRequestBytes.length reply] := by
    rw [transfers_append, H.silent]
    rfl
  refine ⟨?_, fun _ => .refused htransfers ?_ (hr ?_)⟩
  · rw [received_append, H.received, hrecv]
    exact H.length_append_le hle
  · rw [written_append, written_of_transfers_eq_nil H.silent]
    exact hwritten
  · rw [received_append, H.received, hrecv]

/-- The request is understood, and the reply is begun. -/
theorem answer (H : Awaiting ops turns request) {line : RequestLine} {r r' : Response}
    {stats stats' : Stats} {result : Except SendError Progress} {n : Nat}
    (hle : data.length ≤ Connection.room request) (hl : Request.hasLine (request ++ data))
    (hp : Request.parse (request ++ data) = .ok line)
    (ho : Response.ofPath t.files page = .ok r)
    (Hd : Response.Delivers ((t.files.content? r.file).getD .empty) r stats more result r' stats')
    (ht : Reached r' verdict t.after) :
    Answered page (ops ++ .recv n (.ok data) :: .openPage page true :: more) (turns ++ [t]) r' := by
  obtain ⟨hfind, ⟨content, hcontent, hsize⟩, hh, hs⟩ := Response.ofPath_spec ho
  have hrecv : OnePage.received (ops ++ .recv n (.ok data) :: .openPage page true :: more) =
      request ++ data := by
    have hmore : OnePage.received more = [] := received_of_isTransfer Hd.isTransfer
    rw [received_append, H.received]
    simpa using hmore
  have hwritten : written (ops ++ .recv n (.ok data) :: .openPage page true :: more) =
      written more := by
    rw [written_append, written_of_transfers_eq_nil H.silent]
    simp
  have hregular := Response.ofPath_regular ho
  exact {
    length_le := by
      rw [hrecv]
      exact H.length_append_le hle
    understood := by
      rw [hrecv]
      exact ⟨hl, Request.tokens_of_parse_ok hp⟩
    regular := Hd.regular hregular
    opened := by
      refine ⟨t, List.mem_append_right _ (List.mem_singleton_self t), ?_, ?_, r', ht.response,
        rfl⟩
      · rw [Hd.file, hfind]
      · rw [Hd.file, Hd.length]
        exact ⟨content, hcontent, hsize⟩
    written := by
      intro content' hsteady
      have hcontent' := hsteady.last ht.response
      rw [Hd.file] at hcontent'
      have h := Hd.written hregular
      rw [hcontent', Option.getD_some, Response.sentBytes, hh, hs, List.take_zero,
        List.take_zero] at h
      rw [hwritten]
      exact h
    finished := ht.finished H.unfinished }

end Awaiting

section
variable {ready : Conditions} {result : Except Errno (List UInt8)} {room : Nat}

theorem Connection.NoMore.received (H : Connection.NoMore ready result) :
    (Operation.recv room result).received = [] := by
  rcases H with rfl | ⟨rfl, -⟩ <;> rfl

theorem Connection.NoMore.hungUp (H : Connection.NoMore ready result) {ops : List Operation}
    {turns : List Turn} {t : Turn} (hop : .recv room result ∈ ops) (ht : t ∈ turns)
    (hready : t.conditions = ready) : HungUp ops turns := by
  rcases H with rfl | ⟨rfl, hh⟩
  · exact .inl ⟨room, hop⟩
  · exact .inr ⟨t, ht, hready ▸ hh⟩

end

/-- How it stands with a connection in the table. -/
inductive Underway (page : String) (c : Connection) (ops : List Operation) (turns : List Turn) :
    Prop
  | awaiting (hs : c.stage = .accepted) (hr : c.response = none)
    (H : Awaiting ops turns c.request)
  | answered {r : Response} (hs : c.stage = .requestReceived) (hr : c.response = some r)
    (hc : ¬ r.IsComplete) (H : Answered page ops turns r)

theorem Underway.upright {page : String} {c : Connection} {ops : List Operation}
    {turns : List Turn} (H : Underway page c ops turns) : Upright page ops turns := by
  cases H with
  | awaiting _ _ H => exact H.upright
  | answered _ _ _ H => exact H.upright

theorem Underway.unfinished {page : String} {c : Connection} {ops : List Operation}
    {turns : List Turn} (H : Underway page c ops turns) : ¬ Finished turns := by
  cases H with
  | awaiting _ _ H => exact H.unfinished
  | answered _ _ hc H => exact fun h => hc (H.finished.1 h)

section
variable {page : String} {ops more : List Operation} {turns : List Turn} {c c' : Connection}
variable {ready : Conditions} {files : Files} {now : Nanoseconds} {stats stats' : Stats}
variable {verdict : Verdict}

/-- What a turn makes of a conversation: it is under way afterwards, or it is over. -/
def Continues (page : String) (ops : List Operation) (turns : List Turn) (verdict : Verdict)
    (c : Connection) : Prop :=
  Underway page c ops turns ∨
    (verdict = .close ∨ ∃ cause, verdict = .fail cause) ∧ Upright page ops turns

theorem Answered.continues {r : Response} (H : Answered page ops turns r)
    (hr : Reached r verdict c) : Continues page ops turns verdict c := by
  cases hr with
  | complete => exact .inr ⟨.inl rfl, H.upright⟩
  | underWay hs hr hc => exact .inl (.answered hs hr hc H)

theorem Awaiting.turn (H : Awaiting ops turns c.request) (hs : c.stage = .accepted)
    (hr : c.response = none) (Hh : c.Handles ready files page now stats more verdict c' stats') :
    Continues page (ops ++ more) (turns ++ [⟨c, ready, files, now, verdict, c'⟩]) verdict c' := by
  have hlast : (⟨c, ready, files, now, verdict, c'⟩ : Turn) ∈
      turns ++ [⟨c, ready, files, now, verdict, c'⟩] :=
    List.mem_append_right _ (List.mem_singleton_self _)
  have hreplying (h : c.stage = .requestReceived) : False := by rw [hs] at h; cases h
  cases Hh with
  | broken => exact .inr ⟨.inr ⟨_, rfl⟩, H.giveUp rfl (Nat.zero_le _)⟩
  | nothing =>
    exact .inl (.awaiting hs hr
      (H.wait rfl (List.append_nil c.request).symm H.length_lt H.noLine ⟨hs, hr⟩))
  | recvFailed => exact .inr ⟨.inr ⟨_, rfl⟩, H.giveUp rfl (Nat.zero_le _)⟩
  | gone _ _ _ hno =>
    refine .inr ⟨.inl rfl, H.giveUp rfl ?_⟩
    rw [received_cons, hno.received]
    exact Nat.zero_le _
  | @cutOff result op _ _ _ hne hno Hr =>
    have hop : .recv (Connection.room c.request) result ∈
        ops ++ [.recv (Connection.room c.request) result, op] :=
      List.mem_append_right _ (List.mem_cons_self ..)
    refine .inr ⟨.inl rfl, ?_⟩
    apply H.refuse hno.received (Nat.zero_le _) Hr
    intro hrecv
    rw [List.append_nil] at hrecv
    refine .cutOff ?_ ?_ (hno.hungUp hop hlast rfl)
    · rw [hrecv]
      exact H.noLine
    · rw [hrecv]
      exact hne
  | more _ _ _ _ hl hlt =>
    exact .inl (.awaiting hs hr (H.wait rfl (by simp [Connection.gather]) hlt hl ⟨hs, hr⟩))
  | @unfinished data _ _ _ _ hd hle hl hr Hr =>
    refine .inr ⟨.inl rfl, H.refuse rfl hle Hr ?_⟩
    intro hrecv
    rcases hr with hfull | hh
    · exact .tooLong (hrecv ▸ hl) (hrecv ▸ Nat.le_antisymm (H.length_append_le hle) hfull)
    · have hne : c.request ++ data ≠ [] := fun h => hd (List.append_eq_nil_iff.1 h).2
      exact .cutOff (hrecv ▸ hl) (hrecv ▸ hne) (.inr ⟨_, hlast, hh⟩)
  | malformed _ _ _ hle hl hp Hr =>
    refine .inr ⟨.inl rfl, H.refuse rfl hle Hr ?_⟩
    intro hrecv
    exact .malformed (hrecv ▸ hl) (hrecv ▸ Request.tokens_of_parse_error hp)
  | unopened _ _ _ hle =>
    refine .inr ⟨.inr ⟨_, rfl⟩, H.giveUp rfl ?_⟩
    simpa using hle
  | replied _ _ _ hle hl hp ho Hd hc =>
    have hreached := Hd.reached rfl hc
    exact (H.answer (t := ⟨c, ready, files, now, verdict, c'⟩) hle hl hp ho Hd hreached).continues
      hreached
  | closedEarly _ hs' | notWritable _ hs' | unanswerable _ hs' | resumed _ hs' =>
    exact (hreplying hs').elim
  | spent _ hs' => exact absurd hs hs'

theorem Answered.turn {r : Response} (H : Answered page ops turns r)
    (hs : c.stage = .requestReceived) (hr : c.response = some r) (hc : ¬ r.IsComplete)
    (Hh : c.Handles ready files page now stats more verdict c' stats') :
    Continues page (ops ++ more) (turns ++ [⟨c, ready, files, now, verdict, c'⟩]) verdict c' := by
  have hidle {more : List Operation} {verdict : Verdict} (hrecv : received more = [])
      (hwritten : OnePage.written more = []) :
      Answered page (ops ++ more) (turns ++ [⟨c, ready, files, now, verdict, c⟩]) r := by
    have hreached : Reached r verdict c := .underWay hs hr hc
    refine H.step hc rfl rfl H.regular hrecv (fun content _ => ?_) hreached
    rw [hwritten, List.append_nil]
  cases Hh with
  | broken => exact (hidle rfl rfl).continues (.underWay hs hr hc)
  | closedEarly | notWritable => exact (hidle rfl rfl).continues (.underWay hs hr hc)
  | unanswerable _ _ hnone => rw [hr] at hnone; cases hnone
  | resumed _ _ hr' _ _ Hd hcontinued =>
    cases hr.symm.trans hr'
    have hreached := Hd.reached (c := { c with lastActive := now }) hs hcontinued
    refine Answered.continues (H.step hc Hd.file Hd.length (Hd.regular H.regular)
      (received_of_isTransfer Hd.isTransfer) (fun content hcontent => ?_) hreached) hreached
    have h := Hd.written H.regular
    rw [hcontent] at h
    exact h
  | nothing _ hs' | recvFailed _ hs' | gone _ hs' | cutOff _ hs' | more _ hs' | unfinished _ hs'
    | malformed _ hs' | unopened _ hs' | replied _ hs' => cases hs.symm.trans hs'
  | spent _ _ hs' => exact absurd hs hs'

theorem Underway.turn (H : Underway page c ops turns)
    (Hh : c.Handles ready files page now stats more verdict c' stats') :
    Continues page (ops ++ more) (turns ++ [⟨c, ready, files, now, verdict, c'⟩]) verdict c' := by
  cases H with
  | awaiting hs hr H => exact H.turn hs hr Hh
  | answered hs hr hc H => exact H.turn hs hr hc Hh

end

/-! ## A whole life -/

section
variable {page : String} {ops : List Operation} {turns : List Turn} {verdict : Verdict}
variable {c : Connection}

theorem Continues.upright (H : Continues page ops turns verdict c) : Upright page ops turns := by
  rcases H with H | ⟨-, H⟩
  · exact H.upright
  · exact H

theorem Continues.underway (H : Continues page ops turns verdict c)
    (hv : verdict = .wait ∨ verdict = .rearm) : Underway page c ops turns := by
  rcases H with H | ⟨hv' | ⟨_, hv'⟩, -⟩
  · exact H
  · rw [hv'] at hv
    rcases hv with hv | hv <;> cases hv
  · rw [hv'] at hv
    rcases hv with hv | hv <;> cases hv

end

section
variable {page : String} {fd : Fd} {token : Token} {c : Connection} {L : List Occurrence}

theorem Lived.underway (H : Lived page fd token c L) :
    Underway page c (operations L) (turns L) := by
  induction H with
  | registered hr =>
    have hops : operations ((Call.setNonblocking fd (.ok ()) :: _).map .call) = [] := hr.operations
    have hsize : 0 < Connection.requestSize := by decide
    rw [hops, turns_calls]
    exact .awaiting rfl rfl ⟨rfl, rfl, hsize, rfl, by simp⟩
  | waited H Hh ih =>
    rw [operations_append, operations_turn, operations_operations, turns_taken]
    exact (ih.turn Hh).underway (.inl rfl)
  | rearmed H Hh ih =>
    rw [operations_taken _ _ _ rfl, turns_taken]
    exact (ih.turn Hh).underway (.inr rfl)

theorem Ended.upright (H : Ended page fd L) : Upright page (operations L) (turns L) := by
  cases H with
  | refused => exact ⟨Nat.zero_le _, fun _ => .silent rfl⟩
  | @unregistered token e calls hr =>
    have hops : operations ((Call.setNonblocking fd (.ok ()) :: (calls ++ [.close fd])).map .call) =
        [] := by
      rw [List.map_cons, List.map_append]
      exact (operations_append ..).trans (by rw [hr.operations]; rfl)
    rw [hops]
    exact ⟨Nat.zero_le _, fun _ => .silent rfl⟩
  | closed H =>
    have hops {deleted : Outcome} :
        operations ([Call.delete fd deleted, .close fd].map .call) = [] := rfl
    rw [operations_append, turns_append, turns_calls, hops, List.append_nil, List.append_nil]
    exact H.underway.upright
  | finished H Hh =>
    rw [operations_taken _ _ _ rfl, turns_taken]
    exact (H.underway.turn Hh).upright
  | unarmed H Hh =>
    rw [operations_taken _ _ _ rfl, turns_taken]
    exact (H.underway.turn Hh).upright

theorem Ended.closes (H : Ended page fd L) : .call (.close fd) ∈ L := by
  cases H <;> simp

end

/-- What has been accepted has ended, or is in the table still. -/
theorem Lifetime.ended_or_lived {m : Moment} (H : Reachable m) {fd : Fd} {L : List Occurrence}
    (hL : Lifetime m.history fd L) : Ended m.server.config.indexPath fd L ∨
      ∃ token c, Lived m.server.config.indexPath fd token c L := by
  obtain ⟨after, hs, rfl⟩ := hL
  cases H.lives.fate hs with
  | replaced _ He | gone _ He => exact .inl He
  | living _ _ _ He => exact .inr ⟨_, _, He⟩

/-- On every connection there is one reply or none. It is the refusal, in one call, where what was
received is no request, and the header and the page as far as they got where it is one. At most
`requestSize` bytes are received, and with all of the reply out the connection is closed. -/
theorem one_reply {m : Moment} (H : Reachable m) {fd : Fd} {L : List Occurrence}
    (hL : Lifetime m.history fd L) :
    (received (operations L)).length ≤ Connection.requestSize ∧
    (∀ content, Steady content (turns L) →
      Conversation m.server.config.indexPath content (operations L) (turns L)) ∧
    (Finished (turns L) → .call (.close fd) ∈ L) := by
  rcases hL.ended_or_lived H with He | ⟨token, c, Hl⟩
  · exact ⟨He.upright.length_le, fun _ => He.upright.conversation, fun _ => He.closes⟩
  · have hu := Hl.underway
    refine ⟨hu.upright.length_le, fun _ => hu.upright.conversation, fun hf => ?_⟩
    exact absurd hf hu.unfinished

/-- A server that has sent a page of two bytes. -/
def Moment.answered : Moment :=
  Moment.greeted.report
    { event := ⟨1, { input := true }⟩
      pending := { recv := [.ok (Text.bytes "GET / x\n")] } }
    [.write "./index.html" (Text.bytes "hi")]

theorem Reachable.answered : Reachable .answered := Reachable.greeted.report _ _

/-- The life of the connection that it was sent on. -/
def Moment.answer : List Occurrence := life 501 (Moment.answered.history.drop 2)

theorem one_reply_answered :
    Lifetime Moment.answered.history 501 Moment.answer ∧
    Steady (.ofBytes (Text.bytes "hi")) (turns Moment.answer) ∧
    Conversation "./index.html" (.ofBytes (Text.bytes "hi")) (operations Moment.answer)
      (turns Moment.answer) ∧
    written (operations Moment.answer) = Response.header ++ Text.bytes "hi" := by
  have haccepted : Moment.answered.history[1]? = some (.call (.accept 3 (.ok 501))) := rfl
  have hL : Lifetime Moment.answered.history 501 Moment.answer :=
    ⟨_, .of_getElem? haccepted, rfl⟩
  have hs : Steady (.ofBytes (Text.bytes "hi")) (turns Moment.answer) := by decide +kernel
  exact ⟨hL, hs, (one_reply Reachable.answered hL).2.1 _ hs, by decide +kernel⟩

end OnePage
