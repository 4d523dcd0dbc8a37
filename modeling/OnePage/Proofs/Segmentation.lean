import OnePage.Proofs.Totals

/-! # Requests in pieces

What becomes of a request depends on its bytes alone, not on the pieces in which they come. A
request is ruled on as soon as its line is there or cannot be there any more (`Request.ruling`),
and the rulings on two connections to which the same bytes are sent are the same. The total of
requests counts the connections on which a line has come, each of them once. -/

namespace OnePage
open EventQueue

/-- What is thought of a request, as far as it has come. -/
inductive Ruling where
  | undecided
  | malformed
  | understood (line : RequestLine)
  deriving DecidableEq, Repr

namespace Request
variable {request stream : List UInt8}

/-- What is to be thought of a request of which `stream` is sent. -/
def ruling (stream : List UInt8) : Ruling :=
  if hasLine (stream.take Connection.requestSize) then
    match parse stream with
    | .error _ => .malformed
    | .ok line => .understood line
  else if stream.length < Connection.requestSize then .undecided else .malformed

theorem hasLine_iff : hasLine request = true ↔ lineFeed ∈ request := by
  simp [hasLine]

theorem hasLine_eq_false_iff : hasLine request = false ↔ lineFeed ∉ request := by
  simp [hasLine]

/-- The first line is there once its end is. -/
theorem firstLine_append (h : lineFeed ∈ request) (more : List UInt8) :
    firstLine (request ++ more) = firstLine request := by
  induction request with
  | nil => cases h
  | cons b request ih =>
    by_cases hb : endsLine b = true
    · simp [firstLine, hb]
    · have hne : lineFeed ≠ b := fun he => hb (he ▸ rfl)
      have h' : lineFeed ∈ request := (List.mem_cons.1 h).resolve_left hne
      have ih' := ih h'
      simp only [firstLine] at ih' ⊢
      simp [hb, ih']

theorem parse_of_beginning (h : lineFeed ∈ request) (hp : request <+: stream) :
    parse stream = parse request := by
  obtain ⟨more, rfl⟩ := hp
  exact parse_eq_of_firstLine_eq (firstLine_append h more)

theorem length_tokens_lt_iff : (tokens request).length < 3 ↔ ∃ e, parse request = .error e := by
  constructor
  · intro h
    cases hp : parse request with
    | error e => exact ⟨e, rfl⟩
    | ok line =>
      have := tokens_of_parse_ok hp
      omega
  · rintro ⟨e, hp⟩
    exact tokens_of_parse_error hp

theorem ruling_eq_undecided_iff : ruling stream = .undecided ↔
    stream.length < Connection.requestSize ∧ lineFeed ∉ stream := by
  rw [ruling]
  split
  · rename_i h
    have hmem : lineFeed ∈ stream := List.mem_of_mem_take (hasLine_iff.1 h)
    constructor
    · intro h'
      split at h' <;> cases h'
    · rintro ⟨-, hn⟩
      exact absurd hmem hn
  · rename_i h
    have h : lineFeed ∉ stream.take Connection.requestSize := fun hm => h (hasLine_iff.2 hm)
    split
    · rename_i hlt
      rw [List.take_of_length_le (Nat.le_of_lt hlt)] at h
      exact ⟨fun _ => ⟨hlt, h⟩, fun _ => rfl⟩
    · rename_i hlt
      exact ⟨fun h' => absurd h' Ruling.noConfusion, fun h' => absurd h'.1 hlt⟩

theorem ruling_eq_malformed_iff : ruling stream = .malformed ↔
    lineFeed ∉ stream.take Connection.requestSize ∧ Connection.requestSize ≤ stream.length ∨
      lineFeed ∈ stream.take Connection.requestSize ∧ (tokens stream).length < 3 := by
  rw [ruling, length_tokens_lt_iff]
  split
  · rename_i h
    have hmem := hasLine_iff.1 h
    cases hp : parse stream with
    | error e => exact ⟨fun _ => .inr ⟨hmem, e, rfl⟩, fun _ => rfl⟩
    | ok line => simp [hmem]
  · rename_i h
    have h : lineFeed ∉ stream.take Connection.requestSize := fun hm => h (hasLine_iff.2 hm)
    split
    · rename_i hlt
      simp [h, hlt]
    · rename_i hlt
      simp [h, Nat.not_lt.1 hlt]

theorem ruling_eq_understood_iff {line : RequestLine} : ruling stream = .understood line ↔
    lineFeed ∈ stream.take Connection.requestSize ∧ parse stream = .ok line := by
  rw [ruling]
  split
  · rename_i h
    have hmem := hasLine_iff.1 h
    cases hp : parse stream with
    | error e => simp
    | ok line' => simp [hmem]
  · rename_i h
    have h : lineFeed ∉ stream.take Connection.requestSize := fun hm => h (hasLine_iff.2 hm)
    split <;> simp [h]

end Request

namespace Operation

def isRecv : Operation → Bool
  | recv .. => true
  | _ => false

/-- Whether what is received, if anything, is a piece, or has still to come. -/
def isPiece : Operation → Bool
  | recv _ (.ok data) => !data.isEmpty
  | recv _ (.error e) => e = .EAGAIN
  | _ => true

end Operation

def Stage.isAccepted : Stage → Bool
  | accepted => true
  | _ => false

/-- How a ruling on a request shows in what is done about it. -/
inductive Ruled (ops : List Operation) (turns : List Turn) : Ruling → Prop
  /-- More is waited for. -/
  | undecided (ho : ∀ op ∈ ops, op.isRecv)
    (hs : ∀ t ∈ turns, t.after.stage.isAccepted) :
    Ruled ops turns .undecided
  /-- It is refused, and that is all. -/
  | malformed {before : List Operation} {result : Except Errno (List UInt8)}
    (ho : ops = before ++ [.send Response.badRequestBytes.length result])
    (hb : ∀ op ∈ before, op.isRecv)
    (hs : ∃ t ∈ turns, t.verdict = .close ∧ t.after.status = some .badRequest) :
    Ruled ops turns .malformed
  /-- The page is opened for it, and nothing more is received. Its parts are what the log shows. -/
  | understood {before after : List Operation} {page : String} {opened : Bool} {line : RequestLine}
    (ho : ops = before ++ .openPage page opened :: after) (hb : ∀ op ∈ before, op.isRecv)
    (ha : ∀ op ∈ after, op.isRecv = false) (hp : Request.parse (received ops) = .ok line)
    (hs : ∃ t ∈ turns, t.after.requestLine = some (Connection.logRequest line)) :
    Ruled ops turns (.understood line)

theorem Ruled.unique {ops : List Operation} {turns : List Turn} {r r' : Ruling}
    (H : Ruled ops turns r) (H' : Ruled ops turns r') : r = r' := by
  have hsend {result : Except Errno (List UInt8)} {before : List Operation}
      (ho : ops = before ++ [.send Response.badRequestBytes.length result]) :
      .send Response.badRequestBytes.length result ∈ ops := by simp [ho]
  have hopen {before after : List Operation} {page : String} {opened : Bool}
      (ho : ops = before ++ .openPage page opened :: after) : .openPage page opened ∈ ops := by
    simp [ho]
  -- the page is opened for no request that is refused
  have hne {before before' after : List Operation} {result : Except Errno (List UInt8)}
      {page : String} {opened : Bool}
      (ho : ops = before ++ [.send Response.badRequestBytes.length result])
      (hb : ∀ op ∈ before, op.isRecv) (ho' : ops = before' ++ .openPage page opened :: after) :
      False := by
    have hmem := hopen ho'
    rw [ho] at hmem
    rcases List.mem_append.1 hmem with hmem | hmem
    · exact absurd (hb _ hmem) Bool.noConfusion
    · cases List.mem_singleton.1 hmem
  cases H with
  | undecided ho =>
    cases H' with
    | undecided => rfl
    | malformed ho' => exact absurd (ho _ (hsend ho')) Bool.noConfusion
    | understood ho' => exact absurd (ho _ (hopen ho')) Bool.noConfusion
  | malformed ho hb =>
    cases H' with
    | undecided ho' => exact absurd (ho' _ (hsend ho)) Bool.noConfusion
    | malformed => rfl
    | understood ho' => exact (hne ho hb ho').elim
  | understood ho _ _ hp =>
    cases H' with
    | undecided ho' => exact absurd (ho' _ (hopen ho)) Bool.noConfusion
    | malformed ho' hb' => exact (hne ho' hb' ho).elim
    | understood _ _ _ hp' =>
      rw [hp] at hp'
      cases hp'
      rfl

/-- Whether a request comes in pieces, with no error and no hangup while it does. -/
structure Undisturbed (ops : List Operation) (turns : List Turn) : Prop where
  conditions : ∀ t ∈ turns, t.before.stage.isAccepted →
    t.conditions.error = false ∧ t.conditions.isHangup = false
  pieces : ∀ op ∈ ops, op.isPiece

/-- Whether all of `stream` is offered to a connection, which takes it in pieces until it has
ruled on it, and is not closed before. -/
structure Offered (stream : List UInt8) (fd : Fd) (L : List Occurrence) : Prop where
  undisturbed : Undisturbed (operations L) (turns L)
  taken : received (operations L) <+: stream
  all (h : ∀ t ∈ turns L, t.after.stage.isAccepted) :
    received (operations L) = stream ∧ .call (.close fd) ∉ L

theorem Undisturbed.append_left {ops more : List Operation} {turns new : List Turn}
    (H : Undisturbed (ops ++ more) (turns ++ new)) : Undisturbed ops turns where
  conditions t ht := H.conditions t (List.mem_append_left _ ht)
  pieces op ho := H.pieces op (List.mem_append_left _ ho)

/-! ## One turn -/

/-- How it stands with a request: more of it is awaited, or it has been understood. -/
inductive Hearing (c : Connection) (ops : List Operation) (turns : List Turn) : Prop
  | waiting (hs : c.stage = .accepted) (hr : c.response = none)
    (H : Awaiting ops turns c.request) (ho : ∀ op ∈ ops, op.isRecv)
    (hturns : ∀ t ∈ turns, t.after.stage.isAccepted) : Hearing c ops turns
  | understood {line : RequestLine} (hs : c.stage ≠ .accepted)
    (H : Ruled ops turns (.understood line)) (hl : Request.hasLine (received ops)) :
    Hearing c ops turns

/-- How a request is refused that came in pieces. -/
structure TurnedDown (ops : List Operation) (turns : List Turn) : Prop where
  ruled : Ruled ops turns .malformed
  cause : Request.hasLine (received ops) = false ∧
      (received ops).length = Connection.requestSize ∨
    Request.hasLine (received ops) ∧ ∃ e, Request.parse (received ops) = .error e

section
variable {c c' : Connection} {ops more : List Operation} {turns : List Turn} {t : Turn}
variable {ready : Conditions} {files : Files} {page : String} {now : Nanoseconds}
variable {stats stats' : Stats} {verdict : Verdict} {line : RequestLine}

theorem isRecv_of_isTransfer {op : Operation} (h : op.isTransfer) : op.isRecv = false := by
  cases op with
  | recv => cases h
  | _ => rfl

/-- A ruling in a request's favour stays. -/
theorem Ruled.append (H : Ruled ops turns (.understood line))
    (hm : ∀ op ∈ more, op.isRecv = false) (hr : received more = []) (t : Turn) :
    Ruled (ops ++ more) (turns ++ [t]) (.understood line) := by
  cases H with
  | @understood before after page opened _ ho hb ha hp hs =>
    obtain ⟨u, hu, hline⟩ := hs
    have happend : ops ++ more = before ++ .openPage page opened :: (after ++ more) := by
      rw [ho, List.append_assoc, List.cons_append]
    have hrecv : received (ops ++ more) = received ops := by
      rw [received_append, hr, List.append_nil]
    exact .understood happend hb (List.forall_mem_append.2 ⟨ha, hm⟩) (hrecv ▸ hp)
      ⟨u, List.mem_append_left _ hu, hline⟩

theorem Hearing.wait (hs : c'.stage = .accepted) (hr : c'.response = none)
    (H : Awaiting (ops ++ more) (turns ++ [t]) c'.request) (ho : ∀ op ∈ ops, op.isRecv)
    (hm : ∀ op ∈ more, op.isRecv)
    (hturns : ∀ t ∈ turns, t.after.stage.isAccepted) (ht : t.after = c') :
    Hearing c' (ops ++ more) (turns ++ [t]) := by
  refine .waiting hs hr H (List.forall_mem_append.2 ⟨ho, hm⟩) fun u hu => ?_
  rcases List.mem_append.1 hu with hu | hu
  · exact hturns u hu
  · rw [List.mem_singleton.1 hu, ht, hs]
    rfl

/-- The page is opened for a request that has come in full. -/
theorem Hearing.open {request data : List UInt8} {n : Nat} {path : String} {opened : Bool}
    (H : Awaiting ops turns request) (ho : ∀ op ∈ ops, op.isRecv)
    (hl : Request.hasLine (request ++ data)) (hp : Request.parse (request ++ data) = .ok line)
    (hmore : ∀ op ∈ more, op.isTransfer) (hs : c'.stage ≠ .accepted)
    (hline : t.after.requestLine = some (Connection.logRequest line)) :
    Hearing c' (ops ++ .recv n (.ok data) :: .openPage path opened :: more) (turns ++ [t]) := by
  have hrecv : received (ops ++ .recv n (.ok data) :: .openPage path opened :: more) =
      request ++ data := by
    have hnone : received more = [] := received_of_isTransfer hmore
    rw [received_append, H.received]
    simpa using hnone
  have hruled : Ruled (ops ++ .recv n (.ok data) :: .openPage path opened :: more) (turns ++ [t])
      (.understood line) :=
    .understood (List.append_cons ops _ _)
      (List.forall_mem_append.2 ⟨ho, List.forall_mem_singleton.2 rfl⟩)
      (fun op hop => isRecv_of_isTransfer (hmore op hop)) (hrecv ▸ hp)
      ⟨t, List.mem_append_right _ (List.mem_singleton_self t), hline⟩
  exact .understood hs hruled (hrecv ▸ hl)

/-- A request is refused that has no line, and no more room for one, or too little on it. -/
theorem TurnedDown.refuse {request data : List UInt8} {n : Nat} {op : Operation}
    (H : Awaiting ops turns request) (ho : ∀ op ∈ ops, op.isRecv)
    (Hr : Response.Refuses stats op stats') (hv : t.verdict = .close)
    (hstatus : t.after.status = some .badRequest)
    (hcause : Request.hasLine (request ++ data) = false ∧
        (request ++ data).length = Connection.requestSize ∨
      Request.hasLine (request ++ data) ∧ ∃ e, Request.parse (request ++ data) = .error e) :
    TurnedDown (ops ++ [.recv n (.ok data), op]) (turns ++ [t]) := by
  obtain ⟨reply, rfl, -⟩ := Hr.eq_send
  have hrecv : received (ops ++ [.recv n (.ok data), .send Response.badRequestBytes.length reply]) =
      request ++ data := by
    rw [received_append, H.received]
    exact congrArg (request ++ ·) (List.append_nil data)
  refine ⟨.malformed (List.append_cons ops _ _)
    (List.forall_mem_append.2 ⟨ho, List.forall_mem_singleton.2 rfl⟩)
    ⟨t, List.mem_append_right _ (List.mem_singleton_self t), hv, hstatus⟩, ?_⟩
  rw [hrecv]
  exact hcause

theorem Connection.continued_requestLine {r : Response} {result : Except SendError Progress}
    (h : c.continued r result = (verdict, c')) : c'.requestLine = c.requestLine := by
  unfold continued at h
  split at h
  · cases h; rfl
  · split at h <;> cases h <;> rfl
  · cases h; rfl

theorem Connection.continued_not_accepted {r : Response} {result : Except SendError Progress}
    (h : c.continued r result = (verdict, c')) (hs : c.stage ≠ .accepted) :
    c'.stage ≠ .accepted := by
  rcases continued_stage h with ⟨-, -, hs'⟩ | ⟨-, hs'⟩
  · rw [hs']
    exact Stage.noConfusion
  · rwa [hs']

/-- While nothing disturbs it, a request is listened to until it is there, and is refused only for
what it is. -/
theorem Hearing.turn (H : Hearing c ops turns)
    (Hh : c.Handles ready files page now stats more verdict c' stats')
    (hu : Undisturbed (ops ++ more) (turns ++ [⟨c, ready, files, now, verdict, c'⟩])) :
    Hearing c' (ops ++ more) (turns ++ [⟨c, ready, files, now, verdict, c'⟩]) ∨
      verdict = .close ∧
        TurnedDown (ops ++ more) (turns ++ [⟨c, ready, files, now, verdict, c'⟩]) := by
  have hlast : (⟨c, ready, files, now, verdict, c'⟩ : Turn) ∈
      turns ++ [⟨c, ready, files, now, verdict, c'⟩] :=
    List.mem_append_right _ (List.mem_singleton_self _)
  cases H with
  | waiting hs hr H ho hturns =>
    obtain ⟨herror, hhangup⟩ : ready.error = false ∧ ready.isHangup = false :=
      hu.conditions _ hlast (by rw [hs]; rfl)
    have hpiece {op : Operation} (hmem : op ∈ more) : op.isPiece :=
      hu.pieces op (List.mem_append_right _ hmem)
    have hno {room : Nat} {result : Except Errno (List UInt8)}
        (hp : (Operation.recv room result).isPiece) (hr : Connection.NoMore ready result) :
        False := by
      rcases hr with rfl | ⟨-, hh⟩
      · cases hp
      · rw [hhangup] at hh
        cases hh
    cases Hh with
    | broken he => exact absurd (herror.symm.trans he) Bool.noConfusion
    | nothing =>
      refine .inl (.wait hs hr ?_ ho (List.forall_mem_singleton.2 rfl) hturns rfl)
      exact H.wait rfl (List.append_nil c.request).symm H.length_lt H.noLine ⟨hs, hr⟩
    | recvFailed _ _ hne =>
      have hp := hpiece (List.mem_singleton_self _)
      exact absurd (of_decide_eq_true hp) hne
    | gone _ _ _ hno' => exact (hno (hpiece (List.mem_singleton_self _)) hno').elim
    | cutOff _ _ _ hno' => exact (hno (hpiece (List.mem_cons_self ..)) hno').elim
    | @more data _ _ _ _ hl hlt =>
      refine .inl (.wait hs hr ?_ ho (List.forall_mem_singleton.2 rfl) hturns rfl)
      have hrecv : (c.gather now data).request =
          c.request ++ received [.recv (Connection.room c.request) (.ok data)] :=
        congrArg (c.request ++ ·) (List.append_nil data).symm
      exact H.wait rfl hrecv hlt hl ⟨hs, hr⟩
    | unfinished _ _ _ hle hl hr Hr =>
      have hfull := hr.resolve_right (by simp [hhangup])
      exact .inr ⟨rfl, .refuse H ho Hr rfl rfl
        (.inl ⟨hl, Nat.le_antisymm (H.length_append_le hle) hfull⟩)⟩
    | malformed _ _ _ _ hl hp Hr =>
      exact .inr ⟨rfl, .refuse H ho Hr rfl rfl (.inr ⟨hl, _, hp⟩)⟩
    | unopened _ _ _ _ hl hp => exact .inl (.open H ho hl hp (by simp) Stage.noConfusion rfl)
    | replied _ _ _ _ hl hp _ Hd hc =>
      exact .inl (.open H ho hl hp Hd.isTransfer
        (Connection.continued_not_accepted hc Stage.noConfusion)
        (Connection.continued_requestLine hc))
    | closedEarly _ hs' | notWritable _ hs' | unanswerable _ hs' | resumed _ hs' =>
      cases hs.symm.trans hs'
    | spent _ hs' => exact absurd hs hs'
  | understood hs H hl =>
    have hstay (hm : ∀ op ∈ more, op.isRecv = false) (hr : received more = [])
        (hs' : c'.stage ≠ .accepted) :
        Hearing c' (ops ++ more) (turns ++ [⟨c, ready, files, now, verdict, c'⟩]) := by
      refine .understood hs' (H.append hm hr _) ?_
      rw [received_append, hr, List.append_nil]
      exact hl
    cases Hh with
    | broken | closedEarly | notWritable | unanswerable | spent =>
      exact .inl (hstay (by simp [Operation.isRecv]) rfl hs)
    | resumed _ _ _ _ _ Hd hc =>
      exact .inl (hstay (fun op ho => isRecv_of_isTransfer (Hd.isTransfer op ho))
        (received_of_isTransfer Hd.isTransfer) (Connection.continued_not_accepted hc hs))
    | nothing _ hs' | recvFailed _ hs' | gone _ hs' | cutOff _ hs' | more _ hs' | unfinished _ hs'
      | malformed _ hs' | unopened _ hs' | replied _ hs' => exact absurd hs' hs

end

/-! ## A whole life -/

section
variable {page : String} {fd : Fd} {token : Token} {c : Connection} {L : List Occurrence}

theorem Lived.hearing (H : Lived page fd token c L)
    (hu : Undisturbed (operations L) (turns L)) : Hearing c (operations L) (turns L) := by
  induction H with
  | registered hr =>
    have hops : operations ((Call.setNonblocking fd (.ok ()) :: _).map .call) = [] := hr.operations
    rw [hops, turns_calls]
    have hsize : 0 < Connection.requestSize := by decide
    exact .waiting rfl rfl ⟨rfl, rfl, hsize, rfl, by simp⟩ (by simp) (by simp)
  | waited H Hh ih =>
    rw [operations_append, operations_turn, operations_operations, turns_taken] at hu ⊢
    exact ((ih hu.append_left).turn Hh hu).resolve_right fun h => by cases h.1
  | rearmed H Hh ih =>
    rw [operations_taken _ _ _ rfl, turns_taken] at hu ⊢
    exact ((ih hu.append_left).turn Hh hu).resolve_right fun h => by cases h.1

/-- What has ended before it had a turn, has been heard, or has been refused. -/
theorem Ended.heard (H : Ended page fd L) (hu : Undisturbed (operations L) (turns L)) :
    turns L = [] ∨ (∃ c, Hearing c (operations L) (turns L)) ∨
      TurnedDown (operations L) (turns L) := by
  cases H with
  | refused => exact .inl rfl
  | unregistered => exact .inl (turns_calls _)
  | @closed _ c L deleted H =>
    have hops : operations ([Call.delete fd deleted, .close fd].map .call) = [] := rfl
    rw [operations_append, turns_append, turns_calls, hops, List.append_nil,
      List.append_nil] at hu ⊢
    exact .inr (.inl ⟨c, H.hearing hu⟩)
  | finished H Hh =>
    rw [operations_taken _ _ _ rfl, turns_taken] at hu ⊢
    rcases (H.hearing hu.append_left).turn Hh hu with Hc | ⟨-, Hd⟩
    · exact .inr (.inl ⟨_, Hc⟩)
    · exact .inr (.inr Hd)
  | unarmed H Hh =>
    rw [operations_taken _ _ _ rfl, turns_taken] at hu ⊢
    rcases (H.hearing hu.append_left).turn Hh hu with Hc | ⟨-, Hd⟩
    · exact .inr (.inl ⟨_, Hc⟩)
    · exact .inr (.inr Hd)

/-- A ruling is on the bytes that are sent, however many of them have been taken. -/
theorem Offered.ruled {stream : List UInt8} (Ho : Offered stream fd L)
    (hL : Ended page fd L ∨ ∃ token c, Lived page fd token c L) :
    Ruled (operations L) (turns L) (Request.ruling stream) ∧
      counted L = Request.hasLine (stream.take Connection.requestSize) := by
  have hle : (received (operations L)).length ≤ Connection.requestSize := by
    rcases hL with He | ⟨token, c, Hl⟩
    · exact He.upright.length_le
    · exact Hl.underway.upright.length_le
  have hheard : (∃ c, Hearing c (operations L) (turns L)) ∨
      TurnedDown (operations L) (turns L) := by
    rcases hL with He | ⟨token, c, Hl⟩
    · refine (He.heard Ho.undisturbed).resolve_left fun hnone => ?_
      exact (Ho.all (by simp [hnone])).2 He.closes
    · exact .inl ⟨c, Hl.hearing Ho.undisturbed⟩
  have htaken : received (operations L) <+: stream.take Connection.requestSize :=
    List.prefix_take_iff.2 ⟨Ho.taken, hle⟩
  -- with the line there, all that is sent after it makes no difference
  have hline (hl : Request.hasLine (received (operations L))) :
      Request.lineFeed ∈ stream.take Connection.requestSize ∧
        Request.parse stream = Request.parse (received (operations L)) :=
    ⟨htaken.subset (Request.hasLine_iff.1 hl),
      Request.parse_of_beginning (Request.hasLine_iff.1 hl) Ho.taken⟩
  have hcounted (hl : Request.hasLine (received (operations L))) :
      counted L = Request.hasLine (stream.take Connection.requestSize) :=
    hl.trans (Request.hasLine_iff.2 (hline hl).1).symm
  rcases hheard with ⟨c, Hc⟩ | Hd
  · cases Hc with
    | waiting hs _ H ho hturns =>
      have hall := (Ho.all hturns).1
      have hlt := H.length_lt
      rw [← H.received, hall] at hlt
      have hl := H.noLine
      rw [← H.received, hall] at hl
      refine ⟨?_, ?_⟩
      · rw [Request.ruling_eq_undecided_iff.2 ⟨hlt, Request.hasLine_eq_false_iff.1 hl⟩]
        exact .undecided ho hturns
      · rw [counted, hall, List.take_of_length_le (Nat.le_of_lt hlt)]
    | @understood line _ H hl =>
      refine ⟨?_, hcounted hl⟩
      cases H with
      | understood ho hb ha hp hs =>
        obtain ⟨hmem, hparse⟩ := hline hl
        rw [Request.ruling_eq_understood_iff.2 ⟨hmem, hparse.trans hp⟩]
        exact .understood ho hb ha hp hs
  · rcases Hd.cause with ⟨hl, hfull⟩ | ⟨hl, e, hp⟩
    · have hall : received (operations L) = stream.take Connection.requestSize := by
        rw [← hfull]
        exact List.prefix_iff_eq_take.1 Ho.taken
      have hsize : Connection.requestSize ≤ stream.length := hfull ▸ Ho.taken.length_le
      refine ⟨?_, by rw [counted, hall]⟩
      rw [hall] at hl
      rw [Request.ruling_eq_malformed_iff.2 (.inl ⟨Request.hasLine_eq_false_iff.1 hl, hsize⟩)]
      exact Hd.ruled
    · obtain ⟨hmem, hparse⟩ := hline hl
      have hshort := Request.length_tokens_lt_iff.2 ⟨e, hparse.trans hp⟩
      refine ⟨?_, hcounted hl⟩
      rw [Request.ruling_eq_malformed_iff.2 (.inr ⟨hmem, hshort⟩)]
      exact Hd.ruled

end

/-- Of a request that is sent to two connections, cut up in whatever way, the same is thought on
both: it is waited for as long as there is neither a line nor too much, it is refused if there is no
line where there has to be one or too little on it, and otherwise its parts are the same. It is
counted for the one exactly if it is for the other, and each connection is counted at most once. -/
theorem segmentation_immaterial {m m' : Moment} (H : Reachable m) (H' : Reachable m')
    {fd fd' : Fd} {L L' : List Occurrence} (hL : Lifetime m.history fd L)
    (hL' : Lifetime m'.history fd' L') {stream : List UInt8} (ho : Offered stream fd L)
    (ho' : Offered stream fd' L') :
    (∃ r, (∀ r', Ruled (operations L) (turns L) r' ↔ r' = r) ∧
      (∀ r', Ruled (operations L') (turns L') r' ↔ r' = r) ∧
      (r = .undecided ↔
        stream.length < Connection.requestSize ∧ Request.lineFeed ∉ stream) ∧
      (r = .malformed ↔
        Request.lineFeed ∉ stream.take Connection.requestSize ∧
            Connection.requestSize ≤ stream.length ∨
          Request.lineFeed ∈ stream.take Connection.requestSize ∧
            (Request.tokens stream).length < 3) ∧
      ∀ line, r = .understood line ↔
        Request.lineFeed ∈ stream.take Connection.requestSize ∧
          Request.parse stream = .ok line) ∧
    counted L = counted L' ∧
    (L ∈ lives m.history ∧ m.server.stats.requests = (lives m.history).countP counted) ∧
    (L' ∈ lives m'.history ∧ m'.server.stats.requests = (lives m'.history).countP counted) := by
  obtain ⟨hr, hc⟩ := ho.ruled (hL.ended_or_lived H)
  obtain ⟨hr', hc'⟩ := ho'.ruled (hL'.ended_or_lived H')
  refine ⟨⟨Request.ruling stream, fun r => ⟨fun h => h.unique hr, fun h => h ▸ hr⟩,
    fun r => ⟨fun h => h.unique hr', fun h => h ▸ hr'⟩, Request.ruling_eq_undecided_iff,
    Request.ruling_eq_malformed_iff, fun line => Request.ruling_eq_understood_iff⟩,
    hc.trans hc'.symm, ⟨hL.mem_lives, H.countsRequests⟩, ⟨hL'.mem_lives, H'.countsRequests⟩⟩

/-- A server that has sent a page of two bytes for a request that came in two pieces. -/
def Moment.pieced : Moment :=
  ((Moment.greeted.report
    { event := ⟨1, { input := true }⟩, pending := { recv := [.ok (Text.bytes "GET /")] } }
    []).report { event := ⟨1, { input := true }⟩ } []).report
    { event := ⟨1, { input := true }⟩, pending := { recv := [.ok (Text.bytes " x\n")] } }
    [.write "./index.html" (Text.bytes "hi")]

theorem Reachable.pieced : Reachable .pieced :=
  ((Reachable.greeted.report _ _).report _ _).report _ _

theorem segmentation_immaterial_pieced :
    ∃ L, Lifetime Moment.pieced.history 501 L ∧ Offered (Text.bytes "GET / x\n") 501 L ∧
      Lifetime Moment.answered.history 501 Moment.answer ∧
      Offered (Text.bytes "GET / x\n") 501 Moment.answer ∧
      (operations L).length = 6 ∧ (operations Moment.answer).length = 4 ∧
      ∀ r, Ruled (operations L) (turns L) r ↔
        Ruled (operations Moment.answer) (turns Moment.answer) r := by
  have haccepted : Moment.pieced.history[1]? = some (.call (.accept 3 (.ok 501))) := rfl
  have haccepted' : Moment.answered.history[1]? = some (.call (.accept 3 (.ok 501))) := rfl
  have hL : Lifetime Moment.pieced.history 501 (life 501 (Moment.pieced.history.drop 2)) :=
    ⟨_, .of_getElem? haccepted, rfl⟩
  have hL' : Lifetime Moment.answered.history 501 Moment.answer :=
    ⟨_, .of_getElem? haccepted', rfl⟩
  have ho : Offered (Text.bytes "GET / x\n") 501 (life 501 (Moment.pieced.history.drop 2)) := by
    have hdone : ¬ ∀ t ∈ turns (life 501 (Moment.pieced.history.drop 2)),
        t.after.stage.isAccepted := by decide +kernel
    exact ⟨⟨by decide +kernel, by decide +kernel⟩, by decide +kernel, fun h => absurd h hdone⟩
  have ho' : Offered (Text.bytes "GET / x\n") 501 Moment.answer := by
    have hdone : ¬ ∀ t ∈ turns Moment.answer, t.after.stage.isAccepted := by decide +kernel
    exact ⟨⟨by decide +kernel, by decide +kernel⟩, by decide +kernel, fun h => absurd h hdone⟩
  obtain ⟨⟨r, hr, hr', -⟩, -⟩ :=
    segmentation_immaterial Reachable.pieced Reachable.answered hL hL' ho ho'
  exact ⟨_, hL, ho, hL', ho', by decide +kernel, by decide +kernel,
    fun r' => (hr r').trans (hr' r').symm⟩

end OnePage
