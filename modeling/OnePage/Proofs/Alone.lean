import Mathlib.Data.List.Forall2
import OnePage.Proofs.Moves

/-! # A connection on its own

A machine for one connection and nothing else: it is given what becomes of its own calls, what the
page is and what time it is, and yields what the connection does and how it is then (`Alone.run`).
Descriptors, tokens and files have no numbers here, and there is no table, no listener and no other
connection. What a server does for a connection on an event, when it accepts it or when it closes
it is what this machine does on the same answers (`Concludes.step`, `Adopts.alone`,
`Closing.alone`). -/

namespace OnePage

/-- What an operation on a connection's socket gives back. -/
inductive Answer where
  | received (result : Except Errno (List UInt8))
  /-- How many bytes were taken, by a call that sends. -/
  | taken (result : Except Errno Nat)
  /-- What came of asking for the error, and the error. -/
  | error (asked : Outcome) (cause : Option Errno)
  deriving DecidableEq

/-- What an operation has given back, where `cause` is the error that the socket has to tell. What
came of opening the page is not the socket's. -/
def Operation.answer? (cause : Option Errno) : Operation → Option Answer
  | .openPage .. => none
  | .recv _ result => some (.received result)
  | .send _ result => some (.taken (result.map List.length))
  | .sendfile _ _ result => some (.taken (result.map List.length))
  | .takeError result => some (.error result cause)

/-- Whether what an operation does depends on the page. -/
def Operation.readsPage : Operation → Bool
  | .openPage .. => true
  | .sendfile .. => true
  | _ => false

section
variable (cause : Option Errno)

@[simp] theorem Operation.answer?_openPage (path : String) (opened : Bool) :
    (openPage path opened).answer? cause = none := rfl

@[simp] theorem Operation.answer?_recv (room : Nat) (result : Except Errno (List UInt8)) :
    (recv room result).answer? cause = some (.received result) := rfl

@[simp] theorem Operation.answer?_send (asked : Nat) (result : Except Errno (List UInt8)) :
    (send asked result).answer? cause = some (.taken (result.map List.length)) := rfl

@[simp] theorem Operation.answer?_sendfile (offset asked : Nat)
    (result : Except Errno (List UInt8)) :
    (sendfile offset asked result).answer? cause = some (.taken (result.map List.length)) := rfl

@[simp] theorem Operation.answer?_takeError (result : Outcome) :
    (takeError result).answer? cause = some (.error result cause) := rfl

end

namespace Response

/-- A reply, whatever the number of its file. -/
def nameless (r : Response) : Response := { r with file := 0 }

/-- What sending on comes to where nothing is asked of the socket. -/
def settled (r : Response) : Except SendError Progress :=
  if r.sent < r.length then .error .tooLarge else .ok .complete

/-- Sends on while the page is `content`: the operations that are made, their result and the reply
afterwards, by what each call takes. -/
def play (content : Content) :
    List Answer → Response → List Operation × Except SendError Progress × Response
  | .taken result :: answers, r =>
    if r.headerSent < header.length then
      let op := Operation.send (header.length - r.headerSent)
        (result.map (header.drop r.headerSent).take)
      match result with
      | .error e => ([op], if e = .EAGAIN then .ok .blocked else .error (.header e), r)
      | .ok 0 => ([op], .error .headerClosed, r)
      | .ok n =>
        let (ops, rest) := play content answers { r with headerSent := r.headerSent + n }
        (op :: ops, rest)
    else if r.sent < r.length ∧ r.sent < offsetLimit then
      let op := Operation.sendfile r.sent r.request (result.map (content.read r.sent))
      match result with
      | .error e => ([op], if e = .EAGAIN then .ok .blocked else .error (.sendfile e), r)
      | .ok 0 => ([op], .error (.shrank r.sent r.length), r)
      | .ok n =>
        let (ops, rest) := play content answers { r with sent := r.sent + n }
        (op :: ops, rest)
    else ([], r.settled, r)
  | _, r => ([], r.settled, r)

/-- What is done of a reply is what its answers lead to, with the page as it was if any of it was
sent. -/
theorem Delivers.play {content page : Content} {r r' : Response} {stats stats' : Stats}
    {ops : List Operation} {result : Except SendError Progress}
    (H : Delivers content r stats ops result r' stats')
    (hpage : (∃ op ∈ ops, op.readsPage) → page = content) (cause : Option Errno) :
    Response.play page (ops.filterMap (·.answer? cause)) r.nameless =
      (ops, result, r'.nameless) := by
  induction H with
  | complete hh hs =>
    have hs := Nat.not_lt.2 hs
    simp [Response.play, settled, nameless, hs]
  | tooLarge hh hs => simp [Response.play, settled, nameless, hs]
  | headerStopped hh => simp [Response.play, nameless, hh, Except.map]
  | headerClosed hh => simp [Response.play, nameless, hh, Except.map]
  | @header r _ _ _ n ops _ hn hle _ ih =>
    have hh : r.headerSent < Response.header.length := by omega
    have hlength : ((Response.header.drop r.headerSent).take n).length = n := by
      rw [List.length_take, List.length_drop]
      omega
    have ih := ih fun ⟨op, hop, h⟩ => hpage ⟨op, List.mem_cons_of_mem _ hop, h⟩
    obtain ⟨n, rfl⟩ : ∃ m, n = m + 1 := ⟨n - 1, by omega⟩
    rw [List.filterMap_cons_some (Operation.answer?_send ..)]
    simp only [nameless, Except.map, hlength] at ih ⊢
    simp only [Response.play, hh, if_true, Except.map, ih]
  | bodyStopped hh hs ho =>
    have hh := Nat.not_lt.2 hh
    simp [Response.play, nameless, hh, hs, ho, Except.map, request]
  | shrank hh hs ho =>
    have hh := Nat.not_lt.2 hh
    simp [Response.play, nameless, hh, hs, ho, Except.map, request, Content.read_eq]
  | @body r _ _ _ data _ _ hh hs ho hn hdata _ _ ih =>
    have hh := Nat.not_lt.2 hh
    obtain rfl : page = content := hpage ⟨_, List.mem_cons_self .., rfl⟩
    obtain ⟨n, hlength⟩ : ∃ n, data.length = n + 1 :=
      Nat.exists_eq_succ_of_ne_zero (by simpa using hn)
    have hread : page.read r.sent (n + 1) = data := by
      rw [Content.read_eq, ← hlength, ← hdata]
    have ih := ih fun _ => rfl
    rw [List.filterMap_cons_some (Operation.answer?_sendfile ..)]
    simp only [nameless, Except.map, hlength] at ih ⊢
    simp only [Response.play, hh, if_false, hs, ho, and_self, if_true, Except.map, ih, hread,
      request]

end Response

namespace Connection

/-- A connection, whatever the numbers of its socket and of its file. -/
def nameless (c : Connection) : Connection :=
  { c with socket := 0, response := c.response.map Response.nameless }

/-- What the page is to a connection: the file that it has under way, or else the one that it
would open. -/
def page (c : Connection) (files : Files) (path : String) : Except OpenError Content :=
  match c.stage, c.response with
  | .requestReceived, some r => .ok ((files.content? r.file).getD .empty)
  | _, _ => (Response.ofPath files path).map fun r => (files.content? r.file).getD .empty

/-- Replies that the request is not understood. -/
def refuse (c : Connection) : List Answer → List Operation × Verdict × Connection
  | .taken result :: _ =>
    ([.send Response.badRequestBytes.length (result.map Response.badRequestBytes.take)], .close,
      c.rejected)
  | _ => ([], .close, c.rejected)

/-- Ends with what has come of a request that will not be completed. -/
def giveUp (c : Connection) (answers : List Answer) : List Operation × Verdict × Connection :=
  if c.request = [] then ([], .close, c.fail) else c.refuse answers

/-- Looks at what has come of the request. -/
def heed (c : Connection) (ready : Conditions) (path : String) (page : Except OpenError Content)
    (answers : List Answer) : List Operation × Verdict × Connection :=
  if Request.hasLine c.request then
    match Request.parse c.request with
    | .error _ => c.refuse answers
    | .ok line =>
      let c := c.understand line
      match page with
      | .error e => ([.openPage path false], .fail (.opening e), c)
      | .ok content =>
        let opened : Response := { file := 0, headerSent := 0, length := content.size, sent := 0 }
        let (ops, result, r) := Response.play content answers opened
        (.openPage path true :: ops, (c.answered opened).continued r result)
  else if c.request.length < requestSize ∧ ready.isHangup = false then ([], .wait, c)
  else c.refuse answers

/-- What a connection does on an event, by what its calls give back: its operations, its verdict
and how it is then. -/
def hear (c : Connection) (ready : Conditions) (path : String) (page : Except OpenError Content)
    (now : Nanoseconds) (answers : List Answer) : List Operation × Verdict × Connection :=
  if ready.error then
    match answers with
    | .error asked cause :: _ => ([.takeError asked], .fail (.socket cause), c)
    | _ => ([], .wait, c)
  else
    match c.stage, answers with
    | .accepted, .received result :: answers =>
      let (ops, rest) := match result with
        | .error e =>
          if e = .EAGAIN then
            if ready.isHangup then c.giveUp answers else ([], .wait, c)
          else ([], .fail (.recv e), c)
        | .ok [] => c.giveUp answers
        | .ok data => (c.gather now data).heed ready path page answers
      (.recv (room c.request) result :: ops, rest)
    | .requestReceived, answers =>
      if ready.hangup then ([], .fail .closedEarly, c)
      else if ready.output then
        match c.response with
        | none => ([], .fail .noResponse, { c with lastActive := now })
        | some r =>
          let (ops, result, r) := Response.play (page.toOption.getD .empty) answers r
          (ops, { c with lastActive := now }.continued r result)
      else ([], .wait, c)
    | .accepted, _ => ([], .wait, c)
    | _, _ => ([], .close, c)

theorem nameless_fail (c : Connection) : c.fail.nameless = c.nameless.fail := rfl

theorem accessLine_nameless (c : Connection) (seconds zone : Int) :
    Log.accessLine c.nameless seconds zone = Log.accessLine c seconds zone := by
  have hsent : c.nameless.bytesSent = c.bytesSent := by
    cases h : c.response <;> simp [bytesSent, nameless, h, Response.nameless]
  simp only [Log.accessLine, hsent]
  rfl

theorem continued_nameless {c c' : Connection} {r : Response}
    {result : Except SendError Progress} {verdict : Verdict}
    (h : c.continued r result = (verdict, c')) :
    c.nameless.continued r.nameless result = (verdict, c'.nameless) := by
  rcases result with e | _ | _
  · cases h
    rfl
  · cases h
    rfl
  · by_cases hi : c.interest = .write <;> simp only [continued, hi, if_true, if_false] at h <;>
      cases h <;> simp [continued, nameless, hi]

theorem refuse_refuses {stats stats' : Stats} {op : Operation}
    (H : Response.Refuses stats op stats') (c : Connection) (cause : Option Errno) :
    c.refuse ([op].filterMap (·.answer? cause)) = ([op], .close, c.rejected) := by
  cases H with
  | @sent n hn =>
    have hlength : (Response.badRequestBytes.take n).length = n := by
      rw [List.length_take]
      omega
    simp only [List.filterMap_cons, List.filterMap_nil, Operation.answer?_send, refuse, Except.map,
      hlength]
  | failed e => rfl

section
variable {c : Connection} {ready : Conditions} {data : List UInt8} {path : String}
variable {page : Except OpenError Content} {now : Nanoseconds} {answers : List Answer}

/-- More of the request has come. -/
theorem hear_data (he : ready.error = false) (hs : c.stage = .accepted) (hd : data ≠ []) :
    c.nameless.hear ready path page now (.received (.ok data) :: answers) =
      let heeded := (c.gather now data).nameless.heed ready path page answers
      (.recv (room c.request) (.ok data) :: heeded.1, heeded.2) := by
  obtain ⟨b, bs, rfl⟩ := List.exists_cons_of_ne_nil hd
  have hs : c.nameless.stage = .accepted := hs
  simp only [hear, he, hs, Bool.false_eq_true, if_false]
  rfl

/-- No more of the request will come. -/
theorem hear_noMore {result : Except Errno (List UInt8)} (he : ready.error = false)
    (hs : c.stage = .accepted) (hr : NoMore ready result) :
    c.nameless.hear ready path page now (.received result :: answers) =
      let last := c.nameless.giveUp answers
      (.recv (room c.request) result :: last.1, last.2) := by
  have hs : c.nameless.stage = .accepted := hs
  rcases hr with rfl | ⟨rfl, hh⟩
  · simp only [hear, he, hs, Bool.false_eq_true, if_false]
    rfl
  · simp only [hear, he, hs, hh, Bool.false_eq_true, if_false, if_true]
    rfl

/-- There is room to send. -/
theorem hear_writable {r : Response} (he : ready.error = false) (hs : c.stage = .requestReceived)
    (hr : c.response = some r) (hh : ready.hangup = false) (ho : ready.output) :
    c.hear ready path page now answers =
      let sent := Response.play (page.toOption.getD .empty) answers r
      (sent.1, { c with lastActive := now }.continued sent.2.2 sent.2.1) := by
  obtain ⟨_, _, _, stage, _, _, _, _, response⟩ := c
  subst hs hr
  simp only [hear, he, hh, ho, Bool.false_eq_true, if_false, if_true]

end

/-- What a server's connection does on an event is what it would do on its own, with the page as
it was if it was read. -/
theorem Handles.hear {c c' : Connection} {ready : Conditions} {files : Files} {path : String}
    {now : Nanoseconds} {stats stats' : Stats} {ops : List Operation} {verdict : Verdict}
    (H : c.Handles ready files path now stats ops verdict c' stats') {cause : Option Errno}
    (hcause : ∀ e, verdict = .fail (.socket e) → e = cause) {page : Except OpenError Content}
    (hpage : (∃ op ∈ ops, op.readsPage) → page = c.page files path) :
    c.nameless.hear ready path page now (ops.filterMap (·.answer? cause)) =
      (ops, verdict, c'.nameless) := by
  have hgather (data : List UInt8) : (c.gather now data).nameless.request = c.request ++ data :=
    rfl
  cases H with
  | broken he => simp [Connection.hear, he, hcause _ rfl]
  | nothing he hs hh => simp [Connection.hear, he, nameless, hs, hh, room]
  | recvFailed he hs hne => simp [Connection.hear, he, nameless, hs, hne, room]
  | gone he hs hnil hr =>
    rw [List.filterMap_cons_some (Operation.answer?_recv ..), hear_noMore he hs hr]
    have hnil : c.nameless.request = [] := hnil
    simp only [Connection.giveUp, hnil, if_true, nameless_fail]
  | cutOff he hs hne hr H =>
    have hne : c.nameless.request ≠ [] := hne
    rw [List.filterMap_cons_some (Operation.answer?_recv ..), hear_noMore he hs hr,
      Connection.giveUp, if_neg hne, refuse_refuses H]
    rfl
  | more he hs hd _ hl hlt hh =>
    rw [List.filterMap_cons_some (Operation.answer?_recv ..), hear_data he hs hd]
    simp only [heed, hgather, hl, Bool.false_eq_true, if_false, if_pos (And.intro hlt hh)]
  | @unfinished data _ _ he hs hd _ hl hr H =>
    have hr : ¬((c.request ++ data).length < requestSize ∧ ready.isHangup = false) := by
      rintro ⟨hlt, hh⟩
      rcases hr with hr | hr
      · omega
      · simp [hr] at hh
    rw [List.filterMap_cons_some (Operation.answer?_recv ..), hear_data he hs hd]
    simp only [heed, hgather, hl, if_neg hr, refuse_refuses H, Bool.false_eq_true, if_false]
    rfl
  | malformed he hs hd _ hl hp H =>
    rw [List.filterMap_cons_some (Operation.answer?_recv ..), hear_data he hs hd]
    simp only [heed, hgather, hl, hp, if_true, refuse_refuses H]
    rfl
  | @unopened _ _ e he hs hd _ hl hp ho =>
    have hpage : page = .error e := by
      rw [hpage ⟨.openPage path false, by simp, rfl⟩, Connection.page, hs, ho]
      rfl
    rw [List.filterMap_cons_some (Operation.answer?_recv ..), hear_data he hs hd]
    simp only [heed, hgather, hl, hp, if_true, hpage]
    rfl
  | @replied _ _ r _ _ _ _ _ _ he hs hd _ hl hp ho H hc =>
    obtain ⟨-, ⟨content, hcontent, hsize⟩, hheader, hsent⟩ := Response.ofPath_spec ho
    have hr : ({ file := 0, headerSent := 0, length := content.size, sent := 0 } : Response) =
        r.nameless := by rw [Response.nameless, hheader, hsent, hsize]
    have hpage : page = .ok content := by
      rw [hpage ⟨.openPage path true, by simp, rfl⟩, Connection.page, hs, ho]
      simp [Except.map, hcontent]
    rw [hcontent, Option.getD_some] at H
    have H := H.play (fun _ => rfl) cause
    rw [List.filterMap_cons_some (Operation.answer?_recv ..), hear_data he hs hd,
      List.filterMap_cons_none (Operation.answer?_openPage ..)]
    simp only [heed, hgather, hl, hp, if_true, hpage, hr, H]
    exact congrArg (Prod.mk _) (continued_nameless hc)
  | closedEarly he hs hh => simp [Connection.hear, he, nameless, hs, hh]
  | notWritable he hs hh ho => simp [Connection.hear, he, nameless, hs, hh, ho]
  | unanswerable he hs hr hh ho => simp [Connection.hear, he, nameless, hs, hr, hh, ho]
  | resumed he hs hr hh ho H hc =>
    have hcontent : (∃ op ∈ ops, op.readsPage) →
        page.toOption.getD .empty = (files.content? _).getD .empty := fun h => by
      rw [hpage h, Connection.page, hs, hr]
      rfl
    have H := H.play hcontent cause
    have hs : c.nameless.stage = .requestReceived := hs
    have hr : c.nameless.response = some (Response.nameless _) := congrArg (Option.map _) hr
    rw [hear_writable he hs hr hh ho, H]
    exact congrArg (Prod.mk _) (continued_nameless hc)
  | spent he hs hs' =>
    cases h : c.stage with
    | accepted => exact absurd h hs
    | requestReceived => exact absurd h hs'
    | responseSent | failed => simp [Connection.hear, he, nameless, h]

/-- Only an error event makes a connection fail for the error of its socket. -/
theorem Handles.not_socket {c c' : Connection} {ready : Conditions} {files : Files}
    {path : String} {now : Nanoseconds} {stats stats' : Stats} {ops : List Operation}
    {cause : Option Errno}
    (H : c.Handles ready files path now stats ops (.fail (.socket cause)) c' stats') :
    ready.error := by
  cases H with
  | broken he => exact he
  | replied _ _ _ _ _ _ _ _ hc | resumed _ _ _ _ _ _ hc =>
    unfold continued at hc
    split at hc
    · cases hc
    · split at hc <;> cases hc
    · cases hc

end Connection

/-! ## The machine -/

/-- Something that a connection does, whatever the numbers of its socket and its token. -/
inductive Deed where
  | setNonblocking (result : Outcome)
  | add (conditions : Conditions) (result : Outcome)
  | modify (conditions : Conditions) (result : Outcome)
  | delete (result : Outcome)
  | operation (op : Operation)
  | close
  | tell (severity : Severity) (message : String)

/-- Why something is done for a connection. -/
inductive Cue where
  /-- It has been accepted. -/
  | greeting (now : Nanoseconds) (peer : Net.Endpoint)
  | event (now : Nanoseconds) (ready : Conditions) (page : Except OpenError Content)
  /-- Connections that are idle are looked for. -/
  | sweep (now : Nanoseconds)
  | stop
  deriving DecidableEq

/-- All that a connection is given when something is done for it. -/
structure Stimulus where
  cue : Cue
  /-- What its operations give back. -/
  answers : List Answer
  /-- What the other calls on its socket give back. -/
  results : List Outcome
  /-- When it is closed for the log, in seconds after the start of 1970, and 0 if it is not. -/
  seconds : Int
  /-- How many seconds the local time is ahead. -/
  zone : Int
  deriving DecidableEq

namespace Alone

def tell (messages : List (Severity × String)) : List Deed :=
  messages.map fun message => .tell message.1 message.2

/-- Registers a socket; the outcome comes last. -/
def register : List Outcome → List Deed × Outcome
  | .error .EEXIST :: results =>
    let result := results.headD (.ok ())
    ([.add Interest.read.conditions (.error .EEXIST), .modify Interest.read.conditions result],
      result)
  | results =>
    let result := results.headD (.ok ())
    ([.add Interest.read.conditions result], result)

/-- Becomes a connection, unless a call for that fails. -/
def greet (now : Nanoseconds) (peer : Net.Endpoint) :
    List Outcome → List Deed × Option Connection
  | .error e :: _ =>
    ([.setNonblocking (.error e), .tell .warning
      ("failed to make connection from " ++ peer.text ++ " non-blocking: " ++ e.numbered), .close],
      none)
  | results =>
    match register results.tail with
    | (deeds, .ok ()) => (.setNonblocking (.ok ()) :: deeds, some (Connection.new now 0 peer))
    | (deeds, .error e) =>
      (.setNonblocking (.ok ()) :: (deeds ++ [.tell .warning
        ("failed to register connection from " ++ peer.text ++ ": " ++ e.labelled)] ++ [.close]),
        none)

/-- Ends a connection. -/
def leave (c : Connection) (results : List Outcome) (seconds zone : Int) : List Deed :=
  let deleted := results.headD (.ok ())
  let failure := match EventQueue.forgotten deleted with
    | .ok () => []
    | .error e => [(.warning, "failed to deregister " ++ c.peer.text ++ ": " ++ e.labelled)]
  .delete deleted ::
    (tell (failure ++ ((Log.accessLine c seconds zone).map (.info, ·)).toList) ++ [.close])

/-- Does what an event has led to. -/
def conclude (c : Connection) (results : List Outcome) (seconds zone : Int) :
    Verdict → List Deed × Option Connection
  | .wait => ([], some c)
  | .close => (leave c results seconds zone, none)
  | .rearm =>
    match results with
    | .error e :: results =>
      (.modify c.interest.conditions (.error e) :: .tell .warning
        ("failed to re-register " ++ c.peer.text ++ ": " ++ e.labelled) ::
        leave c.fail results seconds zone, none)
    | _ => ([.modify c.interest.conditions (.ok ())], some c)
  | .fail cause =>
    (.tell .warning (c.peer.text ++ ": " ++ cause.chain.oneLine) ::
      leave c.fail results seconds zone, none)

/-- What is done of a connection that may not be there, and what is there then. -/
def step (path : String) (timeout : Option Nanoseconds) (x : Stimulus) :
    Option Connection → List Deed × Option Connection
  | none =>
    match x.cue with
    | .greeting now peer => greet now peer x.results
    | _ => ([], none)
  | some c =>
    match x.cue with
    | .greeting .. => ([], some c)
    | .event now ready page =>
      let (ops, verdict, c) := c.hear ready path page now x.answers
      let (deeds, c?) := conclude c x.results x.seconds x.zone verdict
      (ops.map .operation ++ deeds, c?)
    | .sweep now =>
      match timeout with
      | none => ([], some c)
      | some timeout =>
        if timeout ≤ now - c.lastActive then (leave c.fail x.results x.seconds x.zone, none)
        else ([], some c)
    | .stop => (leave c x.results x.seconds x.zone, none)

/-- All that a connection does, and how it is in the end. -/
def run (path : String) (timeout : Option Nanoseconds) :
    List Stimulus → Option Connection → List Deed × Option Connection
  | [], c? => ([], c?)
  | x :: xs, c? =>
    let (deeds, c?) := step path timeout x c?
    let (more, c?) := run path timeout xs c?
    (deeds ++ more, c?)

theorem run_append (path : String) (timeout : Option Nanoseconds) (xs ys : List Stimulus)
    (c? : Option Connection) :
    run path timeout (xs ++ ys) c? =
      ((run path timeout xs c?).1 ++ (run path timeout ys (run path timeout xs c?).2).1,
        (run path timeout ys (run path timeout xs c?).2).2) := by
  induction xs generalizing c? with
  | nil => rfl
  | cons x xs ih => simp only [List.cons_append, run, ih, List.append_assoc]

end Alone

/-! ## What a server does for a connection -/

/-- `call` does a deed on `fd`, which is watched as `token`. -/
inductive Deed.Made (log : LogSink) (fd : Fd) (token : Token) : Deed → Call → Prop
  | setNonblocking (result : Outcome) :
    Made log fd token (.setNonblocking result) (.setNonblocking fd result)
  | add (conditions : Conditions) (result : Outcome) :
    Made log fd token (.add conditions result) (.add fd token conditions result)
  | modify (conditions : Conditions) (result : Outcome) :
    Made log fd token (.modify conditions result) (.modify fd token conditions result)
  | delete (result : Outcome) : Made log fd token (.delete result) (.delete fd result)
  | operation (op : Operation) : Made log fd token (.operation op) (.operation fd op)
  | close : Made log fd token .close (.close fd)
  | tell {severity : Severity} {message : String} {call : Call}
    (H : log.Writes severity message call) : Made log fd token (.tell severity message) call

/-- The error that a socket tells when it is asked, if it can be asked. -/
def Pending.told (p : Pending) : Option Errno :=
  match p.takeError with
  | [] => p.error.head?.join
  | _ :: _ => none

def Kernel.socketError (k : Kernel) (fd : Fd) : Option Errno :=
  ((((k.watches.get? fd).map (·.token)).bind k.pending.get?).getD {}).told

theorem Talk.takeError_told (x : Exchange) : (Talk.takeError x).1 = x.pending.told := by
  cases h : x.pending.takeError <;> simp [takeError, Pending.told, h]

/-- A connection that fails for the error of its socket fails for what the socket tells. -/
theorem Connection.cause_eq_socketError {c : Connection} {ready : Conditions} {path : String}
    {now : Nanoseconds} {stats : Stats} {k : Kernel} {cause : Option Errno} (he : ready.error)
    (h : (Sys.exchange c.socket stats (c.handle ready k.files path now) k).1.1.1 =
      .fail (.socket cause)) : cause = k.socketError c.socket := by
  simp only [Sys.exchange, StateM.bind_apply, StateM.get_apply, StateT.run, handle, he, if_true,
    StateM.pure_apply, Talk.takeError_told] at h
  cases h
  rfl

/-- What a call on a connection's socket has given back, unless it is an operation. -/
def Call.result? : Call → Option Outcome
  | .setNonblocking _ result => some result
  | .add _ _ _ result => some result
  | .modify _ _ _ result => some result
  | .delete _ result => some result
  | _ => none

/-- Whether a call ends the registration of a descriptor. -/
def Call.deletes (fd : Fd) : Call → Bool
  | .delete fd' _ => fd' = fd
  | _ => false

/-- The calls that come before the registration of a descriptor ends. -/
def Call.beforeDeleting (fd : Fd) (calls : List Call) : List Call :=
  calls.takeWhile fun call => !call.deletes fd

theorem Call.beforeDeleting_append {fd : Fd} {before : List Call}
    (h : ∀ call ∈ before, call.deletes fd = false) (calls : List Call) :
    beforeDeleting fd (before ++ calls) = before ++ beforeDeleting fd calls := by
  refine List.takeWhile_append_of_pos fun call hcall => ?_
  rw [h call hcall]
  rfl

/-- What comes after the end of a registration has no part in this. -/
theorem Call.beforeDeleting_append_of_any {fd : Fd} {calls : List Call}
    (h : calls.any (Call.deletes fd)) (after : List Call) :
    beforeDeleting fd (calls ++ after) = beforeDeleting fd calls := by
  induction calls with
  | nil => cases h
  | cons call calls ih =>
    simp only [beforeDeleting, List.cons_append, List.takeWhile_cons] at ih ⊢
    cases hd : call.deletes fd with
    | true => rfl
    | false =>
      rw [List.any_cons, hd, Bool.false_or] at h
      simp [ih h]

theorem Call.deletes_of_isMessage {call : Call} (h : call.isMessage) (fd : Fd) :
    call.deletes fd = false := by
  cases call <;> first | rfl | cases h

section
variable {log : LogSink} {calls : List Call} (fd : Fd) (token : Token)

theorem LogSink.Tells.made {messages : List (Severity × String)} (H : log.Tells messages calls) :
    List.Forall₂ (Deed.Made log fd token) (Alone.tell messages) calls := by
  induction H with
  | nil => exact .nil
  | cons H _ ih => exact .cons (.tell H) ih

theorem LogSink.Tells.results {messages : List (Severity × String)}
    (H : log.Tells messages calls) : calls.filterMap Call.result? = [] := by
  apply List.filterMap_eq_nil_iff.2
  intro call hcall
  have h := H.isMessage call hcall
  cases call <;> first | rfl | cases h

theorem made_operations (ops : List Operation) :
    List.Forall₂ (Deed.Made log fd token) (ops.map .operation) (ops.map (.operation fd)) := by
  induction ops with
  | nil => exact .nil
  | cons op ops ih => exact .cons (.operation op) ih

theorem results_operations (ops : List Operation) :
    (ops.map (Call.operation fd)).filterMap Call.result? = [] := by
  induction ops with
  | nil => rfl
  | cons op ops ih => exact ih

end

namespace Server

theorem Closing.alone {log : LogSink} {seconds zone : Int} {c : Connection} {calls : List Call}
    (H : Closing log seconds zone c calls) (token : Token) :
    List.Forall₂ (Deed.Made log c.socket token)
      (Alone.leave c.nameless (calls.filterMap Call.result?) seconds zone) calls := by
  obtain @⟨deleted, told, ht⟩ := H
  have hresults : (Call.delete c.socket deleted :: (told ++ [.close c.socket])).filterMap
      Call.result? = [deleted] := by
    simp only [List.filterMap_cons, List.filterMap_append, Call.result?, ht.results]
    rfl
  rw [hresults, Alone.leave, Connection.accessLine_nameless]
  exact .cons (.delete deleted) (List.rel_append (ht.made ..) (.cons .close .nil))

/-- Closing begins where the registration ends. -/
theorem Closing.beforeDeleting {log : LogSink} {seconds zone : Int} {c : Connection}
    {calls : List Call} (H : Closing log seconds zone c calls) :
    Call.beforeDeleting c.socket calls = [] := by
  obtain ⟨-⟩ := H
  simp [Call.beforeDeleting, Call.deletes]

theorem Closing.deletes {log : LogSink} {seconds zone : Int} {c : Connection}
    {calls : List Call} (H : Closing log seconds zone c calls) :
    calls.any (Call.deletes c.socket) := by
  obtain ⟨-⟩ := H
  simp [Call.deletes]

/-- No registration ends before closing begins. -/
theorem Ending.not_deletes {log : LogSink} {token : Token} {c last : Connection}
    {verdict : Verdict} {calls : List Call} (H : Ending log token c verdict calls last) (fd : Fd) :
    ∀ call ∈ calls, call.deletes fd = false := by
  cases H with
  | close => exact List.forall_mem_nil _
  | fail ht => exact fun call hcall => Call.deletes_of_isMessage (ht.isMessage call hcall) fd
  | rearm ht =>
    exact List.forall_mem_cons.2
      ⟨rfl, fun call hcall => Call.deletes_of_isMessage (ht.isMessage call hcall) fd⟩

theorem Ending.socket {log : LogSink} {token : Token} {c last : Connection} {verdict : Verdict}
    {calls : List Call} (H : Ending log token c verdict calls last) : last.socket = c.socket := by
  cases H <;> rfl

/-- What a verdict leads to is what it would lead to on its own, with the clock as it is where the
registration ends. -/
theorem Concludes.alone {s : Server} {k k' : Kernel} {token : Token} {c : Connection}
    {verdict : Verdict} {calls : List Call} {stays : Bool}
    (H : Concludes s k token c verdict calls stays k') {seconds : Int}
    (hseconds : calls.any (Call.deletes c.socket) →
      seconds = k.secondsAt (k.trace.size + (Call.beforeDeleting c.socket calls).length)) :
    ∃ deeds, Alone.conclude c.nameless (calls.filterMap Call.result?) seconds k.zone verdict =
        (deeds, if stays then some c.nameless else none) ∧
      List.Forall₂ (Deed.Made s.log c.socket token) deeds calls := by
  cases H with
  | wait => exact ⟨_, rfl, .nil⟩
  | rearm => exact ⟨_, rfl, .cons (.modify ..) .nil⟩
  | @finish _ last ending closing _ He Hc =>
    have hbefore : Call.beforeDeleting c.socket (ending ++ closing) = ending := by
      rw [Call.beforeDeleting_append (He.not_deletes _), ← He.socket, Hc.beforeDeleting,
        List.append_nil]
    have hany : (ending ++ closing).any (Call.deletes c.socket) := by
      rw [List.any_append, ← He.socket, Hc.deletes, Bool.or_true]
    rw [hbefore] at hseconds
    obtain rfl := hseconds hany
    rw [List.filterMap_append]
    cases He with
    | close => exact ⟨_, rfl, Hc.alone token⟩
    | fail ht =>
      rw [ht.results, List.nil_append]
      refine ⟨_, rfl, List.rel_append (ht.made c.socket token) ?_⟩
      rw [← Connection.nameless_fail]
      exact Hc.alone token
    | @rearm e told ht =>
      simp only [List.filterMap_cons, Call.result?, ht.results]
      refine ⟨_, rfl, .cons (.modify ..) (List.rel_append (ht.made c.socket token) ?_)⟩
      rw [← Connection.nameless_fail]
      exact Hc.alone token

/-- What a connection does on an event, and what that leads to, is what it would do on its own. -/
theorem Concludes.step {s : Server} {k k' : Kernel} {token : Token} {c c' : Connection}
    {ready : Conditions} {files : Files} {path : String} {now : Nanoseconds} {stats stats' : Stats}
    {ops : List Operation} {verdict : Verdict} {calls : List Call} {stays : Bool}
    (H : Concludes s k token c' verdict calls stays k')
    (Hh : c.Handles ready files path now stats ops verdict c' stats') {cause : Option Errno}
    (hcause : ∀ e, verdict = .fail (.socket e) → e = cause) {page : Except OpenError Content}
    (hpage : (∃ op ∈ ops, op.readsPage) → page = c.page files path)
    (timeout : Option Nanoseconds) {seconds : Int}
    (hseconds : calls.any (Call.deletes c.socket) →
      seconds = k.secondsAt (k.trace.size + (Call.beforeDeleting c.socket calls).length)) :
    ∃ deeds, Alone.step path timeout
        { cue := .event now ready page
          answers := ops.filterMap (·.answer? cause)
          results := (ops.map (Call.operation c.socket) ++ calls).filterMap Call.result?
          seconds
          zone := k.zone } (some c.nameless) =
          (deeds, if stays then some c'.nameless else none) ∧
      List.Forall₂ (Deed.Made s.log c.socket token) deeds
        (ops.map (.operation c.socket) ++ calls) := by
  rw [← Hh.socket] at hseconds
  obtain ⟨deeds, hdeeds, Hmade⟩ := H.alone hseconds
  rw [Hh.socket] at Hmade
  refine ⟨ops.map .operation ++ deeds, ?_,
    List.rel_append (made_operations c.socket token ops) Hmade⟩
  rw [List.filterMap_append, results_operations, List.nil_append]
  simp only [Alone.step, Hh.hear hcause hpage, hdeeds]

end Server

theorem EventQueue.Registration.alone {fd : Fd} {token : Token} {result : Outcome}
    {calls : List Call} (H : Registration fd token .read result calls) (log : LogSink) :
    ∃ deeds, Alone.register (calls.filterMap Call.result?) = (deeds, result) ∧
      List.Forall₂ (Deed.Made log fd token) deeds calls := by
  cases H with
  | added => exact ⟨_, rfl, .cons (.add ..) .nil⟩
  | @refused e he =>
    refine ⟨_, ?_, .cons (.add ..) .nil⟩
    cases e <;> first | rfl | exact absurd rfl he
  | changed => exact ⟨_, rfl, .cons (.add ..) (.cons (.modify ..) .nil)⟩

/-- What becomes of an accepted socket is what would become of it on its own. -/
theorem Server.Adopts.alone {s s' : Server} {k k' : Kernel} {now : Nanoseconds} {fd : Fd}
    {peer : Net.Endpoint} {calls : List Call} (H : Adopts s k now fd peer calls s' k')
    (hfree : s.connections.get? s.nextToken = none) :
    ∃ deeds, Alone.greet now peer (calls.filterMap Call.result?) =
        (deeds, (s'.connections.get? s.nextToken).map Connection.nameless) ∧
      List.Forall₂ (Deed.Made s.log fd s.nextToken) deeds calls := by
  cases H with
  | registered hr =>
    obtain ⟨deeds, hdeeds, Hmade⟩ := hr.alone s.log
    refine ⟨.setNonblocking (.ok ()) :: deeds, ?_, .cons (.setNonblocking _) Hmade⟩
    simp only [List.filterMap_cons, Call.result?, Alone.greet, List.tail_cons, hdeeds,
      Table.get?_insert, if_true]
    rfl
  | @blocking e told _ ht =>
    simp only [List.filterMap_cons, List.filterMap_append, Call.result?, ht.results, hfree]
    exact ⟨_, rfl, .cons (.setNonblocking _) (List.rel_append (ht.made ..) (.cons .close .nil))⟩
  | @unregistered e calls told _ hr ht =>
    obtain ⟨deeds, hdeeds, Hmade⟩ := hr.alone s.log
    simp only [List.filterMap_cons, List.filterMap_append, Call.result?, ht.results, hfree,
      List.filterMap_nil, List.append_nil, Alone.greet, List.tail_cons, hdeeds]
    exact ⟨_, rfl, .cons (.setNonblocking _)
      (List.rel_append (List.rel_append Hmade (ht.made ..)) (.cons .close .nil))⟩

end OnePage
