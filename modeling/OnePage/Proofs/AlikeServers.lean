import OnePage.Proofs.Alike
import OnePage.Proofs.Coherence

/-! # Servers that receive different bytes

What is held of a request is looked at in one place, where it is decided whether it is to be
completed, refused or answered. Two connections for which this comes out in the same way do the same
from there on (`Connection.Alike.handle`), and nothing else that a server does looks at requests at
all. -/

namespace OnePage

/-! ## Requests of one kind -/

/-- Whether the bytes of a request are the beginning of a line that may still be completed. -/
structure Unfinished (request : List UInt8) : Prop where
  hasLine : Request.hasLine request = false
  length_lt : request.length < Connection.requestSize

/-- Whether two requests are the same, or both are to be completed, or both are to be answered. -/
inductive SameKind : List UInt8 → List UInt8 → Prop
  | same (request : List UInt8) : SameKind request request
  | unfinished {request request' : List UInt8} (h : Unfinished request) (h' : Unfinished request') :
    SameKind request request'
  | understood {request request' : List UInt8} (h : Understood request)
    (h' : Understood request') : SameKind request request'

theorem Understood.parse {request : List UInt8} (H : Understood request) :
    ∃ line, Request.parse request = .ok line := by
  cases h : Request.parse request with
  | ok line => exact ⟨line, rfl⟩
  | error e => exact absurd (Request.tokens_of_parse_error h) (Nat.not_lt.2 H.2)

namespace SameKind
variable {request request' : List UInt8}

theorem hasLine (H : SameKind request request') :
    Request.hasLine request' = Request.hasLine request := by
  cases H with
  | same => rfl
  | unfinished h h' => rw [h.hasLine, h'.hasLine]
  | understood h h' => exact h'.1.trans h.1.symm

theorem length_lt (H : SameKind request request') (h : Request.hasLine request = false) :
    (decide (request'.length < Connection.requestSize)) =
      decide (request.length < Connection.requestSize) := by
  cases H with
  | same => rfl
  | unfinished h h' => rw [decide_eq_true h.length_lt, decide_eq_true h'.length_lt]
  | understood h' => exact absurd h'.1 (by simp [h])

/-- Both have a request line, or both have none. -/
theorem parse (H : SameKind request request') (h : Request.hasLine request) :
    (∃ line line', Request.parse request = .ok line ∧ Request.parse request' = .ok line') ∨
      ∃ e, Request.parse request = .error e ∧ Request.parse request' = .error e := by
  cases H with
  | same =>
    cases Request.parse request with
    | ok line => exact .inl ⟨line, line, rfl, rfl⟩
    | error e => exact .inr ⟨e, rfl, rfl⟩
  | unfinished h' => exact absurd h (by simp [h'.hasLine])
  | understood hu hu' =>
    obtain ⟨line, hp⟩ := hu.parse
    obtain ⟨line', hp'⟩ := hu'.parse
    exact .inl ⟨line, line', hp, hp'⟩

end SameKind

/-! ## Connections -/

/-- Whether two connections are the same but for what is held of the request. -/
inductive Connection.SameButRequest (c : Connection) : Connection → Prop
  | mk (requestLine : Option String) (request : List UInt8) :
    SameButRequest c { c with requestLine := requestLine, request := request }

/-- Whether two requests are both to be completed, and have both begun or both not. -/
structure Awaited (request request' : List UInt8) : Prop where
  left : Unfinished request
  right : Unfinished request'
  nil_iff : request' = [] ↔ request = []

/-- Whether two connections are the same but for what is held of the request, and take what comes
of it in the same way. -/
structure Connection.Alike (c c' : Connection) : Prop where
  same : c.SameButRequest c'
  awaited (hs : c.stage = .accepted) : Awaited c.request c'.request

/-- Whether a turn ends in the same way for two connections. -/
def Connection.EndsAlike (p p' : Verdict × Connection) : Prop := p.1 = p'.1 ∧ p.2.Alike p'.2

/-- Whether two turns do the same as well. -/
def Connection.TurnsAlike (p p' : (Verdict × Connection) × Exchange) : Prop :=
  EndsAlike p.1 p'.1 ∧ p.2.Alike p'.2

open Talk (Agree)

namespace Response

theorem sendBadRequest_agree : Agree Eq sendBadRequest sendBadRequest :=
  (Talk.send_agree _).bind fun result _ h => by
    subst h
    cases result with
    | error e => exact .pure rfl
    | ok n => exact Talk.addSent_agree n

theorem sendHeader_agree (r : Response) (steps : Nat) :
    Agree Eq (r.sendHeader steps) (r.sendHeader steps) := by
  induction steps generalizing r with
  | zero => exact .pure rfl
  | succ steps ih =>
    unfold sendHeader
    refine .ite ((Talk.send_agree _).bind fun result _ h => ?_) (.pure rfl)
    subst h
    split
    · exact .pure rfl
    · exact .pure rfl
    · exact .pure rfl
    · exact (Talk.addSent_agree _).bind fun _ _ _ => ih _

theorem sendBody_agree (content : Content) (r : Response) (steps : Nat) :
    Agree Eq (r.sendBody content steps) (r.sendBody content steps) := by
  induction steps generalizing r with
  | zero => exact .pure rfl
  | succ steps ih =>
    unfold sendBody
    refine .ite (.ite (.pure rfl) ((Talk.sendfile_agree _ _ _).bind fun result _ h => ?_))
      (.pure rfl)
    subst h
    split
    · exact .pure rfl
    · exact .pure rfl
    · exact .pure rfl
    · exact (Talk.addSent_agree _).bind fun _ _ _ => ih _

theorem send_agree (files : Files) (r : Response) : Agree Eq (r.send files) (r.send files) :=
  (r.sendHeader_agree _).bind fun result _ h => by
    subst h
    split
    · exact sendBody_agree _ _ _
    · exact .pure rfl

end Response

namespace Connection

theorem Coherent.alike {c : Connection} (H : c.Coherent) : c.Alike c where
  same := .mk _ _
  awaited hs := by
    cases H with
    | waiting _ _ _ _ _ hlt hl => exact ⟨⟨hl, hlt⟩, ⟨hl, hlt⟩, Iff.rfl⟩
    | replying hs' => rw [hs] at hs'; cases hs'

/-- A reply that is sent on stays a reply from the same file. -/
theorem sendResponse_file {c : Connection} {r : Response} (hr : c.response = some r)
    (files : Files) (x : Exchange) :
    ∃ r', (c.sendResponse files x).1.2.response = some r' ∧ r'.file = r.file := by
  obtain ⟨ops, result, r', x', hx, -, H⟩ := sendResponse_handles hr files x
  exact ⟨r', hx ▸ continued_response (Prod.eta (c.continued r' result)).symm, H.file⟩

namespace SameButRequest
variable {c c' : Connection} {hidden : FileId → Prop} {files files' : Files} {x x' : Exchange}

/-- The requests of connections that await none are of no account. -/
theorem alike (H : c.SameButRequest c') (hs : c.stage ≠ .accepted) : c.Alike c' :=
  ⟨H, fun h => absurd h hs⟩

theorem stage (H : c.SameButRequest c') : c'.stage = c.stage := by
  cases H
  rfl

theorem response (H : c.SameButRequest c') : c'.response = c.response := by
  cases H
  rfl

theorem fail (H : c.SameButRequest c') : c.fail.Alike c'.fail := by
  obtain ⟨requestLine, request⟩ := H
  exact alike (c := c.fail) (.mk _ _) Stage.noConfusion

theorem reject (H : c.SameButRequest c') : Agree EndsAlike c.reject c'.reject := by
  obtain ⟨requestLine, request⟩ := H
  refine Response.sendBadRequest_agree.bind fun _ _ _ => .pure ⟨rfl, alike ?_ Stage.noConfusion⟩
  cases logRejected c.request <;> cases logRejected request <;> exact .mk _ _

theorem understand (H : c.SameButRequest c') (line line' : RequestLine) :
    (c.understand line).Alike (c'.understand line') := by
  obtain ⟨requestLine, request⟩ := H
  exact alike (c := c.understand line) (.mk _ _) Stage.noConfusion

end SameButRequest

namespace Alike
variable {c c' : Connection} {hidden : FileId → Prop} {files files' : Files} {x x' : Exchange}

theorem new (now : Nanoseconds) (fd : Fd) (peer : Net.Endpoint) :
    (Connection.new now fd peer).Alike (Connection.new now fd peer) :=
  (Coherent.new now fd peer).alike

/-- Something of the record is changed that has nothing to do with the request. -/
theorem touch (H : c.Alike c') (now : Nanoseconds) :
    { c with lastActive := now }.Alike { c' with lastActive := now } := by
  obtain ⟨⟨requestLine, request⟩, h⟩ := H
  exact ⟨.mk (c := { c with lastActive := now }) _ _, h⟩

theorem sendResponse (H : c.Alike c') (hs : c.stage = .requestReceived) (files : Files) :
    Agree EndsAlike (c.sendResponse files) (c'.sendResponse files) := by
  have hs' : c.stage ≠ .accepted := by simp [hs]
  unfold Connection.sendResponse
  rw [H.same.response]
  cases c.response with
  | none => exact .pure ⟨rfl, H⟩
  | some r =>
    refine (r.send_agree files).bind fun result _ hr => ?_
    subst hr
    obtain ⟨requestLine, request⟩ := H.same
    split
    · exact .pure ⟨rfl, SameButRequest.alike (.mk _ _) Stage.noConfusion⟩
    · dsimp only
      exact .ite (.pure ⟨rfl, SameButRequest.alike (.mk _ _) hs'⟩)
        (.pure ⟨rfl, SameButRequest.alike (.mk _ _) hs'⟩)
    · exact .pure ⟨rfl, SameButRequest.alike (.mk _ _) hs'⟩

/-- A reply from a file that the two sides have in common. -/
theorem sendResponse_files (H : c.Alike c') (hs : c.stage = .requestReceived)
    (hf : files.Alike hidden files') (hx : x.Alike x')
    (hh : ∀ r ∈ (c.sendResponse files x).1.2.response, ¬ hidden r.file) :
    TurnsAlike (c.sendResponse files x) (c'.sendResponse files' x') := by
  have hcontent (r : Response) (hr : c'.response = some r) :
      files'.content? r.file = files.content? r.file := by
    obtain ⟨r', hr', hfile⟩ := sendResponse_file (H.same.response ▸ hr) files x
    exact hf.content?_eq (hfile ▸ hh r' hr')
  rw [sendResponse_congr hcontent]
  exact H.sendResponse hs files x x' hx

/-- A reply is begun. -/
theorem beginResponse (H : c.Alike c') (hs : c.stage = .requestReceived)
    (hf : files.Alike hidden files') (page : String) (hx : x.Alike x')
    (hh : ∀ r ∈ (c.beginResponse files page x).1.2.response, ¬ hidden r.file) :
    TurnsAlike (c.beginResponse files page x) (c'.beginResponse files' page x') := by
  have hanswered (r : Response) : (c.answered r).Alike (c'.answered r) := by
    obtain ⟨requestLine, request⟩ := H.same
    exact SameButRequest.alike (c := c.answered r) (.mk _ _) (by simp [answered, hs])
  have hopened := (Talk.record_agree (.same (.openPage page true)) _ _ hx).2
  unfold Connection.beginResponse at hh ⊢
  rcases hf.ofPath page with ho | ⟨r, r', ho, -, hid⟩
  · rw [ho]
    cases hr : Response.ofPath files page with
    | error e => exact ⟨⟨rfl, H⟩, (Talk.record_agree (.same (.openPage page false)) _ _ hx).2⟩
    | ok r =>
      simp only [hr] at hh
      exact (hanswered r).sendResponse_files hs hf hopened hh
  · simp only [ho] at hh
    obtain ⟨r₁, hr₁, hfile⟩ := sendResponse_file (c := c.answered r) rfl files
      (Talk.record (.openPage page true) x).2
    exact absurd (hfile ▸ hid) (hh r₁ hr₁)

end Alike

namespace SameButRequest
variable {c c' : Connection} {hidden : FileId → Prop} {files files' : Files} {x x' : Exchange}

/-- Without a whole line there is more to come, or there will be none. -/
theorem takeRequest_unfinished (H : c.SameButRequest c') (ready : Conditions) (page : String)
    (hk : SameKind c.request c'.request) (hl : Request.hasLine c.request = false)
    (hne : c.request ≠ []) (hne' : c'.request ≠ []) (hx : x.Alike x') :
    TurnsAlike (c.takeRequest ready files page x) (c'.takeRequest ready files' page x') := by
  have hl' : Request.hasLine c'.request = false := hk.hasLine.trans hl
  simp only [Connection.takeRequest, hl, hl', hk.length_lt hl, Bool.false_eq_true, if_false]
  by_cases hw : (decide (c.request.length < requestSize) && !ready.isHangup) = true
  · have hlt : c.request.length < requestSize := by simp_all
    have hlt' : c'.request.length < requestSize := by simpa [hlt] using hk.length_lt hl
    simp only [hw, if_true]
    exact ⟨⟨rfl, H, fun _ => ⟨⟨hl, hlt⟩, ⟨hl', hlt'⟩, by simp [hne, hne']⟩⟩, hx⟩
  · simp only [hw]
    exact H.reject x x' hx

/-- A whole line is refused or answered, whatever it asks for. -/
theorem takeRequest_line (H : c.SameButRequest c') (hf : files.Alike hidden files')
    (ready : Conditions) (page : String) (hk : SameKind c.request c'.request)
    (hl : Request.hasLine c.request) (hx : x.Alike x')
    (hh : ∀ r ∈ (c.takeRequest ready files page x).1.2.response, ¬ hidden r.file) :
    TurnsAlike (c.takeRequest ready files page x) (c'.takeRequest ready files' page x') := by
  have hl' : Request.hasLine c'.request := hk.hasLine.trans hl
  have hx₁ := (Talk.addRequest_agree x x' hx).2
  simp only [Connection.takeRequest, hl, hl', if_true, StateM.bind_apply] at hh ⊢
  rcases hk.parse hl with ⟨line, line', hp, hp'⟩ | ⟨e, hp, hp'⟩
  · simp only [hp, hp'] at hh ⊢
    exact (H.understand line line').beginResponse rfl hf page hx₁ hh
  · simp only [hp, hp']
    exact H.reject _ _ hx₁

end SameButRequest

namespace Alike
variable {c c' : Connection} {hidden : FileId → Prop} {files files' : Files} {x x' : Exchange}

theorem receive_data (H : c.Alike c') (hf : files.Alike hidden files') (ready : Conditions)
    (page : String) (now : Nanoseconds) {data data' : List UInt8}
    (hk : SameKind (c.request ++ data) (c'.request ++ data')) (hd : data ≠ []) (hd' : data' ≠ [])
    (hr : (Talk.recv (room c.request) x).1 = .ok data)
    (hr' : (Talk.recv (room c'.request) x').1 = .ok data')
    (hx : (Talk.recv (room c.request) x).2.Alike (Talk.recv (room c'.request) x').2)
    (hh : ∀ r ∈ (c.receive ready files page now x).1.2.response, ¬ hidden r.file) :
    TurnsAlike (c.receive ready files page now x) (c'.receive ready files' page now x') := by
  have Hsame : (c.gather now data).SameButRequest (c'.gather now data') := by
    obtain ⟨requestLine, request⟩ := H.same
    exact .mk (c := c.gather now data) _ _
  obtain ⟨b, bs, rfl⟩ := List.exists_cons_of_ne_nil hd
  obtain ⟨b', bs', rfl⟩ := List.exists_cons_of_ne_nil hd'
  have hx₁ := (Talk.addReceived_agree (b :: bs).length (b' :: bs').length _ _ hx).2
  rw [room] at hr hr'
  simp only [Connection.receive, StateM.bind_apply, hr, hr'] at hh ⊢
  cases hl : Request.hasLine (c.request ++ b :: bs) with
  | false =>
    exact Hsame.takeRequest_unfinished ready page hk hl (by simp [gather]) (by simp [gather]) hx₁
  | true => exact Hsame.takeRequest_line hf ready page hk hl hx₁ hh

theorem receive (H : c.Alike c') (hs : c.stage = .accepted) (hf : files.Alike hidden files')
    (ready : Conditions) (page : String) (now : Nanoseconds) (hx : x.Alike x')
    (hk : ∀ data data', (Talk.recv (room c.request) x).1 = .ok data →
      (Talk.recv (room c'.request) x').1 = .ok data' →
      SameKind (c.request ++ data) (c'.request ++ data'))
    (hh : ∀ r ∈ (c.receive ready files page now x).1.2.response, ¬ hidden r.file) :
    TurnsAlike (c.receive ready files page now x) (c'.receive ready files' page now x') := by
  obtain ⟨hu, hu', hnil⟩ := H.awaited hs
  obtain ⟨hr, hx₁⟩ :=
    Talk.recv_agree (room_pos hu.length_lt).1 (room_pos hu'.length_lt).1 x x' hx
  have hclose : Agree EndsAlike (if c.request = [] then pure (.close, c.fail) else c.reject)
      (if c.request = [] then pure (.close, c'.fail) else c'.reject) :=
    .ite (.pure ⟨rfl, H.same.fail⟩) H.same.reject
  generalize hreceipt : (Talk.recv (room c.request) x).1 = receipt at hr
  generalize hreceipt' : (Talk.recv (room c'.request) x').1 = receipt' at hr
  cases hr with
  | data hd hd' =>
    exact H.receive_data hf ready page now (hk _ _ hreceipt hreceipt') hd hd' hreceipt hreceipt'
      hx₁ hh
  | same =>
    rcases receipt with e | data
    · rw [room] at hreceipt hreceipt'
      simp only [Connection.receive, StateM.bind_apply, hreceipt, hreceipt', hnil]
      by_cases he : e = .EAGAIN
      · subst he
        have hidle : Agree EndsAlike (pure (.wait, c)) (pure (.wait, c')) := .pure ⟨rfl, H⟩
        exact hidle.ite hclose _ _ hx₁
      · cases e <;> first | exact absurd rfl he | exact ⟨⟨rfl, H⟩, hx₁⟩
    · by_cases hd : data = []
      · subst hd
        rw [room] at hreceipt hreceipt'
        simp only [Connection.receive, StateM.bind_apply, hreceipt, hreceipt', hnil]
        exact hclose _ _ hx₁
      · exact H.receive_data hf ready page now (hk _ _ hreceipt hreceipt') hd hd hreceipt
          hreceipt' hx₁ hh

/-- What a connection does on an event, given that the requests are of one kind as far as they have
come, and that no reply is made from a hidden file. -/
theorem handle (H : c.Alike c') (hf : files.Alike hidden files') (ready : Conditions)
    (page : String) (now : Nanoseconds) (hx : x.Alike x')
    (hk : ready.error = false → c.stage = .accepted → c'.stage = .accepted → ∀ data data',
      (Talk.recv (room c.request) x).1 = .ok data →
      (Talk.recv (room c'.request) x').1 = .ok data' →
      SameKind (c.request ++ data) (c'.request ++ data'))
    (hh : ∀ r ∈ (c.handle ready files page now x).1.2.response, ¬ hidden r.file) :
    TurnsAlike (c.handle ready files page now x) (c'.handle ready files' page now x') := by
  by_cases he : ready.error
  case pos =>
    have hbroken : Agree EndsAlike (do return (.fail (.socket (← Talk.takeError)), c))
        (do return (.fail (.socket (← Talk.takeError)), c')) :=
      Talk.takeError_agree.bind fun cause _ hc => hc ▸ .pure ⟨rfl, H⟩
    simp only [Connection.handle, he, if_true]
    exact hbroken x x' hx
  cases hs : c.stage with
  | accepted =>
    have hreceive {d : Connection} (hd : d.stage = .accepted) (files : Files) :
        d.handle ready files page now = d.receive ready files page now := by
      simp [Connection.handle, he, hd]
    have hs' := H.same.stage.trans hs
    rw [hreceive hs] at hh ⊢
    rw [hreceive hs']
    exact H.receive hs hf ready page now hx (hk (by simpa using he) hs hs') hh
  | requestReceived =>
    by_cases hsend : ready.hangup = false ∧ ready.output
    · have hresume {d : Connection} (hd : d.stage = .requestReceived) (files : Files) :
          d.handle ready files page now = { d with lastActive := now }.sendResponse files := by
        simp [Connection.handle, he, hd, hsend]
      rw [hresume hs] at hh ⊢
      rw [hresume (H.same.stage.trans hs)]
      exact (H.touch now).sendResponse_files hs hf hx hh
    · simp only [Connection.handle, he, H.same.stage, hs]
      by_cases hhang : ready.hangup
      · simp only [hhang, if_true]
        exact ⟨⟨rfl, H⟩, hx⟩
      · have ho : ready.output = false := by simp_all
        simp only [hhang, ho]
        exact ⟨⟨rfl, H⟩, hx⟩
  | responseSent | failed =>
    simp only [Connection.handle, he, H.same.stage, hs]
    exact ⟨⟨rfl, H⟩, hx⟩

end Alike

end Connection

/-! ## Servers -/

/-- Whether two servers are the same but for what is held of requests, and for how many bytes have
been received. -/
inductive Server.Alike (log : LogSink) (s : Server) : Server → Prop
  | mk {connections : Table Connection} {stats : Stats} (hl : s.log = log)
    (hc : s.connections.Rel (fun _ => Connection.Alike) connections)
    (hs : s.stats.Alike stats) :
    Alike log s { s with connections := connections, stats := stats }

namespace Server.Alike
variable {log : LogSink} {s s' : Server}

theorem log_eq (H : s.Alike log s') : s.log = log ∧ s'.log = log := by
  obtain ⟨hl⟩ := H
  exact ⟨hl, hl⟩

theorem config (H : s.Alike log s') : s'.config = s.config := by
  obtain ⟨-⟩ := H
  rfl

theorem stats (H : s.Alike log s') : s.stats.Alike s'.stats := by
  obtain ⟨-, -, hs⟩ := H
  exact hs

theorem connections (H : s.Alike log s') :
    s.connections.Rel (fun _ => Connection.Alike) s'.connections := by
  obtain ⟨-, hc, -⟩ := H
  exact hc

theorem entry (H : s.Alike log s') (token : Token) :
    s.connections.get? token = none ∧ s'.connections.get? token = none ∨
      ∃ c c', s.connections.get? token = some c ∧ s'.connections.get? token = some c' ∧
        c.Alike c' := H.connections.entry token

theorem keys (H : s.Alike log s') : s'.connections.keys = s.connections.keys := H.connections.keys

theorem nextWait (H : s.Alike log s') : s'.nextWait = s.nextWait := by
  obtain ⟨-, hc, -⟩ := H
  simp only [Server.nextWait, hc.isEmpty]

theorem insert (H : s.Alike log s') {stats stats' : Stats} (hs : stats.Alike stats')
    (token : Token) {c c' : Connection} (h : c.Alike c') :
    { s with stats := stats, connections := s.connections.insert token c }.Alike log
      { s' with stats := stats', connections := s'.connections.insert token c' } := by
  obtain ⟨hl, hc, -⟩ := H
  exact .mk (s := { s with stats := stats, connections := _ }) hl (hc.insert h) hs

end Server.Alike

/-- Whether two steps take servers and kernels that go together to such that do, with results that
go together. -/
def Serving.Lockstep {α β : Type} (J : Server → Server → Prop) (I : Kernel → Kernel → Prop)
    (R : α → β → Prop) (f : Serving α) (g : Serving β) : Prop :=
  ∀ s s' k k', J s s' → I k k' → R (f s k).1.1 (g s' k').1.1 ∧
    J (f s k).1.2 (g s' k').1.2 ∧ I (f s k).2 (g s' k').2

namespace Serving.Lockstep
variable {α β γ δ : Type} {J : Server → Server → Prop} {I : Kernel → Kernel → Prop}
variable {R : α → β → Prop} {S : γ → δ → Prop} {x : Serving α} {y : Serving β}

theorem pure {a : α} {b : β} (h : R a b) : Lockstep J I R (Pure.pure a) (Pure.pure b) :=
  fun _ _ _ _ hs hk => ⟨h, hs, hk⟩

theorem bind {f : α → Serving γ} {g : β → Serving δ} (H : Lockstep J I R x y)
    (H' : ∀ a b, R a b → Lockstep J I S (f a) (g b)) : Lockstep J I S (x >>= f) (y >>= g) := by
  intro s s' k k' hs hk
  obtain ⟨hr, hs₁, hk₁⟩ := H s s' k k' hs hk
  exact H' _ _ hr _ _ _ _ hs₁ hk₁

theorem get : Lockstep J I J (MonadState.get : Serving Server) MonadState.get :=
  fun _ _ _ _ hs hk => ⟨hs, hs, hk⟩

theorem getKernel : Lockstep J I I (getThe Kernel : Serving Kernel) (getThe Kernel) :=
  fun _ _ _ _ hs hk => ⟨hk, hs, hk⟩

theorem modify {f g : Server → Server} (h : ∀ s s', J s s' → J (f s) (g s')) :
    Lockstep J I Eq (modify f : Serving PUnit) (modify g) :=
  fun _ _ _ _ hs hk => ⟨rfl, h _ _ hs, hk⟩

theorem lift {x : Sys α} {y : Sys β} (H : StateM.Agree I R x y) :
    Lockstep J I R (liftM x : Serving α) (liftM y : Serving β) :=
  fun _ _ k k' hs hk => ⟨(H k k' hk).1, hs, (H k k' hk).2⟩

end Serving.Lockstep

/-- Steps of a server that go on in the same way, whatever has been received. -/
abbrev Serving.Agree {α β : Type} (log : LogSink) (R : α → β → Prop) (f : Serving α)
    (g : Serving β) : Prop :=
  Lockstep (Server.Alike log) (Kernel.Alike log) R f g

/-- Whether a step does nothing but write to the log. -/
def Serving.Tells (log : LogSink) (f : Serving Unit) : Prop :=
  ∀ s k, s.log = log → (f s k).1.2 = s ∧ k.Told log (f s k).2

/-- Whatever is written to the log on either side. -/
theorem Serving.Tells.agree {log : LogSink} {f g : Serving Unit} (H : Tells log f)
    (H' : Tells log g) : Agree log Eq f g := by
  intro s s' k k' hs hk
  obtain ⟨hf, hfk⟩ := H s k hs.log_eq.1
  obtain ⟨hg, hgk⟩ := H' s' k' hs.log_eq.2
  exact ⟨rfl, by rwa [hf, hg], hk.told hfk hgk⟩

namespace Server
open Serving (Agree Lockstep Tells)
variable {log : LogSink}

theorem info_tells (message : String) : Tells log (info message) :=
  fun s k hl => ⟨rfl, hl ▸ s.log.write_told .info message k⟩

theorem warn_tells (message : String) : Tells log (warn message) :=
  fun s k hl => ⟨rfl, hl ▸ s.log.write_told .warning message k⟩

theorem logAccess_tells (c : Connection) (seconds : Int) : Tells log (logAccess c seconds) := by
  intro s k hl
  cases h : Log.accessLine c seconds k.zone with
  | none =>
    have hrun : logAccess c seconds s k = (((), s), k) := by simp [logAccess, h]
    rw [hrun]
    exact ⟨rfl, .refl log k⟩
  | some line =>
    have hrun : logAccess c seconds s k = info line s k := by simp [logAccess, h]
    rw [hrun]
    exact info_tells line s k hl

theorem warn_agree (message : String) : Agree log Eq (warn message) (warn message) :=
  (warn_tells message).agree (warn_tells message)

theorem pause_agree (now : Nanoseconds) : Agree log Eq (pause now) (pause now) := by
  refine (Lockstep.modify fun s s' ⟨hl, hc, hs⟩ => .mk hl hc hs).bind fun _ _ _ => ?_
  refine Lockstep.get.bind fun s _ ⟨_, _, _⟩ => ?_
  refine (Lockstep.lift (EventQueue.deregister_agree _)).bind fun r _ hr => ?_
  subst hr
  split
  · exact .pure rfl
  · exact warn_agree _

theorem resume_agree : Agree log Eq resume resume := by
  refine Lockstep.get.bind fun s _ ⟨_, _, _⟩ => ?_
  refine (Lockstep.lift (EventQueue.register_agree _ _ _)).bind fun r _ hr => ?_
  subst hr
  split
  · exact .modify fun s s' ⟨hl, hc, hs⟩ => .mk hl hc hs
  · exact warn_agree _

theorem adopt_agree (now : Nanoseconds) (fd : Fd) (peer : Net.Endpoint) :
    Agree log Eq (adopt now fd peer) (adopt now fd peer) := by
  have hclose (message : String) : Agree log Eq (do warn message; let _ ← Sys.close fd)
      (do warn message; let _ ← Sys.close fd) :=
    (warn_agree message).bind fun _ _ _ =>
      (Lockstep.lift (Sys.close_agree fd)).bind fun _ _ _ => .pure rfl
  refine (Lockstep.lift (Sys.setNonblocking_agree fd)).bind fun r _ hr => ?_
  subst hr
  split
  · exact hclose _
  refine Lockstep.get.bind fun s _ ⟨_, _, _⟩ => ?_
  refine (Lockstep.modify fun s s' ⟨hl, hc, hs⟩ => .mk hl hc hs).bind fun _ _ _ => ?_
  refine (Lockstep.lift (EventQueue.register_agree _ _ _)).bind fun r _ hr => ?_
  subst hr
  split
  · exact hclose _
  · refine .modify fun s s' ⟨hl, hc, hs⟩ => .mk hl (hc.insert (.new now fd peer)) ?_
    obtain ⟨received⟩ := hs
    exact .mk received

theorem accept_agree (now : Nanoseconds) : Agree log Eq (accept now) (accept now) := by
  refine Lockstep.get.bind fun s _ ⟨_, _, _⟩ => ?_
  refine (Lockstep.lift (Sys.accept_agree _)).bind fun r _ hr => ?_
  subst hr
  split
  · exact adopt_agree _ _ _
  · exact .pure rfl
  · split
    · exact (pause_agree now).bind fun _ _ _ => warn_agree _
    · exact warn_agree _

/-- The time at which something is done is of account to the log alone. -/
theorem close_agree (token : Token) (seconds seconds' : Int) :
    Agree log Eq (close token seconds) (close token seconds') := by
  refine Lockstep.get.bind fun s s' ⟨hl, hc, hs⟩ => ?_
  rcases hc.entry token with ⟨h, h'⟩ | ⟨c, c', h, h', hcc⟩
  · simp only [h, h']
    exact .pure rfl
  · obtain ⟨⟨requestLine, request⟩, -⟩ := hcc
    simp only [h, h']
    refine (Lockstep.modify fun s s' ⟨hl, hc, hs⟩ => .mk hl (hc.erase token) hs).bind
      fun _ _ _ => ?_
    refine (Lockstep.lift (EventQueue.deregister_agree c.socket)).bind fun r _ hr => ?_
    subst hr
    have hrest : Agree log Eq
        (do
          logAccess c seconds
          let _ ← Sys.close c.socket
          if (← get).pausedSince.isSome then resume)
        (do
          logAccess { c with requestLine := requestLine, request := request } seconds'
          let _ ← Sys.close c.socket
          if (← get).pausedSince.isSome then resume) := by
      refine ((logAccess_tells _ _).agree (logAccess_tells _ _)).bind fun _ _ _ => ?_
      refine (Lockstep.lift (Sys.close_agree _)).bind fun _ _ _ => ?_
      refine Lockstep.get.bind fun s _ ⟨_, _, _⟩ => ?_
      split
      · exact resume_agree
      · exact .pure rfl
    split
    · exact hrest
    · exact (warn_agree _).bind fun _ _ _ => hrest

/-- The system's clock may show anything. -/
theorem wallClock_agree : Agree log (fun _ _ => True) (liftM Sys.wallClock) (liftM Sys.wallClock) :=
  fun _ _ _ _ hs hk => ⟨trivial, hs, hk⟩

theorem abandon_agree (token : Token) : Agree log Eq (abandon token) (abandon token) := by
  refine (Lockstep.modify fun s s' ⟨hl, hc, hs⟩ => ?_).bind fun _ _ _ =>
    wallClock_agree.bind fun seconds seconds' _ => close_agree token seconds seconds'
  rcases hc.entry token with ⟨h, h'⟩ | ⟨c, c', h, h', hcc⟩
  · simp only [h, h']
    exact .mk hl hc hs
  · simp only [h, h']
    exact .mk hl (hc.insert hcc.same.fail) hs

/-- The same connections are idle. -/
theorem Alike.idleTokens {s s' : Server} (H : s.Alike log s') (now timeout : Nanoseconds) :
    s'.idleTokens now timeout = s.idleTokens now timeout := by
  obtain ⟨-, hc, -⟩ := H
  unfold Server.idleTokens
  unfold Table.Rel at hc
  generalize s.connections.entries = entries at hc ⊢
  dsimp only
  generalize Table.entries _ = entries' at hc ⊢
  induction hc with
  | nil => rfl
  | @cons e e' _ _ he _ ih =>
    obtain ⟨token, c⟩ := e
    obtain ⟨_, c'⟩ := e'
    obtain ⟨rfl, ⟨-, -⟩, -⟩ := he
    simp only [List.filter_cons]
    split
    · rw [List.map_cons, List.map_cons, ih]
    · exact ih

theorem retryAccepting_agree (now : Nanoseconds) :
    Agree log Eq (retryAccepting now) (retryAccepting now) := by
  refine Lockstep.get.bind fun s s' ⟨hl, hc, hs⟩ => ?_
  dsimp only
  split
  · exact .pure rfl
  · rw [hc.isEmpty]
    split
    · exact resume_agree
    · exact .pure rfl

theorem announce_agree : Agree log Eq announce announce := by
  refine Lockstep.get.bind fun s _ ⟨_, _, _⟩ => Lockstep.getKernel.bind fun k _ ⟨_, _, _, _⟩ => ?_
  refine (Lockstep.lift (Sys.localAddress_agree _)).bind fun r _ hr => ?_
  subst hr
  split <;> exact (info_tells _).agree (info_tells _)

theorem logStats_agree : Agree log Eq logStats logStats := by
  refine (Lockstep.lift Sys.usage_agree).bind fun r _ hr => ?_
  subst hr
  split
  · exact .pure rfl
  · refine Lockstep.get.bind fun s s' ⟨_, _, _⟩ => ?_
    have htells (message message' : String) : Agree log Eq (info message) (info message') :=
      (info_tells message).agree (info_tells message')
    refine (htells _ _).bind fun _ _ _ => (htells _ _).bind fun _ _ _ => ?_
    exact (htells _ _).bind fun _ _ _ => .pure rfl

theorem complain_agree (e : ServeError) :
    Agree log Eq (Act.complain e).run (Act.complain e).run := by
  have htells : Tells log (Act.complain e).run :=
    fun s k hl => ⟨rfl, hl ▸ s.log.write_told .error _ k⟩
  exact htells.agree htells

theorem conclude_agree (token : Token) {c c' : Connection} (h : c.Alike c') (verdict : Verdict) :
    Agree log Eq (conclude token c verdict) (conclude token c' verdict) := by
  obtain ⟨⟨requestLine, request⟩, -⟩ := h
  have hgive (message : String) : Agree log Eq (do warn message; abandon token)
      (do warn message; abandon token) :=
    (warn_agree message).bind fun _ _ _ => abandon_agree token
  cases verdict with
  | wait => exact .pure rfl
  | close => exact wallClock_agree.bind fun seconds seconds' _ => close_agree token seconds seconds'
  | fail cause => exact hgive _
  | rearm =>
    refine (Lockstep.lift (Sys.modifyWatch_agree _ _ _)).bind fun r _ hr => ?_
    subst hr
    split
    · exact .pure rfl
    · exact hgive _

end Server

end OnePage
