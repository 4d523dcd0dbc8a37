import OnePage.Connection
import OnePage.Proofs.Delivery

/-! # Handling an event

All that a connection can do on an event (`Connection.Handles`), one constructor for each way out
of `Connection.handle`. The theory opens that function elsewhere only to compare two runs: what
holds of every connection follows from these ways and from `Response.Delivers`. -/

namespace OnePage

namespace Talk

theorem recv_spec (room : Nat) (x : Exchange) :
    ∃ r x', Talk.recv room x = (r, x') ∧ x'.done = x.done ++ #[.recv room r] ∧
      x'.stats = x.stats ∧ ∀ data, r = .ok data → data.length ≤ room := by
  refine ⟨_, _, rfl, by simp, rfl, fun data h => ?_⟩
  rcases hr : x.pending.recv.head? with _ | _ | all
  · simp [hr] at h
  · simp [hr] at h
  · simp only [hr, Except.ok.injEq] at h
    rw [← h, List.length_take]
    exact Nat.min_le_left ..

theorem takeError_spec (x : Exchange) :
    ∃ cause x' result, Talk.takeError x = (cause, x') ∧
      x'.done = x.done ++ #[.takeError result] ∧ x'.stats = x.stats := by
  cases h : x.pending.takeError with
  | nil =>
    refine ⟨x.pending.error.head?.join, (takeError x).2, .ok (), ?_, ?_, ?_⟩ <;>
      simp [takeError, h, record]
  | cons e rest =>
    refine ⟨none, (takeError x).2, .error e, ?_, ?_, ?_⟩ <;> simp [takeError, h, record]

end Talk

namespace Response

def badRequestBytes : List UInt8 := Text.bytes badRequest

/-- The one operation that replies that a request is not understood, and the totals after it. -/
inductive Refuses (stats : Stats) : Operation → Stats → Prop
  | sent {n : Nat} (hn : n ≤ badRequestBytes.length) :
    Refuses stats (.send badRequestBytes.length (.ok (badRequestBytes.take n))) (stats.addSent n)
  | failed (e : Errno) : Refuses stats (.send badRequestBytes.length (.error e)) stats

theorem sendBadRequest_refuses (x : Exchange) :
    ∃ op x', sendBadRequest x = ((), x') ∧ x'.done = x.done ++ #[op] ∧
      Refuses x.stats op x'.stats := by
  obtain ⟨result, x', hx, hdone, hstats, hn⟩ := Talk.send_spec badRequestBytes x
  rw [badRequestBytes] at hx
  rcases result with e | n
  · exact ⟨_, x', by simp [sendBadRequest, hx], hdone, hstats ▸ .failed e⟩
  · refine ⟨_, { x' with stats := x'.stats.addSent n }, ?_, hdone, ?_⟩
    · simp [sendBadRequest, hx, Talk.count]
    · simp only [hstats]
      exact .sent (hn n rfl)

end Response

namespace Connection

/-- How much of a request may still come. -/
def room (received : List UInt8) : Nat := requestSize - received.length

/-- Whether what came of receiving means that the peer will send no more. -/
def NoMore (ready : Conditions) (result : Except Errno (List UInt8)) : Prop :=
  result = .ok [] ∨ result = .error .EAGAIN ∧ ready.isHangup

/-- A connection whose request was not understood. -/
def rejected (c : Connection) : Connection :=
  { c with
    requestLine := (logRejected c.request).or c.requestLine
    status := some .badRequest
    stage := .failed }

/-- A connection that has a response to its request. -/
def answered (c : Connection) (r : Response) : Connection :=
  { c with response := some r, status := some .ok }

/-- A connection whose reply was sent on, by what came of it. -/
def continued (c : Connection) (r : Response) : Except SendError Progress → Verdict × Connection
  | .ok .complete => (.close, { c with response := some r, stage := .responseSent })
  | .ok .blocked =>
    if c.interest = .write then (.wait, { c with response := some r })
    else (.rearm, { c with response := some r, interest := .write })
  | .error e => (.fail (.sending e), { c with response := some r })

/-- What a connection can do on an event with the conditions `ready`: the operations it makes, its
verdict, and the connection and the totals afterwards. -/
inductive Handles (c : Connection) (ready : Conditions) (files : Files) (page : String)
    (now : Nanoseconds) (stats : Stats) :
    List Operation → Verdict → Connection → Stats → Prop
  | broken {result : Outcome} {cause : Option Errno} (he : ready.error) :
    Handles c ready files page now stats [.takeError result] (.fail (.socket cause)) c stats
  | nothing (he : ready.error = false) (hs : c.stage = .accepted) (hh : ready.isHangup = false) :
    Handles c ready files page now stats [.recv (room c.request) (.error .EAGAIN)] .wait c stats
  | recvFailed {e : Errno} (he : ready.error = false) (hs : c.stage = .accepted)
    (hne : e ≠ .EAGAIN) :
    Handles c ready files page now stats [.recv (room c.request) (.error e)] (.fail (.recv e)) c
      stats
  | gone {result : Except Errno (List UInt8)} (he : ready.error = false) (hs : c.stage = .accepted)
    (hnil : c.request = []) (hr : NoMore ready result) :
    Handles c ready files page now stats [.recv (room c.request) result] .close c.fail stats
  | cutOff {result : Except Errno (List UInt8)} {op : Operation} {stats' : Stats}
    (he : ready.error = false) (hs : c.stage = .accepted) (hne : c.request ≠ [])
    (hr : NoMore ready result) (H : Response.Refuses stats op stats') :
    Handles c ready files page now stats [.recv (room c.request) result, op] .close c.rejected
      stats'
  | more {data : List UInt8} (he : ready.error = false) (hs : c.stage = .accepted) (hd : data ≠ [])
    (hle : data.length ≤ room c.request) (hl : Request.hasLine (c.request ++ data) = false)
    (hlt : (c.request ++ data).length < requestSize) (hh : ready.isHangup = false) :
    Handles c ready files page now stats [.recv (room c.request) (.ok data)] .wait
      (c.gather now data) (stats.addReceived data.length)
  | unfinished {data : List UInt8} {op : Operation} {stats' : Stats} (he : ready.error = false)
    (hs : c.stage = .accepted) (hd : data ≠ []) (hle : data.length ≤ room c.request)
    (hl : Request.hasLine (c.request ++ data) = false)
    (hr : requestSize ≤ (c.request ++ data).length ∨ ready.isHangup)
    (H : Response.Refuses (stats.addReceived data.length) op stats') :
    Handles c ready files page now stats [.recv (room c.request) (.ok data), op] .close
      (c.gather now data).rejected stats'
  | malformed {data : List UInt8} {error : RequestError} {op : Operation} {stats' : Stats}
    (he : ready.error = false) (hs : c.stage = .accepted) (hd : data ≠ [])
    (hle : data.length ≤ room c.request) (hl : Request.hasLine (c.request ++ data))
    (hp : Request.parse (c.request ++ data) = .error error)
    (H : Response.Refuses (stats.addReceived data.length).addRequest op stats') :
    Handles c ready files page now stats [.recv (room c.request) (.ok data), op] .close
      (c.gather now data).rejected stats'
  | unopened {data : List UInt8} {line : RequestLine} {cause : OpenError}
    (he : ready.error = false) (hs : c.stage = .accepted) (hd : data ≠ [])
    (hle : data.length ≤ room c.request) (hl : Request.hasLine (c.request ++ data))
    (hp : Request.parse (c.request ++ data) = .ok line)
    (ho : Response.ofPath files page = .error cause) :
    Handles c ready files page now stats [.recv (room c.request) (.ok data), .openPage page false]
      (.fail (.opening cause)) ((c.gather now data).understand line)
      (stats.addReceived data.length).addRequest
  | replied {data : List UInt8} {line : RequestLine} {r r' : Response} {ops : List Operation}
    {result : Except SendError Progress} {stats' : Stats} {verdict : Verdict} {c' : Connection}
    (he : ready.error = false) (hs : c.stage = .accepted) (hd : data ≠ [])
    (hle : data.length ≤ room c.request) (hl : Request.hasLine (c.request ++ data))
    (hp : Request.parse (c.request ++ data) = .ok line) (ho : Response.ofPath files page = .ok r)
    (H : Response.Delivers ((files.content? r.file).getD .empty) r
      (stats.addReceived data.length).addRequest ops result r' stats')
    (hc : (((c.gather now data).understand line).answered r).continued r' result = (verdict, c')) :
    Handles c ready files page now stats
      (.recv (room c.request) (.ok data) :: .openPage page true :: ops) verdict c' stats'
  | closedEarly (he : ready.error = false) (hs : c.stage = .requestReceived) (hh : ready.hangup) :
    Handles c ready files page now stats [] (.fail .closedEarly) c stats
  | notWritable (he : ready.error = false) (hs : c.stage = .requestReceived)
    (hh : ready.hangup = false) (ho : ready.output = false) :
    Handles c ready files page now stats [] .wait c stats
  | unanswerable (he : ready.error = false) (hs : c.stage = .requestReceived)
    (hr : c.response = none) (hh : ready.hangup = false) (ho : ready.output) :
    Handles c ready files page now stats [] (.fail .noResponse) { c with lastActive := now } stats
  | resumed {r r' : Response} {ops : List Operation} {result : Except SendError Progress}
    {stats' : Stats} {verdict : Verdict} {c' : Connection} (he : ready.error = false)
    (hs : c.stage = .requestReceived) (hr : c.response = some r) (hh : ready.hangup = false)
    (ho : ready.output)
    (H : Response.Delivers ((files.content? r.file).getD .empty) r stats ops result r' stats')
    (hc : continued { c with lastActive := now } r' result = (verdict, c')) :
    Handles c ready files page now stats ops verdict c' stats'
  | spent (he : ready.error = false) (hs : c.stage ≠ .accepted) (hs' : c.stage ≠ .requestReceived) :
    Handles c ready files page now stats [] .close c stats

section
variable {c c' : Connection} {r : Response} {result : Except SendError Progress}
variable {verdict : Verdict}

theorem continued_socket (h : c.continued r result = (verdict, c')) : c'.socket = c.socket := by
  unfold continued at h
  split at h
  · cases h; rfl
  · split at h <;> cases h <;> rfl
  · cases h; rfl

theorem continued_response (h : c.continued r result = (verdict, c')) :
    c'.response = some r := by
  unfold continued at h
  split at h
  · cases h; rfl
  · split at h <;> cases h <;> rfl
  · cases h; rfl

theorem continued_stage (h : c.continued r result = (verdict, c')) :
    result = .ok .complete ∧ verdict = .close ∧ c'.stage = .responseSent ∨
      result ≠ .ok .complete ∧ c'.stage = c.stage := by
  unfold continued at h
  split at h
  · cases h
    exact .inl ⟨rfl, rfl, rfl⟩
  · split at h <;> cases h <;> exact .inr ⟨by simp, rfl⟩
  · cases h
    exact .inr ⟨by simp, rfl⟩

/-- A reply that is to wait for room waits on a connection that waits for room already. -/
theorem continued_wait (h : c.continued r result = (.wait, c')) :
    result = .ok .blocked ∧ c.interest = .write ∧ c' = { c with response := some r } := by
  unfold continued at h
  split at h
  · cases h
  · split at h
    · rename_i hi
      cases h
      exact ⟨rfl, hi, rfl⟩
    · cases h
  · cases h

theorem continued_rearm (h : c.continued r result = (.rearm, c')) :
    result = .ok .blocked ∧ c.interest ≠ .write ∧
      c' = { c with response := some r, interest := .write } := by
  unfold continued at h
  split at h
  · cases h
  · split at h
    · cases h
    · rename_i hi
      cases h
      exact ⟨rfl, hi, rfl⟩
  · cases h

end

namespace Handles
variable {c c' : Connection} {ready : Conditions} {files : Files} {page : String}
variable {now : Nanoseconds} {stats stats' : Stats} {ops : List Operation} {verdict : Verdict}

theorem socket (H : c.Handles ready files page now stats ops verdict c' stats') :
    c'.socket = c.socket := by
  cases H with
  | replied _ _ _ _ _ _ _ _ hc | resumed _ _ _ _ _ _ hc => exact (continued_socket hc :)
  | _ => rfl

/-- A connection that is to wait on waits for what it has waited for. -/
theorem interest_of_wait (H : c.Handles ready files page now stats ops .wait c' stats') :
    c'.interest = c.interest := by
  cases H with
  | replied _ _ _ _ _ _ _ _ hc | resumed _ _ _ _ _ _ hc =>
    obtain ⟨-, -, rfl⟩ := continued_wait hc
    rfl
  | _ => rfl

end Handles

theorem sendResponse_handles {c : Connection} {r : Response} (hr : c.response = some r)
    (files : Files) (x : Exchange) :
    ∃ ops result r' x', c.sendResponse files x = (c.continued r' result, x') ∧
      x'.done = x.done ++ ops.toArray ∧
      Response.Delivers ((files.content? r.file).getD .empty) r x.stats ops result r' x'.stats := by
  obtain ⟨ops, result, r', x', hx, hdone, H⟩ := r.send_delivers files x
  refine ⟨ops, result, r', x', ?_, hdone, H⟩
  simp only [sendResponse, hr, StateM.bind_apply, hx]
  rcases result with e | (_ | _)
  · rfl
  · rfl
  · simp only [continued]
    split <;> rfl

theorem reject_spec (c : Connection) (x : Exchange) :
    ∃ op x', c.reject x = ((.close, c.rejected), x') ∧ x'.done = x.done ++ #[op] ∧
      Response.Refuses x.stats op x'.stats := by
  obtain ⟨op, x', hx, hdone, H⟩ := Response.sendBadRequest_refuses x
  refine ⟨op, x', ?_, hdone, H⟩
  cases h : logRejected c.request <;> simp [reject, hx, rejected, h]

/-- What `handle` does is among the ways listed by `Handles`. -/
def Handled (c : Connection) (ready : Conditions) (files : Files) (page : String)
    (now : Nanoseconds) (talk : Talk (Verdict × Connection)) (x : Exchange) : Prop :=
  ∃ ops verdict c' x', talk x = ((verdict, c'), x') ∧ x'.done = x.done ++ ops.toArray ∧
    c.Handles ready files page now x.stats ops verdict c' x'.stats

section
variable {c : Connection} {ready : Conditions} {data : List UInt8}

/-- What becomes of a request line that is understood. -/
theorem beginResponse_handles (files : Files) (page : String) (now : Nanoseconds) {stats : Stats}
    {line : RequestLine} (he : ready.error = false) (hs : c.stage = .accepted) (hd : data ≠ [])
    (hle : data.length ≤ room c.request) (hl : Request.hasLine (c.request ++ data))
    (hp : Request.parse (c.request ++ data) = .ok line) {x : Exchange}
    (hx : x.stats = (stats.addReceived data.length).addRequest) :
    ∃ ops verdict c' x', ((c.gather now data).understand line).beginResponse files page x =
        ((verdict, c'), x') ∧ x'.done = x.done ++ ops.toArray ∧
      c.Handles ready files page now stats (.recv (room c.request) (.ok data) :: ops) verdict c'
        x'.stats := by
  cases ho : Response.ofPath files page with
  | error cause =>
    refine ⟨[.openPage page false], .fail (.opening cause), (c.gather now data).understand line,
      { x with done := x.done.push (.openPage page false) }, ?_, by simp, ?_⟩
    · simp only [beginResponse, ho]
      rfl
    · simp only [hx]
      exact .unopened he hs hd hle hl hp ho
  | ok r =>
    let opened : Exchange := { x with done := x.done.push (.openPage page true) }
    obtain ⟨ops, result, r', x', hx', hdone, H⟩ := sendResponse_handles
      (c := ((c.gather now data).understand line).answered r) rfl files opened
    simp only [opened, hx] at H
    refine ⟨.openPage page true :: ops, _, _, x', ?_, ?_,
      .replied he hs hd hle hl hp ho H rfl⟩
    · simp only [beginResponse, ho]
      exact hx'
    · have hopened : opened.done = x.done ++ [Operation.openPage page true].toArray := by
        simp [opened]
      exact Talk.done_append hopened hdone

theorem takeRequest_handles (files : Files) (page : String) (now : Nanoseconds) {stats : Stats}
    (he : ready.error = false) (hs : c.stage = .accepted) (hd : data ≠ [])
    (hle : data.length ≤ room c.request) {x : Exchange}
    (hx : x.stats = stats.addReceived data.length) :
    ∃ ops verdict c' x', (c.gather now data).takeRequest ready files page x = ((verdict, c'), x') ∧
      x'.done = x.done ++ ops.toArray ∧
      c.Handles ready files page now stats (.recv (room c.request) (.ok data) :: ops) verdict c'
        x'.stats := by
  have hrequest : (c.gather now data).request = c.request ++ data := rfl
  cases hl : Request.hasLine (c.request ++ data) with
  | false =>
    by_cases hr : (c.request ++ data).length < requestSize ∧ ready.isHangup = false
    case pos =>
      refine ⟨[], .wait, c.gather now data, x, ?_, by simp, ?_⟩
      · simp only [takeRequest, hrequest, hl, hr]
        simp
      · rw [hx]
        exact .more he hs hd hle hl hr.1 hr.2
    have hr' : requestSize ≤ (c.request ++ data).length ∨ ready.isHangup :=
      (Nat.lt_or_ge (c.request ++ data).length requestSize).symm.imp_right fun h =>
        eq_true_of_ne_false fun hh => hr ⟨h, hh⟩
    obtain ⟨op, x', hx', hdone, H⟩ := (c.gather now data).reject_spec x
    refine ⟨[op], _, _, x', ?_, hdone, .unfinished he hs hd hle hl hr' (hx ▸ H)⟩
    simp only [takeRequest, hrequest, hl, Bool.and_eq_true, decide_eq_true_eq, Bool.not_eq_true',
      hr]
    simpa using hx'
  | true =>
    let counted : Exchange := { x with stats := x.stats.addRequest }
    have hcounted : counted.stats = (stats.addReceived data.length).addRequest :=
      congrArg Stats.addRequest hx
    cases hp : Request.parse (c.request ++ data) with
    | error error =>
      obtain ⟨op, x', hx', hdone, H⟩ := (c.gather now data).reject_spec counted
      refine ⟨[op], _, _, x', ?_, hdone, .malformed he hs hd hle hl hp (hcounted ▸ H)⟩
      simp only [takeRequest, hrequest, hl, if_true, StateM.bind_apply, hp]
      exact hx'
    | ok line =>
      obtain ⟨ops, verdict, c', x', hx', hdone, H⟩ :=
        beginResponse_handles files page now he hs hd hle hl hp hcounted
      refine ⟨ops, verdict, c', x', ?_, hdone, H⟩
      simp only [takeRequest, hrequest, hl, if_true, StateM.bind_apply, hp]
      exact hx'

theorem receive_handles (files : Files) (page : String) (now : Nanoseconds)
    (he : ready.error = false) (hs : c.stage = .accepted) (x : Exchange) :
    c.Handled ready files page now (c.receive ready files page now) x := by
  obtain ⟨result, x₁, hx, hdone, hstats, hle⟩ := Talk.recv_spec (room c.request) x
  rw [room] at hx
  rcases result with e | data
  · by_cases hne : e = .EAGAIN
    case neg =>
      refine ⟨_, .fail (.recv e), c, x₁, ?_, hdone, hstats ▸ .recvFailed he hs hne⟩
      simp only [receive, StateM.bind_apply, hx]
      cases e <;> rfl
    subst hne
    cases hh : ready.isHangup with
    | false =>
      refine ⟨_, .wait, c, x₁, ?_, hdone, hstats ▸ .nothing he hs hh⟩
      simp only [receive, StateM.bind_apply, hx]
      simp [hh]
    | true =>
      by_cases hne : c.request = []
      case pos =>
        refine ⟨_, .close, c.fail, x₁, ?_, hdone, hstats ▸ .gone he hs hne (.inr ⟨rfl, hh⟩)⟩
        simp only [receive, StateM.bind_apply, hx]
        simp [hh, hne]
      obtain ⟨op, x₂, hx', hdone', H⟩ := c.reject_spec x₁
      refine ⟨_, .close, _, x₂, ?_, Talk.done_append hdone hdone',
        .cutOff he hs hne (.inr ⟨rfl, hh⟩) (hstats ▸ H)⟩
      simp only [receive, StateM.bind_apply, hx]
      simp [hh, hne, hx']
  cases data with
  | nil =>
    by_cases hne : c.request = []
    case pos =>
      refine ⟨_, .close, c.fail, x₁, ?_, hdone, hstats ▸ .gone he hs hne (.inl rfl)⟩
      simp only [receive, StateM.bind_apply, hx]
      simp [hne]
    obtain ⟨op, x₂, hx', hdone', H⟩ := c.reject_spec x₁
    refine ⟨_, .close, _, x₂, ?_, Talk.done_append hdone hdone',
      .cutOff he hs hne (.inl rfl) (hstats ▸ H)⟩
    simp only [receive, StateM.bind_apply, hx]
    simp [hne, hx']
  | cons b bs =>
    obtain ⟨ops, verdict, c', x₂, hx', hdone', H⟩ :=
      takeRequest_handles files page now he hs (List.cons_ne_nil b bs) (hle _ rfl)
        (x := { x₁ with stats := x₁.stats.addReceived (b :: bs).length })
        (congrArg (Stats.addReceived · _) hstats)
    refine ⟨_, verdict, c', x₂, ?_, Talk.done_append hdone hdone', H⟩
    simp only [receive, StateM.bind_apply, hx]
    exact hx'

end

theorem handle_handles (c : Connection) (ready : Conditions) (files : Files) (page : String)
    (now : Nanoseconds) (x : Exchange) :
    c.Handled ready files page now (c.handle ready files page now) x := by
  by_cases he : ready.error
  case pos =>
    obtain ⟨cause, x', result, hx, hdone, hstats⟩ := Talk.takeError_spec x
    exact ⟨_, .fail (.socket cause), c, x', by simp [handle, he, hx], hdone,
      hstats ▸ .broken he⟩
  have hne : ready.error = false := by simpa using he
  cases hs : c.stage with
  | accepted =>
    have h : c.handle ready files page now = c.receive ready files page now := by
      simp [handle, he, hs]
    exact h ▸ receive_handles files page now hne hs x
  | requestReceived =>
    by_cases hh : ready.hangup
    case pos =>
      exact ⟨[], _, c, x, by simp [handle, he, hs, hh], by simp, .closedEarly hne hs hh⟩
    have hh' : ready.hangup = false := by simpa using hh
    by_cases ho : ready.output
    case neg =>
      exact ⟨[], _, c, x, by simp [handle, he, hs, hh, ho], by simp,
        .notWritable hne hs hh' (by simpa using ho)⟩
    have h : c.handle ready files page now = sendResponse { c with lastActive := now } files := by
      simp [handle, he, hs, hh, ho]
    cases hr : c.response with
    | none =>
      refine ⟨[], _, _, x, ?_, by simp, .unanswerable hne hs hr hh' ho⟩
      rw [h]
      simp [sendResponse, hr]
    | some r =>
      obtain ⟨ops, result, r', x', hx, hdone, H⟩ :=
        sendResponse_handles (c := { c with lastActive := now }) hr files x
      exact ⟨ops, _, _, x', h ▸ hx, hdone, .resumed hne hs hr hh' ho H rfl⟩
  | responseSent | failed =>
    exact ⟨[], _, c, x, by simp [handle, he, hs], by simp, .spent hne (by simp [hs]) (by simp [hs])⟩

end Connection

end OnePage
