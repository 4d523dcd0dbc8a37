import OnePage.Program
import OnePage.Proofs.Polls
import OnePage.Proofs.Sweeps

/-! # What requests have no part in

A server looks at a request only to tell of what kind it is: to be completed, refused or answered.
Two runs in which the kinds come out the same make the same calls, and leave the same connections
and totals, whatever is requested (`requests_indifferent`). This is so as long as the log is kept
apart from the page: the log does tell of requests. -/

namespace OnePage

/-! ## Turns -/

theorem Exchange.Alike.stats {x x' : Exchange} (H : x.Alike x') : x.stats.Alike x'.stats := by
  obtain ⟨-, -, hs⟩ := H
  exact hs

/-- What an exchange on a socket begins with. -/
def Kernel.opening (k : Kernel) (fd : Fd) (stats : Stats) : Exchange where
  pending := (((k.watches.get? fd).map (·.token)).bind k.pending.get?).getD {}
  done := #[]
  stats := stats

/-- What an exchange on a socket leaves. -/
def Kernel.left (k : Kernel) (fd : Fd) (x : Exchange) : Kernel :=
  { k with
    pending := match (k.watches.get? fd).map (·.token) with
      | some token => k.pending.insert token x.pending
      | none => k.pending
    trace := k.trace ++ (x.done.toList.map (Call.operation fd)).toArray }

theorem Sys.exchange_eq {α : Type} (fd : Fd) (stats : Stats) (talk : Talk α) (k : Kernel) :
    Sys.exchange fd stats talk k =
      (((talk (k.opening fd stats)).1, (talk (k.opening fd stats)).2.stats),
        k.left fd (talk (k.opening fd stats)).2) := by
  simp only [Sys.exchange, StateM.bind_apply, StateM.get_apply, StateT.run, Kernel.left,
    Kernel.opening, ← Array.toList_map, Array.toArray_toList]
  rfl

namespace Kernel.Alike
variable {log : LogSink} {k k' : Kernel}

theorem stopped (H : k.Alike log k') : k'.stopped = k.stopped := by
  obtain ⟨-, -, -, -⟩ := H
  rfl

theorem files (H : k.Alike log k') : k.files.Alike log.Fills k'.files := by
  obtain ⟨-, -, hf, -⟩ := H
  exact hf

theorem opening (H : k.Alike log k') (fd : Fd) {stats stats' : Stats} (hs : stats.Alike stats') :
    (k.opening fd stats).Alike (k'.opening fd stats') := by
  obtain ⟨hp, -, -, -⟩ := H
  refine .mk ?_ .nil hs
  unfold Kernel.opening
  dsimp only
  cases (k.watches.get? fd).map (·.token) with
  | none => exact .refl _
  | some token =>
    simp only [Option.bind_some]
    exact hp.getD (.refl {})

theorem left (H : k.Alike log k') (fd : Fd) {x x' : Exchange} (hx : x.Alike x') :
    (k.left fd x).Alike log (k'.left fd x') := by
  obtain ⟨hp, hr, hf, ht⟩ := H
  obtain ⟨hpending, hd, -⟩ := hx
  refine .mk (k := k.left fd x) ?_ hr hf ?_
  · unfold Kernel.left
    dsimp only
    cases (k.watches.get? fd).map (·.token) with
    | none => exact hp
    | some token => exact hp.insert hpending
  · have hcalls (ops : List Operation) : unspoken (ops.map (Call.operation fd)) =
        ops.map (Call.operation fd) :=
      List.filter_eq_self.2 fun call hcall => by
        obtain ⟨op, -, rfl⟩ := List.mem_map.1 hcall
        rfl
    simp only [Kernel.left, observed_append, hcalls]
    refine ht.append (List.forall₂_map_left_iff.2 (List.forall₂_map_right_iff.2 ?_))
    exact hd.imp fun _ _ h => .operation fd h

end Kernel.Alike

/-! ## Acts -/

/-- Whether two acts are the same but for what a wait brings to receive, and for the time that the
log has for a close. -/
inductive Server.Act.Alike : Server.Act → Server.Act → Prop
  | same (a : Server.Act) : Alike a a
  | close (token : Token) (seconds seconds' : Int) :
    Alike (.close token seconds) (.close token seconds')
  | wait (timeout : Option Nanoseconds) {round? round?' : Option Round}
    (h : Option.Rel Round.Alike round? round?') :
    Alike (.wait timeout round?) (.wait timeout round?')

/-- What has been received comes first of all that is done on an event. -/
theorem Connection.handle_done {c : Connection} {ready : Conditions} (he : ready.error = false)
    (hs : c.stage = .accepted) (files : Files) (page : String) (now : Nanoseconds) {x : Exchange}
    {data : List UInt8} (hr : (Talk.recv (room c.request) x).1 = .ok data) :
    ∃ ops, (c.handle ready files page now x).2.done.toList =
      x.done.toList ++ .recv (room c.request) (.ok data) :: ops := by
  obtain ⟨result, x₁, hx, hdone, -, hle⟩ := Talk.recv_spec (room c.request) x
  rw [hx] at hr
  subst hr
  rw [room] at hx
  have hmore (x₂ : Exchange) {ops : List Operation} (h : x₂.done = x₁.done ++ ops.toArray) :
      x₂.done.toList = x.done.toList ++ .recv (room c.request) (.ok data) :: ops := by
    simp [h, hdone]
  have hreceive : c.handle ready files page now = c.receive ready files page now := by
    simp [handle, he, hs]
  rw [hreceive]
  cases data with
  | nil =>
    by_cases hnil : c.request = []
    · refine ⟨[], hmore (c.receive ready files page now x).2 ?_⟩
      simp only [receive, StateM.bind_apply, hx, if_pos hnil]
      simp
    · obtain ⟨op, x₂, hx₂, hdone₂, -⟩ := c.reject_spec x₁
      refine ⟨[op], hmore (c.receive ready files page now x).2 ?_⟩
      simp only [receive, StateM.bind_apply, hx, if_neg hnil, hx₂]
      exact hdone₂
  | cons b bs =>
    obtain ⟨ops, verdict, c', x₂, hx₂, hdone₂, -⟩ :=
      takeRequest_handles files page now he hs (List.cons_ne_nil b bs) (hle _ rfl)
        (x := { x₁ with stats := x₁.stats.addReceived (b :: bs).length }) rfl
    refine ⟨ops, hmore (c.receive ready files page now x).2 ?_⟩
    have hx₂ : c.receive ready files page now x = ((verdict, c'), x₂) := by
      simp only [receive, StateM.bind_apply, hx]
      exact hx₂
    rw [hx₂]
    exact hdone₂

namespace Moment
open Server

/-- How a connection takes an event. -/
def taken (m : Moment) (c : Connection) (now : Nanoseconds) (event : Event) :
    (Verdict × Connection) × Exchange :=
  c.handle event.conditions m.kernel.files m.server.config.indexPath now
    (m.kernel.opening c.socket m.server.stats)

/-- What a server makes of it when a connection has taken an event. -/
def concluded (m : Moment) (c : Connection) (now : Nanoseconds) (event : Event) :
    (Unit × Server) × Kernel :=
  let taken := m.taken c now event
  conclude event.token taken.1.2 taken.1.1
    { m.server with
      stats := taken.2.stats
      connections := m.server.connections.insert event.token taken.1.2 }
    (m.kernel.left c.socket taken.2)

/-- What there is of a request when an act has made a connection receive. -/
def buffer? (m : Moment) (a : Act) : Option (List UInt8) :=
  match m.news a with
  | .turn t :: .call (.operation _ (.recv _ (.ok data))) :: _ =>
    some (t.before.request ++ data)
  | _ => none

section
variable {m : Moment} {event : Event} {c : Connection}

theorem turns_dispatch (hl : event.token ≠ listenerToken)
    (hc : m.server.connections.get? event.token = some c) (now : Nanoseconds) :
    (Act.dispatch now event).turns m.server m.kernel = [{
      before := c, conditions := event.conditions, files := m.kernel.files, now
      verdict := (m.taken c now event).1.1
      after := (m.taken c now event).1.2 }] := by
  simp only [Act.turns, turn?, hl, if_false, hc, Sys.exchange_eq, Option.map_some,
    Option.toList_some, taken]

/-- An event that a connection takes comes to what is made of its verdict. -/
theorem act_dispatch (hl : event.token ≠ listenerToken)
    (hc : m.server.connections.get? event.token = some c) (now : Nanoseconds) :
    (m.act (.dispatch now event)).server = (m.concluded c now event).1.2 ∧
      (m.act (.dispatch now event)).kernel = (m.concluded c now event).2 := by
  have hrun : (Act.dispatch now event).run = Server.handle event now := dispatch_eq_handle hl now
  have h := handle_eq hc (Sys.exchange_eq c.socket m.server.stats
    (c.handle event.conditions m.kernel.files m.server.config.indexPath now) m.kernel)
  simp only [act, hrun, h]
  exact ⟨rfl, rfl⟩

theorem buffer?_dispatch (hl : event.token ≠ listenerToken)
    (hc : m.server.connections.get? event.token = some c) (he : event.conditions.error = false)
    {data : List UInt8} (hs : c.stage = .accepted)
    (hr : (Talk.recv (Connection.room c.request)
      (m.kernel.opening c.socket m.server.stats)).1 = .ok data) (now : Nanoseconds) :
    m.buffer? (.dispatch now event) = some (c.request ++ data) := by
  obtain ⟨ops, verdict, c', stats, k₁, s₁, calls, stays, k₂, more, s, k, h, -, Hops, -, -, -,
    hrun, -, htrace⟩ := dispatch_cut hl hc now m.kernel
  -- the operations are those of the exchange
  have hops : ops = (m.taken c now event).2.done.toList := by
    have hk : m.kernel.left c.socket _ = k₁ := (Sys.exchange_eq ..).symm.trans h |> congrArg (·.2)
    have hcalls := congrArg (·.trace.toList) hk
    simp only [Kernel.left, Hops.trace, Array.toList_append, List.append_cancel_left_eq] at hcalls
    exact (List.map_injective_iff.2 fun _ _ h => (Call.operation.inj h).2) hcalls.symm
  obtain ⟨rest, hdone⟩ :=
    Connection.handle_done he hs m.kernel.files m.server.config.indexPath now hr
  have hnews : ((Act.dispatch now event).run m.server m.kernel).2.trace =
      m.kernel.trace ++ (ops.map (Call.operation c.socket) ++ calls ++ more).toArray := by
    rw [Act.run, hrun]
    exact htrace
  simp only [buffer?, news_eq hnews, turns_dispatch hl hc, hops, taken, hdone]
  simp [Kernel.opening]

end

/-- Whether two moments are the same but for what has been received, and for the log. -/
structure Alike (log : LogSink) (m m' : Moment) : Prop where
  server : m.server.Alike log m'.server
  kernel : m.kernel.Alike log m'.kernel

namespace Alike
variable {log : LogSink} {m m' : Moment}

theorem of_agree {a a' : Act} (H : m.Alike log m') (h : Serving.Agree log Eq a.run a'.run) :
    (m.act a).Alike log (m'.act a') :=
  ⟨(h _ _ _ _ H.server H.kernel).2.1, (h _ _ _ _ H.server H.kernel).2.2⟩

/-- An event, given that the requests are of one kind as far as they have come, and that no reply is
made from the file that the log is written to. -/
theorem dispatch (H : m.Alike log m') (now : Nanoseconds) (event : Event)
    (hk : ∀ b ∈ m.buffer? (.dispatch now event), ∀ b' ∈ m'.buffer? (.dispatch now event),
      SameKind b b')
    (hh : ∀ t ∈ (Act.dispatch now event).turns m.server m.kernel, ∀ r ∈ t.after.response,
      ¬ log.Fills r.file) :
    (m.act (.dispatch now event)).Alike log (m'.act (.dispatch now event)) := by
  by_cases hl : event.token = listenerToken
  case pos =>
    have hrun : (Act.dispatch now event).run = Server.accept now := dispatch_eq_accept hl now
    exact H.of_agree (hrun ▸ accept_agree now)
  rcases H.server.entry event.token with ⟨hc, hc'⟩ | ⟨c, c', hc, hc', h⟩
  · have hrun : (Act.dispatch now event).run = Server.handle event now :=
      dispatch_eq_handle hl now
    simp only [act, hrun, handle_gone hc, handle_gone hc']
    exact ⟨H.server, H.kernel⟩
  · have hsocket : c'.socket = c.socket := by
      obtain ⟨⟨-, -⟩, -⟩ := h
      rfl
    have hopening : (m.kernel.opening c.socket m.server.stats).Alike
        (m'.kernel.opening c'.socket m'.server.stats) :=
      hsocket ▸ H.kernel.opening c.socket H.server.stats
    have htaken : Connection.TurnsAlike (m.taken c now event) (m'.taken c' now event) := by
      unfold taken
      rw [H.server.config]
      refine h.handle H.kernel.files event.conditions _ now hopening ?_ ?_
      · intro he hs hs' data data' hr hr'
        exact hk _ (buffer?_dispatch hl hc he hs hr now) _ (buffer?_dispatch hl hc' he hs' hr' now)
      · exact hh _ (turns_dispatch hl hc now ▸ List.mem_singleton_self _)
    obtain ⟨⟨hverdict, hc₁⟩, hx⟩ := htaken
    have hconcluded := conclude_agree event.token hc₁ (m.taken c now event).1.1 _ _ _ _
      (H.server.insert hx.stats event.token hc₁) (H.kernel.left c.socket hx)
    obtain ⟨hs₁, hk₁⟩ := act_dispatch hl hc now
    obtain ⟨hs₂, hk₂⟩ := act_dispatch hl hc' now
    refine ⟨?_, ?_⟩
    · rw [hs₁, hs₂, concluded, concluded, ← hverdict, hsocket]
      exact hconcluded.2.1
    · rw [hk₁, hk₂, concluded, concluded, ← hverdict, hsocket]
      exact hconcluded.2.2

/-- An act that is the same but for what it brings to receive. -/
theorem act (H : m.Alike log m') {a a' : Act} (h : a.Alike a')
    (hk : ∀ b ∈ m.buffer? a, ∀ b' ∈ m'.buffer? a', SameKind b b')
    (hh : ∀ t ∈ a.turns m.server m.kernel, ∀ r ∈ t.after.response, ¬ log.Fills r.file)
    (R : m.server.Registered m.kernel) (R' : m'.server.Registered m'.kernel) :
    (m.act a).Alike log (m'.act a') := by
  have hwait (timeout : Option Nanoseconds) {round? round?' : Option Round}
      (h : Option.Rel Round.Alike round? round?') : Serving.Agree log Eq
        (Act.wait timeout round?).run (Act.wait timeout round?').run :=
    (Serving.Lockstep.lift (Sys.wait_agree _ _ h)).bind fun _ _ _ => .pure rfl
  cases h with
  | wait timeout h => exact H.of_agree (hwait timeout h)
  | close token seconds seconds' => exact H.of_agree (close_agree token seconds seconds')
  | same =>
    cases a with
    | dispatch now event => exact H.dispatch now event hk hh
    | wait timeout round? =>
      refine H.of_agree (hwait timeout ?_)
      cases round? with
      | none => exact .none
      | some round => exact .some (.refl round)
    | announce => exact H.of_agree announce_agree
    | evictIdle now =>
      obtain ⟨hs, hk⟩ := H.server.evictIdle H.kernel R R' now
      exact ⟨hs, hk⟩
    | retryAccepting now => exact H.of_agree (retryAccepting_agree now)
    | close token seconds => exact H.of_agree (close_agree token seconds seconds)
    | logStats => exact H.of_agree (logStats_agree.bind fun _ _ _ => .pure rfl)
    | complain e => exact H.of_agree (complain_agree e)

end Alike

/-! ## Runs -/

/-- What there is of a request each time that a connection receives in a run. -/
def buffers : Moment → List Act → List (Option (List UInt8))
  | _, [] => []
  | m, a :: acts => m.buffer? a :: (m.act a).buffers acts

/-- Whether the requests of two runs are always of one kind, as far as they have come. -/
def SameKinds (m m' : Moment) (acts acts' : List Act) : Prop :=
  ∀ p ∈ (m.buffers acts).zip (m'.buffers acts'), ∀ b ∈ p.1, ∀ b' ∈ p.2, SameKind b b'

/-- Whether no reply has been made from the file that a log is written to. -/
def Spares (m : Moment) (log : LogSink) : Prop :=
  ∀ t ∈ turns m.history, ∀ r ∈ t.after.response, ¬ log.Fills r.file

section
variable {log : LogSink} {m m' : Moment} {acts acts' more more' : List Act}

theorem buffers_append (m : Moment) (acts more : List Act) :
    m.buffers (acts ++ more) = m.buffers acts ++ (m.run acts).buffers more := by
  induction acts generalizing m with
  | nil => rfl
  | cons a acts ih => exact congrArg (m.buffer? a :: ·) (ih (m.act a))

theorem length_buffers (m : Moment) (acts : List Act) :
    (m.buffers acts).length = acts.length := by
  induction acts generalizing m with
  | nil => rfl
  | cons a acts ih => exact congrArg (· + 1) (ih (m.act a))

theorem sameKinds_append (h : acts.length = acts'.length) :
    m.SameKinds m' (acts ++ more) (acts' ++ more') ↔
      m.SameKinds m' acts acts' ∧ (m.run acts).SameKinds (m'.run acts') more more' := by
  have hlength : (m.buffers acts).length = (m'.buffers acts').length := by
    rw [length_buffers, length_buffers, h]
  simp only [SameKinds, buffers_append, List.zip_append hlength]
  exact List.forall_mem_append

theorem sameKinds_cons {a a' : Act} :
    m.SameKinds m' (a :: acts) (a' :: acts') ↔
      (∀ b ∈ m.buffer? a, ∀ b' ∈ m'.buffer? a', SameKind b b') ∧
        (m.act a).SameKinds (m'.act a') acts acts' := List.forall_mem_cons

theorem history_run (m : Moment) (acts : List Act) : m.history <+: (m.run acts).history := by
  induction acts generalizing m with
  | nil => exact List.prefix_rfl
  | cons a acts ih => exact (List.prefix_append ..).trans (ih (m.act a))

theorem Spares.of_run (acts : List Act) (H : (m.run acts).Spares log) : m.Spares log := by
  obtain ⟨new, hnew⟩ := m.history_run acts
  intro t ht
  refine H t ?_
  rw [← hnew, turns_append]
  exact List.mem_append_left _ ht

theorem Spares.of_append (H : (m.run (acts ++ more)).Spares log) : (m.run acts).Spares log :=
  .of_run more (run_append m acts more ▸ H)

theorem Spares.turns {a : Act} (H : (m.act a).Spares log) :
    ∀ t ∈ a.turns m.server m.kernel, ∀ r ∈ t.after.response, ¬ log.Fills r.file := by
  intro t ht
  refine H t (List.mem_filterMap.2 ⟨.turn t, ?_, rfl⟩)
  simp [act, ht]

theorem registered_act (R : m.server.Registered m.kernel) (a : Act) :
    (m.act a).server.Registered (m.act a).kernel := by
  obtain ⟨_, Hs, -⟩ := act_moves m a
  exact Hs.registered R

theorem registered_run (R : m.server.Registered m.kernel) (acts : List Act) :
    (m.run acts).server.Registered (m.run acts).kernel := by
  induction acts generalizing m with
  | nil => exact R
  | cons a acts ih => exact ih (registered_act R a)

/-- Runs that differ in what they receive stay alike. -/
theorem Alike.run (H : m.Alike log m') (ha : List.Forall₂ Act.Alike acts acts')
    (hk : m.SameKinds m' acts acts') (hh : (m.run acts).Spares log)
    (R : m.server.Registered m.kernel) (R' : m'.server.Registered m'.kernel) :
    (m.run acts).Alike log (m'.run acts') := by
  induction ha generalizing m m' with
  | nil => exact H
  | @cons a a' acts acts' h ha ih =>
    obtain ⟨hnow, hlater⟩ := sameKinds_cons.1 hk
    exact ih (H.act h hnow (Spares.of_run acts hh).turns R R') hlater hh (registered_act R a)
      (registered_act R' a')

/-- So they are after any number of acts. -/
theorem Alike.run_take (H : m.Alike log m') (ha : List.Forall₂ Act.Alike acts acts')
    (hk : m.SameKinds m' acts acts') (hh : (m.run acts).Spares log)
    (R : m.server.Registered m.kernel) (R' : m'.server.Registered m'.kernel) (n : Nat) :
    (m.run (acts.take n)).Alike log (m'.run (acts'.take n)) := by
  rw [← List.take_append_drop n acts] at hk hh
  rw [← List.take_append_drop n acts'] at hk
  have hlength : (acts.take n).length = (acts'.take n).length := by
    rw [List.length_take, List.length_take, ha.length_eq]
  exact H.run (List.forall₂_take n ha) ((sameKinds_append hlength).1 hk).1 (.of_append hh) R R'

end

/-! ## Serving -/

/-- What is left to do in two runs: nothing, or the same connections are closed in whatever order,
for the log at whatever time. -/
inductive Stops : List Act → List Act → Prop
  | nil : Stops [] []
  | stop {tokens tokens' : List Token} (h : tokens.Perm tokens') (seconds seconds' : Int) :
    Stops (tokens.map (.close · seconds) ++ [.logStats])
      (tokens'.map (.close · seconds') ++ [.logStats])

/-- Whether two rows of acts are the same but for what these bring to receive, and for how
connections are closed at the end. -/
def SameActs (acts acts' : List Act) : Prop :=
  ∃ before before' after after', acts = before ++ after ∧ acts' = before' ++ after' ∧
    List.Forall₂ Act.Alike before before' ∧ Stops after after'

/-- Whether two ways to go on come to the same acts, and end in the same way. -/
def GoOnAlike (log : LogSink) (f f' : Serving (Except ServeError Unit))
    (acts acts' : Moment → List Act) : Prop :=
  ∀ m m' : Moment, m.Alike log m' → m.server.Registered m.kernel → m'.server.Registered m'.kernel →
    m.SameKinds m' (acts m) (acts' m') → (m.run (acts m)).Spares log →
      SameActs (acts m) (acts' m') ∧ (m.run (acts m)).Alike log (m'.run (acts' m')) ∧
        (f m.server m.kernel).1.1 = (f' m'.server m'.kernel).1.1

section
variable {log : LogSink} {m m' : Moment} {round? round?' : Option Round}

theorem SameActs.prepend {acts acts' more more' : List Act} (H : SameActs more more')
    (h : List.Forall₂ Act.Alike acts acts') : SameActs (acts ++ more) (acts' ++ more') := by
  obtain ⟨before, before', after, after', rfl, rfl, hbefore, hafter⟩ := H
  exact ⟨acts ++ before, acts' ++ before', after, after', (List.append_assoc ..).symm,
    (List.append_assoc ..).symm, List.rel_append h hbefore, hafter⟩

theorem Alike.poll (H : m.Alike log m') (timeout : Option Nanoseconds)
    (h : Option.Rel Round.Alike round? round?') :
    List.Forall₂ Act.Alike (m.pollActs timeout round?) (m'.pollActs timeout round?') ∧
      (Server.poll timeout round? m.server m.kernel).1.1 =
        (Server.poll timeout round?' m'.server m'.kernel).1.1 := by
  have hwait := Sys.wait_agree EventQueue.capacity (EventQueue.timeoutArgument timeout) h
    _ _ H.kernel
  simp only [poll_outcome, pollActs, EventQueue.wait]
  generalize Sys.wait _ _ round? m.kernel = done at hwait ⊢
  generalize Sys.wait _ _ round?' m'.kernel = done' at hwait ⊢
  obtain ⟨result, k⟩ := done
  obtain ⟨_, k'⟩ := done'
  obtain ⟨rfl, hk⟩ := hwait
  obtain ⟨-, -, -, -⟩ := hk
  exact ⟨.cons (.wait timeout h) (List.forall₂_same.2 fun a _ => Act.Alike.same a), rfl⟩

theorem Alike.stop (H : m.Alike log m') (R : m.server.Registered m.kernel)
    (R' : m'.server.Registered m'.kernel) : Stops m.stopActs m'.stopActs ∧
      (m.run m.stopActs).Alike log (m'.run m'.stopActs) ∧
      (shutDown m.server m.kernel).1.1 = (shutDown m'.server m'.kernel).1.1 := by
  have hperm : (m.kernel.walk.order m.server.connections.keys).Perm
      (m'.kernel.walk.order m'.server.connections.keys) := by
    rw [H.server.keys]
    exact (m.kernel.walk.perm _).trans (m'.kernel.walk.perm _).symm
  obtain ⟨hr, hs, hk⟩ := H.server.shutDown H.kernel R R'
  obtain ⟨hs₁, hk₁⟩ := m.comesTo_shutDown
  obtain ⟨hs₂, hk₂⟩ := m'.comesTo_shutDown
  refine ⟨.stop hperm m.seconds m'.seconds, ⟨?_, ?_⟩, hr⟩
  · rwa [hs₁, hs₂] at hs
  · rwa [hk₁, hk₂] at hk

/-- Serving from one poll on. -/
theorem GoOnAlike.round {next next' : Serving (Except ServeError Unit)}
    {more more' : Moment → List Act} (h : Option.Rel Round.Alike round? round?')
    (H : GoOnAlike log next next' more more') :
    GoOnAlike log (serveRound round? next) (serveRound round?' next') (roundActs round? more)
      (roundActs round?' more') := by
  intro m m' Hm R R' hk hh
  simp only [roundActs, round_outcome, Hm.kernel.stopped, Hm.server.nextWait] at hk hh ⊢
  split
  · obtain ⟨hstops, Hstop, hend⟩ := Hm.stop R R'
    exact ⟨⟨[], [], _, _, rfl, rfl, .nil, hstops⟩, Hstop, hend⟩
  · rename_i hstop
    simp only [hstop] at hk hh
    obtain ⟨ha, hr⟩ := Hm.poll m.server.nextWait h
    rw [← hr] at hk ⊢
    have Hpoll := Hm.run ha ((sameKinds_append ha.length_eq).1 hk).1 (.of_append hh) R R'
    split
    · rename_i e _
      have hsame : SameActs [.complain e] [.complain e] :=
        ⟨[.complain e], [.complain e], [], [], rfl, rfl, .cons (.same _) .nil, .nil⟩
      refine ⟨hsame.prepend ha, ?_, rfl⟩
      rw [run_append, run_append]
      exact Hpoll.of_agree (complain_agree e)
    · rename_i hok
      rw [hok] at hk hh
      obtain ⟨hmore, Hmore, hend⟩ := H _ _ Hpoll (registered_run R _) (registered_run R' _)
        ((sameKinds_append ha.length_eq).1 hk).2 (run_append m _ _ ▸ hh)
      refine ⟨hmore.prepend ha, ?_, hend⟩
      rw [run_append, run_append]
      exact Hmore

theorem GoOnAlike.rounds {rounds rounds' : List Round}
    (h : List.Forall₂ Round.Alike rounds rounds') :
    GoOnAlike log (serveRounds rounds) (serveRounds rounds') (roundsActs rounds)
      (roundsActs rounds') := by
  have hnil : GoOnAlike log (pure (.ok ())) (pure (.ok ())) (fun _ => []) (fun _ => []) :=
    fun _ _ H _ _ _ _ => ⟨⟨[], [], [], [], rfl, rfl, .nil, .nil⟩, H, rfl⟩
  induction h with
  | nil => exact hnil.round .none
  | cons hr _ ih => exact ih.round (.some hr)

/-- So it is after polling for some of the rounds, and neither run has come to its end before the
other one. -/
theorem Alike.polls {rounds rounds' more more' : List Round} (H : m.Alike log m')
    (h : List.Forall₂ Round.Alike rounds rounds') (R : m.server.Registered m.kernel)
    (R' : m'.server.Registered m'.kernel)
    (hk : m.SameKinds m' (roundsActs (rounds ++ more) m) (roundsActs (rounds' ++ more') m'))
    (hh : (m.run (roundsActs (rounds ++ more) m)).Spares log) (hgoes : m.GoesOn rounds) :
    m'.GoesOn rounds' ∧ (m.polls rounds).Alike log (m'.polls rounds') := by
  induction h generalizing m m' with
  | nil => exact ⟨trivial, H⟩
  | @cons round round' rounds rounds' hr _ ih =>
    obtain ⟨hstop, hfailure, hgoes⟩ := hgoes
    have hstop' : m'.kernel.stopped = false := H.kernel.stopped.trans hstop
    have hfailure' : ∀ e, round'.failure = some e → e = .EINTR := by
      obtain ⟨-⟩ := hr
      exact hfailure
    have hok := poll_ok m.server.nextWait hfailure m.server m.kernel
    have hok' := poll_ok m'.server.nextWait hfailure' m'.server m'.kernel
    simp only [List.cons_append, roundsActs, roundActs, hstop, hstop', Bool.false_eq_true, if_false,
      hok, hok'] at hk hh
    rw [H.server.nextWait] at hk
    obtain ⟨ha, -⟩ := H.poll m.server.nextWait (.some hr)
    obtain ⟨hnow, hlater⟩ := (sameKinds_append ha.length_eq).1 hk
    have Hpoll := H.run ha hnow (.of_append hh) R R'
    rw [run_append] at hh
    have hpolled : m'.polled round' = m'.run (m'.pollActs m.server.nextWait (some round')) := by
      rw [polled, H.server.nextWait]
    obtain ⟨hgoes', Hpolls⟩ := ih Hpoll (registered_run R _) (registered_run R' _) hlater hh hgoes
    refine ⟨⟨hstop', hfailure', hpolled ▸ hgoes'⟩, ?_⟩
    simp only [Moment.polls, List.foldl_cons, hpolled] at Hpolls ⊢
    exact Hpolls

theorem GoOnAlike.serve {rounds rounds' : List Round}
    (h : List.Forall₂ Round.Alike rounds rounds') :
    GoOnAlike log (Server.serve rounds) (Server.serve rounds') (serveActs · rounds)
      (serveActs · rounds') := by
  intro m m' Hm R R' hk hh
  have Hm₁ : (m.act .announce).Alike log (m'.act .announce) := Hm.of_agree announce_agree
  obtain ⟨hacts, Hend, hend⟩ := GoOnAlike.rounds h _ _ Hm₁ (registered_act R _)
    (registered_act R' _) (sameKinds_cons.1 hk).2 hh
  exact ⟨hacts.prepend (.cons (.same .announce) .nil), Hend, hend⟩

end

/-- The same moment with another clock, and another order of walking through connections. -/
def again (m : Moment) (drift : Nat → Int) (walk : Walk) : Moment :=
  { m with kernel := { m.kernel with drift := drift, walk := walk } }

/-- Whether serving goes in the same way from two moments on. -/
structure Indifferent (log : LogSink) (m m' : Moment) (rounds rounds' : List Round) : Prop where
  acts : SameActs (m.serveActs rounds) (m'.serveActs rounds')
  polls (n : Nat) (h : (m.act .announce).GoesOn (rounds.take n)) :
    (m'.act .announce).GoesOn (rounds'.take n) ∧
      (m.served (rounds.take n)).Alike log (m'.served (rounds'.take n))
  outcome : (serve rounds m.server m.kernel).1.1 = (serve rounds' m'.server m'.kernel).1.1
  server : (serve rounds m.server m.kernel).1.2.Alike log (serve rounds' m'.server m'.kernel).1.2
  kernel : (serve rounds m.server m.kernel).2.Alike log (serve rounds' m'.server m'.kernel).2

theorem Alike.indifferent {log : LogSink} {m m' : Moment} (H : m.Alike log m')
    {rounds rounds' : List Round} (h : List.Forall₂ Round.Alike rounds rounds')
    (R : m.server.Registered m.kernel) (R' : m'.server.Registered m'.kernel)
    (hk : m.SameKinds m' (m.serveActs rounds) (m'.serveActs rounds'))
    (hh : (m.run (m.serveActs rounds)).Spares log) : m.Indifferent log m' rounds rounds' := by
  obtain ⟨hacts, ⟨hserver, hkernel⟩, hend⟩ := GoOnAlike.serve h m m' H R R' hk hh
  obtain ⟨hs, hk₁⟩ := m.comesTo_serve rounds
  obtain ⟨hs', hk₁'⟩ := m'.comesTo_serve rounds'
  refine ⟨hacts, fun n hgoes => ?_, hend, ?_, ?_⟩
  · have Hannounced : (m.act .announce).Alike log (m'.act .announce) := H.of_agree announce_agree
    have hlater := (sameKinds_cons.1 hk).2
    have hspares : ((m.act .announce).run (roundsActs rounds (m.act .announce))).Spares log := hh
    rw [← List.take_append_drop n rounds] at hlater hspares
    rw [← List.take_append_drop n rounds'] at hlater
    exact Hannounced.polls (List.forall₂_take n h) (registered_act R _) (registered_act R' _) hlater
      hspares hgoes
  · rwa [hs, hs']
  · rwa [hk₁, hk₁']

end Moment

theorem Reachable.alike_again {m : Moment} (H : Reachable m) (drift : Nat → Int) (walk : Walk) :
    m.Alike m.server.log (m.again drift walk) where
  server := .mk rfl (.refl fun _ _ h => (H.coherent.table h).alike) (.refl m.server.stats)
  kernel := .mk (.refl fun _ p _ => .refl p) (fun _ _ => rfl) (.refl m.kernel.files) (.refl _)

/-! ## The file that is opened -/

/-- No file is opened for a request but the page. -/
theorem Connection.Handles.openPage {c c' : Connection} {ready : Conditions} {files : Files}
    {page : String} {now : Nanoseconds} {stats stats' : Stats} {ops : List Operation}
    {verdict : Verdict} (H : c.Handles ready files page now stats ops verdict c' stats')
    {path : String} {opened : Bool} (hop : .openPage path opened ∈ ops) : path = page := by
  have hrefuses {stats stats' : Stats} {op : Operation} (H : Response.Refuses stats op stats') :
      .openPage path opened ≠ op := by
    cases H <;> exact Operation.noConfusion
  cases H with
  | cutOff _ _ _ _ Hr | unfinished _ _ _ _ _ _ Hr | malformed _ _ _ _ _ _ Hr =>
    simp [hrefuses Hr] at hop
  | unopened => simp_all
  | replied _ _ _ _ _ _ _ Hd =>
    rcases List.mem_cons.1 hop with h | h
    · cases h
    rcases List.mem_cons.1 h with h | h
    · cases h
      rfl
    · cases Hd.isTransfer _ h
  | resumed _ _ _ _ _ Hd => cases Hd.isTransfer _ hop
  | _ => simp at hop

namespace Server

/-- Whether the page is all that has been opened. -/
def OpensPage (s : Server) (history : List Occurrence) : Prop :=
  ∀ path opened, .openPage path opened ∈ operations history → path = s.config.indexPath

theorem OpensPage.move {s s' : Server} {k k' : Kernel} {history new : List Occurrence}
    (H : OpensPage s history) (Hm : Move s k new s' k') : OpensPage s' (history ++ new) := by
  have Ho := Hm.outline
  generalize turns new = more at Ho
  generalize hops : operations new = ops at Ho
  intro path opened h
  rw [operations_append, hops] at h
  cases Ho with
  | aside hp | adopt hp => exact hp ▸ H path opened (by simpa using h)
  | stay _ Hh | finish _ Hh =>
    exact (List.mem_append.1 h).elim (H path opened) Hh.openPage
  | close => exact H path opened (by simpa using h)

end Server

theorem Reachable.opensPage {m : Moment} (H : Reachable m) : m.server.OpensPage m.history :=
  H.invariant (P := fun s _ history => s.OpensPage history)
    (fun _ _ _ _ => by simp [Server.OpensPage, operations]) Server.OpensPage.move

/-! ## Indifference -/

open Server in
/-- Requests have no part in what a server does but by their kind. Take two runs that bring the same
but for the bytes of what is received, such that the requests are always of one kind as far as they
have come, and that no reply is made from the file that the log is written to. After any number of
acts they are alike: so are the connections, the totals, and the calls made, those to the log left
out. So they are after every poll of two servers that serve, and at the end, and the end is the
same, whatever the clocks show and in whatever order connections are walked through. Whatever is
requested, no file but the page is opened for it. -/
theorem requests_indifferent {m : Moment} (H : Reachable m) (drift : Nat → Int) (walk : Walk) :
    let m' := m.again drift walk
    (∀ acts acts', List.Forall₂ Act.Alike acts acts' → m.SameKinds m' acts acts' →
      (m.run acts).Spares m.server.log →
      ∀ n, (m.run (acts.take n)).Alike m.server.log (m'.run (acts'.take n))) ∧
    (∀ rounds rounds', List.Forall₂ Round.Alike rounds rounds' →
      m.SameKinds m' (m.serveActs rounds) (m'.serveActs rounds') →
      (m.run (m.serveActs rounds)).Spares m.server.log →
      m.Indifferent m.server.log m' rounds rounds') ∧
    (∀ rounds, m.ComesTo (serve rounds) (m.serveActs rounds) ∧
      m'.ComesTo (serve rounds) (m'.serveActs rounds)) ∧
    ∀ path opened, .openPage path opened ∈ operations m.history →
      path = m.server.config.indexPath := by
  have Ha := H.alike_again drift walk
  have R := H.registered
  have R' : (m.again drift walk).server.Registered (m.again drift walk).kernel := R.frame rfl rfl
  exact ⟨fun _ _ ha hk hh => Ha.run_take ha hk hh R R',
    fun _ _ hr hk hh => Ha.indifferent hr R R' hk hh,
    fun rounds => ⟨m.comesTo_serve rounds, (m.again drift walk).comesTo_serve rounds⟩, H.opensPage⟩

/-! Two requests on the connection of `Moment.greeted`. -/

/-- What a server sees when it gets a request, with the page that there is then. -/
def Round.request (bytes : List UInt8) : Round where
  changes := [.write "./index.html" (Text.bytes "hi")]
  reports := [.ofBytes 1 bytes]

/-- Connections are walked through backwards. -/
def Walk.descending : Walk := ⟨List.reverse, List.reverse_perm⟩

/-- What a server comes to that gets a request. -/
def Moment.asked (m : Moment) (request : String) : (Except ServeError Unit × Server) × Kernel :=
  Server.serve [.request (Text.bytes request)] m.server m.kernel

/-- Another request is replied to in the same way, at whatever time. -/
theorem requests_indifferent_greeted :
    let one := Moment.greeted.asked "GET / x\n"
    let other := (Moment.greeted.again (fun calls => calls) .descending).asked
      "POST /elsewhere HTTP/1.1\r\n"
    one.1.1 = other.1.1 ∧ one.1.2.Alike .stdout other.1.2 ∧ one.2.Alike .stdout other.2 ∧
      one.1.2.stats.received = 8 ∧ other.1.2.stats.received = 26 := by
  have hb : Moment.greeted.buffers (Moment.greeted.serveActs [.request (Text.bytes "GET / x\n")]) =
      [none, none, some (Text.bytes "GET / x\n"), none, none, none, none] := by decide +kernel
  have hb' : (Moment.greeted.again (fun calls => calls) .descending).buffers
      ((Moment.greeted.again (fun calls => calls) .descending).serveActs
        [.request (Text.bytes "POST /elsewhere HTTP/1.1\r\n")]) =
      [none, none, some (Text.bytes "POST /elsewhere HTTP/1.1\r\n"), none, none, none, none] := by
    decide +kernel
  have hkind : SameKind (Text.bytes "GET / x\n") (Text.bytes "POST /elsewhere HTTP/1.1\r\n") :=
    .understood ⟨by decide +kernel, by decide +kernel⟩ ⟨by decide +kernel, by decide +kernel⟩
  have hkinds : Moment.greeted.SameKinds (Moment.greeted.again (fun calls => calls) .descending)
      (Moment.greeted.serveActs [.request (Text.bytes "GET / x\n")])
      ((Moment.greeted.again (fun calls => calls) .descending).serveActs
        [.request (Text.bytes "POST /elsewhere HTTP/1.1\r\n")]) := by
    rw [Moment.SameKinds, hb, hb']
    simpa using hkind
  have hlog : Moment.greeted.server.log = .stdout := rfl
  have H := (requests_indifferent Reachable.greeted (fun calls => calls) .descending).2.1
    [.request (Text.bytes "GET / x\n")] [.request (Text.bytes "POST /elsewhere HTTP/1.1\r\n")]
    (.cons (.mk (.cons (.mk (.mk (.cons (.data (by decide) (by decide)) .nil))) .nil)) .nil)
    hkinds fun _ _ _ _ => LogSink.noConfusion
  rw [hlog] at H
  have hone : (Moment.greeted.asked "GET / x\n").1.2.stats.received = 8 := by decide +kernel
  have hother : ((Moment.greeted.again (fun calls => calls) .descending).asked
      "POST /elsewhere HTTP/1.1\r\n").1.2.stats.received = 26 := by decide +kernel
  unfold Moment.asked at hone hother ⊢
  exact ⟨H.outcome, H.server, H.kernel, hone, hother⟩

/-! ## What requests have a part in -/

/-- A server that has been created where there is a page, the file of number 6, and that writes its
log there. -/
def Moment.scribbling : Moment where
  server := { Moment.start.server with log := .file 6 }
  kernel := (Server.create {} 3 (.file 6) { Kernel.listening with
    files := Kernel.listening.files.change (.write "./index.html" (Text.bytes "hi")) }).2
  history := []

theorem Reachable.scribbling : Reachable .scribbling :=
  have hl : Kernel.listening.descriptors.contains 3 := by decide
  .created (k := { Kernel.listening with
    files := Kernel.listening.files.change (.write "./index.html" (Text.bytes "hi")) })
    hl rfl rfl rfl

/-- A connection that comes and sends something. -/
def Server.visit (token : Token) (bytes : List UInt8) : List Act :=
  [.wait none (some { reports := [.greeting] }), .dispatch 0 Report.greeting.event,
    .wait none (some { reports := [.ofBytes token bytes] }),
    .dispatch 0 (Report.ofBytes token bytes).event]

/-- Two connections, of which the first one sends a request of some kind. -/
def Server.visits (request : String) : List Act :=
  visit 1 (Text.bytes request) ++ visit 2 (Text.bytes "GET / x\n")

/-- A server that stops with two connections open. -/
def Round.stopping (walk : Walk) : Round where
  walk := walk
  stop := true

/-- A request comes, and the standard output takes no more than the next 57 bytes. -/
def Round.curbed (request : String) : Round :=
  { Round.request (Text.bytes request) with
    forced := [(.writeOut, [some (.value 57), some (.fails .EPIPE)])] }

/-- What a process ends with that goes through one round. -/
def Moment.exitCode (m : Moment) (round : Round) : Nat :=
  (Program.process (Server.serve [round]) m.server m.kernel).1

/-- A server that has accepted two connections. -/
def Moment.couple : Moment := Moment.greeted.report .greeting []

/-- The sockets that are closed when a server stops. -/
def Moment.stopped (m : Moment) (walk : Walk) : List Fd :=
  (Server.serve [.stopping walk] m.server m.kernel).2.trace.toList.filterMap Call.closed?

/-- Where the log is the page, what is requested is told of there, and so has a part in the next
reply. A standard output that takes no more ends a process sooner if there is more to be told of its
requests. And in which order connections are closed that are closed in one go is left open. -/
theorem requests_matter_scribbling :
    (let acts := Server.visits "GET / x\n"
      let acts' := Server.visits "GET /a x\n"
      Reachable .scribbling ∧ List.Forall₂ Server.Act.Alike acts acts' ∧
        Moment.scribbling.SameKinds .scribbling acts acts' ∧
        (Moment.scribbling.run acts).server.stats.sent = 187 ∧
        (Moment.scribbling.run acts').server.stats.sent = 188) ∧
    (Moment.greeted.exitCode (.curbed "GET / x\n") = 1 ∧
      Moment.greeted.exitCode (.curbed "GET /a x\n") = Program.brokenCode) ∧
    (Reachable .couple ∧ Moment.couple.stopped .ascending = [501, 502] ∧
      Moment.couple.stopped .descending = [502, 501]) := by
  have hb : Moment.scribbling.buffers (Server.visits "GET / x\n") =
      [none, none, none, some (Text.bytes "GET / x\n"),
        none, none, none, some (Text.bytes "GET / x\n")] := by decide +kernel
  have hb' : Moment.scribbling.buffers (Server.visits "GET /a x\n") =
      [none, none, none, some (Text.bytes "GET /a x\n"),
        none, none, none, some (Text.bytes "GET / x\n")] := by decide +kernel
  have hkind : SameKind (Text.bytes "GET / x\n") (Text.bytes "GET /a x\n") :=
    .understood ⟨by decide +kernel, by decide +kernel⟩ ⟨by decide +kernel, by decide +kernel⟩
  have hkinds : Moment.scribbling.SameKinds .scribbling (Server.visits "GET / x\n")
      (Server.visits "GET /a x\n") := by
    rw [Moment.SameKinds, hb, hb']
    simpa using ⟨hkind, .same _⟩
  have hround : Round.Alike { reports := [.ofBytes 1 (Text.bytes "GET / x\n")] }
      { reports := [.ofBytes 1 (Text.bytes "GET /a x\n")] } :=
    .mk (.cons (.mk (.mk (.cons (.data (by decide) (by decide)) .nil))) .nil)
  have hacts : List.Forall₂ Server.Act.Alike (Server.visits "GET / x\n")
      (Server.visits "GET /a x\n") :=
    .cons (.same _) (.cons (.same _) (.cons (.wait none (.some hround)) (.cons (.same _)
      (List.forall₂_same.2 fun a _ => .same a))))
  exact ⟨⟨.scribbling, hacts, hkinds, by decide +kernel, by decide +kernel⟩,
    ⟨by decide +kernel, by decide +kernel⟩, Reachable.greeted.report _ _, by decide +kernel,
    by decide +kernel⟩

end OnePage
