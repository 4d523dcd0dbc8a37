import Mathlib.Algebra.Group.Nat.Defs
import OnePage.Proofs.Incidents
import OnePage.Proofs.Isolation

/-! # Generations of tokens

Descriptor numbers are used again, tokens are not. The tokens that are handed out are the numbers
from one on, each for one socket that was accepted (`Server.Numbered`), so with fewer sockets than
there are tokens none comes twice, and one that has left the table stays away. What an event leads
to is done on the socket that was registered under the event's token and has not been closed since
(`Held`), and on no other. -/

namespace OnePage
open EventQueue

/-! ## Tokens that are handed out -/

/-- The token that a call hands out. It need not succeed. The listener has its own. -/
def Occurrence.issue? (listener : Fd) : Occurrence → Option Token
  | call (.add fd token ..) => if fd = listener then none else some token
  | _ => none

/-- The tokens that have been handed out, in their order. -/
def issued (listener : Fd) (L : List Occurrence) : List Token :=
  L.filterMap (Occurrence.issue? listener)

section
variable {listener fd : Fd} {token : Token} {calls : List Call}

@[simp] theorem issued_append (listener : Fd) (L L' : List Occurrence) :
    issued listener (L ++ L') = issued listener L ++ issued listener L' := List.filterMap_append

theorem issued_cons_turn (listener : Fd) (t : Turn) (L : List Occurrence) :
    issued listener (.turn t :: L) = issued listener L := rfl

theorem issued_messages (h : ∀ call ∈ calls, call.isMessage) (listener : Fd) :
    issued listener (calls.map .call) = [] := by
  rw [issued, List.filterMap_eq_nil_iff]
  intro o ho
  obtain ⟨call, hcall, rfl⟩ := List.mem_map.1 ho
  have hm := h call hcall
  cases call with
  | print | log => rfl
  | _ => cases hm

theorem issued_operations (listener fd : Fd) (ops : List Operation) :
    issued listener ((ops.map (Call.operation fd)).map .call) = [] := by
  rw [issued, List.filterMap_eq_nil_iff]
  simp [Occurrence.issue?]

theorem issued_interruptions (listener : Fd) (n : Nat) :
    issued listener ((Sys.interruptions listener n).map .call) = [] := by
  rw [issued, List.filterMap_eq_nil_iff]
  intro o ho
  obtain ⟨call, hcall, rfl⟩ := List.mem_map.1 ho
  rw [List.eq_of_mem_replicate hcall]
  rfl

/-- One registration hands out one token, also if it fails. -/
theorem EventQueue.Registration.issued {interest : Interest} {result : Outcome}
    (H : Registration fd token interest result calls) (hfd : fd ≠ listener) :
    issued listener (calls.map .call) = [token] := by
  cases H <;> simp [OnePage.issued, Occurrence.issue?, hfd]

theorem EventQueue.Registration.issued_listener {interest : Interest} {result : Outcome}
    (H : Registration listener token interest result calls) :
    OnePage.issued listener (calls.map .call) = [] := by
  cases H <;> simp [OnePage.issued, Occurrence.issue?]

theorem Server.Ending.issued {log : LogSink} {c last : Connection} {verdict : Verdict}
    (H : Server.Ending log token c verdict calls last) (listener : Fd) :
    issued listener (calls.map .call) = [] := by
  cases H with
  | close => rfl
  | fail ht | rearm ht => exact issued_messages ht.isMessage listener

theorem Server.Closing.issued {log : LogSink} {seconds zone : Int} {c : Connection}
    (H : Server.Closing log seconds zone c calls) (listener : Fd) :
    issued listener (calls.map .call) = [] := by
  obtain @⟨deleted, told, ht⟩ := H
  have htold := issued_messages ht.isMessage listener
  have hdelete : issued listener [.call (.delete c.socket deleted)] = [] := rfl
  have hclose : issued listener [.call (.close c.socket)] = [] := rfl
  have hcalls : (Call.delete c.socket deleted :: (told ++ [.close c.socket])).map Occurrence.call =
      [.call (.delete c.socket deleted)] ++ (told.map .call ++ [.call (.close c.socket)]) := by
    simp
  rw [hcalls, issued_append, issued_append, hdelete, htold, hclose]
  rfl

end

namespace Server

/-- The tokens that have been handed out are those from one on up to the next, and for each of them
a socket has been accepted. -/
structure Numbered (s : Server) (history : List Occurrence) : Prop where
  issued : issued s.listener history = List.range' 1 (s.nextToken - 1)
  count : s.nextToken ≤ acceptances history + 1

namespace Numbered
variable {s s' : Server} {k k' : Kernel} {history new : List Occurrence}

theorem keep (H : Numbered s history) (hl : s'.listener = s.listener)
    (ht : s'.nextToken = s.nextToken) (hnew : OnePage.issued s.listener new = []) :
    Numbered s' (history ++ new) where
  issued := by
    rw [hl, ht, issued_append, hnew, List.append_nil]
    exact H.issued
  count := by
    rw [ht, acceptances_append]
    exact Nat.le_trans H.count (by omega)

theorem issue (H : Numbered s history) (hpos : 0 < s.nextToken) (hl : s'.listener = s.listener)
    (ht : s'.nextToken = s.nextToken + 1) (hnew : OnePage.issued s.listener new = [s.nextToken])
    (haccepted : 0 < acceptances new) : Numbered s' (history ++ new) where
  issued := by
    obtain ⟨n, hn⟩ := Nat.exists_eq_add_one_of_ne_zero (Nat.ne_of_gt hpos)
    have hissued := H.issued
    rw [hn] at hissued hnew ht
    rw [hl, ht, issued_append, hissued, hnew, Nat.add_sub_cancel, Nat.add_sub_cancel,
      List.range'_1_concat, Nat.add_comm 1 n]
  count := by
    rw [ht, acceptances_append]
    exact Nat.le_trans (Nat.succ_le_succ H.count) (by omega)

theorem move (H : Numbered s history) (R : Registered s k) (Hm : Move s k new s' k') :
    Numbered s' (history ++ new) := by
  have hinterruptions := issued_interruptions s.listener
  -- a socket is accepted, and a token is handed out for it
  have haccept {n : Nat} {fd : Fd} {registering more : List Call} {result : Outcome}
      (hfree : k.descriptors.get? fd = none)
      (hr : Registration fd s.nextToken .read result registering)
      (hmore : OnePage.issued s.listener (more.map .call) = []) :
      OnePage.issued s.listener ((Sys.interruptions s.listener n ++ .accept s.listener (.ok fd) ::
          .setNonblocking fd (.ok ()) :: (registering ++ more)).map .call) = [s.nextToken] ∧
        0 < acceptances ((Sys.interruptions s.listener n ++ .accept s.listener (.ok fd) ::
          .setNonblocking fd (.ok ()) :: (registering ++ more)).map .call) := by
    have hregistering := hr.issued (R.ne_of_free hfree)
    constructor
    · rw [List.map_append, issued_append, hinterruptions, List.map_cons, List.map_cons,
        List.map_append]
      have hcons (L : List Occurrence) : OnePage.issued s.listener
          (.call (.accept s.listener (.ok fd)) :: .call (.setNonblocking fd (.ok ())) :: L) =
            OnePage.issued s.listener L := rfl
      rw [hcons, issued_append, hregistering, hmore]
      rfl
    · exact List.countP_pos_iff.2 ⟨.call (.accept s.listener (.ok fd)), by simp, rfl⟩
  cases Hm with
  | tell ht => exact H.keep rfl rfl (issued_messages ht.isMessage _)
  | wait hc =>
    subst hc
    exact H.keep rfl rfl rfl
  | unaccepted hc =>
    subst hc
    refine H.keep rfl rfl ?_
    rw [List.map_append, issued_append, hinterruptions]
    rfl
  | pause hc =>
    subst hc
    exact H.keep rfl rfl rfl
  | resume hr | unresumed hr => exact H.keep rfl rfl hr.issued_listener
  | adopt hfree hr hc =>
    have hnothing : OnePage.issued s.listener (List.map Occurrence.call []) = [] := rfl
    obtain ⟨hissued, haccepted⟩ := haccept hfree hr hnothing
    rw [List.append_nil, ← hc] at hissued haccepted
    exact H.issue R.fresh rfl rfl hissued haccepted
  | refuse hfree ht hc =>
    rename_i n fd peer e told calls He
    have htold := issued_messages ht.isMessage s.listener
    refine H.keep rfl rfl ?_
    have hcalls : calls.map Occurrence.call = (Sys.interruptions s.listener n).map .call ++
        ([.call (.accept s.listener (.ok fd)), .call (.setNonblocking fd (.error e))] ++
          (told.map .call ++ [.call (.close fd)])) := by
      simp [hc]
    rw [hcalls, issued_append, issued_append, issued_append, hinterruptions, htold]
    rfl
  | unregistered hfree hr ht hc =>
    rename_i n fd peer e registering told calls He
    have hmore : OnePage.issued s.listener ((told ++ [Call.close fd]).map .call) = [] := by
      rw [List.map_append, issued_append, issued_messages ht.isMessage]
      rfl
    obtain ⟨hissued, haccepted⟩ := haccept hfree hr hmore
    rw [← List.append_assoc, ← hc] at hissued haccepted
    exact H.issue R.fresh rfl rfl hissued haccepted
  | stay _ _ hc =>
    rw [hc]
    exact H.keep rfl rfl (issued_operations ..)
  | rearm _ _ hc =>
    refine H.keep rfl rfl ?_
    rw [hc, List.map_append, issued_cons_turn, issued_append, issued_operations]
    rfl
  | finish _ _ He Hc hc =>
    refine H.keep rfl rfl ?_
    rw [hc, List.map_append, List.map_append, issued_cons_turn, issued_append, issued_append,
      issued_operations, He.issued, Hc.issued]
    rfl
  | close _ _ Hc => exact H.keep rfl rfl (Hc.issued _)

theorem mem_issued (H : Numbered s history) (hpos : 0 < s.nextToken) {token : Token} :
    token ∈ OnePage.issued s.listener history ↔ 0 < token ∧ token < s.nextToken := by
  rw [H.issued, List.mem_range'_1, Nat.add_sub_of_le hpos]
  exact Iff.rfl

end Numbered

/-- A token that has been handed out and is not in the table will not be in it again. -/
theorem Move.gone {s s' : Server} {k k' : Kernel} {new : List Occurrence} {token : Token}
    (H : Move s k new s' k') (hissued : token < s.nextToken)
    (hgone : s.connections.get? token = none) :
    token < s'.nextToken ∧ s'.connections.get? token = none := by
  have hinsert {t : Token} {c c' : Connection} (ht : s.connections.get? t = some c) :
      (s.connections.insert t c').get? token = none := by
    have hne : token ≠ t := by
      rintro rfl
      rw [hgone] at ht
      cases ht
    rw [Table.get?_insert, if_neg hne, hgone]
  have herase (t : Token) : (s.connections.erase t).get? token = none := by
    rw [Table.get?_erase, hgone, ite_self]
  cases H with
  | tell | wait | unaccepted | pause | resume | unresumed | refuse => exact ⟨hissued, hgone⟩
  | adopt =>
    refine ⟨Nat.lt_succ_of_lt hissued, ?_⟩
    rw [Table.get?_insert, if_neg (Nat.ne_of_lt hissued), hgone]
  | unregistered => exact ⟨Nat.lt_succ_of_lt hissued, hgone⟩
  | stay ht | rearm ht => exact ⟨hissued, hinsert ht⟩
  | finish | close => exact ⟨hissued, herase _⟩

theorem Moves.gone {s s' : Server} {k k' : Kernel} {new : List Occurrence} {token : Token}
    (H : Moves s k new s' k') (hissued : token < s.nextToken)
    (hgone : s.connections.get? token = none) :
    token < s'.nextToken ∧ s'.connections.get? token = none := by
  induction H with
  | nil => exact ⟨hissued, hgone⟩
  | cons H _ ih =>
    obtain ⟨hissued, hgone⟩ := H.gone hissued hgone
    exact ih hissued hgone

end Server

theorem Reachable.numbered {m : Moment} (H : Reachable m) : m.server.Numbered m.history := by
  refine (H.invariant (P := fun s k h => s.Registered k ∧ s.Numbered h) ?_ ?_).2
  · intro _ _ _ _ _ _ hl hw _ hc
    refine ⟨Server.create_registered hl hw hc, ?_⟩
    obtain ⟨queue, calls, rfl, -⟩ := Server.create_spec hc
    exact ⟨rfl, Nat.le_refl 1⟩
  · intro _ _ _ _ _ _ H Hm
    exact ⟨H.1.move Hm, H.2.move H.1 Hm⟩

/-- A connection that is gone stays away, whatever is done. -/
theorem Reachable.gone {m : Moment} (H : Reachable m) {token : Token}
    (hissued : token ∈ issued m.server.listener m.history) (hgone : m.record? token = none)
    (acts : List Server.Act) : (m.run acts).record? token = none := by
  have hlt := ((H.numbered.mem_issued H.registered.fresh).1 hissued).2
  clear hissued
  induction acts generalizing m with
  | nil => exact hgone
  | cons a acts ih =>
    obtain ⟨new, Hs, -⟩ := Server.act_moves m a
    obtain ⟨hlt', hgone'⟩ := Hs.gone hlt hgone
    exact ih (H.act a) hgone' hlt'

/-! ## Sockets that are held -/

/-- The socket that was accepted and registered as `token`, and has not been closed since. -/
def Held (history : List Occurrence) (fd : Fd) (token : Token) : Prop :=
  ∃ registering later, Current history fd
      ((Call.setNonblocking fd (.ok ()) :: registering).map .call ++ later) ∧
    Registration fd token .read (.ok ()) registering ∧ .call (.close fd) ∉ later

theorem mem_of_mem_life {fd : Fd} {o : Occurrence} {L : List Occurrence} (h : o ∈ life fd L) :
    o ∈ L := by
  induction L with
  | nil => exact h
  | cons o' L ih =>
    unfold life at h
    split at h
    · cases h
    split at h
    · rcases List.mem_cons.1 h with rfl | h
      · exact List.mem_cons_self ..
      · exact List.mem_cons_of_mem _ (ih h)
    · exact List.mem_cons_of_mem _ (ih h)

/-- A connection in the table has not been closed. -/
theorem Lived.held {page : String} {fd : Fd} {token : Token} {c : Connection}
    {L : List Occurrence} (H : Lived page fd token c L) :
    ∃ registering later, L = (Call.setNonblocking fd (.ok ()) :: registering).map .call ++ later ∧
      Registration fd token .read (.ok ()) registering ∧ .call (.close fd) ∉ later := by
  induction H with
  | @registered _ _ calls hr => exact ⟨calls, [], (List.append_nil _).symm, hr, List.not_mem_nil⟩
  | waited _ _ ih | rearmed _ _ ih =>
    obtain ⟨registering, later, rfl, hr, hlater⟩ := ih
    refine ⟨registering, _, List.append_assoc .., hr, ?_⟩
    rw [List.mem_append, not_or]
    exact ⟨hlater, by simp⟩

theorem Reachable.held {m : Moment} (H : Reachable m) {token : Token} {c : Connection}
    (hc : m.record? token = some c) : Held m.history c.socket token := by
  obtain ⟨⟨L, hL⟩, Hlived⟩ := H.lived hc
  obtain ⟨registering, later, rfl, hr, hlater⟩ := (Hlived L hL).held
  exact ⟨registering, later, hL, hr, hlater⟩

/-- A socket is held until it is closed. -/
theorem Held.append {history new : List Occurrence} {fd : Fd} {token : Token}
    (H : Held history fd token) (hnew : ∀ o ∈ new, o.accepts fd = false)
    (hclose : .call (.close fd) ∉ new) : Held (history ++ new) fd token := by
  obtain ⟨registering, later, ⟨after, hsince, hafter, hL⟩, hr, hlater⟩ := H
  refine ⟨registering, later ++ life fd new, ⟨after ++ new, hsince.append new, ?_, ?_⟩, hr, ?_⟩
  · exact List.forall_mem_append.2 ⟨hafter, hnew⟩
  · rw [life_append hafter, ← hL, List.append_assoc]
  · rw [List.mem_append, not_or]
    exact ⟨hlater, fun h => hclose (mem_of_mem_life h)⟩

/-! ## What an event leads to -/

/-- Whether something is done on a socket without closing it, or in the log. -/
def Occurrence.Keeps (fd : Fd) (o : Occurrence) : Prop :=
  o ≠ .call (.close fd) ∧ (o.socket? = some fd ∨ ∃ message, o = .call message ∧ message.isMessage)

namespace Occurrence.Keeps
variable {fd : Fd} {o : Occurrence} {calls : List Call}

theorem messages (h : ∀ call ∈ calls, call.isMessage) :
    ∀ o ∈ calls.map Occurrence.call, o.Keeps fd := by
  intro o ho
  obtain ⟨message, hmessage, rfl⟩ := List.mem_map.1 ho
  have hm := h message hmessage
  refine ⟨?_, .inr ⟨message, rfl, hm⟩⟩
  rintro ⟨⟩
  cases hm

theorem operations (fd : Fd) (ops : List Operation) :
    ∀ o ∈ (ops.map (Call.operation fd)).map Occurrence.call, o.Keeps fd := by
  intro o ho
  refine ⟨?_, .inl (Occurrence.socket_operations fd ops o ho)⟩
  rintro rfl
  simp at ho

theorem turn {t : Turn} (h : t.before.socket = fd) : (Occurrence.turn t).Keeps fd :=
  ⟨Occurrence.noConfusion, .inl (congrArg some h)⟩

theorem modify (fd : Fd) (token : Token) (conditions : Conditions) (result : Outcome) :
    (call (.modify fd token conditions result)).Keeps fd := ⟨by simp, .inl rfl⟩

theorem delete (fd : Fd) (deleted : Outcome) : (call (.delete fd deleted)).Keeps fd :=
  ⟨by simp, .inl rfl⟩

/-- Nothing is accepted. -/
theorem not_accepts (H : o.Keeps fd) (fd' : Fd) : o.accepts fd' = false := by
  rcases H.2 with h | ⟨message, rfl, h⟩
  · exact not_accepts_of_socket? h fd'
  · exact (silent_of_isMessage h).2 fd'

end Occurrence.Keeps

theorem Server.Ending.keeps {log : LogSink} {token : Token} {c last : Connection}
    {verdict : Verdict} {calls : List Call} (H : Server.Ending log token c verdict calls last) :
    ∀ o ∈ calls.map Occurrence.call, o.Keeps c.socket := by
  cases H with
  | close => exact List.forall_mem_nil _
  | fail ht => exact .messages ht.isMessage
  | rearm ht => exact List.forall_mem_cons.2 ⟨.modify .., .messages ht.isMessage⟩

/-- An attempt to go on accepting registers the listener, and tells of it if that fails. -/
theorem Server.Attempt.mem {listener : Fd} {paused paused' : Option Nanoseconds}
    {calls : List Call} (H : Server.Attempt listener paused calls paused') {call : Call}
    (h : call ∈ calls) : call.isMessage ∨ ∃ result attempt,
      Registration listener listenerToken .accept result attempt ∧ call ∈ attempt := by
  cases H with
  | unpaused => cases h
  | resumed hr => exact .inr ⟨_, calls, hr, h⟩
  | failed hr ht =>
    rcases List.mem_append.1 h with h | h
    · exact .inr ⟨_, _, hr, h⟩
    · exact .inl (ht call h)

/-- What an event leads to is done on the socket of its connection. Closing that is the last,
except that accepting may go on after it. -/
theorem Moment.news_event {m : Moment} {event : Event} {c : Connection}
    (hl : event.token ≠ listenerToken) (hc : m.record? event.token = some c)
    (now : Nanoseconds) :
    ∃ kept, (∀ o ∈ kept, o.Keeps c.socket) ∧
      (m.news (.dispatch now event) = kept ∨ ∃ attempt paused,
        Server.Attempt m.server.listener m.server.pausedSince attempt paused ∧
        m.news (.dispatch now event) =
          kept ++ .call (.close c.socket) :: attempt.map .call) := by
  obtain ⟨ops, verdict, c', stats, k₁, s₁, calls, stays, k₂, attempt, s', k', Hh, Hc, h, Hk, -, -,
    Ha⟩ := Server.handle_cut hc now m.kernel
  have hrun : (Server.Act.dispatch now event).run m.server m.kernel = (((), s'), k') := by
    simpa [Server.Act.run, Server.dispatch, hl] using h
  have htrace : ((Server.Act.dispatch now event).run m.server m.kernel).2.trace =
      m.kernel.trace ++ (ops.map (Call.operation c.socket) ++ calls ++ attempt).toArray := by
    rw [hrun]
    exact Hk.trace
  obtain ⟨t, ht, hturns⟩ : ∃ t : Turn, t.before.socket = c.socket ∧
      (Server.Act.dispatch now event).turns m.server m.kernel = [t] := by
    have hc : m.server.connections.get? event.token = some c := hc
    simp only [Server.Act.turns, Server.turn?, if_neg hl, hc, Option.map_some, Option.toList_some]
    exact ⟨_, rfl, rfl⟩
  have hnews : m.news (.dispatch now event) = .turn t ::
      ((ops.map (Call.operation c.socket)).map .call ++ calls.map .call ++
        attempt.map .call) := by
    rw [Moment.news_eq htrace, hturns]
    simp
  have hturn : (Occurrence.turn t).Keeps c.socket := .turn ht
  have hops := Occurrence.Keeps.operations c.socket ops
  have hsocket := Hh.socket
  cases Hc with
  | wait =>
    obtain ⟨rfl, -⟩ := Ha
    refine ⟨_, ?_, .inl hnews⟩
    simpa using ⟨hturn, by simpa using hops⟩
  | rearm =>
    obtain ⟨rfl, -⟩ := Ha
    have hmodify := Occurrence.Keeps.modify c'.socket event.token c'.interest.conditions (.ok ())
    rw [hsocket] at hmodify
    refine ⟨_, ?_, .inl hnews⟩
    rw [List.map_nil, List.append_nil, hsocket]
    exact List.forall_mem_cons.2
      ⟨hturn, List.forall_mem_append.2 ⟨hops, List.forall_mem_singleton.2 hmodify⟩⟩
  | @finish _ last ending closing _ He Hclosing _ =>
    obtain @⟨deleted, told, ht⟩ := Hclosing
    have hlast : last.socket = c.socket := He.life.1.trans hsocket
    have hending : ∀ o ∈ ending.map Occurrence.call, o.Keeps c.socket := hsocket ▸ He.keeps
    have hrest : ∀ o ∈ (Call.delete c.socket deleted :: told).map Occurrence.call,
        o.Keeps c.socket :=
      List.forall_mem_cons.2 ⟨.delete .., .messages ht.isMessage⟩
    refine ⟨.turn t :: ((ops.map (Call.operation c.socket)).map .call ++ ending.map .call ++
      (Call.delete c.socket deleted :: told).map .call), ?_, .inr ⟨attempt, _, Ha, ?_⟩⟩
    · exact List.forall_mem_cons.2 ⟨hturn, List.forall_mem_append.2
        ⟨List.forall_mem_append.2 ⟨hops, hending⟩, hrest⟩⟩
    · rw [hnews, hlast]
      simp

/-- An event whose token is not in the table changes nothing. -/
theorem Server.dispatch_gone {s : Server} {event : Event} (hl : event.token ≠ listenerToken)
    (hgone : s.connections.get? event.token = none) (now : Nanoseconds) (k : Kernel) :
    Server.dispatch now event s k = (((), s), k) := by
  rw [Server.dispatch_eq_handle hl, Server.handle_gone hgone]

/-- A call that is made for an event is made on the socket that was registered as the event's token
and has not been closed since, or it is to watch the listener once that socket has been closed. -/
theorem Reachable.event_call {m : Moment} (H : Reachable m) {event : Event}
    (hl : event.token ≠ listenerToken) {now : Nanoseconds} {before after : List Occurrence}
    {call : Call} (h : m.news (.dispatch now event) = before ++ .call call :: after) :
    call.isMessage ∨
    (∃ fd, (Occurrence.call call).socket? = some fd ∧
      Held (m.history ++ before) fd event.token) ∨
    ∃ fd result attempt, Held m.history fd event.token ∧ .call (.close fd) ∈ before ∧
      Registration m.server.listener listenerToken .accept result attempt ∧ call ∈ attempt := by
  cases hc : m.record? event.token with
  | none =>
    have hnone : m.server.connections.get? event.token = none := hc
    have htrace : ((Server.Act.dispatch now event).run m.server m.kernel).2.trace =
        m.kernel.trace ++ [].toArray := by
      simp [Server.Act.run, Server.dispatch_gone hl hnone]
    rw [Moment.news_eq htrace] at h
    simp [Server.Act.turns, Server.turn?, hl, hnone] at h
  | some c =>
    have hheld : Held m.history c.socket event.token := H.held hc
    obtain ⟨kept, hkept, hnews⟩ := Moment.news_event hl hc now
    -- what comes before something that is kept leaves the socket open
    have hkeep {more : List Occurrence} (hsplit : kept = before ++ more) :
        Held (m.history ++ before) c.socket event.token := by
      have hbefore : ∀ o ∈ before, o.Keeps c.socket := fun o ho =>
        hkept o (hsplit ▸ List.mem_append_left _ ho)
      exact hheld.append (fun o ho => (hbefore o ho).not_accepts c.socket)
        fun hmem => (hbefore _ hmem).1 rfl
    have hcall {more : List Occurrence} (hsplit : kept = before ++ .call call :: more) :
        call.isMessage ∨ ∃ fd, (Occurrence.call call).socket? = some fd ∧
          Held (m.history ++ before) fd event.token := by
      have hmem : Occurrence.call call ∈ kept := by simp [hsplit]
      rcases (hkept _ hmem).2 with hs | ⟨message, hm, hmessage⟩
      · exact .inr ⟨c.socket, hs, hkeep hsplit⟩
      · cases hm
        exact .inl hmessage
    rcases hnews with hnews | ⟨attempt, paused, Ha, hnews⟩
    · rcases hcall (hnews.symm.trans h) with hmessage | hsocket
      · exact .inl hmessage
      · exact .inr (.inl hsocket)
    · rcases split_append (hnews.symm.trans h) with ⟨more, hsplit⟩ | ⟨rest, hbefore, hrest⟩
      · rcases hcall hsplit with hmessage | hsocket
        · exact .inl hmessage
        · exact .inr (.inl hsocket)
      · cases rest with
        | nil =>
          obtain ⟨hclose, -⟩ := List.cons_eq_cons.1 hrest
          cases hclose
          have hsplit : kept = before ++ [] := by rw [hbefore, List.append_nil, List.append_nil]
          exact .inr (.inl ⟨c.socket, rfl, hkeep hsplit⟩)
        | cons o rest =>
          obtain ⟨rfl, hattempt⟩ : _ = o ∧ attempt.map .call = rest ++ .call call :: after :=
            List.cons_eq_cons.1 hrest
          have hmem : Occurrence.call call ∈ attempt.map Occurrence.call := by simp [hattempt]
          obtain ⟨_, hcall', ⟨⟩⟩ := List.mem_map.1 hmem
          rcases Ha.mem hcall' with hmessage | ⟨result, calls, hr, hcalls⟩
          · exact .inl hmessage
          · exact .inr (.inr ⟨c.socket, result, calls, hheld, by simp [hbefore], hr, hcalls⟩)

/-- **Tokens are never given twice.** Those that connections get only grow, also where one cannot
be registered; none of them is that of the listener, and all fit into 64 bits.
What an event leads to is done on the socket that was accepted and registered under its token and
has not been closed since, except that accepting may go on after it has been. A token that was
given and has left the table does not come back to it, and an event whose token is not in the table
makes no call and changes nothing, whatever its descriptor is used for now. -/
theorem tokens_never_reused {m : Moment} (H : Reachable m)
    (hfew : acceptances m.history < 2 ^ 64 - 1) :
    ((issued m.server.listener m.history).Pairwise (· < ·) ∧
      ∀ token ∈ issued m.server.listener m.history, token ≠ listenerToken ∧ token < 2 ^ 64) ∧
    m.server.nextToken < 2 ^ 64 ∧
    (∀ token, m.record? token ≠ none → token ∈ issued m.server.listener m.history) ∧
    (∀ now event, event.token ≠ listenerToken →
      ∀ before call after, m.news (.dispatch now event) = before ++ .call call :: after →
        call.isMessage ∨
        (∃ fd, (Occurrence.call call).socket? = some fd ∧
          Held (m.history ++ before) fd event.token) ∨
        ∃ fd result attempt, Held m.history fd event.token ∧ .call (.close fd) ∈ before ∧
          Registration m.server.listener listenerToken .accept result attempt ∧
          call ∈ attempt) ∧
    (∀ earlier acts token, Reachable earlier → m = earlier.run acts →
      token ∈ issued earlier.server.listener earlier.history → earlier.record? token = none →
      m.record? token = none) ∧
    ∀ now event, event.token ≠ listenerToken → m.record? event.token = none →
      Server.dispatch now event m.server m.kernel = (((), m.server), m.kernel) := by
  have R := H.registered
  have Hn := H.numbered
  have hnext : m.server.nextToken < 2 ^ 64 := Nat.lt_of_le_of_lt Hn.count (by omega)
  refine ⟨⟨?_, fun token ht => ?_⟩, hnext, fun token ht => ?_, ?_, ?_, ?_⟩
  · rw [Hn.issued]
    exact List.pairwise_lt_range'
  · obtain ⟨hpos, hlt⟩ := (Hn.mem_issued R.fresh).1 ht
    exact ⟨Nat.ne_of_gt hpos, Nat.lt_trans hlt hnext⟩
  · obtain ⟨c, hc⟩ := Option.ne_none_iff_exists'.1 ht
    exact (Hn.mem_issued R.fresh).2 (R.token hc)
  · exact fun now event hl before call after h => H.event_call hl h
  · rintro earlier acts token He rfl hissued hgone
    exact He.gone hissued hgone acts
  · exact fun now event hl hgone => Server.dispatch_gone hl hgone now m.kernel

/-- The only connection has been closed, and its descriptor is that of another one now. -/
def Moment.succeeded : Moment :=
  (Moment.greeted.act (.close 1 0)).report
    { event := ⟨listenerToken, { input := true }⟩
      incoming := [.peer ⟨.unspecified, 40001⟩ (.ok ())] } []

theorem Reachable.succeeded : Reachable .succeeded := (Reachable.greeted.act _).report _ _

/-- An event for the connection that is gone does not reach the one that has its descriptor. -/
theorem tokens_never_reused_succeeded :
    issued 3 Moment.succeeded.history = [1, 2] ∧
      (Moment.greeted.record? 1).map (·.socket) = (Moment.succeeded.record? 2).map (·.socket) ∧
      Server.dispatch 0 ⟨1, { input := true }⟩ Moment.succeeded.server Moment.succeeded.kernel =
        (((), Moment.succeeded.server), Moment.succeeded.kernel) := by
  have hfew : acceptances Moment.succeeded.history < 2 ^ 64 - 1 := by decide +kernel
  obtain ⟨-, -, -, -, -, hgone⟩ := tokens_never_reused Reachable.succeeded hfew
  exact ⟨by decide +kernel, by decide +kernel, hgone 0 _ (by decide) (by decide +kernel)⟩

end OnePage
