import OnePage.Proofs.Accounts
import OnePage.Proofs.Conservation

/-! # The access log

A connection is told of in the access log once, while it is closed: after its registration has ended
and right before its socket is closed (`access_log_once`). Whether it is told of depends on what it
has come to. A request that is refused is told of only if it is text. -/

namespace OnePage
open EventQueue

/-- Whether no line of the access log is written. -/
def Unlogged (L : List Occurrence) : Prop := ∀ call, .call call ∈ L → ¬ call.IsEntry

namespace Unlogged
variable {L L' : List Occurrence} {calls : List Call}

theorem nil : Unlogged [] := fun _ h => absurd h List.not_mem_nil

theorem append (H : Unlogged L) (H' : Unlogged L') : Unlogged (L ++ L') := fun call h =>
  (List.mem_append.1 h).elim (H call) (H' call)

theorem turn (t : Turn) (H : Unlogged L) : Unlogged (.turn t :: L) := fun call h =>
  H call (by simpa using h)

theorem of_calls (h : ∀ call ∈ calls, ¬ call.IsEntry) : Unlogged (calls.map .call) :=
  fun call hcall => h call (by simpa using hcall)

theorem cons {call : Call} (h : call.isMessage = false) (H : Unlogged L) :
    Unlogged (.call call :: L) := by
  intro call' h'
  rcases List.mem_cons.1 h' with h' | h'
  · cases h'
    exact Call.not_isEntry h
  · exact H call' h'

theorem operations (fd : Fd) (ops : List Operation) :
    Unlogged ((ops.map (Call.operation fd)).map .call) := of_calls fun call hcall => by
  obtain ⟨op, -, rfl⟩ := List.mem_map.1 hcall
  exact Call.not_isEntry rfl

theorem interruptions (listener : Fd) (n : Nat) :
    Unlogged ((Sys.interruptions listener n).map .call) := of_calls fun call hcall => by
  rw [List.eq_of_mem_replicate hcall]
  exact Call.not_isEntry rfl

theorem registration {fd : Fd} {token : Token} {interest : Interest} {result : Outcome}
    (H : Registration fd token interest result calls) : Unlogged (calls.map .call) := by
  cases H with
  | added | refused => exact cons rfl nil
  | changed => exact cons rfl (cons rfl nil)

theorem setUp {fd : Fd} {registered : Bool} (H : SetUp fd registered calls) :
    Unlogged (calls.map .call) := by
  cases H with
  | registered hr | unregistered hr => exact cons rfl (registration hr)
  | blocking => exact cons rfl nil

end Unlogged

/-! ## What a connection is closed with -/

namespace LogSink.Tells
variable {sink : LogSink} {messages more : List (Severity × String)} {calls : List Call}

theorem of_append (H : sink.Tells (messages ++ more) calls) :
    ∃ a b, calls = a ++ b ∧ sink.Tells messages a ∧ sink.Tells more b := by
  induction messages generalizing calls with
  | nil => exact ⟨[], calls, rfl, .nil, H⟩
  | cons message messages ih =>
    cases H with
    | cons H Hs =>
      obtain ⟨a, b, rfl, Ha, Hb⟩ := ih Hs
      exact ⟨_ :: a, b, rfl, .cons H Ha, Hb⟩

end LogSink.Tells

/-- What the log is told while a connection is closed: a warning perhaps, and then the line for it,
if it has one. -/
structure Told (log : LogSink) (c : Connection) (warned logged : List Call) : Prop where
  warned : ∀ call ∈ warned, call.isMessage ∧ ¬ call.IsEntry
  logged : ∃ seconds zone, log.Tells
    ((Log.entryOf? c seconds zone).map fun e => (Severity.info, e.line)).toList logged

namespace Told
variable {log : LogSink} {c : Connection} {warned logged : List Call}

theorem isMessage (H : Told log c warned logged) : ∀ call ∈ warned ++ logged, call.isMessage := by
  obtain ⟨_, _, ht⟩ := H.logged
  exact List.forall_mem_append.2 ⟨fun call hcall => (H.warned call hcall).1, ht.isMessage⟩

/-- There is one line, or none. -/
theorem cases (H : Told log c warned logged) :
    (∃ seconds zone e call, Log.entryOf? c seconds zone = some e ∧ logged = [call] ∧
      log.Writes .info e.line call) ∨
    (c.status = none ∨ c.requestLine = none) ∧ logged = [] := by
  obtain ⟨seconds, zone, ht⟩ := H.logged
  cases he : Log.entryOf? c seconds zone with
  | none =>
    rw [he] at ht
    cases ht
    refine .inr ⟨?_, rfl⟩
    cases hs : c.status with
    | none => exact .inl rfl
    | some status =>
      cases hr : c.requestLine with
      | none => exact .inr rfl
      | some request => simp [Log.entryOf?, hs, hr] at he
  | some e =>
    rw [he] at ht
    cases ht with
    | cons hw hs =>
      cases hs
      exact .inl ⟨seconds, zone, e, _, he, rfl, hw⟩

theorem length_le (H : Told log c warned logged) : logged.length ≤ 1 := by
  rcases H.cases with ⟨_, _, _, _, -, rfl, -⟩ | ⟨-, rfl⟩
  · exact Nat.le_refl 1
  · exact Nat.zero_le 1

end Told

theorem Server.Closing.told {log : LogSink} {seconds zone : Int} {c : Connection}
    {calls : List Call} (H : Server.Closing log seconds zone c calls) : ∃ deleted warned logged,
      calls = Call.delete c.socket deleted :: (warned ++ logged) ++ [.close c.socket] ∧
      Told log c warned logged := by
  obtain @⟨deleted, told, ht⟩ := H
  obtain ⟨warned, logged, rfl, hwarned, hlogged⟩ := ht.of_append
  refine ⟨deleted, warned, logged, rfl, fun call hcall => ⟨hwarned.isMessage call hcall, ?_⟩, ?_⟩
  · refine hwarned.not_isEntry ?_ call hcall
    split
    · exact List.forall_mem_nil _
    · exact List.forall_mem_singleton.2 (.warning _)
  · rw [Log.accessLine_eq, Option.map_map] at hlogged
    exact ⟨_, _, hlogged⟩

/-- What comes right before a socket is closed, and what the log is told then. -/
inductive Leaving (log : LogSink) (fd : Fd) : List Occurrence → Prop
  | dismissed {before : List Occurrence} {deleted : Outcome} {c : Connection}
    {warned logged : List Call} {L : List Occurrence} (hL : Current before fd L)
    (hr : c.Recorded L) (ht : Told log c warned logged) :
    Leaving log fd (before ++ (Call.delete fd deleted :: (warned ++ logged)).map .call)
  | turnedAway {before : List Occurrence} {listener : Fd} {setup told : List Call}
    (hs : SetUp fd false setup) (ht : ∀ call ∈ told, call.isMessage ∧ ¬ call.IsEntry) :
    Leaving log fd (before ++ (Call.accept listener (.ok fd) :: (setup ++ told)).map .call)

/-- Only what was accepted last has not been replaced. -/
theorem Since.unique {history a b : List Occurrence} {fd : Fd} (H : Since history fd a)
    (H' : Since history fd b) (ha : ∀ o ∈ a, o.accepts fd = false)
    (hb : ∀ o ∈ b, o.accepts fd = false) : a = b := by
  have haccept (listener : Fd) : (Occurrence.call (.accept listener (.ok fd))).accepts fd := by
    simp [Occurrence.accepts]
  obtain ⟨listener, p, rfl⟩ := H
  obtain ⟨listener', q, h⟩ := H'
  rcases split_append h with ⟨x, rfl⟩ | ⟨x, rfl, hx⟩
  · rw [List.append_assoc] at h
    have hb' := (List.cons.inj (List.append_cancel_left h)).2
    have hmem : Occurrence.call (.accept listener (.ok fd)) ∈ b := by simp [← hb']
    exact absurd (haccept listener) (by simp [hb _ hmem])
  · cases x with
    | nil => exact (List.cons.inj hx).2
    | cons o x =>
      have ha' := (List.cons.inj hx).2
      have hmem : Occurrence.call (.accept listener' (.ok fd)) ∈ a := by simp [ha']
      exact absurd (haccept listener') (by simp [ha _ hmem])

theorem Current.append {history new L : List Occurrence} {fd : Fd} (H : Current history fd L)
    (hn : Confined fd new) : Current (history ++ new) fd (L ++ life fd new) := by
  obtain ⟨after, hs, ha, rfl⟩ := H
  exact ⟨_, hs.append new, List.forall_mem_append.2 ⟨ha, hn.accepts fd⟩, (life_append ha).symm⟩

namespace Server

/-- What a move is to the log. At most one line is written, and if one is, a socket is closed
next. -/
inductive Report (s : Server) (history : List Occurrence) : List Occurrence → Prop
  | plain {new : List Occurrence} (hc : closings new = 0) (hu : Unlogged new) :
    Report s history new
  | leave {fd : Fd} {before : List Occurrence} {logged : List Call}
    (hl : Leaving s.log fd (history ++ (before ++ logged.map .call)))
    (hc : closings (before ++ logged.map .call) = 0) (hu : Unlogged before)
    (hone : logged.length ≤ 1) :
    Report s history (before ++ logged.map .call ++ [.call (.close fd)])

section
variable {s s' : Server} {k k' : Kernel} {history new : List Occurrence} {token : Token}
variable {c last : Connection} {verdict : Verdict} {ending closing : List Call}

theorem Ending.recorded {log : LogSink} (H : Ending log token c verdict ending last)
    {L : List Occurrence} (hr : c.Recorded L) : last.Recorded L := by
  cases H with
  | close => exact hr
  | fail | rearm => exact hr.fail

theorem Ending.unlogged {log : LogSink} (H : Ending log token c verdict ending last) :
    Unlogged (ending.map .call) := by
  have hplain (message : String) :
      ∀ m ∈ [(Severity.warning, message)], LogSink.Plain m :=
    List.forall_mem_singleton.2 (.warning message)
  cases H with
  | close => exact .nil
  | fail ht => exact .of_calls (ht.not_isEntry (hplain _))
  | rearm ht => exact .cons rfl (.of_calls (ht.not_isEntry (hplain _)))

/-- A connection that leaves the table. -/
theorem Closing.report {seconds zone : Int} (H : Closing s.log seconds zone last closing)
    {before : List Occurrence} (hq : Quiet before) (hu : Unlogged before) {fd : Fd}
    (hfd : last.socket = fd) {L : List Occurrence}
    (hL : Current (history ++ before) fd L) (hr : last.Recorded L) :
    Report s history (before ++ closing.map .call) := by
  subst hfd
  obtain ⟨deleted, warned, logged, rfl, ht⟩ := H.told
  have hmessages := Quiet.messages ht.isMessage
  have hcut : before ++ (Call.delete last.socket deleted :: (warned ++ logged) ++
      [Call.close last.socket]).map Occurrence.call =
      (before ++ (Call.delete last.socket deleted :: warned).map .call) ++ logged.map .call ++
        [.call (.close last.socket)] := by
    simp
  have hjoin : (before ++ (Call.delete last.socket deleted :: warned).map .call) ++
      logged.map .call = before ++ (Call.delete last.socket deleted ::
        (warned ++ logged)).map .call := by
    simp
  rw [hcut]
  refine .leave ?_ ?_ (hu.append (.cons rfl (.of_calls fun call h => (ht.warned call h).2)))
    ht.length_le
  · rw [hjoin, ← List.append_assoc]
    exact .dismissed hL hr ht
  · rw [hjoin, closings_append, hq.closings, List.map_cons, closings_cons, hmessages.closings]
    rfl

/-- A socket that cannot be set up. -/
theorem turnAway_report {listener fd : Fd} {n : Nat} {setup told : List Call}
    {message : String} (H : SetUp fd false setup) (ht : s.log.Tells [(.warning, message)] told) :
    Report s history ((Sys.interruptions listener n ++
      Call.accept listener (.ok fd) :: (setup ++ told ++ [Call.close fd])).map .call) := by
  have hplain := ht.not_isEntry (List.forall_mem_singleton.2 (.warning message))
  have htold : ∀ call ∈ told, call.isMessage ∧ ¬ call.IsEntry := fun call h =>
    ⟨ht.isMessage call h, hplain call h⟩
  have hmessages := Quiet.messages ht.isMessage
  have hcut : (Sys.interruptions listener n ++
      Call.accept listener (.ok fd) :: (setup ++ told ++ [Call.close fd])).map Occurrence.call =
      ((Sys.interruptions listener n).map .call ++
        (Call.accept listener (.ok fd) :: (setup ++ told)).map .call) ++ List.map .call [] ++
        [.call (.close fd)] := by
    simp
  rw [hcut]
  refine .leave ?_ ?_ ((Unlogged.interruptions _ _).append (.cons rfl ?_)) (Nat.zero_le _)
  · rw [List.map_nil, List.append_nil, ← List.append_assoc]
    exact .turnedAway H htold
  · rw [List.map_nil, List.append_nil, closings_append, (Quiet.interruptions _ _).closings,
      List.map_cons, closings_cons, List.map_append, closings_append, H.quiet.closings,
      hmessages.closings]
    rfl
  · rw [List.map_append]
    exact (Unlogged.setUp H).append (.of_calls hplain)

theorem Move.report (H : Move s k new s' k') (R : Registered s k) (HL : Lives s history) :
    Report s history new := by
  have hquiet {new : List Occurrence} (hq : Quiet new) (hu : Unlogged new) :
      Report s history new := .plain hq.closings hu
  cases H with
  | tell ht _ hp => exact hquiet (.messages ht.isMessage) (.of_calls (ht.not_isEntry hp))
  | wait hc =>
    subst hc
    exact hquiet (.cons ⟨rfl, rfl, rfl⟩ .nil) (.cons rfl .nil)
  | unaccepted hc =>
    subst hc
    rw [List.map_append]
    exact hquiet ((Quiet.interruptions _ _).append (.cons ⟨rfl, rfl, rfl⟩ .nil))
      ((Unlogged.interruptions _ _).append (.cons rfl .nil))
  | pause hc =>
    subst hc
    exact .plain rfl (.cons rfl .nil)
  | resume hr | unresumed hr => exact hquiet (.registration hr) (.registration hr)
  | @adopt _ n fd _ _ _ registering _ _ hr hc =>
    have hn := Quiet.interruptions s.listener n
    have hrest : Quiet ((Call.setNonblocking fd (.ok ()) :: registering).map .call) :=
      .cons ⟨rfl, rfl, rfl⟩ (.registration hr)
    rw [hc, List.map_append, List.map_cons]
    refine .plain ?_ ((Unlogged.interruptions _ _).append (.cons rfl (.cons rfl
      (.registration hr))))
    rw [closings_append, hn.closings, closings_cons, hrest.closings]
    rfl
  | refuse _ ht hc =>
    rw [hc]
    exact turnAway_report .blocking ht
  | unregistered _ hr ht hc =>
    rw [hc]
    exact turnAway_report (.unregistered hr) ht
  | stay _ _ hc =>
    rw [hc]
    exact hquiet (.cons ⟨rfl, rfl, rfl⟩ (.operations _ _)) (.turn _ (.operations _ _))
  | rearm _ _ hc =>
    rw [hc, List.map_append]
    exact hquiet (.cons ⟨rfl, rfl, rfl⟩ ((Quiet.operations _ _).append (.modified _ _ _ _)))
      (.turn _ ((Unlogged.operations _ _).append (.cons rfl .nil)))
  | @finish _ token c c' last ready now ops verdict _ ending closing _ _ ht Hh He Hc hc =>
    obtain ⟨hlast, hending, hlife⟩ := He.life
    rw [Hh.socket] at hlast hending hlife
    obtain ⟨after, hs, ha⟩ := HL.since ht
    have hL : Current history c.socket (life c.socket after) := ⟨after, hs, ha, rfl⟩
    have Hl := HL.lived R ht hL
    have hcurrent := hL.append (.turn ⟨c, ready, k.files, now, verdict, c'⟩ rfl ops hending)
    rw [life_turn ⟨c, ready, k.files, now, verdict, c'⟩ (Eq.refl c.socket) ops] at hcurrent
    rw [hc, List.map_append, ← List.cons_append]
    refine Hc.report ?_ ?_ hlast hcurrent (He.recorded ?_)
    · rw [List.map_append]
      exact .cons ⟨rfl, rfl, rfl⟩ ((Quiet.operations _ _).append He.quiet)
    · rw [List.map_append]
      exact .turn _ ((Unlogged.operations _ _).append He.unlogged)
    · rcases hlife with ⟨-, h⟩ | ⟨-, e, h⟩
      · have Hr := Hl.recorded.turn [] Hl Hh rfl
        rw [h]
        rwa [List.append_nil] at Hr ⊢
      · have Hr := Hl.recorded.turn
          [.modify c.socket token c'.interest.conditions (.error e)] Hl Hh rfl
        rw [h]
        rwa [List.map_append] at Hr
  | @close _ token c last _ _ ht hl Hc =>
    have hs : last.socket = c.socket := by rcases hl with rfl | rfl <;> rfl
    obtain ⟨after, hsince, ha⟩ := HL.since ht
    have hL : Current history c.socket (life c.socket after) := ⟨after, hsince, ha, rfl⟩
    have Hr := (HL.lived R ht hL).recorded
    refine Hc.report .nil .nil hs (L := life c.socket after) ?_ ?_
    · rwa [List.append_nil]
    · rcases hl with rfl | rfl
      · exact Hr
      · exact Hr.fail

/-- All that the log has been told of connections. -/
structure Logged (s : Server) (history : List Occurrence) : Prop where
  leaving {fd : Fd} {before rest : List Occurrence}
    (h : history = before ++ .call (.close fd) :: rest) : Leaving s.log fd before
  followed {call : Call} {before rest : List Occurrence}
    (h : history = before ++ .call call :: rest) (he : call.IsEntry) :
    ∃ fd rest', rest = .call (.close fd) :: rest'

theorem Logged.report (H : Logged s history) (Hr : Report s history new)
    (hlog : s'.log = s.log) : Logged s' (history ++ new) := by
  have hold {call : Call} {before rest a : List Occurrence}
      (h : history ++ new = before ++ .call call :: rest) (ha : history = before ++ .call call :: a)
      (he : call.IsEntry) : ∃ fd rest', rest = .call (.close fd) :: rest' := by
    obtain ⟨fd, rest', rfl⟩ := H.followed ha he
    rw [ha, List.append_assoc] at h
    obtain rfl := (List.cons.inj (List.append_cancel_left h)).2
    exact ⟨fd, _, rfl⟩
  cases Hr with
  | plain hc hu =>
    refine ⟨fun {fd before rest} h => ?_, fun {call before rest} h he => ?_⟩
    · rw [hlog]
      rcases split_append h with ⟨a, ha⟩ | ⟨b, -, hb⟩
      · exact H.leaving ha
      · have hmem : Occurrence.call (.close fd) ∈ new := by simp [hb]
        exact absurd (closings_eq_zero.1 hc _ hmem) Bool.noConfusion
    · rcases split_append h with ⟨a, ha⟩ | ⟨b, -, hb⟩
      · exact hold h ha he
      · exact absurd he (hu call (by simp [hb]))
  | @leave fd first logged hl hc hu hone =>
    refine ⟨fun {fd' before rest} h => ?_, fun {call before rest} h he => ?_⟩
    · rw [hlog]
      rcases split_append h with ⟨a, ha⟩ | ⟨b, rfl, hb⟩
      · exact H.leaving ha
      rcases split_append hb with ⟨a, ha⟩ | ⟨b', rfl, hb'⟩
      · have hmem : Occurrence.call (.close fd') ∈ first ++ logged.map .call := by simp [ha]
        exact absurd (closings_eq_zero.1 hc _ hmem) Bool.noConfusion
      · cases b' with
        | nil =>
          cases hb'
          rwa [List.append_nil]
        | cons o b' => simp at hb'
    · rcases split_append h with ⟨a, ha⟩ | ⟨b, -, hb⟩
      · exact hold h ha he
      rw [List.append_assoc] at hb
      rcases split_append hb with ⟨a, ha⟩ | ⟨b', -, hb'⟩
      · exact absurd he (hu call (by simp [ha]))
      -- the line is the only one, and the close comes after it
      rcases split_append hb' with ⟨a, ha⟩ | ⟨b'', -, hb''⟩
      · have ha' : a = [] := by
          have hlength := congrArg List.length ha
          simp only [List.length_map, List.length_append, List.length_cons] at hlength
          exact List.length_eq_zero_iff.1 (by omega)
        rw [ha, ha', List.append_assoc] at hb'
        exact ⟨fd, [], (List.cons.inj (List.append_cancel_left hb')).2.symm⟩
      · cases b'' with
        | nil =>
          cases hb''
          exact absurd he (Call.not_isEntry rfl)
        | cons o b'' => simp at hb''

end

end Server

theorem Reachable.logged {m : Moment} (H : Reachable m) : m.server.Logged m.history := by
  refine (H.invariant (P := fun s k h => (s.Registered k ∧ s.Lives h) ∧ s.Logged h) ?_ ?_).2
  · intro _ _ _ _ _ _ hl hw _ hc
    exact ⟨⟨Server.create_registered hl hw hc, Server.create_lives hc⟩,
      fun h => by simp at h, fun h => by simp at h⟩
  · intro _ _ _ _ _ _ H Hm
    exact ⟨⟨H.1.1.move Hm, H.1.2.move H.1.1 Hm⟩,
      H.2.report (Hm.report H.1.1 H.1.2) (Server.Moves.single Hm).made.2⟩

/-! ## Connections that have been closed -/

/-- What has happened since a socket was accepted that could not be set up. It was closed at once,
and no line was written. -/
def TurnedAway (fd : Fd) (after : List Occurrence) : Prop :=
  ∃ setup told rest, SetUp fd false setup ∧ (∀ call ∈ told, call.isMessage ∧ ¬ call.IsEntry) ∧
    life fd rest = [] ∧ after = (setup ++ told).map .call ++ .call (.close fd) :: rest

/-- What has happened since a socket was accepted that was set up, and whose connection is over. Its
registration was ended, the log was told `logged` after warnings, if there were any, and the socket
was closed; `P` tells what was logged from what had happened on the socket. -/
inductive Dismissed (P : List Occurrence → List Call → Prop) (fd : Fd) (after : List Occurrence) :
    Prop
  | mk {before rest : List Occurrence} {deleted : Outcome} {warned logged : List Call}
    (hbefore : Admitted fd (life fd before))
    (hw : ∀ call ∈ warned, call.isMessage ∧ ¬ call.IsEntry) (hl : P (life fd before) logged)
    (hrest : life fd rest = [])
    (hlife : life fd after = life fd before ++ [Call.delete fd deleted, .close fd].map .call)
    (h : after = before ++ (Call.delete fd deleted :: (warned ++ logged)).map .call ++
      .call (.close fd) :: rest)

theorem Dismissed.imp {P Q : List Occurrence → List Call → Prop} {fd : Fd}
    {after : List Occurrence} (H : Dismissed P fd after)
    (h : ∀ L logged, operations (life fd after) = operations L → P L logged → Q L logged) :
    Dismissed Q fd after := by
  obtain ⟨hbefore, hw, hl, hrest, hlife, hafter⟩ := H
  refine ⟨hbefore, hw, h _ _ ?_ hl, hrest, hlife, hafter⟩
  rw [hlife, operations_append]
  exact List.append_nil _

/-- What was logged of a connection, by the record that it left. -/
def Reported (log : LogSink) (L : List Occurrence) (logged : List Call) : Prop :=
  ∃ c warned, c.Recorded L ∧ Told log c warned logged

theorem Leaving.since {log : LogSink} {fd : Fd} {history a : List Occurrence}
    (H : Leaving log fd history) (hs : Since history fd a) (ha : ∀ o ∈ a, o.accepts fd = false) :
    (∃ before deleted warned logged c,
      a = before ++ (Call.delete fd deleted :: (warned ++ logged)).map .call ∧
      c.Recorded (life fd before) ∧ Told log c warned logged) ∨
    ∃ setup told, SetUp fd false setup ∧ (∀ call ∈ told, call.isMessage ∧ ¬ call.IsEntry) ∧
      a = (setup ++ told).map .call := by
  cases H with
  | @dismissed earlier deleted c warned logged L hL hr ht =>
    have htold : Confined fd ((Call.delete fd deleted :: (warned ++ logged)).map .call) :=
      .cons rfl (.messages ht.isMessage)
    obtain ⟨before, hs', rfl⟩ := hs.of_append_quiet (htold.accepts fd)
    obtain ⟨b, hb, hfree, rfl⟩ := hL
    obtain rfl := hs'.unique hb (List.forall_mem_append.1 ha).1 hfree
    exact .inl ⟨before, deleted, warned, logged, c, rfl, hr, ht⟩
  | @turnedAway earlier listener setup told hsetup ht =>
    have hrest : Confined fd ((setup ++ told).map .call) := by
      rw [List.map_append]
      exact (Confined.of_on hsetup.socket).append (.messages fun call h => (ht call h).1)
    have hs' : Since (earlier ++ (Call.accept listener (.ok fd) :: (setup ++ told)).map .call) fd
        ((setup ++ told).map .call) := ⟨listener, earlier, rfl⟩
    exact .inr ⟨setup, told, hsetup, ht, hs.unique hs' ha (hrest.accepts fd)⟩

/-- What is over was let go as it is to be, and the log was told what the record said. -/
theorem Reachable.dismissed {m : Moment} (H : Reachable m) {fd : Fd} {after : List Occurrence}
    (hs : Since m.history fd after) (hn : ¬ m.server.Holds fd after) :
    TurnedAway fd after ∨ Dismissed (Reported m.server.log) fd after := by
  obtain ⟨A, hA, hA'⟩ : ∃ A, life fd after = A ++ [.call (.close fd)] ∧
      ((∃ setup, SetUp fd false setup ∧ A = setup.map .call) ∨
        ∃ L deleted, Admitted fd L ∧ A = L ++ [.call (.delete fd deleted)]) := by
    have He : Ended m.server.config.indexPath fd (life fd after) := by
      cases H.lives.fate hs with
      | replaced _ He | gone _ He => exact He
      | living ht hc ha => exact absurd ⟨ha, _, _, ht, hc⟩ hn
    rcases He.letGo with ⟨setup, hsetup, h⟩ | ⟨L, deleted, hL, h⟩
    · exact ⟨_, h, .inl ⟨setup, hsetup, rfl⟩⟩
    · exact ⟨_, h, .inr ⟨L, deleted, hL, rfl⟩⟩
  obtain ⟨before, rest, rfl, hbefore, hrest, hb⟩ := life_eq_append_cons hA
  obtain ⟨listener, earlier, hhistory⟩ := hs
  have hs' : Since (earlier ++ .call (.accept listener (.ok fd)) :: before) fd before :=
    ⟨listener, earlier, rfl⟩
  have hclosed : m.history =
      earlier ++ .call (.accept listener (.ok fd)) :: before ++ .call (.close fd) :: rest := by
    simp [hhistory]
  rcases (H.logged.leaving hclosed).since hs' hb with
    ⟨e, deleted, warned, logged, c, rfl, hr, ht⟩ | ⟨setup, told, hsetup, ht, rfl⟩
  · have hlife : life fd (e ++ (Call.delete fd deleted :: (warned ++ logged)).map .call) =
        life fd e ++ [.call (.delete fd deleted)] := by
      rw [life_append fun o ho => hb o (List.mem_append_left _ ho), List.map_cons,
        Confined.life_cons rfl, life_messages ht.isMessage]
    rw [hlife] at hbefore
    rcases hA' with ⟨setup, hsetup, rfl⟩ | ⟨L, deleted', hL, rfl⟩
    · have hnone := hsetup.quiet.deletions
      rw [← hbefore, deletions_append] at hnone
      exact absurd hnone (by simp [deletions, Occurrence.isDeletion])
    · obtain ⟨rfl, hdeleted⟩ := List.append_inj' hbefore rfl
      cases hdeleted
      exact .inr ⟨hL, ht.warned, ⟨c, warned, hr, ht⟩, hrest, by rw [hA]; simp, rfl⟩
  · exact .inl ⟨setup, told, rest, hsetup, ht, hrest, rfl⟩

/-- What comes last of some calls is one of them. -/
theorem mem_of_append_eq {before earlier : List Occurrence} {call : Call} {calls : List Call}
    (hne : calls ≠ []) (h : before ++ [.call call] = earlier ++ calls.map .call) :
    call ∈ calls := by
  obtain rfl | ⟨first, last, rfl⟩ := List.eq_nil_or_concat calls
  · exact absurd rfl hne
  · rw [List.concat_eq_append, List.map_append, ← List.append_assoc] at h
    have hlast := (List.append_inj' h rfl).2
    simp only [List.map_cons, List.map_nil, List.cons.injEq, Occurrence.call.injEq] at hlast
    simp [hlast.1]

/-- A line right before a socket is closed is the one for its connection. -/
theorem Leaving.entry {log : LogSink} {fd : Fd} {before : List Occurrence} {call : Call}
    (H : Leaving log fd (before ++ [.call call])) (he : call.IsEntry) :
    ∃ earlier deleted warned c L,
      before = earlier ++ (Call.delete fd deleted :: warned).map .call ∧
      Current earlier fd L ∧ c.Recorded L ∧ Told log c warned [call] := by
  generalize hx : before ++ [.call call] = x at H
  cases H with
  | @dismissed earlier deleted c warned logged L hL hr ht =>
    rcases ht.cases with ⟨_, _, _, y, -, rfl, -⟩ | ⟨-, rfl⟩
    · rw [← List.cons_append, List.map_append, ← List.append_assoc] at hx
      obtain ⟨rfl, hy⟩ := List.append_inj' hx rfl
      cases hy
      exact ⟨earlier, deleted, warned, c, L, rfl, hL, hr, ht⟩
    · rw [List.append_nil] at hx
      rcases List.mem_cons.1 (mem_of_append_eq (List.cons_ne_nil _ _) hx) with rfl | hmem
      · exact absurd he (Call.not_isEntry rfl)
      · exact absurd he (ht.warned call hmem).2
  | @turnedAway earlier listener setup told hsetup ht =>
    rcases List.mem_cons.1 (mem_of_append_eq (List.cons_ne_nil _ _) hx) with rfl | hmem
    · exact absurd he (Call.not_isEntry rfl)
    · rcases List.mem_append.1 hmem with hmem | hmem
      · exact absurd he (Unlogged.setUp hsetup call (List.mem_map_of_mem hmem))
      · exact absurd he (ht call hmem).2

/-- Where a line is written, its connection is being closed. -/
theorem Reachable.entry {m : Moment} (H : Reachable m) {before rest : List Occurrence} {call : Call}
    (h : m.history = before ++ .call call :: rest) (he : call.IsEntry) :
    ∃ fd earlier deleted warned rest' c L,
      before = earlier ++ (Call.delete fd deleted :: warned).map .call ∧
      rest = .call (.close fd) :: rest' ∧ Current earlier fd L ∧ c.Recorded L ∧
      Told m.server.log c warned [call] := by
  obtain ⟨fd, rest', rfl⟩ := H.logged.followed h he
  have hclosed : m.history = before ++ [.call call] ++ .call (.close fd) :: rest' := by simp [h]
  obtain ⟨earlier, deleted, warned, c, L, hbefore, hL, hr, ht⟩ :=
    (H.logged.leaving hclosed).entry he
  exact ⟨fd, earlier, deleted, warned, rest', c, L, hbefore, rfl, hL, hr, ht⟩

/-- What is logged of a connection: one line at most, exactly one if the page was opened for it, and
none if there was neither a page nor a refusal. -/
structure LoggedOnce (log : LogSink) (L : List Occurrence) (logged : List Call) : Prop where
  length_le : logged.length ≤ 1
  opened (h : Opened (operations L)) : ∃ e call, logged = [call] ∧ log.Takes e call ∧
    e.status = .ok ∧ e.bytes = pageSent (operations L) ∧ ∀ t ∈ turns L, t.before.peer.ip = e.ip
  unanswered (ho : ¬ Opened (operations L)) (hr : ¬ Refused (operations L)) : logged = []

/-- What is logged of a connection whose request was refused: one line if the request is text, and
none otherwise. -/
def RefusalLogged (log : LogSink) (L : List Occurrence) (logged : List Call) : Prop :=
  match Text.Utf8.decode (received (operations L)) with
  | none => logged = []
  | some text => ∃ e call, logged = [call] ∧ log.Takes e call ∧ e.status = .badRequest ∧
    e.bytes = 0 ∧ e.request = String.ofList (Log.encode (Text.Utf8.encode (Text.trimEnd text)))

section
variable {log : LogSink} {L : List Occurrence} {logged : List Call}

/-- The line for a connection that has a status and a request line. -/
theorem Told.line {c : Connection} {warned : List Call} (ht : Told log c warned logged)
    (hr : c.Recorded L) {status : Status} {request : String} (hs : c.status = some status)
    (hl : c.requestLine = some request) : ∃ e call, logged = [call] ∧ log.Takes e call ∧
      e.status = status ∧ e.bytes = c.bytesSent ∧ e.request = request ∧ e.ip = c.peer.ip := by
  rcases ht.cases with ⟨seconds, zone, e, call, he, hlogged, hw⟩ | ⟨hnone | hnone, -⟩
  · obtain ⟨hstatus, hrequest, hip, -, hbytes⟩ := Log.entryOf?_eq_some.1 he
    exact ⟨e, call, hlogged, hw.takes (hr.accounts.sound he),
      Option.some.inj (hstatus.symm.trans hs), hbytes,
      Option.some.inj (hrequest.symm.trans hl), hip⟩
  · rw [hs] at hnone
    cases hnone
  · rw [hl] at hnone
    cases hnone

theorem Told.eq_nil {c : Connection} {warned : List Call} (ht : Told log c warned logged)
    (h : c.status = none ∨ c.requestLine = none) : logged = [] := by
  rcases ht.cases with ⟨seconds, zone, e, call, he, -, -⟩ | ⟨-, hlogged⟩
  · rcases h with h | h <;> simp [Log.entryOf?, h] at he
  · exact hlogged

theorem Reported.once (H : Reported log L logged) : LoggedOnce log L logged := by
  obtain ⟨c, warned, hr, ht⟩ := H
  refine ⟨ht.length_le, fun ho => ?_, fun ho hrefused => ?_⟩
  · cases hr.accounts with
    | unanswered ho' | refused ho' => exact absurd ho ho'
    | opened _ _ _ hs hl hb =>
      obtain ⟨e, call, hlogged, htakes, hstatus, hbytes, -, hip⟩ := ht.line hr hs hl
      refine ⟨e, call, hlogged, htakes, hstatus, hbytes.trans hb, fun t hmem => ?_⟩
      rw [hip, hr.peer t hmem]
  · cases hr.accounts with
    | unanswered _ _ hs => exact ht.eq_nil (.inl hs)
    | opened ho' => exact absurd ho' ho
    | refused _ hrefused' => exact absurd hrefused' hrefused

theorem Reported.refusal (H : Reported log L logged) (hrefused : Refused (operations L)) :
    RefusalLogged log L logged := by
  obtain ⟨c, warned, hr, ht⟩ := H
  cases hr.accounts with
  | unanswered _ h | opened _ h => exact absurd hrefused h
  | refused _ _ hs hl hb =>
    unfold RefusalLogged
    split
    · rename_i hdecode
      exact ht.eq_nil (.inr (by rw [hl, Connection.logRejected, hdecode]; rfl))
    · rename_i text hdecode
      rw [Connection.logRejected, hdecode] at hl
      obtain ⟨e, call, hlogged, htakes, hstatus, hbytes, hrequest, -⟩ := ht.line hr hs hl
      exact ⟨e, call, hlogged, htakes, hstatus, hbytes.trans hb, hrequest⟩

end

/-- What the log's file has taken in a run, and what it still has to take, is what it was given, in
order. Something is missing only if there was a complaint. -/
theorem Reachable.carries {m : Moment} (H : Reachable m) :
    Carries [] (m.history.filterMap Occurrence.call?) m.kernel.unwritten := by
  refine H.invariant
    (P := fun _ k h => Carries [] (h.filterMap Occurrence.call?) k.unwritten) ?_ ?_
  · intro _ _ _ _ _ _ _ _ hn hc
    obtain ⟨queue, calls, rfl, -, H, hsilent⟩ := Server.create_spec hc
    rw [H.carries.eq_of_silent hsilent]
    exact hn ▸ .refl []
  · intro _ _ _ _ _ _ H Hm
    rw [List.filterMap_append]
    exact H.trans Hm.carries

theorem TurnedAway.operations {fd : Fd} {after : List Occurrence} (H : TurnedAway fd after) :
    operations (life fd after) = [] := by
  obtain ⟨setup, told, rest, hs, ht, hrest, rfl⟩ := H
  have htold : ∀ call ∈ told, call.isMessage := fun call h => (ht call h).1
  have hcut : (setup ++ told).map Occurrence.call ++ .call (.close fd) :: rest =
      (setup ++ told ++ [Call.close fd]).map .call ++ rest := by
    simp
  rw [hcut, (Confined.farewell hs.socket htold).life_append, life_farewell hs.socket htold, hrest,
    List.append_nil, List.map_append, operations_append, hs.operations]
  rfl

theorem TurnedAway.not_opened {fd : Fd} {after : List Occurrence} (H : TurnedAway fd after) :
    ¬ Opened (OnePage.operations (life fd after)) := by
  rw [H.operations]
  simp [Opened]

theorem Server.not_holds_of_empty {s : Server} (h : s.connections.isEmpty) {fd : Fd}
    {after : List Occurrence} : ¬ s.Holds fd after := by
  rintro ⟨-, token, c, ht, -⟩
  rw [Table.isEmpty_of_get? ht] at h
  cases h

/-! A connection that has been answered is over. -/

theorem answered_since : Since Moment.answered.history 501 (Moment.answered.history.drop 2) :=
  have haccepted : Moment.answered.history[1]? = some (.call (.accept 3 (.ok 501))) := rfl
  .of_getElem? haccepted

theorem answered_over {after : List Occurrence} : ¬ Moment.answered.server.Holds 501 after :=
  Server.not_holds_of_empty rfl

theorem answered_opened : Opened (operations (life 501 (Moment.answered.history.drop 2))) := by
  decide +kernel

/-- A connection in the table has not been refused. -/
theorem Lived.not_refused {page : String} {fd : Fd} {token : Token} {c : Connection}
    {L : List Occurrence} (H : Lived page fd token c L) : ¬ Refused (operations L) := by
  intro hrefused
  cases H.recorded.accounts with
  | unanswered _ hr | opened _ hr => exact hr hrefused
  | refused _ _ hs =>
    cases H.course.1 with
    | waiting _ _ _ hstatus | replying _ _ _ _ hstatus => rw [hs] at hstatus; cases hstatus

/-- A connection whose request is refused is closed, and one line with status 400 and no bytes is
written for it then, provided that what was received is text. If it is not, no line is. -/
theorem refusal_logged_if_text {m : Moment} (H : Reachable m) {fd : Fd} {after : List Occurrence}
    (hs : Since m.history fd after) (hr : Refused (operations (life fd after))) :
    Dismissed (RefusalLogged m.server.log) fd after := by
  have hn : ¬ m.server.Holds fd after := by
    rintro ⟨ha, token, c, ht, rfl⟩
    exact ((H.lived ht).2 _ ⟨after, hs, ha, rfl⟩).not_refused hr
  rcases H.dismissed hs hn with h | Hd
  · rw [h.operations] at hr
    simp [Refused] at hr
  · exact Hd.imp fun L logged hops HR => HR.refusal (hops ▸ hr)

/-- A server that has received a line with too little on it. -/
def Moment.curt : Moment := Moment.greeted.report (.ofBytes 1 (Text.bytes "GET\n")) []

theorem refusal_logged_if_text_curt :
    ∃ after, Since Moment.curt.history 501 after ∧ Refused (operations (life 501 after)) ∧
      (Text.Utf8.decode (received (operations (life 501 after)))).isSome ∧
      Dismissed (RefusalLogged .stdout) 501 after := by
  have haccepted : Moment.curt.history[1]? = some (.call (.accept 3 (.ok 501))) := rfl
  have hs := Since.of_getElem? haccepted
  have hr : Refused (operations (life 501 (Moment.curt.history.drop 2))) := by decide +kernel
  exact ⟨_, hs, hr, by decide +kernel,
    refusal_logged_if_text (Reachable.greeted.report _ _) hs hr⟩

theorem Unlogged.of_isLog {L : List Occurrence}
    (h : (L.filterMap Occurrence.call?).all fun call => !call.isLog) : Unlogged L := by
  rintro call hmem ⟨e, he⟩
  have hlog := List.all_eq_true.1 h call (List.mem_filterMap.2 ⟨_, hmem, rfl⟩)
  cases call with
  | log => cases hlog
  | _ => cases he

/-- A server that has received a line that is no text. -/
def Moment.garbled : Moment := Moment.greeted.report (.ofBytes 1 [0xFF, 0x0A]) []

/-- Such a line is refused, and is in no line of the log. -/
theorem refusal_unlogged : Reachable .garbled ∧
    ∃ after, Since Moment.garbled.history 501 after ∧ Refused (operations (life 501 after)) ∧
      closings after = 1 ∧ Unlogged Moment.garbled.history := by
  have haccepted : Moment.garbled.history[1]? = some (.call (.accept 3 (.ok 501))) := rfl
  exact ⟨Reachable.greeted.report _ _, _, Since.of_getElem? haccepted, by decide +kernel,
    by decide +kernel, .of_isLog (by decide +kernel)⟩

end OnePage
