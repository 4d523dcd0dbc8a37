import OnePage.Proofs.Moves

/-! # Registration

What the event queue watches is what is in the table: each connection's socket, under the
connection's token and for what the connection waits for, and besides them at most the listener.
A descriptor number may be used again, so this is carried along with the descriptors that are open
(`Server.Registered`). Every move keeps it, also where a call fails on the way. -/

namespace OnePage

namespace Server

/-- The queue watches what the table says, and only what is open. -/
structure Registered (s : Server) (k : Kernel) : Prop where
  listener_open : k.descriptors.get? s.listener ≠ none
  fresh : listenerToken < s.nextToken
  token {token : Token} {c : Connection} (h : s.connections.get? token = some c) :
    listenerToken < token ∧ token < s.nextToken
  ne_listener {token : Token} {c : Connection} (h : s.connections.get? token = some c) :
    c.socket ≠ s.listener
  watched {token : Token} {c : Connection} (h : s.connections.get? token = some c) :
    k.watches.get? c.socket = some ⟨token, c.interest.conditions⟩
  entry {fd : Fd} {w : Watch} (hl : fd ≠ s.listener) (h : k.watches.get? fd = some w) :
    ∃ c, s.connections.get? w.token = some c ∧ c.socket = fd
  watched_open {fd : Fd} {w : Watch} (h : k.watches.get? fd = some w) :
    k.descriptors.get? fd ≠ none
  accepting (h : s.pausedSince = none) :
    k.watches.get? s.listener = some ⟨listenerToken, Interest.accept.conditions⟩

namespace Registered
variable {s : Server} {k k' : Kernel} {token : Token} {c c' : Connection}

theorem frame (H : Registered s k) (hd : k'.descriptors = k.descriptors)
    (hw : k'.watches = k.watches) : Registered s k' where
  listener_open := hd ▸ H.listener_open
  fresh := H.fresh
  token := H.token
  ne_listener := H.ne_listener
  watched h := hw ▸ H.watched h
  entry hl h := H.entry hl (hw ▸ h)
  watched_open h := hd ▸ H.watched_open (hw ▸ h)
  accepting h := hw ▸ H.accepting h

theorem extend {calls : List Call} (H : Registered s k) (He : k.Extends calls k') :
    Registered s k' :=
  H.frame He.descriptors He.watches

theorem contains (H : Registered s k) (h : s.connections.get? token = some c) :
    k.watches.contains c.socket := by
  rw [Table.contains, H.watched h]
  rfl

/-- No two connections have the same socket. -/
theorem token_unique {token' : Token} (H : Registered s k)
    (h : s.connections.get? token = some c) (h' : s.connections.get? token' = some c')
    (hs : c.socket = c'.socket) : token = token' := by
  have hw := H.watched h
  rw [hs, H.watched h'] at hw
  injection hw with hw
  injection hw with hw
  exact hw.symm

/-- Entries with different sockets are under different tokens. -/
theorem token_ne {token' : Token}
    (h : s.connections.get? token = some c) (h' : s.connections.get? token' = some c')
    (hs : c'.socket ≠ c.socket) : token' ≠ token := by
  intro he
  rw [he, h] at h'
  cases h'
  exact hs rfl

theorem not_watched {fd : Fd} (H : Registered s k) (hfree : k.descriptors.get? fd = none) :
    k.watches.get? fd = none :=
  Option.eq_none_iff_forall_ne_some.2 fun _ h => H.watched_open h hfree

theorem ne_of_free {fd : Fd} (H : Registered s k) (hfree : k.descriptors.get? fd = none) :
    fd ≠ s.listener := fun h => H.listener_open (h ▸ hfree)

/-- The connections in the table have other sockets than one that is free. -/
theorem socket_ne_of_free {fd : Fd} (H : Registered s k) (hfree : k.descriptors.get? fd = none)
    (h : s.connections.get? token = some c) : c.socket ≠ fd := by
  intro hs
  apply H.watched_open (H.watched h)
  rw [hs, hfree]

/-- Forgetting a descriptor that is not watched changes nothing. -/
theorem unwatch_free {fd : Fd} (H : Registered s k) (hfree : k.descriptors.get? fd = none) :
    Registered s (k.unwatch fd) := by
  refine H.frame rfl (Table.ext fun j => ?_)
  simp only [Kernel.unwatch, Table.get?_erase]
  split
  · rename_i h
    rw [h, H.not_watched hfree]
  · rfl

theorem pause (H : Registered s k) (since : Nanoseconds) :
    Registered { s with pausedSince := some since } (k.unwatch s.listener) where
  listener_open := H.listener_open
  fresh := H.fresh
  token := H.token
  ne_listener := H.ne_listener
  watched h := by
    simp only [Kernel.unwatch, Table.get?_erase, if_neg (H.ne_listener h)]
    exact H.watched h
  entry hl h := by
    simp only [Kernel.unwatch, Table.get?_erase, if_neg hl] at h
    exact H.entry hl h
  watched_open h := by
    simp only [Kernel.unwatch, Table.get?_erase] at h
    split at h
    · cases h
    · exact H.watched_open h
  accepting h := by cases h

/-- A pause whose call fails leaves the listener watched. -/
theorem pause_failed (H : Registered s k) (since : Nanoseconds) :
    Registered { s with pausedSince := some since } k :=
  { H with accepting := fun h => by cases h }

theorem resume (H : Registered s k) : Registered { s with pausedSince := none }
    (k.watch s.listener ⟨listenerToken, Interest.accept.conditions⟩) where
  listener_open := H.listener_open
  fresh := H.fresh
  token := H.token
  ne_listener := H.ne_listener
  watched h := by
    simp only [Kernel.watch, Table.get?_insert, if_neg (H.ne_listener h)]
    exact H.watched h
  entry hl h := by
    simp only [Kernel.watch, Table.get?_insert, if_neg hl] at h
    exact H.entry hl h
  watched_open h := by
    simp only [Kernel.watch, Table.get?_insert] at h
    split at h
    · rename_i hl
      exact hl ▸ H.listener_open
    · exact H.watched_open h
  accepting _ := by simp [Kernel.watch]

theorem skip_token (H : Registered s k) :
    Registered { s with nextToken := s.nextToken + 1 } k :=
  { H with
    fresh := Nat.lt_succ_of_lt H.fresh
    token := fun h => ⟨(H.token h).1, Nat.lt_succ_of_lt (H.token h).2⟩ }

theorem adopt {fd : Fd} {peer : Net.Endpoint} {resource : Resource} (H : Registered s k)
    (hfree : k.descriptors.get? fd = none) (now : Nanoseconds) (stats : Stats) :
    Registered
      { s with
        nextToken := s.nextToken + 1
        stats := stats
        connections := s.connections.insert s.nextToken (Connection.new now fd peer) }
      ((k.opened fd resource).watch fd ⟨s.nextToken, Interest.read.conditions⟩) := by
  have hopen {fd' : Fd} (h : k.descriptors.get? fd' ≠ none) :
      (k.descriptors.insert fd resource).get? fd' ≠ none := by
    rw [Table.get?_insert]
    split
    · exact Option.some_ne_none _
    · exact h
  exact {
    listener_open := hopen H.listener_open
    fresh := Nat.lt_succ_of_lt H.fresh
    token := by
      intro token c h
      rw [Table.get?_insert] at h
      split at h
      · rename_i ht
        rw [ht]
        exact ⟨H.fresh, Nat.lt_succ_self _⟩
      · exact ⟨(H.token h).1, Nat.lt_succ_of_lt (H.token h).2⟩
    ne_listener := by
      intro token c h
      rw [Table.get?_insert] at h
      split at h
      · cases h
        exact H.ne_of_free hfree
      · exact H.ne_listener h
    watched := by
      intro token c h
      simp only [Kernel.watch, Kernel.opened, Table.get?_insert] at h ⊢
      split at h
      · rename_i ht
        cases h
        rw [ht]
        exact if_pos rfl
      · rw [if_neg (H.socket_ne_of_free hfree h)]
        exact H.watched h
    entry := by
      intro fd' w hl h
      simp only [Kernel.watch, Kernel.opened, Table.get?_insert] at h ⊢
      by_cases hfd : fd' = fd
      · rw [if_pos hfd] at h
        cases h
        exact ⟨_, if_pos rfl, hfd.symm⟩
      · rw [if_neg hfd] at h
        obtain ⟨c, hc, hs⟩ := H.entry hl h
        have hne : w.token ≠ s.nextToken := Nat.ne_of_lt (H.token hc).2
        exact ⟨c, by rw [if_neg hne, hc], hs⟩
    watched_open := by
      intro fd' w h
      simp only [Kernel.watch, Kernel.opened, Table.get?_insert] at h
      split at h
      · rename_i hfd
        simp [Kernel.watch, Kernel.opened, hfd]
      · exact hopen (H.watched_open h)
    accepting := by
      intro h
      have hne := Ne.symm (H.ne_of_free hfree)
      simp only [Kernel.watch, Kernel.opened, Table.get?_insert, if_neg hne]
      exact H.accepting h }

/-- A connection changes, with its socket watched for what it waits for afterwards. -/
theorem rearm (H : Registered s k) (ht : s.connections.get? token = some c)
    (hs : c'.socket = c.socket) (stats : Stats) :
    Registered { s with stats := stats, connections := s.connections.insert token c' }
      (k.watch c.socket ⟨token, c'.interest.conditions⟩) where
  listener_open := H.listener_open
  fresh := H.fresh
  token := by
    intro t d h
    rw [Table.get?_insert] at h
    split at h
    · rename_i he
      rw [he]
      exact H.token ht
    · exact H.token h
  ne_listener := by
    intro t d h
    rw [Table.get?_insert] at h
    split at h
    · cases h
      exact hs ▸ H.ne_listener ht
    · exact H.ne_listener h
  watched := by
    intro t d h
    simp only [Kernel.watch, Table.get?_insert] at h ⊢
    split at h
    · rename_i he
      cases h
      rw [he, if_pos hs]
    · rename_i he
      rw [if_neg fun hd => he (H.token_unique h ht hd)]
      exact H.watched h
  entry := by
    intro fd' w hl h
    simp only [Kernel.watch, Table.get?_insert] at h ⊢
    by_cases hfd : fd' = c.socket
    · rw [if_pos hfd] at h
      cases h
      exact ⟨c', if_pos rfl, hs.trans hfd.symm⟩
    · rw [if_neg hfd] at h
      obtain ⟨d, hd, hsd⟩ := H.entry hl h
      have hne := token_ne ht hd (hsd ▸ hfd)
      exact ⟨d, by rw [if_neg hne, hd], hsd⟩
  watched_open := by
    intro fd' w h
    simp only [Kernel.watch, Table.get?_insert] at h
    split at h
    · rename_i hfd
      rw [hfd]
      exact H.watched_open (H.watched ht)
    · exact H.watched_open h
  accepting := by
    intro h
    simp only [Kernel.watch, Table.get?_insert, if_neg (Ne.symm (H.ne_listener ht))]
    exact H.accepting h

/-- A connection that waits for what it has waited for may otherwise change. -/
theorem stay (H : Registered s k) (ht : s.connections.get? token = some c)
    (hs : c'.socket = c.socket) (hi : c'.interest = c.interest) (stats : Stats) :
    Registered { s with stats := stats, connections := s.connections.insert token c' } k := by
  refine (H.rearm ht hs stats).frame rfl (Table.ext fun j => ?_)
  simp only [Kernel.watch, Table.get?_insert, hi]
  split
  · rename_i h
    rw [h, H.watched ht]
  · rfl

theorem remove (H : Registered s k) (ht : s.connections.get? token = some c) (stats : Stats) :
    Registered { s with stats := stats, connections := s.connections.erase token }
      (k.closed c.socket) := by
  have hlast {t : Token} {d : Connection} (h : (s.connections.erase token).get? t = some d) :
      s.connections.get? t = some d ∧ d.socket ≠ c.socket := by
    rw [Table.get?_erase] at h
    split at h
    · cases h
    · rename_i hne
      exact ⟨h, fun hs => hne (H.token_unique h ht hs)⟩
  have hl := Ne.symm (H.ne_listener ht)
  exact {
    listener_open := by
      simp only [Kernel.closed, Table.get?_erase, if_neg hl]
      exact H.listener_open
    fresh := H.fresh
    token := fun h => H.token (hlast h).1
    ne_listener := fun h => H.ne_listener (hlast h).1
    watched := by
      intro t d h
      simp only [Kernel.closed, Table.get?_erase, if_neg (hlast h).2]
      exact H.watched (hlast h).1
    entry := by
      intro fd' w hl' h
      simp only [Kernel.closed, Table.get?_erase] at h ⊢
      split at h
      · cases h
      · rename_i hfd
        obtain ⟨d, hd, hsd⟩ := H.entry hl' h
        have hne := token_ne ht hd (hsd ▸ hfd)
        exact ⟨d, by rw [if_neg hne, hd], hsd⟩
    watched_open := by
      intro fd' w h
      simp only [Kernel.closed, Table.get?_erase] at h ⊢
      split at h
      · cases h
      · rename_i hfd
        rw [if_neg hfd]
        exact H.watched_open h
    accepting := by
      intro h
      simp only [Kernel.closed, Table.get?_erase, if_neg hl]
      exact H.accepting h }

/-- Every move leads from what is registered to what is registered. -/
theorem move {s' : Server} {new : List Occurrence} (H : Registered s k)
    (Hm : Move s k new s' k') : Registered s' k' := by
  cases Hm with
  | tell _ He | unaccepted _ He | unresumed _ He => exact H.extend He
  | wait _ Hw => exact H.frame Hw.descriptors Hw.watches
  | @pause _ _ deleted _ _ He =>
    cases deleted with
    | ok => exact (H.pause _).extend He
    | error e => exact (H.pause_failed _).extend He
  | resume _ He => exact H.resume.extend He
  | adopt hfree _ _ He => exact (H.adopt hfree _ _).extend He
  | refuse hfree _ _ He => exact (H.unwatch_free hfree).extend He
  | unregistered hfree _ _ _ He => exact (H.unwatch_free hfree).skip_token.extend He
  | stay ht Hh _ He => exact (H.stay ht Hh.socket Hh.interest_of_wait _).extend He
  | rearm ht Hh _ He => exact (H.rearm ht Hh.socket _).extend He
  | finish ht _ _ _ _ He => exact (H.remove ht _).extend He
  | close ht _ _ He => exact (H.remove ht _).extend He

end Registered

theorem Moves.registered {s s' : Server} {k k' : Kernel} {new : List Occurrence}
    (H : Moves s k new s' k') (R : s.Registered k) : s'.Registered k' := by
  induction H with
  | nil => exact R
  | cons H _ ih => exact ih (R.move H)

theorem Goes.registered {α : Type} {f : Serving α} {turns : List Turn} {s : Server} {k : Kernel}
    (H : Goes f turns s k) (R : s.Registered k) : (f s k).1.2.Registered (f s k).2 := by
  obtain ⟨calls, a, s', k', h, Hs⟩ := H
  rw [h]
  exact Hs.registered R

/-- A server that has been created has opened a queue, watches its listener, and has no
connections. -/
theorem create_spec {config : Config} {listener : Fd} {log : LogSink} {k k' : Kernel}
    {s : Server} (hc : create config listener log k = (.ok s, k')) :
    ∃ queue calls, s = {
        config, listener, queue, log, connections := ∅, nextToken := listenerToken + 1,
        pausedSince := none, stats := {} } ∧
      k.descriptors.get? queue.fd = none ∧
      ((k.opened queue.fd .eventQueue).watch listener
        ⟨listenerToken, Interest.accept.conditions⟩).Extends calls k' ∧
      ∀ call ∈ calls, call.isLog = false := by
  obtain ⟨r, k₁, h₁, H₁⟩ := Sys.createQueue_spec k
  rcases r with e | fd
  · simp only [create, EventQueue.create, StateM.bind_apply, h₁] at hc
    cases hc
  obtain ⟨hfree, H₁⟩ := H₁ fd rfl
  obtain ⟨r, calls, k₂, h₂, hr, H₂⟩ := EventQueue.register_spec listener listenerToken .accept k₁
  rcases r with e | ⟨⟩
  · simp only [create, EventQueue.create, StateM.bind_apply, StateM.pure_apply, h₁, h₂] at hc
    cases hc
  simp only [create, EventQueue.create, StateM.bind_apply, StateM.pure_apply, h₁, h₂] at hc
  cases hc
  exact ⟨⟨fd⟩, _, rfl, hfree, (H₁.watch listener _).trans H₂,
    List.forall_mem_cons.2 ⟨rfl, hr.not_isLog⟩⟩

theorem create_registered {config : Config} {listener : Fd} {log : LogSink} {k k' : Kernel}
    {s : Server} (hl : k.descriptors.contains listener) (hw : k.watches = ∅)
    (hc : create config listener log k = (.ok s, k')) : Registered s k' := by
  obtain ⟨queue, calls, rfl, -, H, -⟩ := create_spec hc
  have hopen : (k.descriptors.insert queue.fd .eventQueue).get? listener ≠ none := by
    rw [Table.get?_insert]
    split
    · exact Option.some_ne_none _
    · simpa [Table.contains, Option.isSome_iff_ne_none] using hl
  have hnone {token : Token} {c : Connection} : (∅ : Table Connection).get? token ≠ some c := by
    simp
  refine Registered.extend ?_ H
  refine ⟨hopen, Nat.lt_succ_self _, fun h => absurd h hnone, fun h => absurd h hnone,
    fun h => absurd h hnone, fun hne h => ?_, fun h => ?_, fun _ => ?_⟩
  · simp only [Kernel.watch, Kernel.opened, hw, Table.get?_insert, if_neg hne,
      Table.get?_empty] at h
    cases h
  · simp only [Kernel.watch, Kernel.opened, hw, Table.get?_insert, Table.get?_empty] at h
    split at h
    · rename_i hfd
      exact hfd ▸ hopen
    · cases h
  · simp [Kernel.watch]

end Server

theorem Reachable.registered {m : Moment} (H : Reachable m) :
    m.server.Registered m.kernel :=
  H.invariant (P := fun s k _ => s.Registered k)
    (fun hl hw _ => Server.create_registered hl hw) Server.Registered.move

/-! ## Connections -/

/-- Besides the listener, what is watched are the sockets of the connections in the table, each as
its connection and for what that waits for, and no two connections share a socket. -/
structure Server.Mirrored (s : Server) (k : Kernel) : Prop where
  watched_iff {fd : Fd} (hl : fd ≠ s.listener) (w : Watch) : k.watches.get? fd = some w ↔
    ∃ c, s.connections.get? w.token = some c ∧ c.socket = fd ∧ w.conditions = c.interest.conditions
  ne_listener {token : Token} {c : Connection} (h : s.connections.get? token = some c) :
    c.socket ≠ s.listener
  watched {token : Token} {c : Connection} (h : s.connections.get? token = some c) :
    k.watches.get? c.socket = some ⟨token, c.interest.conditions⟩
  distinct {token token' : Token} {c c' : Connection} (h : s.connections.get? token = some c)
    (h' : s.connections.get? token' = some c') (hs : c.socket = c'.socket) : token = token'

theorem Server.Registered.mirrored {s : Server} {k : Kernel} (H : s.Registered k) :
    s.Mirrored k where
  watched_iff hl w := by
    constructor
    · intro h
      obtain ⟨c, hc, hs⟩ := H.entry hl h
      refine ⟨c, hc, hs, ?_⟩
      have hw := H.watched hc
      rw [hs, h] at hw
      injection hw with hw
      exact congrArg Watch.conditions hw
    · rintro ⟨c, hc, rfl, hw⟩
      rw [H.watched hc, ← hw]
  ne_listener := H.ne_listener
  watched := H.watched
  distinct := H.token_unique

/-- The queue mirrors the table whenever the server is at rest, and so it does after every event
and after every poll, whatever comes of their calls. -/
theorem queue_mirrors_table {m : Moment} (H : Reachable m) :
    m.server.Mirrored m.kernel ∧
    (∀ now event, let result := Server.dispatch now event m.server m.kernel
      result.1.2.Mirrored result.2) ∧
    ∀ timeout round?, let result := Server.poll timeout round? m.server m.kernel
      result.1.2.Mirrored result.2 := by
  refine ⟨H.registered.mirrored, fun now event => ?_, fun timeout round? => ?_⟩
  · exact (H.act (.dispatch now event)).registered.mirrored
  · obtain ⟨_, H'⟩ := H.poll timeout round?
    exact H'.registered.mirrored

/-- A server that has accepted one connection. -/
def Moment.greeted : Moment :=
  Moment.start.report
    { event := ⟨listenerToken, { input := true }⟩
      incoming := [.peer ⟨.unspecified, 40000⟩ (.ok ())] } []

theorem Reachable.greeted : Reachable .greeted := Reachable.start.report _ _

theorem queue_mirrors_table_greeted :
    Moment.greeted.server.connections.keys = [1] ∧
      Moment.greeted.server.Mirrored Moment.greeted.kernel :=
  ⟨by decide, (queue_mirrors_table Reachable.greeted).1⟩

/-! ## The listener -/

/-- The listener is watched unless accepting is paused, and a pause does not outlast the next wait
for long. So a wait without a limit is one that the next peer ends, with no connection open that
could become idle. -/
theorem accepting_goes_on {m : Moment} (H : Reachable m) :
    (m.server.pausedSince = none → m.kernel.watches.get? m.server.listener =
      some ⟨listenerToken, Interest.accept.conditions⟩) ∧
    (m.server.nextWait = none → m.kernel.watches.get? m.server.listener =
        some ⟨listenerToken, Interest.accept.conditions⟩ ∧
      (m.server.config.timeout = none ∨ m.server.connections.isEmpty)) ∧
    ∀ since, m.server.pausedSince = some since →
      ∃ limit, m.server.nextWait = some limit ∧ limit ≤ .ofMilliseconds 100 := by
  refine ⟨H.registered.accepting, fun h => ?_, fun since hp => ?_⟩
  · cases hp : m.server.pausedSince with
    | some since => simp [Server.nextWait, hp] at h
    | none =>
      refine ⟨H.registered.accepting hp, ?_⟩
      cases he : m.server.connections.isEmpty with
      | true => exact .inr rfl
      | false => exact .inl (by simpa [Server.nextWait, hp, he] using h)
  · have hw : m.server.nextWait = some
        (((if m.server.connections.isEmpty then none else m.server.config.timeout).map
          (min · Server.acceptRetry)).getD Server.acceptRetry) := by
      simp only [Server.nextWait, hp]
    refine ⟨_, hw, ?_⟩
    generalize (if m.server.connections.isEmpty then none else m.server.config.timeout) = idle
    cases idle with
    | none => exact Nat.le_refl _
    | some limit => exact Nat.min_le_right ..

/-- A server that has run out of descriptors. -/
def Moment.exhausted : Moment :=
  Moment.greeted.report
    { event := ⟨listenerToken, { input := true }⟩, incoming := [.fails .EMFILE] } []

theorem Reachable.exhausted : Reachable .exhausted := Reachable.greeted.report _ _

theorem accepting_goes_on_exhausted :
    Moment.exhausted.server.pausedSince = some 0 ∧
    (∃ limit, Moment.exhausted.server.nextWait = some limit ∧ limit ≤ .ofMilliseconds 100) ∧
    Moment.greeted.server.nextWait = none ∧
    Moment.greeted.kernel.watches.get? 3 =
      some ⟨listenerToken, Interest.accept.conditions⟩ := by
  have hp : Moment.exhausted.server.pausedSince = some 0 := by decide
  have hn : Moment.greeted.server.nextWait = none := by decide
  exact ⟨hp, (accepting_goes_on Reachable.exhausted).2.2 0 hp, hn,
    ((accepting_goes_on Reachable.greeted).2.1 hn).1⟩

end OnePage
