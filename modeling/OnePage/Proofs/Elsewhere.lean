import OnePage.Proofs.Lifetimes

/-! # What happens elsewhere

Most of what a server does is on the listener, on other connections or on nothing. None of that
reaches one connection: its record stays in the table as it is, and every call is on the listener
or on another connection's socket (`Server.Elsewhere`). Steps with this property can be put one
after the other (`Server.Apart`). -/

namespace OnePage

/-- `k'` is what `calls` make of `k`, without any time going by. -/
structure Kernel.Adds (k : Kernel) (calls : List Call) (k' : Kernel) : Prop where
  epoch : k'.epoch = k.epoch
  clock : k'.clock = k.clock
  drift : k'.drift = k.drift
  zone : k'.zone = k.zone
  walk : k'.walk = k.walk
  stopped : k'.stopped = k.stopped
  trace : k'.trace = k.trace ++ calls.toArray
  heard (h : k.Heard) : k'.Heard ∧ ∀ call ∈ calls, call.isBreak = false

namespace Kernel
variable {k k' k'' : Kernel} {calls more : List Call}

theorem Adds.refl (k : Kernel) : k.Adds [] k := ⟨rfl, rfl, rfl, rfl, rfl, rfl, by simp, fun h =>
  ⟨h, List.forall_mem_nil _⟩⟩

theorem Adds.trans (H : k.Adds calls k') (H' : k'.Adds more k'') : k.Adds (calls ++ more) k'' where
  epoch := H'.epoch.trans H.epoch
  clock := H'.clock.trans H.clock
  drift := H'.drift.trans H.drift
  zone := H'.zone.trans H.zone
  walk := H'.walk.trans H.walk
  stopped := H'.stopped.trans H.stopped
  trace := by rw [H'.trace, H.trace]; simp
  heard h := by
    obtain ⟨h', hcalls⟩ := H.heard h
    obtain ⟨h'', hmore⟩ := H'.heard h'
    exact ⟨h'', List.forall_mem_append.2 ⟨hcalls, hmore⟩⟩

theorem Adds.secondsAt (H : k.Adds calls k') (n : Nat) : k'.secondsAt n = k.secondsAt n := by
  simp only [Kernel.secondsAt, H.epoch, H.clock, H.drift]

theorem Adds.size (H : k.Adds calls k') : k'.trace.size = k.trace.size + calls.length := by
  simp [H.trace]

/-- What is opened, closed or watched before the calls has no part in this. -/
theorem Extends.adds {k₁ : Kernel} (H : k₁.Extends calls k')
    (h : k₁ = { k with descriptors := k₁.descriptors, watches := k₁.watches }) :
    k.Adds calls k' := by
  obtain ⟨-, -, hclock, hepoch, hdrift, hzone, hwalk, hstopped, htrace, -, hheard⟩ := H
  rw [h] at hclock hepoch hdrift hzone hwalk hstopped htrace hheard
  exact ⟨hepoch, hclock, hdrift, hzone, hwalk, hstopped, htrace, hheard⟩

end Kernel

namespace Server
open EventQueue

/-- Whether a call is on the listener, on the socket of a connection other than that of `token`,
or on nothing. -/
def Abroad (token : Token) (s : Server) (call : Call) : Prop :=
  ∀ fd, (Occurrence.call call).socket? = some fd →
    fd = s.listener ∨ ∃ t c, t ≠ token ∧ s.connections.get? t = some c ∧ c.socket = fd

/-- A step that does not concern the connection of `token`. -/
structure Elsewhere (token : Token) (s : Server) (k : Kernel) (calls : List Call) (s' : Server)
    (k' : Kernel) : Prop where
  config : s'.config = s.config
  log : s'.log = s.log
  listener : s'.listener = s.listener
  entry : s'.connections.get? token = s.connections.get? token
  others {t : Token} {c' : Connection} (ht : t ≠ token) (h : s'.connections.get? t = some c') :
    ∃ c, s.connections.get? t = some c ∧ c.socket = c'.socket
  abroad : ∀ call ∈ calls, s.Abroad token call
  adds : k.Adds calls k'

namespace Elsewhere
variable {token t : Token} {s s' s'' : Server} {k k' k'' : Kernel} {calls more : List Call}
variable {c c' : Connection}

/-- Calls that leave the table as it is. -/
theorem of_calls (habroad : ∀ call ∈ calls, s.Abroad token call) (H : k.Adds calls k') :
    Elsewhere token s k calls s k' :=
  ⟨rfl, rfl, rfl, rfl, fun _ h => ⟨_, h, rfl⟩, habroad, H⟩

theorem refl (token : Token) (s : Server) (k : Kernel) : Elsewhere token s k [] s k :=
  of_calls (List.forall_mem_nil _) (.refl k)

/-- What a call is on was there before. -/
theorem pull {call : Call} (H : Elsewhere token s k calls s' k') (h : s'.Abroad token call) :
    s.Abroad token call := by
  intro fd hfd
  rcases h fd hfd with h | ⟨t, c', ht, h, hs'⟩
  · exact .inl (h.trans H.listener)
  · obtain ⟨c, h, hs⟩ := H.others ht h
    exact .inr ⟨t, c, ht, h, hs.trans hs'⟩

theorem trans (H : Elsewhere token s k calls s' k') (H' : Elsewhere token s' k' more s'' k'') :
    Elsewhere token s k (calls ++ more) s'' k'' where
  config := H'.config.trans H.config
  log := H'.log.trans H.log
  listener := H'.listener.trans H.listener
  entry := H'.entry.trans H.entry
  others ht h := by
    obtain ⟨c', h', hs'⟩ := H'.others ht h
    obtain ⟨c, h, hs⟩ := H.others ht h'
    exact ⟨c, h, hs.trans hs'⟩
  abroad := List.forall_mem_append.2 ⟨H.abroad, fun call hcall => H.pull (H'.abroad call hcall)⟩
  adds := H.adds.trans H'.adds

/-- Messages are on nothing. -/
theorem messages (ht : ∀ call ∈ calls, call.isMessage) (H : k.Adds calls k') :
    Elsewhere token s k calls s k' :=
  of_calls (fun call hcall fd hfd => by
    rw [(Occurrence.silent_of_isMessage (ht call hcall)).1] at hfd
    cases hfd) H

/-- What is done on another connection's socket. -/
theorem of_confined (ht : t ≠ token) (hc : s.connections.get? t = some c)
    (H : Confined c.socket (calls.map .call)) (Hk : k.Adds calls k') :
    Elsewhere token s k calls s k' :=
  of_calls (fun call hcall fd hfd => by
    rcases H _ (List.mem_map_of_mem hcall) with h | h
    · exact .inr ⟨t, c, ht, hc, Option.some.inj (h.symm.trans hfd)⟩
    · rw [h.1] at hfd
      cases hfd) Hk

/-- What is done on another connection's socket, and to its record. -/
theorem update {stats : Stats} (ht : t ≠ token) (hc : s.connections.get? t = some c)
    (hs : c'.socket = c.socket) (H : Confined c.socket (calls.map .call))
    (Hk : k.Adds calls k') :
    Elsewhere token s k calls
      { s with stats := stats, connections := s.connections.insert t c' } k' :=
  { of_confined ht hc H Hk with
    entry := by rw [Table.get?_insert, if_neg ht.symm]
    others := fun {t' d} _ h => by
      rw [Table.get?_insert] at h
      split at h
      · cases h
        rename_i he
        exact ⟨c, he ▸ hc, hs.symm⟩
      · exact ⟨d, h, rfl⟩ }

/-- Another connection leaves the table. -/
theorem remove (ht : t ≠ token) (hc : s.connections.get? t = some c)
    (H : Confined c.socket (calls.map .call)) (Hk : k.Adds calls k') :
    Elsewhere token s k calls { s with connections := s.connections.erase t } k' :=
  { of_confined ht hc H Hk with
    entry := by rw [Table.get?_erase, if_neg ht.symm]
    others := fun {t' d} _ h => by
      rw [Table.get?_erase] at h
      split at h
      · cases h
      · exact ⟨d, h, rfl⟩ }

end Elsewhere

/-- Whether a step never concerns the connection of `token`. -/
def Apart {α : Type} (token : Token) (f : Serving α) : Prop :=
  ∀ s k, ∃ calls a s' k', f s k = ((a, s'), k') ∧ Elsewhere token s k calls s' k'

namespace Apart
variable {α β : Type} {token : Token}

theorem pure (a : α) : Apart token (Pure.pure a) := fun s k => ⟨[], a, s, k, rfl, .refl token s k⟩

theorem get : Apart token (MonadState.get : Serving Server) :=
  fun s k => ⟨[], s, s, k, rfl, .refl token s k⟩

theorem getKernel : Apart token (getThe Kernel : Serving Kernel) :=
  fun s k => ⟨[], k, s, k, rfl, .refl token s k⟩

theorem bind {f : Serving α} {g : α → Serving β} (H : Apart token f)
    (H' : ∀ a, Apart token (g a)) : Apart token (f >>= g) := by
  intro s k
  obtain ⟨calls, a, s', k', h, He⟩ := H s k
  obtain ⟨more, b, s'', k'', h', He'⟩ := H' a s' k'
  exact ⟨calls ++ more, b, s'', k'', by simp [h, h'], He.trans He'⟩

theorem ite {p : Prop} [Decidable p] {f g : Serving α} (H : Apart token f) (H' : Apart token g) :
    Apart token (if p then f else g) := by
  split
  · exact H
  · exact H'

theorem forM {f : α → Serving Unit} {as : List α} (H : ∀ a ∈ as, Apart token (f a)) :
    Apart token (as.forM f) := by
  induction as with
  | nil => exact .pure ()
  | cons a as ih =>
    obtain ⟨ha, H⟩ := List.forall_mem_cons.1 H
    exact ha.bind fun _ => ih H

theorem info (message : String) : Apart token (Server.info message) := fun s k => by
  obtain ⟨call, k', h, H, ht⟩ := info_spec message s k
  exact ⟨_, (), s, k', h, .messages ht.isMessage (H.adds rfl)⟩

theorem warn (message : String) : Apart token (Server.warn message) := fun s k => by
  obtain ⟨call, k', h, H, ht⟩ := warn_spec message s k
  exact ⟨_, (), s, k', h, .messages ht.isMessage (H.adds rfl)⟩

theorem resume : Apart token Server.resume := fun s k => by
  obtain ⟨r, calls, k₁, h, hr, H⟩ := register_spec s.listener listenerToken .accept k
  have habroad : ∀ call ∈ calls, s.Abroad token call := fun call hcall fd hfd =>
    .inl (Option.some.inj (hfd.symm.trans (hr.socket _ (List.mem_map_of_mem hcall))))
  have Hk : k.Adds calls k₁ := by
    rcases r with _ | ⟨⟩ <;> exact H.adds rfl
  have Hcalls : Elsewhere token s k calls s k₁ := .of_calls habroad Hk
  rcases r with e | ⟨⟩
  · have h : Server.resume s k =
        Server.warn ("failed to resume listening socket: " ++ e.labelled) s k₁ := by
      simp [Server.resume, h]
    have Hw : Apart token (Server.warn ("failed to resume listening socket: " ++ e.labelled)) :=
      warn _
    obtain ⟨more, a, s', k', h', He⟩ := Hw s k₁
    exact ⟨_, a, s', k', h.trans h', Hcalls.trans He⟩
  · have h : Server.resume s k = (((), { s with pausedSince := none }), k₁) := by
      simp [Server.resume, h]
    exact ⟨calls, _, _, _, h, { Hcalls with }⟩

theorem resumeIfPaused : Apart token Server.resumeIfPaused :=
  get.bind fun _ => .ite resume (pure ())

theorem pause (now : Nanoseconds) : Apart token (Server.pause now) := fun s k => by
  obtain ⟨deleted, k₁, h, H⟩ := deregister_spec s.listener k
  have habroad : ∀ call ∈ [Call.delete s.listener deleted], s.Abroad token call := by
    intro call hcall fd hfd
    rw [List.mem_singleton.1 hcall] at hfd
    exact .inl (Option.some.inj hfd).symm
  have Hk : k.Adds [.delete s.listener deleted] k₁ := by
    rcases deleted with _ | ⟨⟩ <;> exact H.adds rfl
  have Hcalls : Elsewhere token s k _ { s with pausedSince := some now } k₁ :=
    { Elsewhere.of_calls habroad Hk with }
  cases hf : forgotten deleted with
  | ok => exact ⟨_, (), _, k₁, by simp [Server.pause, h, hf], Hcalls⟩
  | error e =>
    have Hw : Apart token (Server.warn ("failed to pause listening socket: " ++ e.labelled)) :=
      warn _
    obtain ⟨more, a, s', k', h', He⟩ := Hw { s with pausedSince := some now } k₁
    exact ⟨_, a, s', k', by simp [Server.pause, h, hf, h'], Hcalls.trans He⟩

/-- Another connection leaves the table, after which accepting may go on. -/
theorem leave {s : Server} {k k₁ : Kernel} {t : Token} {c : Connection} {calls : List Call}
    {f : Serving Unit} (ht : t ≠ token) (hc : s.connections.get? t = some c)
    (H : Confined c.socket (calls.map .call)) (Hk : k.Adds calls k₁)
    (h : f s k = Server.resumeIfPaused { s with connections := s.connections.erase t } k₁) :
    ∃ calls a s' k', f s k = ((a, s'), k') ∧ Elsewhere token s k calls s' k' := by
  have Hr : Apart token Server.resumeIfPaused := resumeIfPaused
  obtain ⟨more, a, s', k', h', He⟩ := Hr { s with connections := s.connections.erase t } k₁
  exact ⟨calls ++ more, a, s', k', h.trans h', (Elsewhere.remove ht hc H Hk).trans He⟩

theorem close {t : Token} (ht : t ≠ token) (seconds : Int) :
    Apart token (Server.close t seconds) := fun s k => by
  cases hc : s.connections.get? t with
  | none => exact ⟨[], (), s, k, close_gone hc seconds k, .refl token s k⟩
  | some c =>
    obtain ⟨closing, k₁, Hc, H, h⟩ := close_spec hc seconds k
    exact leave ht hc Hc.life.1 (H.adds rfl) h

theorem abandon {t : Token} (ht : t ≠ token) : Apart token (Server.abandon t) := fun s k => by
  cases hc : s.connections.get? t with
  | none => exact ⟨[], (), s, k, abandon_gone hc k, .refl token s k⟩
  | some c =>
    obtain ⟨closing, k₁, Hc, H, h⟩ := abandon_spec hc k
    exact leave ht hc Hc.life.1 (H.adds rfl) h

/-- A call that only asks something. -/
theorem lift {x : Sys α} (H : ∀ k, ∃ a k', x k = (a, k') ∧ k.Extends [] k') :
    Apart token (liftM x : Serving α) := fun s k => by
  obtain ⟨a, k', h, He⟩ := H k
  have Hk := He.adds rfl
  exact ⟨[], a, s, k', by simp [h], .messages (List.forall_mem_nil _) Hk⟩

theorem retryAccepting (now : Nanoseconds) : Apart token (Server.retryAccepting now) :=
  get.bind fun s => by
    split
    · exact pure ()
    · exact ite resume (pure ())

theorem announce : Apart token Server.announce :=
  get.bind fun s => getKernel.bind fun k =>
    (lift (Sys.localAddress_spec s.listener)).bind fun r => by
      split <;> exact info _

theorem logStats : Apart token Server.logStats :=
  (lift Sys.usage_spec).bind fun r => by
    split
    · exact pure _
    · exact get.bind fun s => (info _).bind fun _ => (info _).bind fun _ =>
        (info _).bind fun _ => pure _

theorem complain (e : ServeError) : Apart token (Act.complain e).run := fun s k => by
  obtain ⟨call, k', h, H, ht⟩ := s.log.write_spec .error e.chain.oneLine k
  exact ⟨_, (), s, k', by simp [Act.run, LogSink.error, h],
    .messages ht.isMessage (H.adds rfl)⟩

end Apart

/-- Whether an act is about the server as a whole. -/
def Act.isGeneral : Act → Bool
  | announce | retryAccepting _ | logStats | complain _ => true
  | _ => false

theorem Apart.of_isGeneral {token : Token} {a : Act} (h : a.isGeneral) : Apart token a.run := by
  cases a with
  | announce => exact .announce
  | retryAccepting now => exact .retryAccepting now
  | logStats => exact Apart.logStats.bind fun _ => .pure _
  | complain e => exact .complain e
  | _ => cases h

/-- What a verdict leads to is done on the connection's own socket. -/
theorem Concludes.confined {s : Server} {k k' : Kernel} {token : Token} {c : Connection}
    {verdict : Verdict} {calls : List Call} {stays : Bool}
    (H : Concludes s k token c verdict calls stays k') : Confined c.socket (calls.map .call) := by
  cases H with
  | wait => exact .of_on (List.forall_mem_nil _)
  | rearm => exact .cons rfl (.of_on (List.forall_mem_nil _))
  | finish He Hc =>
    obtain ⟨hs, hending, -⟩ := He.life
    have hclosing := Hc.life.1
    rw [hs] at hclosing
    rw [List.map_append]
    exact hending.append hclosing

theorem Concludes.adds {s : Server} {k k' : Kernel} {token : Token} {c : Connection}
    {verdict : Verdict} {calls : List Call} {stays : Bool}
    (H : Concludes s k token c verdict calls stays k') : k.Adds calls k' := by
  cases H with
  | wait => exact .refl k
  | rearm H => exact H.adds rfl
  | finish _ _ H => exact H.adds rfl

theorem conclude_elsewhere {s : Server} {token t : Token} {c : Connection} (ht : t ≠ token)
    (hc : s.connections.get? t = some c) (verdict : Verdict) (k : Kernel) :
    ∃ calls a s' k', conclude t c verdict s k = ((a, s'), k') ∧
      Elsewhere token s k calls s' k' := by
  obtain ⟨calls, stays, k₁, Hc, h⟩ := conclude_spec hc verdict k
  cases stays with
  | true => exact ⟨calls, (), s, k₁, h, .of_confined ht hc Hc.confined Hc.adds⟩
  | false => exact Apart.leave ht hc Hc.confined Hc.adds h

theorem Apart.handle {token : Token} {event : Event} (ht : event.token ≠ token)
    (now : Nanoseconds) : Apart token (Server.handle event now) := fun s k => by
  cases hc : s.connections.get? event.token with
  | none => exact ⟨[], (), s, k, handle_gone hc now k, .refl token s k⟩
  | some c =>
    obtain ⟨ops, verdict, c', stats, k₁, h, Hh, H⟩ :=
      exchange_handles c event.conditions s.config.indexPath now s.stats k
    have hc' : (s.connections.insert event.token c').get? event.token = some c' := by simp
    obtain ⟨calls, a, s', k', h', He⟩ := conclude_elsewhere (s := { s with
      stats := stats, connections := s.connections.insert event.token c' }) ht hc' verdict k₁
    have hops : Confined c.socket ((ops.map (Call.operation c.socket)).map .call) :=
      .of_on (Occurrence.socket_operations c.socket ops)
    have Hk : k.Adds (ops.map (.operation c.socket)) k₁ := H.adds rfl
    have Hupdate : Elsewhere token s k _ { s with
        stats := stats, connections := s.connections.insert event.token c' } k₁ :=
      .update ht hc Hh.socket hops Hk
    exact ⟨_, a, s', k', (handle_eq hc h).trans h', Hupdate.trans He⟩

section
variable {s : Server} {token : Token} {c : Connection}

/-- What becomes of a connection makes no difference to what is elsewhere. -/
theorem abroad_congr {s s' : Server} {call : Call} (h : s'.Abroad token call)
    (hl : s'.listener = s.listener)
    (hc : ∀ t, t ≠ token → s'.connections.get? t = s.connections.get? t) :
    s.Abroad token call := by
  intro fd hfd
  rcases h fd hfd with h | ⟨t, d, ht, hd, hs⟩
  · exact .inl (h.trans hl)
  · rw [hc t ht] at hd
    exact .inr ⟨t, d, ht, hd, hs⟩

theorem abroad_of_erase {s : Server} {call : Call}
    (h : Abroad token { s with connections := s.connections.erase token } call) :
    s.Abroad token call :=
  abroad_congr h rfl fun t ht => by rw [Table.get?_erase, if_neg ht]

/-- What a verdict leads to, and what else is done then. -/
theorem conclude_ends (hc : s.connections.get? token = some c) (verdict : Verdict)
    (k : Kernel) :
    ∃ calls stays k₁ more s' k', Concludes s k token c verdict calls stays k₁ ∧
      conclude token c verdict s k = (((), s'), k') ∧
      s'.connections.get? token = (if stays then some c else none) ∧ k₁.Adds more k' ∧
      ∀ call ∈ more, s.Abroad token call := by
  obtain ⟨calls, stays, k₁, Hc, h⟩ := conclude_spec hc verdict k
  cases stays with
  | true => exact ⟨calls, true, k₁, [], s, k₁, Hc, h, hc, .refl k₁, List.forall_mem_nil _⟩
  | false =>
    have Hr : Apart token resumeIfPaused := .resumeIfPaused
    obtain ⟨more, x, s', k', h', He⟩ := Hr { s with connections := s.connections.erase token } k₁
    exact ⟨calls, false, k₁, more, s', k', Hc, h.trans h', He.entry.trans (by simp), He.adds,
      fun call hcall => abroad_of_erase (He.abroad call hcall)⟩

/-- What an event does for its connection, and what else is done then. -/
theorem dispatch_cut {event : Event} (hl : event.token ≠ listenerToken)
    (hc : s.connections.get? event.token = some c) (now : Nanoseconds) (k : Kernel) :
    ∃ ops verdict c' stats k₁ s₁ calls stays k₂ more s' k',
      Sys.exchange c.socket s.stats
        (c.handle event.conditions k.files s.config.indexPath now) k =
          (((verdict, c'), stats), k₁) ∧
      c.Handles event.conditions k.files s.config.indexPath now s.stats ops verdict c' stats ∧
      k.Adds (ops.map (.operation c.socket)) k₁ ∧
      Concludes s₁ k₁ event.token c' verdict calls stays k₂ ∧ s₁.log = s.log ∧
      (∀ call ∈ more, s.Abroad event.token call) ∧ dispatch now event s k = (((), s'), k') ∧
      s'.connections.get? event.token = (if stays then some c' else none) ∧
      k'.trace = k.trace ++ ((ops.map (Call.operation c.socket) ++ calls) ++ more).toArray := by
  obtain ⟨ops, verdict, c', stats, k₁, h, Hh, H⟩ :=
    exchange_handles c event.conditions s.config.indexPath now s.stats k
  obtain ⟨s₁, hs₁⟩ : ∃ s₁ : Server, s₁ = { s with
    stats := stats, connections := s.connections.insert event.token c' } := ⟨_, rfl⟩
  have hc' : s₁.connections.get? event.token = some c' := by simp [hs₁]
  obtain ⟨calls, stays, k₂, more, s', k', Hc, hconclude, hentry, Hk, habroad⟩ :=
    conclude_ends hc' verdict k₁
  have hrun : dispatch now event s k = (((), s'), k') := by
    have hhandle := handle_eq hc h
    rw [← hs₁, hconclude] at hhandle
    rw [dispatch_eq_handle hl, hhandle]
  have habroad (call : Call) (hcall : call ∈ more) : s.Abroad event.token call := by
    refine abroad_congr (habroad call hcall) (by rw [hs₁]) fun t ht => ?_
    rw [hs₁, Table.get?_insert, if_neg ht]
  have Hops : k.Adds (ops.map (.operation c.socket)) k₁ := H.adds rfl
  exact ⟨ops, verdict, c', stats, k₁, s₁, calls, stays, k₂, more, s', k', h, Hh, Hops, Hc,
    by rw [hs₁], habroad, hrun, hentry, ((Hops.trans Hc.adds).trans Hk).trace⟩

/-! ## Sweeps -/

variable {now timeout : Nanoseconds}

theorem mem_idleTokens : token ∈ s.idleTokens now timeout ↔
    ∃ c, s.connections.get? token = some c ∧ timeout ≤ now - c.lastActive := by
  simp only [idleTokens, List.mem_map, List.mem_filter, decide_eq_true_eq]
  constructor
  · rintro ⟨⟨t, c⟩, ⟨hc, hidle⟩, rfl⟩
    exact ⟨c, Table.get?_eq_some_iff.2 hc, hidle⟩
  · rintro ⟨c, hc, hidle⟩
    exact ⟨(token, c), ⟨Table.get?_eq_some_iff.1 hc, hidle⟩, rfl⟩

/-- Idle connections are closed once each. -/
theorem pairwise_idleTokens (s : Server) (now timeout : Nanoseconds) :
    (s.idleTokens now timeout).Pairwise (· ≠ ·) :=
  List.pairwise_map.2 ((s.connections.ascending.filter _).imp fun h => Nat.ne_of_lt h)

/-- A sweep concerns idle connections only. -/
theorem evictIdle_elsewhere
    (h : ∀ timeout, s.config.timeout = some timeout → token ∉ s.idleTokens now timeout)
    (k : Kernel) : ∃ calls a s' k', Server.evictIdle now s k = ((a, s'), k') ∧
      Elsewhere token s k calls s' k' := by
  cases ht : s.config.timeout with
  | none => exact ⟨[], (), s, k, by simp [Server.evictIdle, ht], .refl token s k⟩
  | some timeout =>
    have hrun : Server.evictIdle now s k =
        (k.walk.order (s.idleTokens now timeout)).forM Server.abandon s k := by
      simp [Server.evictIdle, ht]
    have Ha : Apart token ((k.walk.order (s.idleTokens now timeout)).forM Server.abandon) := by
      refine .forM fun t htoken => .abandon ?_
      rintro rfl
      exact h timeout ht ((k.walk.perm _).mem_iff.1 htoken)
    obtain ⟨calls, a, s', k', h', He⟩ := Ha s k
    exact ⟨calls, a, s', k', hrun.trans h', He⟩

/-- Two rows of steps are one after the other. -/
theorem forM_append (f : Token → Serving Unit) (before after : List Token) (s : Server)
    (k : Kernel) : (before ++ after).forM f s k =
      after.forM f (before.forM f s k).1.2 (before.forM f s k).2 := by
  induction before generalizing s k with
  | nil => rfl
  | cons t before ih => exact ih (f t s k).1.2 (f t s k).2

/-- A sweep that closes a connection, cut at it. -/
theorem evictIdle_cut (ht : s.config.timeout = some timeout)
    (hc : s.connections.get? token = some c) (hidle : token ∈ s.idleTokens now timeout)
    (k : Kernel) :
    ∃ before closing after a s' k', (∀ call ∈ before, s.Abroad token call) ∧
      Closing s.log (k.secondsAt (k.trace.size + before.length)) k.zone c.fail closing ∧
      (∀ call ∈ after, s.Abroad token call) ∧ Server.evictIdle now s k = ((a, s'), k') ∧
      s'.connections.get? token = none ∧
      k'.trace = k.trace ++ (before ++ (closing ++ after)).toArray := by
  obtain ⟨earlier, later, htokens⟩ := List.append_of_mem ((k.walk.perm _).mem_iff.2 hidle)
  have hne := (k.walk.perm _).symm.pairwise (pairwise_idleTokens s now timeout) Ne.symm
  rw [htokens, List.pairwise_append] at hne
  obtain ⟨-, hlater, hearlier⟩ := hne
  have Hb : Apart token (earlier.forM Server.abandon) :=
    .forM fun t ht => .abandon (hearlier t ht token (List.mem_cons_self ..))
  have Ha : Apart token (Server.resumeIfPaused >>= fun _ => later.forM Server.abandon) :=
    .bind .resumeIfPaused fun _ =>
      .forM fun t ht => .abandon ((List.pairwise_cons.1 hlater).1 t ht).symm
  obtain ⟨before, a₁, s₁, k₁, h₁, He₁⟩ := Hb s k
  obtain ⟨closing, k₂, Hc, H, h₂⟩ := abandon_spec (He₁.entry.trans hc) k₁
  obtain ⟨after, a, s', k', h₃, He₂⟩ :=
    Ha { s₁ with connections := s₁.connections.erase token } k₂
  have hrun : Server.evictIdle now s k = ((a, s'), k') := by
    have h : Server.evictIdle now s k =
        (k.walk.order (s.idleTokens now timeout)).forM Server.abandon s k := by
      simp [Server.evictIdle, ht]
    rw [h, htokens, forM_append, h₁, ← h₃, Serving.bind_apply, ← h₂]
    rfl
  have Hk : k₁.Adds closing k₂ := H.adds rfl
  rw [He₁.log, He₁.adds.secondsAt, He₁.adds.size, He₁.adds.zone] at Hc
  exact ⟨before, closing, after, a, s', k', He₁.abroad, Hc,
    fun call hcall => He₁.pull (abroad_of_erase (He₂.abroad call hcall)), hrun,
    He₂.entry.trans (by simp), (He₁.adds.trans (Hk.trans He₂.adds)).trace⟩

end

/-! ## Accepting -/

/-- Accepting that fails concerns no connection. -/
theorem accept_elsewhere {s : Server} {k k₁ : Kernel} {n : Nat} {e : Errno}
    (h : Sys.accept s.listener k = (.error e, k₁))
    (H : k.Extends (Sys.interruptions s.listener n ++ [.accept s.listener (.error e)]) k₁)
    (token : Token) (now : Nanoseconds) :
    ∃ calls a s' k', Server.accept now s k = ((a, s'), k') ∧
      Elsewhere token s k calls s' k' := by
  have habroad : ∀ call ∈ Sys.interruptions s.listener n ++ [.accept s.listener (.error e)],
      s.Abroad token call := by
    intro call hcall fd hfd
    rw [(Occurrence.silent_of_unaccepted _ (List.mem_map_of_mem hcall)).1] at hfd
    cases hfd
  have Hcalls : Elsewhere token s k _ s k₁ := .of_calls habroad (H.adds rfl)
  have Hrest : Apart token (if e = .EAGAIN then pure ()
      else if e = .EMFILE ∨ e = .ENFILE then
        pause now >>= fun _ => warn ("accept() failed: " ++ e.numbered)
      else warn ("accept() failed: " ++ e.numbered)) :=
    .ite (.pure ()) (.ite ((Apart.pause now).bind fun _ => .warn _) (.warn _))
  obtain ⟨more, a, s', k', h', He⟩ := Hrest s k₁
  refine ⟨_, a, s', k', ?_, Hcalls.trans He⟩
  rw [← h']
  simp only [Server.accept, Serving.bind_apply, Serving.get_apply, Serving.lift_apply, h]
  cases e <;> rfl

namespace Adopts
variable {s s' : Server} {k k' : Kernel} {now : Nanoseconds} {fd : Fd} {peer : Net.Endpoint}
variable {calls : List Call}

theorem adds (H : Adopts s k now fd peer calls s' k') : k.Adds calls k' := by
  cases H with
  | registered _ H => exact H.adds rfl
  | blocking _ H => exact H.adds rfl
  | unregistered _ _ H => exact H.adds rfl

/-- Nothing is done on another socket. -/
theorem confined (H : Adopts s k now fd peer calls s' k') : Confined fd (calls.map .call) := by
  cases H with
  | registered hr => exact .cons rfl (.of_on hr.socket)
  | @blocking e told _ ht =>
    have hsetup : ∀ o ∈ [Call.setNonblocking fd (.error e)].map Occurrence.call,
        o.socket? = some fd := by simp [Occurrence.socket?]
    exact .farewell hsetup ht.isMessage
  | @unregistered e calls told _ hr ht =>
    have hsetup : ∀ o ∈ (Call.setNonblocking fd (.ok ()) :: calls).map Occurrence.call,
        o.socket? = some fd := List.forall_mem_cons.2 ⟨rfl, hr.socket⟩
    exact .farewell hsetup ht.isMessage

/-- All other connections stay as they are. -/
theorem get? (H : Adopts s k now fd peer calls s' k') {token : Token} (ht : token ≠ s.nextToken) :
    s'.connections.get? token = s.connections.get? token := by
  cases H with
  | registered => rw [Table.get?_insert, if_neg ht]
  | _ => rfl

end Adopts

/-! ## Time -/

theorem accept_adds (now : Nanoseconds) (s : Server) (k : Kernel) :
    ∃ calls x k', Server.accept now s k = (x, k') ∧ k.Adds calls k' := by
  obtain ⟨r, k₁, h, H⟩ := Sys.accept_spec s.listener k
  cases H with
  | failed n H =>
    obtain ⟨calls, a, s', k', hrun, He⟩ := accept_elsewhere h H listenerToken now
    exact ⟨calls, _, k', hrun, He.adds⟩
  | @opened n fd peer resource _ _ H =>
    obtain ⟨calls, s', k', hadopt, Ha⟩ := adopt_spec now fd peer s k₁
    have Hk : k.Adds _ k₁ := H.adds rfl
    exact ⟨_, ((), s'), k', by simp [Server.accept, h, hadopt], Hk.trans Ha.adds⟩

/-- No time goes by unless the server waits. -/
theorem Act.adds {a : Act} (ha : ∀ timeout round?, a ≠ .wait timeout round?) (s : Server)
    (k : Kernel) : ∃ calls x k', a.run s k = (x, k') ∧ k.Adds calls k' := by
  -- an act leaves all but one connection alone, so there is one that it leaves alone
  have hapart {token : Token} (H : Apart token a.run) :
      ∃ calls x k', a.run s k = (x, k') ∧ k.Adds calls k' := by
    obtain ⟨calls, x, s', k', h, He⟩ := H s k
    exact ⟨calls, _, k', h, He.adds⟩
  cases a with
  | wait timeout round? => exact absurd rfl (ha timeout round?)
  | announce | retryAccepting now | logStats | complain e =>
    exact hapart (@Apart.of_isGeneral listenerToken _ rfl)
  | close token seconds =>
    have H : Apart (token + 1) (Act.close token seconds).run :=
      .close (Nat.ne_of_lt (Nat.lt_succ_self _)) seconds
    exact hapart H
  | dispatch now event =>
    by_cases he : event.token = listenerToken
    · have hrun : (Act.dispatch now event).run = Server.accept now := by
        simp [Act.run, Server.dispatch, he]
      exact hrun ▸ accept_adds now s k
    · have hrun : (Act.dispatch now event).run = Server.handle event now := by
        simp [Act.run, Server.dispatch, he]
      have H : Apart (event.token + 1) (Server.handle event now) :=
        .handle (Nat.ne_of_lt (Nat.lt_succ_self _)) now
      exact hapart (hrun ▸ H)
  | evictIdle now =>
    have hnone (timeout : Nanoseconds) (_ : s.config.timeout = some timeout) :
        s.connections.firstFree 0 ∉ s.idleTokens now timeout := by
      intro h
      obtain ⟨c, hc, -⟩ := mem_idleTokens.1 h
      rw [Table.get?_firstFree] at hc
      cases hc
    obtain ⟨calls, x, s', k', h, He⟩ := evictIdle_elsewhere hnone k
    exact ⟨calls, _, k', h, He.adds⟩

end Server

end OnePage
