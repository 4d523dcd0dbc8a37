import OnePage.Proofs.Elsewhere
import OnePage.Proofs.Run

/-! # Incidents

Accepting is paused where the process has run out of descriptors. Then the listener is taken off
the queue, and each connection that is closed makes one attempt to watch it again, as does a poll
after which none is open. What a server does is cut into incidents (`Server.Incident`), each of
which is aside from accepting, a failure to accept that pauses it, a connection that is closed
with the attempt that follows, or an attempt alone. Every act is a row of these
(`Server.ByIncidents.act`). -/

namespace OnePage

/-! ## Calls that are aside from accepting -/

/-- Whether a call neither fails for want of a descriptor, nor ends what a descriptor is watched
for, nor changes what the listener is watched for. -/
def Call.isAside (listener : Fd) : Call → Bool
  | .add fd .. => fd ≠ listener
  | .modify fd .. => fd ≠ listener
  | .delete .. => false
  | .accept _ (.error e) => e ≠ .EMFILE ∧ e ≠ .ENFILE
  | _ => true

section
variable {listener fd : Fd} {call : Call} {calls : List Call}

theorem Call.isAside_of_isMessage (h : call.isMessage) : call.isAside listener := by
  cases call <;> first | rfl | cases h

theorem LogSink.Tells.aside {log : LogSink} {messages : List (Severity × String)}
    (H : log.Tells messages calls) : ∀ call ∈ calls, call.isAside listener :=
  fun call hcall => Call.isAside_of_isMessage (H.isMessage call hcall)

theorem isAside_operations (listener fd : Fd) (ops : List Operation) :
    ∀ call ∈ ops.map (Call.operation fd), call.isAside listener := by
  intro call hcall
  obtain ⟨op, -, rfl⟩ := List.mem_map.1 hcall
  rfl

theorem isAside_interruptions (listener : Fd) (n : Nat) :
    ∀ call ∈ Sys.interruptions listener n, call.isAside listener := by
  intro call hcall
  rw [List.eq_of_mem_replicate hcall]
  rfl

theorem EventQueue.Registration.aside {token : Token} {interest : Interest} {result : Outcome}
    (H : Registration fd token interest result calls) (hfd : fd ≠ listener) :
    ∀ call ∈ calls, call.isAside listener := by
  cases H <;> simp [Call.isAside, hfd]

end

namespace Server
open EventQueue

/-! ## Attempts -/

/-- Watching the listener again: the calls that are made, and how the server and the kernel are
then. -/
inductive Resumes (s : Server) (k : Kernel) : List Call → Server → Kernel → Prop
  | resumed {calls : List Call} {k' : Kernel}
    (hr : Registration s.listener listenerToken .accept (.ok ()) calls)
    (H : (k.watch s.listener ⟨listenerToken, Interest.accept.conditions⟩).Extends calls k') :
    Resumes s k calls { s with pausedSince := none } k'
  | failed {e : Errno} {calls told : List Call} {k' : Kernel}
    (hr : Registration s.listener listenerToken .accept (.error e) calls)
    (ht : s.log.Tells [(.warning, "failed to resume listening socket: " ++ e.labelled)] told)
    (H : k.Extends (calls ++ told) k') : Resumes s k (calls ++ told) s k'

theorem resume_spec (s : Server) (k : Kernel) :
    ∃ calls s' k', resume s k = (((), s'), k') ∧ Resumes s k calls s' k' := by
  obtain ⟨r, calls, k₁, h, hr, H⟩ := register_spec s.listener listenerToken .accept k
  rcases r with e | ⟨⟩
  · obtain ⟨call, k₂, h₂, H₂, ht⟩ :=
      warn_spec ("failed to resume listening socket: " ++ e.labelled) s k₁
    exact ⟨_, s, k₂, by simp [resume, h, h₂], .failed hr ht (H.trans H₂)⟩
  · exact ⟨calls, _, k₁, by simp [resume, h], .resumed hr H⟩

/-- An attempt to go on accepting, where it is paused: the calls that are made, and since when
accepting is paused then. -/
inductive Attempt (listener : Fd) : Option Nanoseconds → List Call → Option Nanoseconds → Prop
  | unpaused : Attempt listener none [] none
  | resumed {since : Nanoseconds} {calls : List Call}
    (hr : Registration listener listenerToken .accept (.ok ()) calls) :
    Attempt listener (some since) calls none
  | failed {since : Nanoseconds} {e : Errno} {calls told : List Call}
    (hr : Registration listener listenerToken .accept (.error e) calls)
    (ht : ∀ call ∈ told, call.isMessage) :
    Attempt listener (some since) (calls ++ told) (some since)

namespace Resumes
variable {s s' : Server} {k k' : Kernel} {calls : List Call}

theorem attempt (H : Resumes s k calls s' k') {since : Nanoseconds}
    (hp : s.pausedSince = some since) :
    Attempt s.listener s.pausedSince calls s'.pausedSince := by
  rw [hp]
  cases H with
  | resumed hr => exact .resumed hr
  | failed hr ht =>
    rw [hp]
    exact .failed hr ht.isMessage

theorem unchanged (H : Resumes s k calls s' k') :
    s' = { s with pausedSince := s'.pausedSince } := by cases H <;> rfl

theorem adds (H : Resumes s k calls s' k') : k.Adds calls k' := by
  cases H with
  | resumed _ H => exact H.adds rfl
  | failed _ _ H => exact H.adds rfl

end Resumes

theorem resumeIfPaused_spec (s : Server) (k : Kernel) :
    ∃ calls paused k', resumeIfPaused s k = (((), { s with pausedSince := paused }), k') ∧
      k.Adds calls k' ∧ Attempt s.listener s.pausedSince calls paused := by
  have h : resumeIfPaused s k = (if s.pausedSince.isSome then resume else pure ()) s k := rfl
  cases hp : s.pausedSince with
  | none =>
    refine ⟨[], none, k, ?_, .refl k, .unpaused⟩
    obtain ⟨_, _, _, _, _, paused, _, _⟩ := s
    cases hp
    rfl
  | some since =>
    obtain ⟨calls, s', k', hr, H⟩ := resume_spec s k
    refine ⟨calls, s'.pausedSince, k', ?_, H.adds, hp ▸ H.attempt hp⟩
    rw [h, hp, ← H.unchanged]
    exact hr

/-- Pausing takes the listener off the queue. -/
theorem pause_spec (now : Nanoseconds) (s : Server) (k : Kernel) :
    ∃ deleted told k', pause now s k = (((), { s with pausedSince := some now }), k') ∧
      k.Adds (.delete s.listener deleted :: told) k' ∧ ∀ call ∈ told, call.isMessage := by
  obtain ⟨deleted, k₁, h, H⟩ := deregister_spec s.listener k
  have Hk : k.Adds [.delete s.listener deleted] k₁ := by
    rcases deleted with _ | ⟨⟩ <;> exact H.adds rfl
  cases hf : forgotten deleted with
  | ok => exact ⟨deleted, [], k₁, by simp [pause, h, hf], Hk, List.forall_mem_nil _⟩
  | error e =>
    obtain ⟨call, k₂, h₂, H₂, ht⟩ := warn_spec ("failed to pause listening socket: " ++ e.labelled)
      { s with pausedSince := some now } k₁
    exact ⟨deleted, [call], k₂, by simp [pause, h, hf, h₂],
      Hk.trans (H₂.adds rfl), ht.isMessage⟩

/-! ## Incidents -/

/-- Something that a server does: its calls, and since when accepting is paused before and after
them. -/
inductive Incident (listener : Fd) : Option Nanoseconds → List Call → Option Nanoseconds → Prop
  | aside {paused : Option Nanoseconds} {calls : List Call}
    (h : ∀ call ∈ calls, call.isAside listener) : Incident listener paused calls paused
  | exhausted {paused : Option Nanoseconds} {now : Nanoseconds} {n : Nat} {e : Errno}
    {deleted : Outcome} {told : List Call} (he : e = .EMFILE ∨ e = .ENFILE)
    (ht : ∀ call ∈ told, call.isMessage) :
    Incident listener paused (Sys.interruptions listener n ++
      (.accept listener (.error e) :: .delete listener deleted :: told)) (some now)
  | dismissed {paused paused' : Option Nanoseconds} {fd : Fd} {deleted : Outcome}
    {told calls : List Call} (hfd : fd ≠ listener) (ht : ∀ call ∈ told, call.isMessage)
    (Ha : Attempt listener paused calls paused') :
    Incident listener paused (.delete fd deleted :: (told ++ .close fd :: calls)) paused'
  | retried {since : Nanoseconds} {paused' : Option Nanoseconds} {calls : List Call}
    (Ha : Attempt listener (some since) calls paused') :
    Incident listener (some since) calls paused'

/-- Incidents in a row. -/
inductive Incidents (listener : Fd) : Option Nanoseconds → List Call → Option Nanoseconds → Prop
  | nil {paused : Option Nanoseconds} : Incidents listener paused [] paused
  | cons {paused paused' paused'' : Option Nanoseconds} {calls more : List Call}
    (H : Incident listener paused calls paused') (Hs : Incidents listener paused' more paused'') :
    Incidents listener paused (calls ++ more) paused''

namespace Incidents
variable {listener : Fd} {paused paused' paused'' : Option Nanoseconds} {calls more : List Call}

theorem single (H : Incident listener paused calls paused') :
    Incidents listener paused calls paused' := List.append_nil calls ▸ .cons H .nil

theorem append (H : Incidents listener paused calls paused')
    (H' : Incidents listener paused' more paused'') :
    Incidents listener paused (calls ++ more) paused'' := by
  induction H with
  | nil => exact H'
  | cons H _ ih =>
    rw [List.append_assoc]
    exact .cons H (ih H')

theorem aside (h : ∀ call ∈ calls, call.isAside listener) :
    Incidents listener paused calls paused := .single (.aside h)

/-- A connection is closed after some other calls. -/
theorem leave {fd : Fd} {told : List Call} (deleted : Outcome)
    (hcalls : ∀ call ∈ calls, call.isAside listener) (hfd : fd ≠ listener)
    (ht : ∀ call ∈ told, call.isMessage) (Ha : Attempt listener paused more paused') :
    Incidents listener paused (calls ++ .delete fd deleted :: (told ++ .close fd :: more))
      paused' :=
  (aside hcalls).append (.single (.dismissed hfd ht Ha))

end Incidents

/-- What a step does from `s` is a row of incidents. -/
def Unfolds {α : Type} (f : Serving α) (s : Server) (k : Kernel) : Prop :=
  ∃ calls a s' k', f s k = ((a, s'), k') ∧ s'.listener = s.listener ∧
    k'.trace = k.trace ++ calls.toArray ∧ Incidents s.listener s.pausedSince calls s'.pausedSince

/-- Whether a step always comes to a row of incidents, and leaves what is watched in order. -/
def ByIncidents {α : Type} (f : Serving α) : Prop :=
  ∀ s k, s.Registered k → Unfolds f s k ∧ (f s k).1.2.Registered (f s k).2

/-- Calls that are aside from accepting. -/
theorem Unfolds.aside {α : Type} {f : Serving α} {a : α} {s s' : Server} {k k' : Kernel}
    {calls : List Call} (h : f s k = ((a, s'), k')) (hl : s'.listener = s.listener)
    (hp : s'.pausedSince = s.pausedSince) (Hk : k.Adds calls k')
    (hcalls : ∀ call ∈ calls, call.isAside s.listener) : Unfolds f s k :=
  ⟨calls, a, s', k', h, hl, Hk.trace, hp ▸ .aside hcalls⟩

namespace ByIncidents
variable {α β : Type}

theorem of_goes {f : Serving α} (Hg : ∀ s k, ∃ turns, Goes f turns s k)
    (H : ∀ s k, s.Registered k → Unfolds f s k) : ByIncidents f := fun s k R =>
  ⟨H s k R, (Hg s k).choose_spec.registered R⟩

theorem pure (a : α) : ByIncidents (Pure.pure a) :=
  fun s k R => ⟨⟨[], a, s, k, rfl, rfl, by simp, .nil⟩, R⟩

theorem get : ByIncidents (MonadState.get : Serving Server) :=
  fun s k R => ⟨⟨[], s, s, k, rfl, rfl, by simp, .nil⟩, R⟩

theorem getKernel : ByIncidents (getThe Kernel : Serving Kernel) :=
  fun s k R => ⟨⟨[], k, s, k, rfl, rfl, by simp, .nil⟩, R⟩

theorem bind {f : Serving α} {g : α → Serving β} (H : ByIncidents f)
    (H' : ∀ a, ByIncidents (g a)) : ByIncidents (f >>= g) := by
  intro s k R
  obtain ⟨⟨calls, a, s', k', h, hl, htrace, Hi⟩, R'⟩ := H s k R
  rw [h] at R'
  obtain ⟨⟨more, b, s'', k'', h', hl', htrace', Hi'⟩, R''⟩ := H' a s' k' R'
  have hrun : (f >>= g) s k = g a s' k' := by rw [Serving.bind_apply, h]
  rw [hrun]
  refine ⟨⟨calls ++ more, b, s'', k'', hrun.trans h', hl'.trans hl, ?_, ?_⟩, R''⟩
  · rw [htrace', htrace]
    simp
  · rw [hl] at Hi'
    exact Hi.append Hi'

theorem forM {f : α → Serving Unit} (H : ∀ a, ByIncidents (f a)) (as : List α) :
    ByIncidents (as.forM f) := by
  induction as with
  | nil => exact pure ()
  | cons a as ih => exact (H a).bind fun _ => ih

theorem info (message : String) : ByIncidents (Server.info message) := fun s k R => by
  obtain ⟨call, k', h, H, ht⟩ := info_spec message s k
  refine ⟨.aside h rfl rfl (H.adds rfl) ht.aside, ?_⟩
  rw [h]
  exact R.extend H

/-- A connection is closed, and accepting may go on. -/
theorem leave {f : Serving Unit} {s : Server} {k k₁ : Kernel} {token : Token} {c last : Connection}
    {seconds zone : Int} {closing : List Call} (R : s.Registered k)
    (hc : s.connections.get? token = some c) (hlast : last.socket = c.socket)
    (Hc : Closing s.log seconds zone last closing) (Hk : k.Adds closing k₁)
    (h : f s k = resumeIfPaused { s with connections := s.connections.erase token } k₁) :
    Unfolds f s k := by
  obtain ⟨calls, paused, k', h', Hr, Ha⟩ :=
    resumeIfPaused_spec { s with connections := s.connections.erase token } k₁
  refine ⟨_, (), _, k', h.trans h', rfl, (Hk.trans Hr).trace, ?_⟩
  obtain @⟨deleted, told, ht⟩ := Hc
  have hfd : last.socket ≠ s.listener := hlast ▸ R.ne_listener hc
  simpa using Incidents.leave deleted (List.forall_mem_nil _) hfd ht.isMessage Ha

theorem close (token : Token) (seconds : Int) : ByIncidents (Server.close token seconds) := by
  refine of_goes (fun s k => ⟨[], close_goes token seconds s k⟩) fun s k R => ?_
  cases hc : s.connections.get? token with
  | none => exact ⟨[], (), s, k, close_gone hc seconds k, rfl, by simp, .nil⟩
  | some c =>
    obtain ⟨closing, k₁, Hc, H, h⟩ := close_spec hc seconds k
    exact leave R hc rfl Hc (H.adds rfl) h

theorem abandon (token : Token) : ByIncidents (Server.abandon token) := by
  refine of_goes (fun s k => ⟨[], abandon_goes token s k⟩) fun s k R => ?_
  cases hc : s.connections.get? token with
  | none => exact ⟨[], (), s, k, abandon_gone hc k, rfl, by simp, .nil⟩
  | some c =>
    obtain ⟨closing, k₁, Hc, H, h⟩ := abandon_spec hc k
    have hlast : c.fail.socket = c.socket := rfl
    exact leave R hc hlast Hc (H.adds rfl) h

end ByIncidents

/-! ## Events -/

/-- An event that a connection takes: what it does, what its verdict leads to, and the attempt to
go on accepting if it leaves. -/
theorem handle_cut {s : Server} {event : Event} {c : Connection}
    (hc : s.connections.get? event.token = some c) (now : Nanoseconds) (k : Kernel) :
    ∃ ops verdict c' stats k₁ s₁ calls stays k₂ attempt s' k',
      c.Handles event.conditions k.files s.config.indexPath now s.stats ops verdict c' stats ∧
      Concludes s₁ k₁ event.token c' verdict calls stays k₂ ∧
      handle event now s k = (((), s'), k') ∧
      k.Adds (ops.map (.operation c.socket) ++ calls ++ attempt) k' ∧
      s'.listener = s.listener ∧
      s'.connections.get? event.token = (if stays then some c' else none) ∧
      if stays then attempt = [] ∧ s'.pausedSince = s.pausedSince
      else Attempt s.listener s.pausedSince attempt s'.pausedSince := by
  obtain ⟨ops, verdict, c', stats, k₁, h, Hh, H⟩ :=
    exchange_handles c event.conditions s.config.indexPath now s.stats k
  obtain ⟨s₁, hs₁⟩ : ∃ s₁ : Server, s₁ = { s with
    stats := stats, connections := s.connections.insert event.token c' } := ⟨_, rfl⟩
  have hc' : s₁.connections.get? event.token = some c' := by simp [hs₁]
  obtain ⟨calls, stays, k₂, Hc, hconclude⟩ := conclude_spec hc' verdict k₁
  have Hops : k.Adds (ops.map (.operation c.socket)) k₁ := H.adds rfl
  have hrun : handle event now s k = conclude event.token c' verdict s₁ k₁ := by
    rw [handle_eq hc h, hs₁]
  have Hk := Hops.trans Hc.adds
  cases stays with
  | true =>
    refine ⟨ops, verdict, c', stats, k₁, s₁, calls, true, k₂, [], s₁, k₂, Hh, Hc,
      hrun.trans hconclude, (List.append_nil _).symm ▸ Hk, ?_, hc', rfl, ?_⟩ <;> rw [hs₁]
  | false =>
    obtain ⟨attempt, paused, k', h', Hr, Ha⟩ := resumeIfPaused_spec
      { s₁ with connections := s₁.connections.erase event.token } k₂
    refine ⟨ops, verdict, c', stats, k₁, s₁, calls, false, k₂, attempt, _, k', Hh, Hc,
      (hrun.trans hconclude).trans h', Hk.trans Hr, ?_, by simp, ?_⟩
    · rw [hs₁]
    · simpa [hs₁] using Ha

theorem Ending.aside {log : LogSink} {token : Token} {c last : Connection} {verdict : Verdict}
    {ending : List Call} {listener : Fd} (H : Ending log token c verdict ending last)
    (hfd : c.socket ≠ listener) : ∀ call ∈ ending, call.isAside listener := by
  cases H with
  | close => exact List.forall_mem_nil _
  | fail ht => exact ht.aside
  | rearm ht => exact List.forall_mem_cons.2 ⟨by simp [Call.isAside, hfd], ht.aside⟩

namespace ByIncidents

theorem handle {event : Event} (he : event.token ≠ listenerToken) (now : Nanoseconds) :
    ByIncidents (Server.handle event now) := by
  refine of_goes (fun s k => ⟨_, handle_goes now he s k⟩) fun s k R => ?_
  cases hc : s.connections.get? event.token with
  | none => exact ⟨[], (), s, k, handle_gone hc now k, rfl, by simp, .nil⟩
  | some c =>
    obtain ⟨ops, verdict, c', stats, k₁, s₁, calls, stays, k₂, attempt, s', k', Hh, Hc, h, Hk, hl,
      -, Ha⟩ := handle_cut hc now k
    have hfd := R.ne_listener hc
    have hops := isAside_operations s.listener c.socket ops
    refine ⟨_, (), s', k', h, hl, Hk.trace, ?_⟩
    cases Hc with
    | wait =>
      obtain ⟨rfl, hp⟩ := Ha
      rw [hp]
      simpa using Incidents.aside hops
    | rearm =>
      obtain ⟨rfl, hp⟩ := Ha
      have hmodify : (Call.modify c'.socket event.token c'.interest.conditions
          (.ok ())).isAside s.listener := by simp [Call.isAside, Hh.socket, hfd]
      rw [hp, List.append_nil]
      exact .aside (List.forall_mem_append.2 ⟨hops, List.forall_mem_singleton.2 hmodify⟩)
    | finish He Hclosing H =>
      obtain @⟨deleted, told, ht⟩ := Hclosing
      have hsocket := He.life.1.trans Hh.socket
      have hending := He.aside (Hh.socket.symm ▸ hfd)
      have Hrow := Incidents.leave deleted (List.forall_mem_append.2 ⟨hops, hending⟩)
        (hsocket.symm ▸ hfd) ht.isMessage Ha
      simpa using Hrow

end ByIncidents

/-! ## Accepting -/

namespace Adopts
variable {s s' : Server} {k k' : Kernel} {now : Nanoseconds} {fd : Fd} {peer : Net.Endpoint}
variable {calls : List Call}

theorem kept (H : Adopts s k now fd peer calls s' k') :
    s'.listener = s.listener ∧ s'.pausedSince = s.pausedSince := by
  cases H <;> exact ⟨rfl, rfl⟩

theorem aside (H : Adopts s k now fd peer calls s' k') (hfd : fd ≠ s.listener) :
    ∀ call ∈ calls, call.isAside s.listener := by
  have hclose : ∀ call ∈ [Call.close fd], call.isAside s.listener :=
    List.forall_mem_singleton.2 rfl
  cases H with
  | registered hr => exact List.forall_mem_cons.2 ⟨rfl, hr.aside hfd⟩
  | blocking ht =>
    exact List.forall_mem_cons.2 ⟨rfl, List.forall_mem_append.2 ⟨ht.aside, hclose⟩⟩
  | unregistered hr ht =>
    exact List.forall_mem_cons.2 ⟨rfl, List.forall_mem_append.2 ⟨List.forall_mem_append.2
      ⟨hr.aside hfd, ht.aside⟩, hclose⟩⟩

end Adopts

/-- A failure to accept that says nothing about descriptors leads to a message at most. -/
theorem accept_eq_warn {s : Server} {k k₁ : Kernel} {e : Errno}
    (h : Sys.accept s.listener k = (.error e, k₁)) (he : e ≠ .EAGAIN)
    (hp : ¬(e = .EMFILE ∨ e = .ENFILE)) (now : Nanoseconds) :
    Server.accept now s k = Server.warn ("accept() failed: " ++ e.numbered) s k₁ := by
  simp only [Server.accept, Serving.bind_apply, Serving.get_apply, Serving.lift_apply, h, hp]
  cases e <;> first | contradiction | rfl

namespace ByIncidents

theorem accept (now : Nanoseconds) : ByIncidents (Server.accept now) := by
  refine of_goes (fun s k => ⟨[], accept_goes now s k⟩) fun s k R => ?_
  obtain ⟨r, k₁, h, H⟩ := Sys.accept_spec s.listener k
  cases H with
  | @failed n e _ H =>
    have Hk : k.Adds _ k₁ := H.adds rfl
    by_cases hp : e = .EMFILE ∨ e = .ENFILE
    · obtain ⟨deleted, told, k₂, h₂, H₂, ht₂⟩ := pause_spec now s k₁
      obtain ⟨call, k₃, h₃, H₃, ht₃⟩ :=
        warn_spec ("accept() failed: " ++ e.numbered) { s with pausedSince := some now } k₂
      have hrun : Server.accept now s k = (((), { s with pausedSince := some now }), k₃) := by
        rcases hp with rfl | rfl <;> simp [Server.accept, h, h₂, h₃]
      have Hi : Incident s.listener s.pausedSince (Sys.interruptions s.listener n ++
          (.accept s.listener (.error e) :: .delete s.listener deleted :: (told ++ [call])))
          (some now) :=
        .exhausted hp (List.forall_mem_append.2 ⟨ht₂, ht₃.isMessage⟩)
      have Hk' := (Hk.trans H₂).trans (H₃.adds rfl)
      refine ⟨_, (), _, k₃, hrun, rfl, Hk'.trace, ?_⟩
      simpa using Incidents.single Hi
    · have hcalls : ∀ call ∈ Sys.interruptions s.listener n ++ [.accept s.listener (.error e)],
          call.isAside s.listener := by
        refine List.forall_mem_append.2
          ⟨isAside_interruptions s.listener n, List.forall_mem_singleton.2 ?_⟩
        simpa [Call.isAside, not_or] using hp
      by_cases he : e = .EAGAIN
      · subst he
        have hrun : Server.accept now s k = (((), s), k₁) := by simp [Server.accept, h]
        exact .aside hrun rfl rfl Hk hcalls
      · obtain ⟨call, k₂, h₂, H₂, ht₂⟩ := warn_spec ("accept() failed: " ++ e.numbered) s k₁
        have hrun := (accept_eq_warn h he hp now).trans h₂
        exact .aside hrun rfl rfl (Hk.trans (H₂.adds rfl))
          (List.forall_mem_append.2 ⟨hcalls, ht₂.aside⟩)
  | @opened n fd peer resource _ hfree H =>
    obtain ⟨calls, s', k', hadopt, Ha⟩ := adopt_spec now fd peer s k₁
    have Hk : k.Adds _ k₁ := H.adds rfl
    have hrun : Server.accept now s k = (((), s'), k') := by simp [Server.accept, h, hadopt]
    refine .aside hrun Ha.kept.1 Ha.kept.2 (Hk.trans Ha.adds) (List.forall_mem_append.2
      ⟨List.forall_mem_append.2 ⟨isAside_interruptions s.listener n, ?_⟩,
        Ha.aside (R.ne_of_free hfree)⟩)
    exact List.forall_mem_singleton.2 rfl

theorem dispatch (now : Nanoseconds) (event : Event) : ByIncidents (Server.dispatch now event) := by
  by_cases he : event.token = listenerToken
  · exact dispatch_eq_accept he now ▸ accept now
  · exact dispatch_eq_handle he now ▸ handle he now

theorem evictIdle (now : Nanoseconds) : ByIncidents (Server.evictIdle now) :=
  get.bind fun s => by
    split
    · exact pure ()
    · exact getKernel.bind fun _ => forM abandon _

theorem retryAccepting (now : Nanoseconds) : ByIncidents (Server.retryAccepting now) := by
  refine of_goes (fun s k => ⟨[], retryAccepting_goes now s k⟩) fun s k _ => ?_
  rcases retryAccepting_cases now s with ⟨hp, h⟩ | h
  · obtain ⟨since, hp⟩ := Option.isSome_iff_exists.1 hp
    obtain ⟨calls, s', k', h', H⟩ := resume_spec s k
    have hl : s'.listener = s.listener := (congrArg listener H.unchanged :)
    exact ⟨calls, (), s', k', (h k).trans h', hl, H.adds.trace,
      .single (hp ▸ .retried (hp ▸ H.attempt hp))⟩
  · exact ⟨[], (), s, k, h k, rfl, by simp, .nil⟩

/-- Asking something of the kernel. -/
theorem lift {α : Type} {x : Sys α} (H : ∀ k, ∃ a k', x k = (a, k') ∧ k.Extends [] k') :
    ByIncidents (liftM x : Serving α) := by
  intro s k R
  obtain ⟨a, k', h, He⟩ := H k
  have hrun : (liftM x : Serving α) s k = ((a, s), k') := by simp [h]
  refine ⟨.aside hrun rfl rfl (He.adds rfl) (List.forall_mem_nil _), ?_⟩
  rw [hrun]
  exact R.extend He

theorem announce : ByIncidents Server.announce :=
  get.bind fun s => getKernel.bind fun k =>
    (lift (Sys.localAddress_spec s.listener)).bind fun r => by
      split <;> exact info _

theorem logStats : ByIncidents Server.logStats :=
  (lift Sys.usage_spec).bind fun r => by
    split
    · exact pure _
    · exact get.bind fun s => (info _).bind fun _ => (info _).bind fun _ =>
        (info _).bind fun _ => pure _

theorem complain (e : ServeError) : ByIncidents (Act.complain e).run := by
  refine of_goes (fun s k => ⟨[], complain_goes e s k⟩) fun s k _ => ?_
  obtain ⟨call, k', h, H, ht⟩ := s.log.write_spec .error e.chain.oneLine k
  have hrun : (Act.complain e).run s k = (((), s), k') := by simp [Act.run, LogSink.error, h]
  exact .aside hrun rfl rfl (H.adds rfl) ht.aside

theorem wait (timeout : Option Nanoseconds) (round? : Option Round) :
    ByIncidents (Act.wait timeout round?).run := by
  refine of_goes (fun s k => ⟨_, (Act.wait timeout round?).goes s k⟩) fun s k _ => ?_
  obtain ⟨r, k', h, H⟩ := Sys.wait_spec EventQueue.capacity
    (EventQueue.timeoutArgument timeout) round? k
  have hrun : (Act.wait timeout round?).run s k = (((), s), k') := by
    simp [Act.run, EventQueue.wait, h]
  refine ⟨_, (), s, k', hrun, rfl, H.trace.trans (Array.push_eq_append ..), .aside ?_⟩
  exact List.forall_mem_singleton.2 rfl

theorem act (a : Act) : ByIncidents a.run := by
  cases a with
  | announce => exact announce
  | wait timeout round? => exact wait timeout round?
  | dispatch now event => exact dispatch now event
  | evictIdle now => exact evictIdle now
  | retryAccepting now => exact retryAccepting now
  | close token seconds => exact close token seconds
  | logStats => exact logStats.bind fun _ => pure _
  | complain e => exact complain e

end ByIncidents

end Server

end OnePage
