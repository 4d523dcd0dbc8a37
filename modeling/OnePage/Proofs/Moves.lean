import OnePage.Proofs.Handling
import OnePage.Proofs.Run

/-! # Moves of a server

Every act of a server is a row of moves (`Server.Moves`), each of which leads from one coherent
state to the next: a connection comes in whole, with its descriptor, its registration and its place
in the table, and goes in the same way. All that can fail on the way is in the constructors of
`Server.Move`, so an invariant is shown by one case for each of them. A move is labelled with what
happens in it. -/

namespace OnePage

namespace Server
open EventQueue

/-- What the log is told of a connection while it is closed, `seconds` after the start of 1970. -/
def farewell (c : Connection) (seconds zone : Int) (deleted : Outcome) : List (Severity × String) :=
  (match forgotten deleted with
    | .ok () => []
    | .error e => [(.warning, "failed to deregister " ++ c.peer.text ++ ": " ++ e.labelled)]) ++
  ((Log.accessLine c seconds zone).map (.info, ·)).toList

/-- The calls that close a connection: its registration ends, and nothing but messages comes
between that and the end of its socket. -/
inductive Closing (log : LogSink) (seconds zone : Int) (c : Connection) : List Call → Prop
  | mk {deleted : Outcome} {told : List Call}
    (ht : log.Tells (farewell c seconds zone deleted) told) :
    Closing log seconds zone c (.delete c.socket deleted :: (told ++ [.close c.socket]))

/-- The calls that lead from a verdict to the closing of a connection, and how its record is
then. -/
inductive Ending (log : LogSink) (token : Token) (c : Connection) :
    Verdict → List Call → Connection → Prop
  | close : Ending log token c .close [] c
  | fail {cause : ConnectionError} {told : List Call}
    (ht : log.Tells [(.warning, c.peer.text ++ ": " ++ cause.chain.oneLine)] told) :
    Ending log token c (.fail cause) told c.fail
  | rearm {e : Errno} {told : List Call}
    (ht : log.Tells
      [(.warning, "failed to re-register " ++ c.peer.text ++ ": " ++ e.labelled)] told) :
    Ending log token c .rearm
      (.modify c.socket token c.interest.conditions (.error e) :: told) c.fail

/-- A move from one state of a server and its kernel to another, and what happens in it. -/
inductive Move : Server → Kernel → List Occurrence → Server → Kernel → Prop
  | tell {s : Server} {k k' : Kernel} {messages : List (Severity × String)} {calls : List Call}
    (ht : s.log.Tells messages calls) (H : k.Extends calls k')
    (hp : ∀ message ∈ messages, LogSink.Plain message) : Move s k (calls.map .call) s k'
  | wait {s : Server} {k k' : Kernel} {capacity : Nat} {timeout : Int} {result : Except Errno Nat}
    {calls : List Call} (hc : calls = [.wait capacity timeout result])
    (H : Sys.Waited k (.wait capacity timeout result) k') : Move s k (calls.map .call) s k'
  | unaccepted {s : Server} {k k' : Kernel} {n : Nat} {e : Errno} {calls : List Call}
    (hc : calls = Sys.interruptions s.listener n ++ [.accept s.listener (.error e)])
    (H : k.Extends calls k') : Move s k (calls.map .call) s k'
  | pause {s : Server} {k k' : Kernel} {now : Nanoseconds} {deleted : Outcome} {calls : List Call}
    (hc : calls = [.delete s.listener deleted])
    (H : (k.onSuccess deleted (·.unwatch s.listener)).Extends calls k') :
    Move s k (calls.map .call) { s with pausedSince := some now } k'
  | resume {s : Server} {k k' : Kernel} {calls : List Call}
    (hc : Registration s.listener listenerToken .accept (.ok ()) calls)
    (H : (k.watch s.listener ⟨listenerToken, Interest.accept.conditions⟩).Extends calls k') :
    Move s k (calls.map .call) { s with pausedSince := none } k'
  | unresumed {s : Server} {k k' : Kernel} {e : Errno} {calls : List Call}
    (hc : Registration s.listener listenerToken .accept (.error e) calls)
    (H : k.Extends calls k') : Move s k (calls.map .call) s k'
  | adopt {s : Server} {k k' : Kernel} {n : Nat} {fd : Fd} {peer : Net.Endpoint}
    {resource : Resource} {now : Nanoseconds} {registering calls : List Call}
    (hfree : k.descriptors.get? fd = none)
    (hr : Registration fd s.nextToken .read (.ok ()) registering)
    (hc : calls = Sys.interruptions s.listener n ++ .accept s.listener (.ok fd) ::
      .setNonblocking fd (.ok ()) :: registering)
    (H : ((k.opened fd resource).watch fd ⟨s.nextToken, Interest.read.conditions⟩).Extends calls
      k') :
    Move s k (calls.map .call)
      { s with
        nextToken := s.nextToken + 1
        stats := s.stats.addConnection
        connections := s.connections.insert s.nextToken (Connection.new now fd peer) } k'
  | refuse {s : Server} {k k' : Kernel} {n : Nat} {fd : Fd} {peer : Net.Endpoint} {e : Errno}
    {told calls : List Call} (hfree : k.descriptors.get? fd = none)
    (ht : s.log.Tells
      [(.warning, "failed to make connection from " ++ peer.text ++ " non-blocking: " ++
        e.numbered)] told)
    (hc : calls = Sys.interruptions s.listener n ++ .accept s.listener (.ok fd) ::
      .setNonblocking fd (.error e) :: (told ++ [.close fd]))
    (H : (k.unwatch fd).Extends calls k') : Move s k (calls.map .call) s k'
  | unregistered {s : Server} {k k' : Kernel} {n : Nat} {fd : Fd} {peer : Net.Endpoint} {e : Errno}
    {registering told calls : List Call} (hfree : k.descriptors.get? fd = none)
    (hr : Registration fd s.nextToken .read (.error e) registering)
    (ht : s.log.Tells
      [(.warning, "failed to register connection from " ++ peer.text ++ ": " ++ e.labelled)] told)
    (hc : calls = Sys.interruptions s.listener n ++ .accept s.listener (.ok fd) ::
      .setNonblocking fd (.ok ()) :: (registering ++ told ++ [.close fd]))
    (H : (k.unwatch fd).Extends calls k') :
    Move s k (calls.map .call) { s with nextToken := s.nextToken + 1 } k'
  | stay {s : Server} {k k' : Kernel} {token : Token} {c c' : Connection} {ready : Conditions}
    {now : Nanoseconds} {ops : List Operation} {stats : Stats} {calls : List Call}
    (ht : s.connections.get? token = some c)
    (Hh : c.Handles ready k.files s.config.indexPath now s.stats ops .wait c' stats)
    (hc : calls = ops.map (.operation c.socket)) (H : k.Extends calls k') :
    Move s k (.turn ⟨c, ready, k.files, now, .wait, c'⟩ :: calls.map .call)
      { s with stats := stats, connections := s.connections.insert token c' } k'
  | rearm {s : Server} {k k' : Kernel} {token : Token} {c c' : Connection} {ready : Conditions}
    {now : Nanoseconds} {ops : List Operation} {stats : Stats} {calls : List Call}
    (ht : s.connections.get? token = some c)
    (Hh : c.Handles ready k.files s.config.indexPath now s.stats ops .rearm c' stats)
    (hc : calls = ops.map (.operation c.socket) ++
      [.modify c.socket token c'.interest.conditions (.ok ())])
    (H : (k.watch c.socket ⟨token, c'.interest.conditions⟩).Extends calls k') :
    Move s k (.turn ⟨c, ready, k.files, now, .rearm, c'⟩ :: calls.map .call)
      { s with stats := stats, connections := s.connections.insert token c' } k'
  | finish {s : Server} {k k' : Kernel} {token : Token} {c c' last : Connection}
    {ready : Conditions} {now : Nanoseconds} {ops : List Operation} {verdict : Verdict}
    {stats : Stats} {ending closing calls : List Call} {seconds : Int}
    (ht : s.connections.get? token = some c)
    (Hh : c.Handles ready k.files s.config.indexPath now s.stats ops verdict c' stats)
    (He : Ending s.log token c' verdict ending last)
    (Hc : Closing s.log seconds k.zone last closing)
    (hc : calls = ops.map (.operation c.socket) ++ ending ++ closing)
    (H : (k.closed c.socket).Extends calls k') :
    Move s k (.turn ⟨c, ready, k.files, now, verdict, c'⟩ :: calls.map .call)
      { s with stats := stats, connections := s.connections.erase token } k'
  | close {s : Server} {k k' : Kernel} {token : Token} {c last : Connection} {calls : List Call}
    {seconds : Int} (ht : s.connections.get? token = some c) (hl : last = c ∨ last = c.fail)
    (Hc : Closing s.log seconds k.zone last calls) (H : (k.closed c.socket).Extends calls k') :
    Move s k (calls.map .call) { s with connections := s.connections.erase token } k'

/-- Moves in a row. -/
inductive Moves : Server → Kernel → List Occurrence → Server → Kernel → Prop
  | nil {s : Server} {k : Kernel} : Moves s k [] s k
  | cons {s s' s'' : Server} {k k' k'' : Kernel} {new more : List Occurrence}
    (H : Move s k new s' k') (Hs : Moves s' k' more s'' k'') : Moves s k (new ++ more) s'' k''

namespace Moves
variable {s s' s'' : Server} {k k' k'' : Kernel} {new more : List Occurrence}

theorem single (H : Move s k new s' k') : Moves s k new s' k' :=
  List.append_nil new ▸ .cons H .nil

theorem append (H : Moves s k new s' k') (H' : Moves s' k' more s'' k'') :
    Moves s k (new ++ more) s'' k'' := by
  induction H with
  | nil => exact H'
  | cons H _ ih => rw [List.append_assoc]; exact .cons H (ih H')

/-- Nothing changes what a server is made with. -/
theorem made (H : Moves s k new s' k') : s'.config = s.config ∧ s'.log = s.log := by
  induction H with
  | nil => exact ⟨rfl, rfl⟩
  | cons H _ ih => refine ⟨ih.1.trans ?_, ih.2.trans ?_⟩ <;> cases H <;> rfl

end Moves

/-! ## Acts go by moves -/

/-- `f` goes by moves, in which `turns` are followed by nothing but calls. -/
def Goes {α : Type} (f : Serving α) (turns : List Turn) (s : Server) (k : Kernel) : Prop :=
  ∃ calls a s' k', f s k = ((a, s'), k') ∧
    Moves s k (turns.map .turn ++ List.map .call calls) s' k'

namespace Goes
variable {α β : Type} {f : Serving α} {s s' : Server} {k k' : Kernel} {turns : List Turn}

theorem congr {g : Serving α} (h : f s k = g s k) (H : Goes g turns s k) : Goes f turns s k := by
  unfold Goes
  rw [h]
  exact H

theorem pure (a : α) (s : Server) (k : Kernel) : Goes (Pure.pure a) [] s k :=
  ⟨[], a, s, k, rfl, .nil⟩

theorem bind {g : α → Serving β} (H : Goes f turns s k) (H' : ∀ a s k, Goes (g a) [] s k) :
    Goes (f >>= g) turns s k := by
  obtain ⟨calls, a, s', k', h, Hs⟩ := H
  obtain ⟨calls', b, s'', k'', h', Hs'⟩ := H' a s' k'
  refine ⟨calls ++ calls', b, s'', k'', by simp [h, h'], ?_⟩
  rw [List.map_append, ← List.append_assoc]
  exact Hs.append Hs'

/-- One move, after which `f` is left to do what `g` does. -/
theorem of_move {g : Serving α} {calls : List Call} (h : f s k = g s' k')
    (H : Move s k (turns.map .turn ++ calls.map .call) s' k') (H' : Goes g [] s' k') :
    Goes f turns s k := by
  obtain ⟨calls', a, s'', k'', h', Hs'⟩ := H'
  refine ⟨calls ++ calls', a, s'', k'', h.trans h', ?_⟩
  rw [List.map_append, ← List.append_assoc]
  exact (Moves.single H).append Hs'

theorem forM {f : α → Serving Unit} (H : ∀ a s k, Goes (f a) [] s k) (as : List α) (s : Server)
    (k : Kernel) : Goes (as.forM f) [] s k := by
  induction as generalizing s k with
  | nil => exact pure () s k
  | cons a as ih => exact (H a s k).bind fun _ => ih

end Goes

theorem warn_goes (message : String) (s : Server) (k : Kernel) : Goes (warn message) [] s k := by
  obtain ⟨call, k', h, H, Ht⟩ := warn_spec message s k
  have hp := List.forall_mem_singleton.2 (LogSink.Plain.warning message)
  exact .of_move (g := Pure.pure ()) h (.tell Ht H hp) (.pure ..)

theorem info_goes {message : String} (hp : LogSink.Plain (.info, message)) (s : Server)
    (k : Kernel) : Goes (info message) [] s k := by
  obtain ⟨call, k', h, H, Ht⟩ := info_spec message s k
  exact .of_move (g := Pure.pure ()) h (.tell Ht H (List.forall_mem_singleton.2 hp)) (.pure ..)

theorem resume_goes (s : Server) (k : Kernel) : Goes resume [] s k := by
  obtain ⟨r, calls, k₁, h, hr, H⟩ := register_spec s.listener listenerToken .accept k
  rcases r with e | ⟨⟩
  · have h : resume s k = warn ("failed to resume listening socket: " ++ e.labelled) s k₁ := by
      simp [resume, h]
    exact .of_move h (.unresumed hr H) (warn_goes ..)
  · have h : resume s k = (((), { s with pausedSince := none }), k₁) := by simp [resume, h]
    exact .of_move (g := pure ()) h (.resume hr H) (.pure ..)

theorem pause_goes (now : Nanoseconds) (s : Server) (k : Kernel) : Goes (pause now) [] s k := by
  obtain ⟨deleted, k₁, h, H⟩ := deregister_spec s.listener k
  have h : pause now s k = (match forgotten deleted with
      | .ok () => pure ()
      | .error e => warn ("failed to pause listening socket: " ++ e.labelled) : Serving Unit)
      { s with pausedSince := some now } k₁ := by
    cases hf : forgotten deleted <;> simp [pause, h, hf]
  refine .of_move h (.pause rfl H) ?_
  split
  · exact .pure ..
  · exact warn_goes ..

/-- What becomes of a socket that has just been accepted, and the calls that are made for it. -/
inductive Adopts (s : Server) (k : Kernel) (now : Nanoseconds) (fd : Fd) (peer : Net.Endpoint) :
    List Call → Server → Kernel → Prop
  | registered {calls : List Call} {k' : Kernel}
    (hr : Registration fd s.nextToken .read (.ok ()) calls)
    (H : (k.watch fd ⟨s.nextToken, Interest.read.conditions⟩).Extends
      (.setNonblocking fd (.ok ()) :: calls) k') :
    Adopts s k now fd peer (.setNonblocking fd (.ok ()) :: calls)
      { s with
        nextToken := s.nextToken + 1
        stats := s.stats.addConnection
        connections := s.connections.insert s.nextToken (Connection.new now fd peer) } k'
  | blocking {e : Errno} {told : List Call} {k' : Kernel}
    (ht : s.log.Tells
      [(.warning, "failed to make connection from " ++ peer.text ++ " non-blocking: " ++
        e.numbered)] told)
    (H : (k.closed fd).Extends (.setNonblocking fd (.error e) :: (told ++ [.close fd])) k') :
    Adopts s k now fd peer (.setNonblocking fd (.error e) :: (told ++ [.close fd])) s k'
  | unregistered {e : Errno} {calls told : List Call} {k' : Kernel}
    (hr : Registration fd s.nextToken .read (.error e) calls)
    (ht : s.log.Tells
      [(.warning, "failed to register connection from " ++ peer.text ++ ": " ++ e.labelled)] told)
    (H : (k.closed fd).Extends
      (.setNonblocking fd (.ok ()) :: (calls ++ told ++ [.close fd])) k') :
    Adopts s k now fd peer (.setNonblocking fd (.ok ()) :: (calls ++ told ++ [.close fd]))
      { s with nextToken := s.nextToken + 1 } k'

theorem adopt_spec (now : Nanoseconds) (fd : Fd) (peer : Net.Endpoint) (s : Server) (k : Kernel) :
    ∃ calls s' k', adopt now fd peer s k = (((), s'), k') ∧
      Adopts s k now fd peer calls s' k' := by
  obtain ⟨nonblocking, k₁, h₁, H₁⟩ := Sys.setNonblocking_spec fd k
  rcases nonblocking with e | ⟨⟩
  · obtain ⟨call, k₂, h₂, H₂, ht⟩ := warn_spec ("failed to make connection from " ++ peer.text ++
      " non-blocking: " ++ e.numbered) s k₁
    obtain ⟨r, k₃, h₃, H₃⟩ := Sys.close_spec fd k₂
    exact ⟨_, s, k₃, by simp [adopt, h₁, h₂, h₃],
      .blocking ht (((H₁.trans H₂).closed fd).trans H₃)⟩
  · obtain ⟨r, calls, k₂, h₂, hr, H₂⟩ := register_spec fd s.nextToken .read k₁
    rcases r with e | ⟨⟩
    · obtain ⟨call, k₃, h₃, H₃, ht⟩ := warn_spec ("failed to register connection from " ++
        peer.text ++ ": " ++ e.labelled) { s with nextToken := s.nextToken + 1 } k₂
      obtain ⟨r, k₄, h₄, H₄⟩ := Sys.close_spec fd k₃
      refine ⟨_, _, k₄, by simp [adopt, h₁, h₂, h₃, h₄], .unregistered hr ht ?_⟩
      exact (((H₁.trans H₂).trans H₃).closed fd).trans H₄
    · exact ⟨_, _, k₂, by simp [adopt, h₁, h₂], .registered hr ((H₁.watch fd _).trans H₂)⟩

/-- Adopting what has just been accepted completes the move that accepting began. -/
theorem Adopts.move {n : Nat} {fd : Fd} {peer : Net.Endpoint} {resource : Resource}
    {s s' : Server} {k k₁ k' : Kernel} {now : Nanoseconds} {calls : List Call}
    (Ha : Adopts s k₁ now fd peer calls s' k') (hfree : k.descriptors.get? fd = none)
    (H : (k.opened fd resource).Extends
      (Sys.interruptions s.listener n ++ [.accept s.listener (.ok fd)]) k₁) :
    Move s k ((Sys.interruptions s.listener n ++
      .accept s.listener (.ok fd) :: calls).map .call) s' k' := by
  have hclosed := H.closed fd
  rw [Kernel.closed_opened hfree] at hclosed
  rw [List.append_cons]
  cases Ha with
  | registered hr Ha =>
    exact .adopt hfree hr (List.append_cons ..).symm ((H.watch fd _).trans Ha)
  | blocking ht Ha => exact .refuse hfree ht (List.append_cons ..).symm (hclosed.trans Ha)
  | unregistered hr ht Ha =>
    exact .unregistered hfree hr ht (List.append_cons ..).symm (hclosed.trans Ha)

theorem accept_goes (now : Nanoseconds) (s : Server) (k : Kernel) :
    Goes (accept now) [] s k := by
  obtain ⟨r, k₁, h, H⟩ := Sys.accept_spec s.listener k
  cases H with
  | @failed n e _ H =>
    have Hm : Move s k _ s k₁ := .unaccepted rfl H
    by_cases he : e = .EAGAIN
    · subst he
      have h : accept now s k = (((), s), k₁) := by simp [accept, h]
      exact .of_move (g := pure ()) h Hm (.pure ..)
    · by_cases hp : e = .EMFILE ∨ e = .ENFILE
      · have h : accept now s k =
            (pause now >>= fun _ => warn ("accept() failed: " ++ e.numbered)) s k₁ := by
          rcases hp with rfl | rfl <;> simp [accept, h]
        exact .of_move h Hm ((pause_goes ..).bind fun _ s k => warn_goes _ s k)
      · have h : accept now s k = warn ("accept() failed: " ++ e.numbered) s k₁ := by
          simp only [accept, Serving.bind_apply, Serving.get_apply, Serving.lift_apply, h, hp]
          cases e <;> rfl
        exact .of_move h Hm (warn_goes ..)
  | @opened n fd peer resource _ hfree H =>
    obtain ⟨calls, s', k', h', H'⟩ := adopt_spec now fd peer s k₁
    have h : accept now s k = (((), s'), k') := by simp [accept, h, h']
    exact .of_move (g := pure ()) h (H'.move hfree H) (.pure ..)

/-! ## Closing a connection -/

/-- What is left to do once a descriptor is free. -/
def resumeIfPaused : Serving Unit := do
  if (← get).pausedSince.isSome then resume

theorem resumeIfPaused_goes (s : Server) (k : Kernel) : Goes resumeIfPaused [] s k := by
  have h : resumeIfPaused s k = (if s.pausedSince.isSome then resume else pure ()) s k := rfl
  refine .congr h ?_
  split
  · exact resume_goes s k
  · exact .pure ..

theorem logAccess_spec (c : Connection) (seconds : Int) (s : Server) (k : Kernel) :
    ∃ calls k', logAccess c seconds s k = (((), s), k') ∧ k.Extends calls k' ∧
      s.log.Tells ((Log.accessLine c seconds k.zone).map (.info, ·)).toList calls := by
  cases hl : Log.accessLine c seconds k.zone with
  | none => exact ⟨[], k, by simp [logAccess, hl], .refl k, .nil⟩
  | some line =>
    obtain ⟨call, k', h, H, ht⟩ := info_spec line s k
    exact ⟨[call], k', by simp [logAccess, hl, h], H, ht⟩

/-- A connection leaves the table and is closed, and only accepting may be taken up again. -/
theorem close_spec {s : Server} {token : Token} {c : Connection}
    (ht : s.connections.get? token = some c) (seconds : Int) (k : Kernel) :
    ∃ closing k', Closing s.log seconds k.zone c closing ∧
      (k.closed c.socket).Extends closing k' ∧ close token seconds s k =
        resumeIfPaused { s with connections := s.connections.erase token } k' := by
  obtain ⟨s', hs'⟩ : ∃ s' : Server, s' = { s with connections := s.connections.erase token } :=
    ⟨_, rfl⟩
  have hlog : s'.log = s.log := hs' ▸ rfl
  obtain ⟨deleted, k₁, h₁, H₁⟩ := deregister_spec c.socket k
  obtain ⟨told, k₂, h₂, H₂, ht₂⟩ : ∃ told k₂,
      (match forgotten deleted with
        | .ok () => pure ()
        | .error e => warn ("failed to deregister " ++ c.peer.text ++ ": " ++ e.labelled) :
        Serving Unit) s' k₁ = (((), s'), k₂) ∧ k₁.Extends told k₂ ∧
      s.log.Tells (match forgotten deleted with
        | .ok () => []
        | .error e => [(.warning, "failed to deregister " ++ c.peer.text ++ ": " ++ e.labelled)])
        told := by
    cases forgotten deleted with
    | ok => exact ⟨[], k₁, rfl, .refl k₁, .nil⟩
    | error e =>
      obtain ⟨call, k₂, h₂, H₂, ht₂⟩ :=
        warn_spec ("failed to deregister " ++ c.peer.text ++ ": " ++ e.labelled) s' k₁
      exact ⟨[call], k₂, h₂, H₂, hlog ▸ ht₂⟩
  obtain ⟨told', k₃, h₃, H₃, ht₃⟩ := logAccess_spec c seconds s' k₂
  obtain ⟨r, k₄, h₄, H₄⟩ := Sys.close_spec c.socket k₃
  have H := H₁.trans H₂
  have hzone : k₂.zone = k.zone := by
    rw [H.zone]
    cases deleted <;> rfl
  rw [hzone, hlog] at ht₃
  refine ⟨_, k₄, .mk (ht₂.append ht₃), ?_, ?_⟩
  · rw [← k.closed_unwatch c.socket deleted]
    simpa using ((H.trans H₃).closed c.socket).trans H₄
  · simp only [close, Serving.bind_apply, Serving.get_apply, ht, Serving.modify_apply,
      Serving.lift_apply, h₁, ← hs']
    cases hf : forgotten deleted <;> rw [hf] at h₂
    · simp only [Serving.bind_apply, h₂, h₃, Serving.lift_apply, h₄]
      rfl
    · cases h₂
      simp only [Serving.bind_apply, h₃, Serving.lift_apply, h₄]
      rfl

/-- There is nothing to close once a connection is gone. -/
theorem close_gone {s : Server} {token : Token} (ht : s.connections.get? token = none)
    (seconds : Int) (k : Kernel) : close token seconds s k = (((), s), k) := by simp [close, ht]

theorem close_goes (token : Token) (seconds : Int) (s : Server) (k : Kernel) :
    Goes (close token seconds) [] s k := by
  cases ht : s.connections.get? token with
  | none => exact ⟨[], (), s, k, close_gone ht seconds k, .nil⟩
  | some c =>
    obtain ⟨closing, k₁, Hc, H, h⟩ := close_spec ht seconds k
    exact .of_move h (.close ht (.inl rfl) Hc H) (resumeIfPaused_goes ..)

/-- Giving a connection up first changes how its record is, but not what is done. -/
theorem abandon_spec {s : Server} {token : Token} {c : Connection}
    (ht : s.connections.get? token = some c) (k : Kernel) :
    ∃ closing k', Closing s.log (k.secondsAt k.trace.size) k.zone c.fail closing ∧
      (k.closed c.socket).Extends closing k' ∧ abandon token s k =
        resumeIfPaused { s with connections := s.connections.erase token } k' := by
  have hins : (s.connections.insert token c.fail).get? token = some c.fail := by simp
  obtain ⟨closing, k', Hc, H, h⟩ := close_spec
    (s := { s with connections := s.connections.insert token c.fail }) hins
    (k.secondsAt k.trace.size) k
  refine ⟨closing, k', Hc, H, ?_⟩
  simp only [abandon, Serving.bind_apply, Serving.modify_apply, Serving.lift_apply,
    Sys.wallClock_apply, ht, h, Table.erase_insert]

theorem abandon_gone {s : Server} {token : Token} (ht : s.connections.get? token = none)
    (k : Kernel) : abandon token s k = (((), s), k) := by simp [abandon, close, ht]

theorem abandon_goes (token : Token) (s : Server) (k : Kernel) : Goes (abandon token) [] s k := by
  cases ht : s.connections.get? token with
  | none => exact ⟨[], (), s, k, abandon_gone ht k, .nil⟩
  | some c =>
    obtain ⟨closing, k₁, Hc, H, h⟩ := abandon_spec ht k
    exact .of_move h (.close ht (.inr rfl) Hc H) (resumeIfPaused_goes ..)

theorem evictIdle_goes (now : Nanoseconds) (s : Server) (k : Kernel) :
    Goes (evictIdle now) [] s k := by
  cases ht : s.config.timeout with
  | none =>
    have h : evictIdle now s k = (((), s), k) := by simp [evictIdle, ht]
    exact ⟨[], (), s, k, h, .nil⟩
  | some timeout =>
    have h : evictIdle now s k =
        (k.walk.order (s.idleTokens now timeout)).forM abandon s k := by
      simp [evictIdle, ht]
    exact .congr h (.forM abandon_goes ..)

/-- Either accepting is paused and one attempt is made, or nothing is done. -/
theorem retryAccepting_cases (now : Nanoseconds) (s : Server) :
    (s.pausedSince.isSome ∧ ∀ k, retryAccepting now s k = resume s k) ∨
      ∀ k, retryAccepting now s k = (((), s), k) := by
  cases hp : s.pausedSince with
  | none => exact .inr fun k => by simp [retryAccepting, hp]
  | some since =>
    by_cases hr : s.connections.isEmpty = true ∧ acceptRetry ≤ now - since
    · exact .inl ⟨rfl, fun k => by simp [retryAccepting, hp, hr]⟩
    · exact .inr fun k => by simp [retryAccepting, hp, hr]

theorem retryAccepting_goes (now : Nanoseconds) (s : Server) (k : Kernel) :
    Goes (retryAccepting now) [] s k := by
  rcases retryAccepting_cases now s with ⟨-, h⟩ | h
  · exact .congr (h k) (resume_goes s k)
  · exact ⟨[], (), s, k, h k, .nil⟩

/-! ## An event -/

/-- What a connection does on an event, as a call on its socket. -/
theorem exchange_handles (c : Connection) (ready : Conditions) (page : String)
    (now : Nanoseconds) (stats : Stats) (k : Kernel) :
    ∃ ops verdict c' stats' k',
      Sys.exchange c.socket stats (c.handle ready k.files page now) k =
        (((verdict, c'), stats'), k') ∧
      c.Handles ready k.files page now stats ops verdict c' stats' ∧
      k.Extends (ops.map (.operation c.socket)) k' := by
  obtain ⟨pending, hpending⟩ := Sys.exchange_spec c.socket stats (c.handle ready k.files page now) k
  obtain ⟨ops, verdict, c', x', hx, hdone, Hh⟩ :=
    c.handle_handles ready k.files page now { pending := pending, done := #[], stats := stats }
  obtain ⟨k', h, H⟩ := hpending _ _ hx
  exact ⟨ops, verdict, c', x'.stats, k', h, Hh, by simpa [hdone] using H⟩

/-- What is left to do after a turn. -/
def conclude (token : Token) (c : Connection) : Verdict → Serving Unit
  | .wait => return ()
  | .close => do close token (← Sys.wallClock)
  | .rearm => do
    match ← EventQueue.reregister c.socket token c.interest with
    | .ok () => return ()
    | .error e =>
      warn ("failed to re-register " ++ c.peer.text ++ ": " ++ e.labelled)
      abandon token
  | .fail cause => do
    warn (c.peer.text ++ ": " ++ cause.chain.oneLine)
    abandon token

theorem handle_eq {s : Server} {event : Event} {c c' : Connection} {verdict : Verdict}
    {stats : Stats} {now : Nanoseconds} {k k' : Kernel}
    (ht : s.connections.get? event.token = some c)
    (h : Sys.exchange c.socket s.stats
      (c.handle event.conditions k.files s.config.indexPath now) k =
        (((verdict, c'), stats), k')) :
    handle event now s k = conclude event.token c' verdict
      { s with stats := stats, connections := s.connections.insert event.token c' } k' := by
  simp only [handle, Serving.bind_apply, Serving.get_apply, ht, Serving.getThe_apply,
    Serving.lift_apply, h, Serving.set_apply]
  cases verdict <;> rfl

/-- What a verdict leads to: the calls that are made, and whether the connection stays. -/
inductive Concludes (s : Server) (k : Kernel) (token : Token) (c : Connection) :
    Verdict → List Call → Bool → Kernel → Prop
  | wait : Concludes s k token c .wait [] true k
  | rearm {k' : Kernel}
    (H : (k.watch c.socket ⟨token, c.interest.conditions⟩).Extends
      [.modify c.socket token c.interest.conditions (.ok ())] k') :
    Concludes s k token c .rearm [.modify c.socket token c.interest.conditions (.ok ())] true k'
  | finish {verdict : Verdict} {last : Connection} {ending closing : List Call} {k' : Kernel}
    (He : Ending s.log token c verdict ending last)
    (Hc : Closing s.log (k.secondsAt (k.trace.size + ending.length)) k.zone last closing)
    (H : (k.closed c.socket).Extends (ending ++ closing) k') :
    Concludes s k token c verdict (ending ++ closing) false k'

theorem conclude_spec {s : Server} {token : Token} {c : Connection}
    (ht : s.connections.get? token = some c) (verdict : Verdict) (k : Kernel) :
    ∃ calls stays k', Concludes s k token c verdict calls stays k' ∧
      conclude token c verdict s k = if stays then (((), s), k') else
        resumeIfPaused { s with connections := s.connections.erase token } k' := by
  -- giving up comes after a message
  have hwarn {message : String} {e : List Call} {k₁ : Kernel} (He : k.Extends e k₁)
      (Hend : ∀ told, s.log.Tells [(.warning, message)] told →
        Ending s.log token c verdict (e ++ told) c.fail)
      (h : conclude token c verdict s k =
        (do warn message; abandon token : Serving Unit) s k₁) :
      ∃ calls stays k', Concludes s k token c verdict calls stays k' ∧
        conclude token c verdict s k = if stays then (((), s), k') else
          resumeIfPaused { s with connections := s.connections.erase token } k' := by
    obtain ⟨call, k₂, h₂, H₂, htold⟩ := warn_spec message s k₁
    obtain ⟨closing, k₃, Hc, H₃, h₃⟩ := abandon_spec ht k₂
    have H := He.trans H₂
    rw [H.secondsAt, H.size, H.zone] at Hc
    refine ⟨_, false, k₃, .finish (Hend _ htold) Hc ((H.closed _).trans H₃), ?_⟩
    rw [h, Serving.bind_apply, h₂]
    exact h₃
  cases verdict with
  | wait => exact ⟨[], true, k, .wait, rfl⟩
  | close =>
    obtain ⟨closing, k₁, Hc, H, h⟩ := close_spec ht (k.secondsAt k.trace.size) k
    exact ⟨closing, false, k₁, .finish .close Hc H, h⟩
  | fail cause => exact hwarn (.refl k) (fun told ht => .fail ht) rfl
  | rearm =>
    obtain ⟨r, k₁, h₁, H₁⟩ := Sys.modifyWatch_spec c.socket token c.interest.conditions k
    rcases r with e | ⟨⟩
    · exact hwarn H₁ (fun told ht => .rearm ht) (by simp [conclude, reregister, h₁])
    · exact ⟨_, true, k₁, .rearm H₁, by simp [conclude, reregister, h₁]⟩

/-- A turn with what it leads to is one move. -/
theorem Concludes.move {s : Server} {token : Token} {c c' : Connection} {ready : Conditions}
    {now : Nanoseconds} {ops : List Operation} {verdict : Verdict} {stats : Stats}
    {calls : List Call} {stays : Bool} {k k₁ k' : Kernel}
    (Hc : Concludes { s with stats := stats, connections := s.connections.insert token c' } k₁ token
      c' verdict calls stays k') (ht : s.connections.get? token = some c)
    (Hh : c.Handles ready k.files s.config.indexPath now s.stats ops verdict c' stats)
    (H : k.Extends (ops.map (.operation c.socket)) k₁) :
    Move s k (.turn ⟨c, ready, k.files, now, verdict, c'⟩ ::
        (ops.map (Call.operation c.socket) ++ calls).map .call)
      { s with
        stats := stats
        connections :=
          if stays then s.connections.insert token c' else s.connections.erase token } k' := by
  cases Hc with
  | wait =>
    rw [List.append_nil]
    exact .stay ht Hh rfl H
  | rearm H' =>
    have H' := (H.watch c'.socket ⟨token, c'.interest.conditions⟩).trans H'
    rw [Hh.socket] at H' ⊢
    exact .rearm ht Hh rfl H'
  | finish He Hclosing H' =>
    have H' := (H.closed c'.socket).trans H'
    rw [Hh.socket] at H'
    exact .finish ht Hh He (H.zone ▸ Hclosing) (List.append_assoc ..).symm H'

/-- An event whose token is not in the table changes nothing. -/
theorem handle_gone {s : Server} {event : Event} (ht : s.connections.get? event.token = none)
    (now : Nanoseconds) (k : Kernel) : handle event now s k = (((), s), k) := by
  simp [handle, ht]

theorem handle_goes (now : Nanoseconds) {event : Event} (he : event.token ≠ listenerToken)
    (s : Server) (k : Kernel) : Goes (handle event now) (s.turn? now event k).toList s k := by
  cases ht : s.connections.get? event.token with
  | none =>
    simp only [turn?, he, if_false, ht]
    exact ⟨[], (), s, k, handle_gone ht now k, .nil⟩
  | some c =>
    obtain ⟨ops, verdict, c', stats, k₁, h, Hh, H⟩ :=
      exchange_handles c event.conditions s.config.indexPath now s.stats k
    have hturn : s.turn? now event k =
        some ⟨c, event.conditions, k.files, now, verdict, c'⟩ := by
      simp [turn?, he, ht, h]
    have ht₁ : (s.connections.insert event.token c').get? event.token = some c' := by simp
    obtain ⟨calls, stays, k₂, Hc, hc⟩ := conclude_spec (s := { s with
      stats := stats, connections := s.connections.insert event.token c' }) ht₁ verdict k₁
    have hm := Hc.move ht Hh H
    rw [hturn]
    cases stays with
    | true => exact .of_move (g := pure ()) ((handle_eq ht h).trans hc) hm (.pure ..)
    | false =>
      rw [Table.erase_insert] at hc
      exact .of_move ((handle_eq ht h).trans hc) hm (resumeIfPaused_goes ..)

theorem dispatch_eq_accept {event : Event} (he : event.token = listenerToken)
    (now : Nanoseconds) : dispatch now event = accept now := if_pos he

theorem dispatch_eq_handle {event : Event} (he : event.token ≠ listenerToken)
    (now : Nanoseconds) : dispatch now event = handle event now := if_neg he

theorem dispatch_goes (now : Nanoseconds) (event : Event) (s : Server) (k : Kernel) :
    Goes (dispatch now event) (s.turn? now event k).toList s k := by
  by_cases he : event.token = listenerToken
  · rw [dispatch_eq_accept he]
    simp only [turn?, he, if_true]
    exact accept_goes now s k
  · rw [dispatch_eq_handle he]
    exact handle_goes now he s k

/-! ## The other acts -/

/-- The kernel is asked something, and nothing is told. -/
theorem Goes.of_ask {α : Type} {f g : Serving α} {s : Server} {k k' : Kernel}
    (h : f s k = g s k') (H : k.Extends [] k') (H' : Goes g [] s k') : Goes f [] s k :=
  .of_move h (.tell .nil H (List.forall_mem_nil _)) H'

theorem announce_goes (s : Server) (k : Kernel) : Goes announce [] s k := by
  obtain ⟨r, k₁, h, H⟩ := Sys.localAddress_spec s.listener k
  rcases r with e | endpoint
  · have hp : LogSink.Plain (.info, "listening on " ++
        s.config.hostname.getD Config.wildcard ++ ", pid " ++ toString k.process) := by
      simp [LogSink.Plain, String.toList_append]
    refine .of_ask ?_ H (info_goes hp s k₁)
    simp [announce, h]
  · have hp : LogSink.Plain (.info, "listening on: http://" ++ endpoint.text ++
        "/ (" ++ s.config.hostname.getD Config.wildcard ++ "), pid " ++ toString k.process) := by
      simp [LogSink.Plain, String.toList_append]
    refine .of_ask ?_ H (info_goes hp s k₁)
    simp [announce, h]

/-- What the log is told in the end, by what came of asking for the processor time. -/
def summary : Except Errno Usage → Stats → List String
  | .error _, _ => []
  | .ok u, stats =>
    ["CPU time used: " ++ toString u.userSeconds ++ "." ++ hundredths u.userMicroseconds ++
        " user, " ++ toString u.systemSeconds ++ "." ++ hundredths u.systemMicroseconds ++
        " system",
      "Connections: " ++ toString stats.connections ++ ", requests: " ++ toString stats.requests,
      "Bytes: " ++ toString stats.received ++ " in, " ++ toString stats.sent ++ " out"]

/-- What serving comes to then. -/
def summarized : Except Errno Usage → Except ServeError Unit
  | .error e => .error (.usage e)
  | .ok _ => .ok ()

theorem plain_summary (usage : Except Errno Usage) (stats : Stats) :
    ∀ message ∈ (summary usage stats).map (Severity.info, ·), LogSink.Plain message := by
  cases usage <;> simp [summary, LogSink.Plain, String.toList_append]

theorem infos_spec (lines : List String) (s : Server) (k : Kernel) :
    ∃ calls k', lines.forM info s k = (((), s), k') ∧ k.Extends calls k' ∧
      s.log.Tells (lines.map (.info, ·)) calls := by
  induction lines generalizing k with
  | nil => exact ⟨[], k, rfl, .refl k, .nil⟩
  | cons line lines ih =>
    obtain ⟨call, k₁, h₁, H₁, ht₁⟩ := info_spec line s k
    obtain ⟨calls, k₂, h₂, H₂, ht₂⟩ := ih k₁
    have hrun : (line :: lines).forM info s k =
        lines.forM info (info line s k).1.2 (info line s k).2 := rfl
    refine ⟨call :: calls, k₂, ?_, H₁.trans H₂, ht₁.append ht₂⟩
    rw [hrun, h₁]
    exact h₂

theorem logStats_spec (s : Server) (k : Kernel) :
    ∃ calls k', logStats s k = ((summarized (Sys.usage k).1, s), k') ∧ k.Extends calls k' ∧
      s.log.Tells ((summary (Sys.usage k).1 s.stats).map (.info, ·)) calls := by
  obtain ⟨r, k₁, h, H⟩ := Sys.usage_spec k
  obtain ⟨calls, k₂, h₂, H₂, ht⟩ := infos_spec (summary r s.stats) s k₁
  rw [h]
  refine ⟨calls, k₂, ?_, H.trans H₂, ht⟩
  cases r with
  | error e =>
    cases h₂
    simp [logStats, summarized, h]
  | ok u =>
    have hrun : logStats s k = (do (summary (.ok u) s.stats).forM info; return .ok () :
        Serving (Except ServeError Unit)) s k₁ := by simp [logStats, h, summary]
    rw [hrun, Serving.bind_apply, h₂]
    rfl

theorem logStats_goes (s : Server) (k : Kernel) : Goes logStats [] s k := by
  obtain ⟨calls, k', h, H, ht⟩ := logStats_spec s k
  have hp := plain_summary (Sys.usage k).1 s.stats
  exact .of_move (g := pure _) h (.tell ht H hp) (.pure ..)

theorem wait_goes (timeout : Option Nanoseconds) (round? : Option Round) (s : Server) (k : Kernel) :
    Goes (liftM (EventQueue.wait EventQueue.capacity timeout round?) : Serving _) [] s k := by
  obtain ⟨r, k₁, h, H⟩ :=
    Sys.wait_spec EventQueue.capacity (EventQueue.timeoutArgument timeout) round? k
  refine .of_move (g := pure r) ?_ (.wait rfl H) (.pure ..)
  simp [EventQueue.wait, h]

theorem complain_goes (e : ServeError) (s : Server) (k : Kernel) :
    Goes (Act.complain e).run [] s k := by
  obtain ⟨call, k', h, H, Ht⟩ := s.log.write_spec .error e.chain.oneLine k
  have hp := List.forall_mem_singleton.2 (LogSink.Plain.error e.chain.oneLine)
  refine .of_move (g := pure ()) ?_ (.tell Ht H hp) (.pure ..)
  simp [Act.run, LogSink.error, h]

theorem Act.goes (a : Act) (s : Server) (k : Kernel) : Goes a.run (a.turns s k) s k := by
  cases a with
  | announce => exact announce_goes s k
  | wait timeout round? => exact (wait_goes timeout round? s k).bind fun _ => .pure _
  | dispatch now event => exact dispatch_goes now event s k
  | evictIdle now => exact evictIdle_goes now s k
  | retryAccepting now => exact retryAccepting_goes now s k
  | close token seconds => exact close_goes token seconds s k
  | logStats => exact (logStats_goes s k).bind fun _ => .pure _
  | complain e => exact complain_goes e s k

/-! ## The history of a run -/

theorem Move.trace {s s' : Server} {k k' : Kernel} {new : List Occurrence}
    (H : Move s k new s' k') : k'.trace = k.trace ++ (new.filterMap Occurrence.call?).toArray := by
  cases H with
  | tell _ H | unaccepted _ H | resume _ H | unresumed _ H | adopt _ _ _ H | refuse _ _ _ H
  | unregistered _ _ _ _ H | close _ _ _ H =>
    rw [Occurrence.filterMap_calls]
    exact H.trace
  | @pause _ _ deleted _ _ H =>
    rw [Occurrence.filterMap_calls, H.trace]
    cases deleted <;> rfl
  | wait hc H =>
    rw [Occurrence.filterMap_calls, H.trace, hc, Array.push_eq_append]
  | stay _ _ _ H | rearm _ _ _ H | finish _ _ _ _ _ H =>
    rw [List.filterMap_cons_none rfl, Occurrence.filterMap_calls]
    exact H.trace

theorem Moves.trace {s s' : Server} {k k' : Kernel} {new : List Occurrence}
    (H : Moves s k new s' k') :
    k'.trace = k.trace ++ (new.filterMap Occurrence.call?).toArray := by
  induction H with
  | nil => simp
  | cons H _ ih =>
    rw [ih, H.trace]
    simp

/-- What the log's file still has to take is what the calls of a move leave of it. -/
theorem Move.carries {s s' : Server} {k k' : Kernel} {new : List Occurrence}
    (H : Move s k new s' k') :
    Carries k.unwritten (new.filterMap Occurrence.call?) k'.unwritten := by
  cases H with
  | tell _ H | unaccepted _ H | resume _ H | unresumed _ H | adopt _ _ _ H | refuse _ _ _ H
  | unregistered _ _ _ _ H | close _ _ _ H =>
    rw [Occurrence.filterMap_calls]
    exact H.carries
  | @pause _ _ deleted _ _ H =>
    rw [Occurrence.filterMap_calls]
    cases deleted <;> exact H.carries
  | wait hc H =>
    rw [Occurrence.filterMap_calls, H.unwritten, hc]
    exact .silent _ (List.forall_mem_singleton.2 rfl)
  | stay _ _ _ H | rearm _ _ _ H | finish _ _ _ _ _ H =>
    rw [List.filterMap_cons_none rfl, Occurrence.filterMap_calls]
    exact H.carries

/-- What an act adds to the history of a moment is the label of a row of moves. -/
theorem act_moves (m : Moment) (a : Act) :
    ∃ new, Moves m.server m.kernel new (m.act a).server (m.act a).kernel ∧
      (m.act a).history = m.history ++ new := by
  obtain ⟨calls, a', s', k', h, H⟩ := a.goes m.server m.kernel
  have htrace : k'.trace = m.kernel.trace ++ calls.toArray := by
    rw [H.trace, List.filterMap_append, Occurrence.filterMap_turns, Occurrence.filterMap_calls,
      List.nil_append]
  have hcalls : Moment.callsSince m.kernel k' = calls.map .call := by
    simp [Moment.callsSince, htrace, ← Array.length_toList]
  refine ⟨(a.turns m.server m.kernel).map .turn ++ calls.map .call, ?_, ?_⟩
  · simpa only [Moment.act, h] using H
  · simp only [Moment.act, h, hcalls]

/-- What every move keeps, moves in a row keep. -/
theorem Moves.invariant {P : Server → Kernel → List Occurrence → Prop}
    (move : ∀ {s s' : Server} {k k' : Kernel} {history new : List Occurrence},
      P s k history → Move s k new s' k' → P s' k' (history ++ new))
    {s s' : Server} {k k' : Kernel} {history new : List Occurrence} (H : Moves s k new s' k')
    (h : P s k history) : P s' k' (history ++ new) := by
  induction H generalizing history with
  | nil => simpa using h
  | cons H _ ih =>
    rw [← List.append_assoc]
    exact ih (move h H)

end Server

/-- What holds of every server that has just been created and is kept by every move holds of all
reachable moments. -/
theorem Reachable.invariant {P : Server → Kernel → List Occurrence → Prop}
    (created : ∀ {config : Config} {listener : Fd} {log : LogSink} {k k' : Kernel} {s : Server},
      k.descriptors.contains listener → k.watches = ∅ → k.unwritten = [] →
      Server.create config listener log k = (.ok s, k') → P s k' [])
    (move : ∀ {s s' : Server} {k k' : Kernel} {history new : List Occurrence},
      P s k history → Server.Move s k new s' k' → P s' k' (history ++ new))
    {m : Moment} (H : Reachable m) : P m.server m.kernel m.history := by
  induction H with
  | created hl hw hn hc => exact created hl hw hn hc
  | @act m _ a ih =>
    obtain ⟨new, Hs, hnew⟩ := Server.act_moves m a
    exact hnew ▸ Hs.invariant move ih

end OnePage
