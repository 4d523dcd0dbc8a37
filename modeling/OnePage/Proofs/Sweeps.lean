import Mathlib.Data.List.Nodup
import Mathlib.Data.List.Perm.Basic
import OnePage.Proofs.AlikeServers
import OnePage.Proofs.Incidents

/-! # Closing in another order

Connections that are closed in one go are closed in an order of which nothing is known. Whatever the
order is, the same is left, and the calls are the same but for the order of the sockets
(`Server.Alike.sweep`). On the way two servers differ in the connections that are still in the
table, and two kernels in what is still open and watched (`Server.Amid`, `Kernel.Amid`). -/

namespace OnePage

/-! ## In the middle of it -/

/-- Whether two servers that close connections are the same but for their connections. -/
inductive Server.Amid (log : LogSink) (listener : Fd) (s : Server) : Server → Prop
  | mk {connections : Table Connection} {stats : Stats} (hlog : s.log = log)
    (hl : s.listener = listener) (hs : s.stats.Alike stats) :
    Amid log listener s { s with connections := connections, stats := stats }

namespace Server.Amid
variable {log : LogSink} {listener : Fd} {s s' : Server}

theorem listener_eq (H : s.Amid log listener s') :
    s.listener = listener ∧ s'.listener = listener := by
  obtain ⟨-, hl, -⟩ := H
  exact ⟨hl, hl⟩

theorem erase (H : s.Amid log listener s') (token token' : Token) :
    { s with connections := s.connections.erase token }.Amid log listener
      { s' with connections := s'.connections.erase token' } := by
  obtain ⟨hlog, hl, hs⟩ := H
  exact .mk (s := { s with connections := _ }) hlog hl hs

end Server.Amid

/-- Whether two kernels, from which connections are closed, are alike but for what is open and
watched. Paired sockets have been closed since the calls were `before` and `before'`. -/
inductive Kernel.Amid (log : LogSink) (listener : Fd) (sockets : List (Fd × Fd))
    (before before' : List Call) (k : Kernel) : Kernel → Prop
  | mk {descriptors : Table Resource} {watches : Table Watch} {drift : Nat → Int} {walk : Walk}
    {pending : Table Pending} {forced : Forced} {files : Files} {unwritten : List UInt8}
    {trace : Array Call} {calls calls' : List Call}
    (hw : watches.get? listener = k.watches.get? listener)
    (hp : k.pending.Rel (fun _ => Pending.Alike) pending) (hr : k.forced.Alike forced)
    (hf : k.files.Alike log.Fills files) (ht : observed k.trace = before ++ calls)
    (ht' : observed trace = before' ++ calls')
    (hc : List.Forall₂ (Call.Paired sockets) calls calls') :
    Amid log listener sockets before before' k { k with
      descriptors := descriptors, watches := watches, drift := drift, walk := walk
      pending := pending, forced := forced, files := files, unwritten := unwritten
      trace := trace }

theorem Call.Paired.isMessage {sockets : List (Fd × Fd)} {call call' : Call}
    (H : call.Paired sockets call') : call'.isMessage = call.isMessage := by
  cases H <;> rfl

namespace Kernel.Amid
variable {log : LogSink} {listener fd fd' : Fd} {sockets : List (Fd × Fd)}
variable {before before' : List Call} {k k' : Kernel}

theorem told {k₁ k₁' : Kernel} (H : k.Amid log listener sockets before before' k')
    (Ht : k.Told log k₁) (Ht' : k'.Told log k₁') :
    k₁.Amid log listener sockets before before' k₁' := by
  obtain @⟨descriptors, watches, drift, walk, pending, forced, files, unwritten, trace, calls,
    calls', hw, hp, hr, hf, ht, ht', hc⟩ := H
  rw [Ht'.rest, Ht.rest]
  refine .mk (k := { k with files := _, unwritten := _, forced := _, trace := _ }) hw hp
    ((Ht.forced.symm.trans hr).trans Ht'.forced) ((Ht.files.symm.trans hf).trans Ht'.files)
    (Ht.trace.trans ht) (Ht'.trace.trans ht') hc

theorem record {call call' : Call} (H : k.Amid log listener sockets before before' k')
    (h : call.Paired sockets call') :
    (Sys.record call k).2.Amid log listener sockets before before' (Sys.record call' k').2 := by
  obtain @⟨descriptors, watches, drift, walk, pending, forced, files, unwritten, trace, calls,
    calls', hw, hp, hr, hf, ht, ht', hc⟩ := H
  have hone : List.Forall₂ (Call.Paired sockets) (unspoken [call]) (unspoken [call']) :=
    forall₂_unspoken h h.isMessage
  have hmore (trace : Array Call) {before calls : List Call} (call : Call)
      (ht : observed trace = before ++ calls) :
      observed (trace.push call) = before ++ (calls ++ unspoken [call]) := by
    rw [observed_push, ht, List.append_assoc]
  exact .mk (k := (Sys.record call k).2) hw hp hr hf (hmore _ _ ht) (hmore _ _ ht')
    (List.rel_append hc hone)

theorem record_agree {call call' : Call} (h : call.Paired sockets call') :
    StateM.Agree (Kernel.Amid log listener sockets before before') Eq (Sys.record call)
      (Sys.record call') := fun _ _ H => ⟨rfl, H.record h⟩

theorem reply_agree (call : SystemCall) (hcall : call.isWrite = false) :
    StateM.Agree (Kernel.Amid log listener sockets before before') Eq (Sys.reply call)
      (Sys.reply call) := by
  rintro k _ ⟨hw, hp, hr, hf, ht, ht', hc⟩
  simp only [Sys.reply, StateM.bind_apply, StateM.get_apply, hr call hcall]
  cases k.forced call with
  | nil => exact ⟨rfl, .mk hw hp hr hf ht ht' hc⟩
  | cons r rest => exact ⟨rfl, .mk hw hp (hr.set call rest) hf ht ht' hc⟩

/-- What becomes of the watches of two descriptors other than the listener is of no account. -/
theorem unwatch (H : k.Amid log listener sockets before before' k') (h : fd ≠ listener)
    (h' : fd' ≠ listener) :
    (k.unwatch fd).Amid log listener sockets before before' (k'.unwatch fd') := by
  obtain ⟨hw, hp, hr, hf, ht, ht', hc⟩ := H
  refine .mk (k := k.unwatch fd) ?_ hp hr hf ht ht' hc
  simp only [Kernel.unwatch, Table.get?_erase, if_neg (Ne.symm h), if_neg (Ne.symm h'), hw]

theorem watch (H : k.Amid log listener sockets before before' k') (w : Watch) :
    (k.watch listener w).Amid log listener sockets before before' (k'.watch listener w) := by
  obtain ⟨hw, hp, hr, hf, ht, ht', hc⟩ := H
  refine .mk (k := k.watch listener w) ?_ hp hr hf ht ht' hc
  simp only [Kernel.watch, Table.get?_insert, if_true]

theorem listener_eq (H : k.Amid log listener sockets before before' k') :
    k'.watches.get? listener = k.watches.get? listener := by
  obtain ⟨hw, -⟩ := H
  exact hw

theorem contains (H : k.Amid log listener sockets before before' k') :
    k'.watches.contains listener = k.watches.contains listener := by
  simp only [Table.contains, H.listener_eq]

/-- Two sockets are taken off the queue. -/
theorem deregister (H : k.Amid log listener sockets before before' k') (h : fd ≠ listener)
    (h' : fd' ≠ listener) (hw : k.watches.contains fd) (hw' : k'.watches.contains fd')
    (hs : (fd, fd') ∈ sockets) :
    (EventQueue.deregister fd k).1 = (EventQueue.deregister fd' k').1 ∧
      (EventQueue.deregister fd k).2.Amid log listener sockets before before'
        (EventQueue.deregister fd' k').2 := by
  have hdelete : (Sys.delete fd k).1 = (Sys.delete fd' k').1 ∧ (Sys.delete fd k).2.Amid log listener
      sockets before before' (Sys.delete fd' k').2 := by
    have hcontrol := Sys.control_agree (reply_agree .epollControl rfl) false .ENOENT
      (fun _ _ H => H.unwatch h h') (fun r => record_agree (.delete hs r)) k k' H
    simp only [Sys.delete, StateM.bind_apply, StateM.get_apply, hw, hw']
    exact hcontrol
  obtain ⟨hr, H₁⟩ := hdelete
  simp only [EventQueue.deregister, StateM.bind_apply, hr]
  generalize (Sys.delete fd' k').1 = result
  rcases result with e | ⟨⟩
  · cases e <;> exact ⟨rfl, H₁⟩
  · exact ⟨rfl, H₁⟩

/-- Two sockets are closed. -/
theorem close_agree (h : fd ≠ listener) (h' : fd' ≠ listener) (hs : (fd, fd') ∈ sockets) :
    StateM.Agree (Kernel.Amid log listener sockets before before') Eq (Sys.close fd)
      (Sys.close fd') := by
  refine (Sys.outcome_agree .close (reply_agree .close rfl)).bind fun r _ hr => ?_
  subst hr
  refine (StateM.Agree.modify fun k k' ⟨hw, hp, hr, hf, ht, ht', hc⟩ => ?_).bind fun _ _ _ =>
    (record_agree (.close hs)).bind fun _ _ _ => .pure rfl
  refine .mk (k := k.closed fd) ?_ hp hr hf ht ht' hc
  simp only [Kernel.closed, Table.get?_erase, if_neg (Ne.symm h), if_neg (Ne.symm h'), hw]

theorem register_agree (token : Token) (interest : Interest) :
    StateM.Agree (Kernel.Amid log listener sockets before before') Eq
      (EventQueue.register listener token interest)
      (EventQueue.register listener token interest) := by
  have hadd : StateM.Agree (Kernel.Amid log listener sockets before before') Eq
      (Sys.add listener token interest.conditions) (Sys.add listener token interest.conditions) :=
    StateM.Agree.get.bind fun k k' H => by
      rw [H.contains]
      exact Sys.control_agree (reply_agree .epollControl rfl) _ _ (fun _ _ H => H.watch _)
        fun _ => record_agree (.same _)
  have hmodify : StateM.Agree (Kernel.Amid log listener sockets before before') Eq
      (Sys.modifyWatch listener token interest.conditions)
      (Sys.modifyWatch listener token interest.conditions) :=
    StateM.Agree.get.bind fun k k' H => by
      rw [H.contains]
      exact Sys.control_agree (reply_agree .epollControl rfl) _ _ (fun _ _ H => H.watch _)
        fun _ => record_agree (.same _)
  refine hadd.bind fun r _ hr => ?_
  subst hr
  split
  · exact hmodify
  · exact .pure rfl

end Kernel.Amid

namespace Server
open EventQueue Serving
variable {log : LogSink} {listener : Fd} {sockets : List (Fd × Fd)} {before before' : List Call}

/-! ## Closing one connection each -/

theorem Tells.amid {f g : Serving Unit} (H : Tells log f) (H' : Tells log g) :
    Lockstep (Server.Amid log listener) (Kernel.Amid log listener sockets before before') Eq
      f g := by
  rintro s _ k k' @⟨connections, stats, hlog, hl, hs⟩ hk
  obtain ⟨hf, hfk⟩ := H s k hlog
  obtain ⟨hg, hgk⟩ := H' { s with connections := connections, stats := stats } k' hlog
  refine ⟨rfl, ?_, hk.told hfk hgk⟩
  rw [hf, hg]
  exact .mk hlog hl hs

theorem resumeIfPaused_amid : Lockstep (Server.Amid log listener)
    (Kernel.Amid log listener sockets before before') Eq resumeIfPaused resumeIfPaused := by
  have hresume : Lockstep (Server.Amid log listener)
      (Kernel.Amid log listener sockets before before') Eq resume resume := by
    refine Lockstep.get.bind fun s _ ⟨hlog, hl, hs⟩ => ?_
    subst hl
    refine (Lockstep.lift (Kernel.Amid.register_agree _ _)).bind fun r _ hr => ?_
    subst hr
    split
    · exact .modify fun s s' ⟨hlog, hl, hs⟩ => .mk hlog hl hs
    · exact Tells.amid (warn_tells _) (warn_tells _)
  refine Lockstep.get.bind fun s _ ⟨hlog, hl, hs⟩ => ?_
  split
  · exact hresume
  · exact .pure rfl

/-- What is done for a connection that has left the table and the queue. -/
def partWith (c : Connection) (seconds : Int) (deleted : Outcome) : Serving Unit := do
  match deleted with
  | .ok () => pure ()
  | .error e => warn ("failed to deregister " ++ c.peer.text ++ ": " ++ e.labelled)
  logAccess c seconds
  let _ ← Sys.close c.socket
  resumeIfPaused

theorem partWith_amid {c c' : Connection} (h : c.socket ≠ listener) (h' : c'.socket ≠ listener)
    (hs : (c.socket, c'.socket) ∈ sockets) (seconds seconds' : Int) (deleted : Outcome) :
    Lockstep (Server.Amid log listener) (Kernel.Amid log listener sockets before before') Eq
      (partWith c seconds deleted) (partWith c' seconds' deleted) := by
  have hrest : Lockstep (Server.Amid log listener)
      (Kernel.Amid log listener sockets before before') Eq
      (do logAccess c seconds; let _ ← Sys.close c.socket; resumeIfPaused)
      (do logAccess c' seconds'; let _ ← Sys.close c'.socket; resumeIfPaused) :=
    (Tells.amid (logAccess_tells _ _) (logAccess_tells _ _)).bind fun _ _ _ =>
      (Lockstep.lift (Kernel.Amid.close_agree h h' hs)).bind fun _ _ _ => resumeIfPaused_amid
  unfold partWith
  split
  · exact hrest
  · exact (Tells.amid (warn_tells _) (warn_tells _)).bind fun _ _ _ => hrest

/-- Steps that close the connection of a token, if there is one, as it is or as it has become. -/
structure Sweeper (f : Token → Serving Unit) : Prop where
  goes (token : Token) (s : Server) (k : Kernel) : Goes (f token) [] s k
  closes {token : Token} {s : Server} {c : Connection} (h : s.connections.get? token = some c)
    (k : Kernel) : ∃ last seconds, last.socket = c.socket ∧ f token s k =
      close token seconds { s with connections := s.connections.insert token last } k

theorem Sweeper.close (seconds : Int) : Sweeper (close · seconds) where
  goes token s k := close_goes token seconds s k
  closes h k := ⟨_, seconds, rfl, by rw [Table.insert_eq_self h]⟩

theorem Sweeper.abandon : Sweeper abandon where
  goes := abandon_goes
  closes {token s c} h k := by
    refine ⟨c.fail, k.secondsAt k.trace.size, rfl, ?_⟩
    simp only [Server.abandon, Serving.bind_apply, Serving.modify_apply, Serving.lift_apply,
      Sys.wallClock_apply, h]

namespace Sweeper
variable {f g : Token → Serving Unit} {token token' : Token} {s s' : Server} {c c' : Connection}
variable {k k' : Kernel}

theorem parts (H : Sweeper f) (h : s.connections.get? token = some c) (k : Kernel) :
    ∃ last seconds, last.socket = c.socket ∧
      f token s k = partWith last seconds (deregister c.socket k).1
        { s with connections := s.connections.erase token } (deregister c.socket k).2 := by
  obtain ⟨last, seconds, hlast, hrun⟩ := H.closes h k
  have hget : (s.connections.insert token last).get? token = some last := by simp
  refine ⟨last, seconds, hlast, hrun.trans ?_⟩
  simp only [Server.close, Serving.bind_apply, Serving.get_apply, hget, Serving.modify_apply,
    Table.erase_insert, Serving.lift_apply, hlast]
  unfold partWith
  rw [hlast]
  cases (deregister c.socket k).1 <;> rfl

/-- What is left is the same on both sides still. -/
theorem step_amid (H : Sweeper f) (H' : Sweeper g) (hs : s.Amid log listener s')
    (hk : k.Amid log listener sockets before before' k') (R : s.Registered k)
    (R' : s'.Registered k') (h : s.connections.get? token = some c)
    (h' : s'.connections.get? token' = some c') (hp : (c.socket, c'.socket) ∈ sockets) :
    (f token s k).1.2.Amid log listener (g token' s' k').1.2 ∧
      (f token s k).2.Amid log listener sockets before before' (g token' s' k').2 := by
  obtain ⟨last, seconds, hlast, hrun⟩ := H.parts h k
  obtain ⟨last', seconds', hlast', hrun'⟩ := H'.parts h' k'
  have hne := hs.listener_eq.1 ▸ R.ne_listener h
  have hne' := hs.listener_eq.2 ▸ R'.ne_listener h'
  obtain ⟨hdeleted, hk₁⟩ := hk.deregister hne hne' (R.contains h) (R'.contains h') hp
  rw [hrun, hrun', ← hdeleted]
  exact (partWith_amid (hlast ▸ hne) (hlast' ▸ hne') (hlast ▸ hlast' ▸ hp) seconds seconds' _ _ _ _
    _ (hs.erase token token') hk₁).2

end Sweeper

/-! ## What is closed -/

/-- Whether calls do nothing but close these sockets one after the other. -/
structure ClosesOnly (closed : List Fd) (calls : List Call) : Prop where
  closed : calls.filterMap Call.closed? = closed
  sweeping : ∀ call ∈ calls, call.isSweeping

theorem ClosesOnly.append {closed closed' : List Fd} {calls calls' : List Call}
    (H : ClosesOnly closed calls) (H' : ClosesOnly closed' calls') :
    ClosesOnly (closed ++ closed') (calls ++ calls') where
  closed := by rw [List.filterMap_append, H.closed, H'.closed]
  sweeping := List.forall_mem_append.2 ⟨H.sweeping, H'.sweeping⟩

end Server

namespace Kernel
variable {log : LogSink} {listener : Fd} {before before' : List Call} {k k' : Kernel}

theorem Alike.descriptors (H : k.Alike log k') : k'.descriptors = k.descriptors := by
  obtain ⟨-, -, -, -⟩ := H
  rfl

theorem Alike.sameCalls (H : k.Alike log k') : SameCalls (observed k.trace) (observed k'.trace) := by
  obtain ⟨-, -, -, ht⟩ := H
  exact ht

theorem Alike.amid (H : k.Alike log k') (listener : Fd) (sockets : List (Fd × Fd)) :
    k.Amid log listener sockets (observed k.trace) (observed k'.trace) k' := by
  obtain ⟨hp, hr, hf, -⟩ := H
  exact .mk rfl hp hr hf (List.append_nil _).symm (List.append_nil _).symm .nil

/-- Kernels in which the same has been closed since their calls were the same are alike again. -/
theorem Amid.alike {closed closed' : List Fd}
    (H : k.Amid log listener (closed.zip closed') before before' k')
    (hd : k'.descriptors = k.descriptors) (hw : k'.watches = k.watches)
    (hbefore : SameCalls before before')
    (hcalls : ∃ calls, observed k.trace = before ++ calls ∧ Server.ClosesOnly closed calls)
    (hcalls' : ∃ calls, observed k'.trace = before' ++ calls ∧ Server.ClosesOnly closed' calls)
    (hp : closed.Perm closed') (hn : closed.Nodup) : k.Alike log k' := by
  obtain ⟨-, hpending, hr, hf, ht, ht', hc⟩ := H
  obtain ⟨calls, ht₁, hclosed⟩ := hcalls
  obtain ⟨calls', ht₁', hclosed'⟩ := hcalls'
  cases hw
  cases hd
  cases List.append_cancel_left (ht.symm.trans ht₁)
  cases List.append_cancel_left (ht'.symm.trans ht₁')
  refine .mk hpending hr hf ?_
  rw [ht, ht']
  refine hbefore.sweep ⟨hclosed.sweeping, ?_, ?_, ?_⟩
  · rwa [hclosed.closed, hclosed'.closed]
  · rwa [hclosed.closed]
  · rwa [hclosed.closed, hclosed'.closed]

end Kernel

namespace Server
open EventQueue Serving
variable {log : LogSink} {listener : Fd} {sockets : List (Fd × Fd)} {before before' : List Call}

/-- What there is left when connections have been closed, and which sockets that closed. -/
structure Clears (s : Server) (k : Kernel) (tokens : List Token) (sockets : List Fd) (s' : Server)
    (k' : Kernel) : Prop where
  registered : s'.Registered k'
  connections : s'.connections = tokens.foldl Table.erase s.connections
  descriptors : k'.descriptors = sockets.foldl Table.erase k.descriptors
  closed : ∃ calls, observed k'.trace = observed k.trace ++ calls ∧ ClosesOnly sockets calls

/-- An attempt to go on accepting closes nothing. -/
theorem Attempt.closesOnly {paused paused' : Option Nanoseconds} {calls : List Call}
    (H : Attempt listener paused calls paused') : ClosesOnly [] (unspoken calls) := by
  have hregistration {result : Outcome} {calls : List Call}
      (hr : Registration listener listenerToken .accept result calls) :
      ClosesOnly [] (unspoken calls) := by
    cases hr <;> exact ⟨rfl, by simp [unspoken, Call.isMessage, Call.isSweeping]⟩
  cases H with
  | unpaused => exact ⟨rfl, List.forall_mem_nil _⟩
  | resumed hr => exact hregistration hr
  | failed hr ht =>
    rw [unspoken_append, unspoken_eq_nil ht, List.append_nil]
    exact hregistration hr

theorem Closing.closesOnly {seconds zone : Int} {c : Connection} {calls : List Call}
    (H : Closing log seconds zone c calls) : ClosesOnly [c.socket] (unspoken calls) := by
  obtain @⟨deleted, told, ht⟩ := H
  have hends : unspoken (.delete c.socket deleted :: (told ++ [.close c.socket])) =
      .delete c.socket deleted :: (unspoken told ++ [.close c.socket]) := by
    simp [unspoken, Call.isMessage]
  rw [hends, unspoken_eq_nil ht.isMessage]
  exact ⟨rfl, by simp [Call.isSweeping]⟩

theorem resumeIfPaused_descriptors (s : Server) (k : Kernel) :
    (resumeIfPaused s k).2.descriptors = k.descriptors := by
  have h : resumeIfPaused s k = (if s.pausedSince.isSome then resume else pure ()) s k := rfl
  rw [h]
  split
  · obtain ⟨calls, s', k', hr, H⟩ := resume_spec s k
    rw [hr]
    cases H with
    | resumed _ H => exact H.descriptors
    | failed _ _ H => exact H.descriptors
  · rfl

namespace Sweeper
variable {f g : Token → Serving Unit} {token : Token} {tokens : List Token} {s : Server}
variable {c : Connection} {k : Kernel}

theorem step_clears (H : Sweeper f) (R : s.Registered k) (h : s.connections.get? token = some c) :
    Clears s k [token] [c.socket] (f token s k).1.2 (f token s k).2 := by
  have R' := (H.goes token s k).registered R
  obtain ⟨last, seconds, hlast, hrun⟩ := H.closes h k
  have hget : (s.connections.insert token last).get? token = some last := by simp
  obtain ⟨closing, k₁, Hc, Hk, hclose⟩ :=
    close_spec (s := { s with connections := s.connections.insert token last }) hget seconds k
  rw [hrun, hclose] at R' ⊢
  rw [Table.erase_insert] at R' ⊢
  rw [hlast] at Hk
  obtain ⟨calls, paused, k', hr, Ha, Hp⟩ :=
    resumeIfPaused_spec { s with connections := s.connections.erase token } k₁
  have hd := resumeIfPaused_descriptors { s with connections := s.connections.erase token } k₁
  rw [hr] at R' hd ⊢
  refine ⟨R', rfl, hd.trans Hk.descriptors, unspoken closing ++ unspoken calls, ?_,
    hlast ▸ Hc.closesOnly.append Hp.closesOnly⟩
  · rw [Ha.trace, Hk.trace]
    simp only [Array.append_assoc, List.append_toArray, observed_append, unspoken_append]
    rfl

end Sweeper

/-! ## Whatever the order -/

/-- Whether these are tokens of connections, each with its socket. -/
def Sockets (s : Server) (socket : Token → Fd) (tokens : List Token) : Prop :=
  ∀ token ∈ tokens, ∃ c, s.connections.get? token = some c ∧ c.socket = socket token

section
variable {f g : Token → Serving Unit} {token : Token} {tokens tokens' : List Token}
variable {socket : Token → Fd} {s s' : Server} {c : Connection} {k k' k₁ : Kernel}

theorem Sockets.tail (H : s.Sockets socket (token :: tokens)) (hn : (token :: tokens).Nodup)
    (hs : s'.connections = s.connections.erase token) : s'.Sockets socket tokens := by
  intro t ht
  obtain ⟨c, hc, hsocket⟩ := H t (List.mem_cons_of_mem _ ht)
  refine ⟨c, ?_, hsocket⟩
  rw [hs, Table.get?_erase, if_neg, hc]
  rintro rfl
  exact (List.nodup_cons.1 hn).1 ht

theorem Sweeper.clears (H : Sweeper f) (R : s.Registered k) (hn : tokens.Nodup)
    (hs : s.Sockets socket tokens) :
    Clears s k tokens (tokens.map socket) (tokens.forM f s k).1.2 (tokens.forM f s k).2 := by
  induction tokens generalizing s k with
  | nil => exact ⟨R, rfl, rfl, [], (List.append_nil _).symm, rfl, List.forall_mem_nil _⟩
  | cons token tokens ih =>
    obtain ⟨c, hc, hsocket⟩ := hs token (List.mem_cons_self ..)
    obtain ⟨R₁, hconnections, hdescriptors, calls, ht, hclosed⟩ := H.step_clears R hc
    obtain ⟨R₂, hconnections₂, hdescriptors₂, calls₂, ht₂, hclosed₂⟩ :=
      ih R₁ (List.nodup_cons.1 hn).2 (hs.tail hn hconnections)
    refine ⟨R₂, hconnections₂.trans ?_, hdescriptors₂.trans ?_, calls ++ calls₂, ?_, ?_⟩
    · rw [hconnections]
      rfl
    · rw [hdescriptors, hsocket]
      rfl
    · rw [← List.append_assoc, ← ht]
      exact ht₂
    · rw [List.map_cons, ← hsocket]
      exact hclosed.append hclosed₂

theorem Sweeper.amid (H : Sweeper f) (H' : Sweeper g)
    (hp : List.Forall₂ (fun t t' => (socket t, socket t') ∈ sockets) tokens tokens')
    (hn : tokens.Nodup) (hn' : tokens'.Nodup) (hs : s.Amid log listener s')
    (hk : k.Amid log listener sockets before before' k') (R : s.Registered k)
    (R' : s'.Registered k') (ht : s.Sockets socket tokens) (ht' : s'.Sockets socket tokens') :
    (tokens.forM f s k).1.2.Amid log listener (tokens'.forM g s' k').1.2 ∧
      (tokens.forM f s k).2.Amid log listener sockets before before' (tokens'.forM g s' k').2 := by
  -- no token is met twice, so those that are left are tokens of connections still
  induction hp generalizing s s' k k' with
  | nil => exact ⟨hs, hk⟩
  | @cons token token' tokens tokens' h _ ih =>
    obtain ⟨c, hc, hsocket⟩ := ht token (List.mem_cons_self ..)
    obtain ⟨c', hc', hsocket'⟩ := ht' token' (List.mem_cons_self ..)
    rw [← hsocket, ← hsocket'] at h
    obtain ⟨hs₁, hk₁⟩ := H.step_amid H' hs hk R R' hc hc' h
    have C := H.step_clears R hc
    have C' := H'.step_clears R' hc'
    exact ih (List.nodup_cons.1 hn).2 (List.nodup_cons.1 hn').2 hs₁ hk₁ C.registered C'.registered
      (ht.tail hn C.connections) (ht'.tail hn' C'.connections)

/-- Erasing from a table is the same in any order. -/
theorem foldl_erase_perm {α : Type} {keys keys' : List Nat} (h : keys.Perm keys') (t : Table α) :
    keys.foldl Table.erase t = keys'.foldl Table.erase t := by
  have hcomm : RightCommutative (Table.erase (α := α)) := ⟨fun t j k => Table.ext fun i => by
    simp only [Table.get?_erase]
    split <;> split <;> rfl⟩
  exact h.foldl_eq t

/-- What is watched is seen from the connections, the listener apart. -/
theorem Registered.watches_eq (R : s.Registered k) (R' : s'.Registered k')
    (hl : s'.listener = s.listener)
    (hc : s.connections.Rel (fun _ => Connection.Alike) s'.connections)
    (hw : k'.watches.get? s.listener = k.watches.get? s.listener) : k'.watches = k.watches := by
  have hwatched (fd : Fd) (hfd : fd ≠ s.listener) (w : Watch) :
      k.watches.get? fd = some w ↔ k'.watches.get? fd = some w := by
    rw [R.mirrored.watched_iff hfd, R'.mirrored.watched_iff (hl ▸ hfd)]
    rcases hc.entry w.token with ⟨h, h'⟩ | ⟨c, c', h, h', ⟨_, _⟩, -⟩
    · simp only [h, h']
    · simp only [h, h', Option.some.injEq, exists_eq_left']
  refine Table.ext fun fd => ?_
  by_cases hfd : fd = s.listener
  · rw [hfd, hw]
  · exact Option.ext fun w => (hwatched fd hfd w).symm

theorem Sockets.of_alike (hs : s.Sockets socket tokens) (H : s.Alike log s') :
    s'.Sockets socket tokens := by
  intro token ht
  obtain ⟨c, hc, hsocket⟩ := hs token ht
  rcases H.entry token with ⟨h, -⟩ | ⟨d, c', h, h', ⟨_, _⟩, -⟩
  · rw [h] at hc
    cases hc
  · cases h.symm.trans hc
    exact ⟨_, h', hsocket⟩

theorem Registered.sockets_nodup (R : s.Registered k) (hn : tokens.Nodup)
    (hs : s.Sockets socket tokens) : (tokens.map socket).Nodup := by
  refine List.Nodup.map_on (fun t ht t' ht' he => ?_) hn
  obtain ⟨c, hc, hsocket⟩ := hs t ht
  obtain ⟨c', hc', hsocket'⟩ := hs t' ht'
  exact R.token_unique hc hc' (by rw [hsocket, hsocket', he])

/-! Before the first connection is closed and after the last one, there is nothing amiss. -/

theorem Alike.amid (H : s.Alike log s') : s.Amid log s.listener s' := by
  obtain ⟨hlog, -, hstats⟩ := H
  exact .mk hlog rfl hstats

theorem Amid.alike (H : s.Amid log listener s')
    (hc : s.connections.Rel (fun _ => Connection.Alike) s'.connections) : s.Alike log s' := by
  obtain ⟨hlog, -, hstats⟩ := H
  exact .mk hlog hc hstats

/-- Connections that are closed in one go may be closed in any order, with nothing else to be seen
of that. -/
theorem Alike.sweep (Hs : s.Alike log s') (Hk : k.Alike log k') (H : Sweeper f) (H' : Sweeper g)
    (R : s.Registered k) (R' : s'.Registered k') (hp : tokens.Perm tokens') (hn : tokens.Nodup)
    (hs : s.Sockets socket tokens) :
    (tokens.forM f s k).1.2.Alike log (tokens'.forM g s' k').1.2 ∧
      (tokens.forM f s k).2.Alike log (tokens'.forM g s' k').2 := by
  have hs' : s'.Sockets socket tokens' := fun t ht => hs.of_alike Hs t (hp.mem_iff.2 ht)
  have hn' : tokens'.Nodup := hp.nodup_iff.1 hn
  have hpaired : List.Forall₂ (fun t t' => (socket t, socket t') ∈
      (tokens.map socket).zip (tokens'.map socket)) tokens tokens' := by
    refine List.forall₂_iff_zip.2 ⟨hp.length_eq, fun {t t'} h => ?_⟩
    rw [List.zip_map]
    exact List.mem_map.2 ⟨(t, t'), h, rfl⟩
  obtain ⟨hs₁, hk₁⟩ := H.amid H' hpaired hn hn' Hs.amid (Hk.amid s.listener _) R R' hs hs'
  have C := H.clears R hn hs
  have C' := H'.clears R' hn' hs'
  have hconnections : (tokens.forM f s k).1.2.connections.Rel (fun _ => Connection.Alike)
      (tokens'.forM g s' k').1.2.connections := by
    rw [C.connections, C'.connections, ← foldl_erase_perm hp]
    exact Hs.connections.foldl_erase tokens
  have hdescriptors : (tokens'.forM g s' k').2.descriptors = (tokens.forM f s k).2.descriptors := by
    rw [C.descriptors, C'.descriptors, Hk.descriptors, foldl_erase_perm (hp.map socket)]
  have hwatches : (tokens'.forM g s' k').2.watches = (tokens.forM f s k).2.watches := by
    obtain ⟨hl, hl'⟩ := hs₁.listener_eq
    exact C.registered.watches_eq C'.registered (hl'.trans hl.symm) hconnections
      (hl.symm ▸ hk₁.listener_eq)
  exact ⟨hs₁.alike hconnections, hk₁.alike hdescriptors hwatches Hk.sameCalls C.closed C'.closed
    (hp.map socket) (R.sockets_nodup hn hs)⟩

end

/-! ## The sweeps there are -/

section
variable {s s' : Server} {k k' : Kernel} {tokens : List Token}

theorem exists_sockets (h : ∀ token ∈ tokens, s.connections.contains token) :
    ∃ socket, s.Sockets socket tokens := by
  refine ⟨fun token => ((s.connections.get? token).map (·.socket)).getD 0, fun token ht => ?_⟩
  obtain ⟨c, hc⟩ := Option.isSome_iff_exists.1 (h token ht)
  exact ⟨c, hc, by simp [hc]⟩

theorem Alike.evictIdle (Hs : s.Alike log s') (Hk : k.Alike log k') (R : s.Registered k)
    (R' : s'.Registered k') (now : Nanoseconds) :
    (Server.evictIdle now s k).1.2.Alike log (Server.evictIdle now s' k').1.2 ∧
      (Server.evictIdle now s k).2.Alike log (Server.evictIdle now s' k').2 := by
  cases ht : s.config.timeout with
  | none =>
    have ht' : s'.config.timeout = none := by rw [Hs.config, ht]
    simpa [Server.evictIdle, ht, ht'] using ⟨Hs, Hk⟩
  | some timeout =>
    have ht' : s'.config.timeout = some timeout := by rw [Hs.config, ht]
    have hperm : (k.walk.order (s.idleTokens now timeout)).Perm
        (k'.walk.order (s.idleTokens now timeout)) :=
      (k.walk.perm _).trans (k'.walk.perm _).symm
    have hnodup : (k.walk.order (s.idleTokens now timeout)).Nodup :=
      (k.walk.perm _).nodup_iff.2 (pairwise_idleTokens s now timeout)
    obtain ⟨socket, hs⟩ : ∃ socket, s.Sockets socket (k.walk.order (s.idleTokens now timeout)) :=
      exists_sockets fun token h => by
        obtain ⟨c, hc, -⟩ := mem_idleTokens.1 ((k.walk.perm _).mem_iff.1 h)
        exact Option.isSome_iff_exists.2 ⟨c, hc⟩
    have H := Hs.sweep Hk .abandon .abandon R R' hperm hnodup hs
    simpa [Server.evictIdle, ht, ht', Hs.idleTokens] using H

theorem Alike.shutDown (Hs : s.Alike log s') (Hk : k.Alike log k') (R : s.Registered k)
    (R' : s'.Registered k') :
    (Server.shutDown s k).1.1 = (Server.shutDown s' k').1.1 ∧
      (Server.shutDown s k).1.2.Alike log (Server.shutDown s' k').1.2 ∧
      (Server.shutDown s k).2.Alike log (Server.shutDown s' k').2 := by
  have hperm : (k.walk.order s.connections.keys).Perm (k'.walk.order s.connections.keys) :=
    (k.walk.perm _).trans (k'.walk.perm _).symm
  have hnodup : (k.walk.order s.connections.keys).Nodup :=
    (k.walk.perm _).nodup_iff.2 s.connections.nodup_keys
  obtain ⟨socket, hs⟩ : ∃ socket, s.Sockets socket (k.walk.order s.connections.keys) :=
    exists_sockets fun token h => Table.mem_keys.1 ((k.walk.perm _).mem_iff.1 h)
  obtain ⟨hs₁, hk₁⟩ := Hs.sweep Hk (.close (k.secondsAt k.trace.size))
    (.close (k'.secondsAt k'.trace.size)) R R' hperm hnodup hs
  have hrun (s : Server) (k : Kernel) : Server.shutDown s k =
      let swept := (k.walk.order s.connections.keys).forM
        (Server.close · (k.secondsAt k.trace.size)) s k
      logStats swept.1.2 swept.2 := rfl
  rw [hrun, hrun, Hs.keys]
  exact logStats_agree _ _ _ _ hs₁ hk₁

end

end Server

end OnePage
