import OnePage.Program
import OnePage.Proofs.Effects

/-! # Starting up

What a program does before it serves, step by step. Its steps leave the files as they are until
the log is opened, and do not touch the results that are laid down for a sweep or for a child that
is waited for until they need them (`Kernel.Follows`), so what comes of a start can be told from
the kernel that it begins with. -/

namespace OnePage

namespace Call

/-- Whether a call is one by which the processes of a start deal with each other. -/
def isHandoff : Call → Bool
  | fork _ => true
  | read .. => true
  | write .. => true
  | _ => false

/-- Whether a step of a start has failed. A descriptor that is watched already is no failure. -/
def failed : Call → Bool
  | socket (.error _) => true
  | reuseAddress _ (.error _) => true
  | bind _ _ (.error _) => true
  | listen _ _ (.error _) => true
  | pipe (.error _) => true
  | openNull (.error _) => true
  | fork (.error _) => true
  | createSession (.error _) => true
  | setSignal _ _ (.error _) => true
  | createQueue (.error _) => true
  | add _ _ _ (.error e) => e != .EEXIST
  | modify _ _ _ (.error _) => true
  | _ => false

end Call

/-- The calls by which the processes of a start deal with each other. -/
def handoff (calls : List Call) : List Call := calls.filter Call.isHandoff

/-- Nothing that is done concerns another process. -/
def Private (calls : List Call) : Prop := ∀ call ∈ calls, call.isHandoff = false

/-- No step of a start has failed. -/
def Smooth (calls : List Call) : Prop := ∀ call ∈ calls, call.failed = false

@[simp] theorem handoff_append (calls more : List Call) :
    handoff (calls ++ more) = handoff calls ++ handoff more := List.filter_append ..

@[simp] theorem handoff_nil : handoff [] = [] := rfl

@[simp] theorem handoff_cons (call : Call) (calls : List Call) :
    handoff (call :: calls) = if call.isHandoff then call :: handoff calls else handoff calls :=
  List.filter_cons

theorem Private.handoff {calls : List Call} (H : Private calls) : handoff calls = [] := by
  simpa [OnePage.handoff, Private] using H

@[simp] theorem private_nil : Private [] := List.forall_mem_nil _

@[simp] theorem private_cons (call : Call) (calls : List Call) :
    Private (call :: calls) ↔ call.isHandoff = false ∧ Private calls := List.forall_mem_cons

@[simp] theorem private_append (calls more : List Call) :
    Private (calls ++ more) ↔ Private calls ∧ Private more := List.forall_mem_append

@[simp] theorem smooth_nil : Smooth [] := List.forall_mem_nil _

@[simp] theorem smooth_cons (call : Call) (calls : List Call) :
    Smooth (call :: calls) ↔ call.failed = false ∧ Smooth calls := List.forall_mem_cons

@[simp] theorem smooth_append (calls more : List Call) :
    Smooth (calls ++ more) ↔ Smooth calls ∧ Smooth more := List.forall_mem_append

namespace Kernel

/-- `k'` comes after some calls, none of which opens the log or waits for a child. -/
structure Follows (k : Kernel) (calls : List Call) (k' : Kernel) : Prop where
  trace : k'.trace = k.trace ++ calls.toArray
  files : k'.files = k.files
  child : k'.forced .waitpid = k.forced .waitpid

/-- The same, and nobody has asked for the limit on descriptors. -/
structure Onward (k : Kernel) (calls : List Call) (k' : Kernel) : Prop
    extends Follows k calls k' where
  limit : k'.forced .getrlimit = k.forced .getrlimit

variable {k k' k'' : Kernel} {calls more : List Call}

theorem Follows.trans (H : k.Follows calls k') (H' : k'.Follows more k'') :
    k.Follows (calls ++ more) k'' where
  trace := by rw [H'.trace, H.trace]; simp
  files := H'.files.trans H.files
  child := H'.child.trans H.child

theorem Onward.refl (k : Kernel) : k.Onward [] k := ⟨⟨by simp, rfl, rfl⟩, rfl⟩

theorem Onward.trans (H : k.Onward calls k') (H' : k'.Onward more k'') :
    k.Onward (calls ++ more) k'' :=
  ⟨H.toFollows.trans H'.toFollows, H'.limit.trans H.limit⟩

/-- What is open or watched may change on the way. -/
theorem Onward.made {call : Call} (ht : k'.trace = k.trace.push call) (hf : k'.files = k.files)
    (hr : k'.forced = k.forced) : k.Onward [call] k' :=
  ⟨⟨by simp [ht], hf, hr ▸ rfl⟩, hr ▸ rfl⟩

theorem Onward.silent (ht : k'.trace = k.trace) (hf : k'.files = k.files)
    (hr : k'.forced = k.forced) : k.Onward [] k' :=
  ⟨⟨by simp [ht], hf, hr ▸ rfl⟩, hr ▸ rfl⟩

end Kernel

/-! ## Single calls -/

namespace Sys
variable (k : Kernel)

theorem reply_onward {call : SystemCall} (hc : call ≠ .waitpid) (hl : call ≠ .getrlimit) :
    ∃ r k', reply call k = (r, k') ∧ k.Onward [] k' := by
  cases h : k.forced call with
  | nil => exact ⟨none, k, by simp [reply, h], .refl k⟩
  | cons r rest =>
    refine ⟨r, { k with forced := k.forced.set call rest }, by simp [reply, h], ?_⟩
    exact ⟨⟨by simp, rfl, if_neg hc.symm⟩, if_neg hl.symm⟩

theorem outcome_onward {call : SystemCall} (hc : call ≠ .waitpid) (hl : call ≠ .getrlimit) :
    ∃ r k', outcome call k = (r, k') ∧ k.Onward [] k' := by
  obtain ⟨r, k', h, H⟩ := reply_onward k hc hl
  refine ⟨(outcome call k).1, k', Prod.ext rfl ?_, H⟩
  simp only [outcome, StateM.bind_apply, h]
  split <;> rfl

/-- A call whose result is told with it. -/
theorem record_onward {call : SystemCall} (hc : call ≠ .waitpid) (hl : call ≠ .getrlimit)
    (entry : Outcome → Call) :
    ∃ r k', (do
      let result ← outcome call
      record (entry result)
      return result : Sys Outcome) k = (r, k') ∧ k.Onward [entry r] k' := by
  obtain ⟨r, k₁, h, H⟩ := outcome_onward k hc hl
  exact ⟨r, (record (entry r) k₁).2, by simp [h], H.trans (.made rfl rfl rfl)⟩

theorem print_onward (stream : Stream) (text : String) :
    ∃ k', print stream text k = ((), k') ∧ k.Onward [.print stream text] k' :=
  ⟨_, rfl, .made rfl rfl rfl⟩

theorem close_onward (fd : Fd) : ∃ r k', close fd k = (r, k') ∧ k.Onward [.close fd] k' := by
  obtain ⟨r, k₁, h, H⟩ := outcome_onward k (by decide : SystemCall.close ≠ _) (by decide)
  exact ⟨r, (record (.close fd) (k₁.closed fd)).2, by simp [close, h, Kernel.closed],
    H.trans (.made rfl rfl rfl)⟩

theorem socket_onward : ∃ r k', socket k = (r, k') ∧ k.Onward [.socket r] k' := by
  obtain ⟨r, k₁, h, H⟩ := reply_onward k (by decide : SystemCall.socket ≠ _) (by decide)
  simp only [socket, StateM.bind_apply, h]
  split <;> exact ⟨_, _, rfl, H.trans (.made rfl rfl rfl)⟩

theorem lookup_onward (host : String) :
    ∃ r k', lookup host k = (r, k') ∧ k.Onward [.lookup host] k' := by
  cases h : k.hosts.find? fun entry => entry.1 == host with
  | none =>
    exact ⟨.error .unknownName, (record (.lookup host) k).2, by simp [lookup, record, h],
      .made rfl rfl rfl⟩
  | some entry =>
    exact ⟨entry.2, (record (.lookup host) k).2, by simp [lookup, record, h], .made rfl rfl rfl⟩

theorem reuseAddress_onward (fd : Fd) :
    ∃ r k', reuseAddress fd k = (r, k') ∧ k.Onward [.reuseAddress fd r] k' :=
  record_onward k (by decide) (by decide) _

theorem updateSocket_onward (fd : Fd) (change : Option Net.Endpoint → Bool → Resource) :
    k.Onward [] (updateSocket fd change k).2 := by
  simp only [updateSocket, StateM.modify_apply]
  split <;> exact .silent rfl rfl rfl

theorem bind_onward (fd : Fd) (endpoint : Net.Endpoint) :
    ∃ r k', bind fd endpoint k = (r, k') ∧ k.Onward [.bind fd endpoint r] k' := by
  obtain ⟨r, k₁, h, H⟩ := outcome_onward k (by decide : SystemCall.bind ≠ _) (by decide)
  have H : k.Onward [.bind fd endpoint r] (record (.bind fd endpoint r) k₁).2 :=
    H.trans (.made rfl rfl rfl)
  simp only [bind, StateM.bind_apply, h]
  split
  · exact ⟨r, _, rfl, H.trans (updateSocket_onward ..)⟩
  · exact ⟨r, _, rfl, H⟩

theorem listen_onward (fd : Fd) (backlog : Nat) :
    ∃ r k', listen fd backlog k = (r, k') ∧ k.Onward [.listen fd backlog r] k' := by
  obtain ⟨r, k₁, h, H⟩ := outcome_onward k (by decide : SystemCall.listen ≠ _) (by decide)
  have H : k.Onward [.listen fd backlog r] (record (.listen fd backlog r) k₁).2 :=
    H.trans (.made rfl rfl rfl)
  simp only [listen, StateM.bind_apply, h]
  split
  · exact ⟨r, _, rfl, H.trans (updateSocket_onward ..)⟩
  · exact ⟨r, _, rfl, H⟩

theorem pipe_onward : ∃ r k', pipe k = (r, k') ∧ k.Onward [.pipe r] k' := by
  obtain ⟨r, k₁, h, H⟩ := reply_onward k (by decide : SystemCall.pipe ≠ _) (by decide)
  simp only [pipe, StateM.bind_apply, h]
  split <;> exact ⟨_, _, rfl, H.trans (.made rfl rfl rfl)⟩

theorem openNull_onward : ∃ r k', openNull k = (r, k') ∧ k.Onward [.openNull r] k' := by
  obtain ⟨r, k₁, h, H⟩ := reply_onward k (by decide : SystemCall.openNull ≠ _) (by decide)
  simp only [openNull, openNull.opened, StateM.bind_apply, h]
  split <;> exact ⟨_, _, rfl, H.trans (.made rfl rfl rfl)⟩

theorem fork_onward : ∃ r k', fork k = (r, k') ∧ k.Onward [.fork r] k' := by
  obtain ⟨r, k₁, h, H⟩ := reply_onward k (by decide : SystemCall.fork ≠ _) (by decide)
  simp only [fork, StateM.bind_apply, h]
  exact ⟨_, _, rfl, H.trans (.made rfl rfl rfl)⟩

theorem createSession_onward :
    ∃ r k', createSession k = (r, k') ∧ k.Onward [.createSession r] k' :=
  record_onward k (by decide) (by decide) _

theorem setSignal_onward (signal : Signal) (disposition : Disposition) :
    ∃ r k', setSignal signal disposition k = (r, k') ∧
      k.Onward [.setSignal signal disposition r] k' :=
  record_onward k (by decide) (by decide) _

theorem read_onward (fd : Fd) (length : Nat) :
    ∃ r k', read fd length k = (r, k') ∧ k.Onward [.read fd length r] k' := by
  obtain ⟨r, k₁, h, H⟩ := reply_onward k (by decide : SystemCall.read ≠ _) (by decide)
  simp only [read, StateM.bind_apply, h]
  exact ⟨_, _, rfl, H.trans (.made rfl rfl rfl)⟩

theorem write_onward (fd : Fd) (data : List UInt8) :
    ∃ r k', write fd data k = (r, k') ∧ k.Onward [.write fd data r] k' := by
  obtain ⟨r, k₁, h, H⟩ := outcome_onward k (by decide : SystemCall.write ≠ _) (by decide)
  simp only [write, StateM.bind_apply, h]
  exact ⟨_, _, rfl, H.trans (.made rfl rfl rfl)⟩

theorem duplicate_onward (source target : Fd) :
    ∃ r k', duplicate source target k = (r, k') ∧ k.Onward [.duplicate source target r] k' := by
  obtain ⟨r, k₁, h, H⟩ := outcome_onward k (by decide : SystemCall.dup2 ≠ _) (by decide)
  simp only [duplicate, StateM.bind_apply, h]
  split
  · refine ⟨r, _, rfl, H.trans (.made ?_ ?_ ?_)⟩ <;> simp <;> split <;> rfl
  · exact ⟨r, _, rfl, H.trans (.made rfl rfl rfl)⟩

theorem createQueue_onward : ∃ r k', createQueue k = (r, k') ∧ k.Onward [.createQueue r] k' := by
  obtain ⟨r, k₁, h, H⟩ := reply_onward k (by decide : SystemCall.epollCreate ≠ _) (by decide)
  simp only [createQueue, StateM.bind_apply, h]
  split <;> exact ⟨_, _, rfl, H.trans (.made rfl rfl rfl)⟩

/-- What is laid down for a call is the same, and so is what comes of it. -/
theorem reply_congr {call : SystemCall} {k k₁ : Kernel} (h : k₁.forced call = k.forced call) :
    (reply call k₁).1 = (reply call k).1 := by
  cases hf : k.forced call <;> simp [reply, h, hf]

theorem reply_follows {call : SystemCall} (hc : call ≠ .waitpid) :
    k.Follows [] (reply call k).2 := by
  cases h : k.forced call with
  | nil => simpa [reply, h] using (Kernel.Onward.refl k).toFollows
  | cons r rest => simpa [reply, h] using ⟨by simp, rfl, if_neg hc.symm⟩

/-- The limit is told by what is laid down for it, if nobody has asked before. -/
theorem descriptorLimit_follows {k₁ : Kernel} {calls : List Call} (H : k.Onward calls k₁) :
    ∃ k', descriptorLimit k₁ = ((descriptorLimit k).1, k') ∧ k.Follows calls k' := by
  have hr := reply_congr H.limit
  have H' := H.toFollows.trans (reply_follows k₁ (by decide : SystemCall.getrlimit ≠ _))
  rw [List.append_nil] at H'
  refine ⟨_, ?_, H'⟩
  simp only [descriptorLimit, StateM.bind_apply, hr]
  generalize (reply .getrlimit k).1 = r
  rcases r with _ | r
  · rfl
  · cases r <;> rfl

/-- How a child has ended is told by what is laid down for it, if nobody has asked before. -/
theorem waitProcess_follows {k₁ : Kernel} {calls : List Call} (H : k.Follows calls k₁)
    (process : Nat) : ∃ k', waitProcess process k₁ = ((waitProcess process k).1, k') ∧
      k'.trace = k.trace ++ (calls ++ [Call.waitProcess process]).toArray := by
  have hr : (reply .waitpid (record (.waitProcess process) k₁).2).1 =
      (reply .waitpid (record (.waitProcess process) k).2).1 := reply_congr H.child
  have ht : (reply .waitpid (record (.waitProcess process) k₁).2).2.trace =
      k₁.trace.push (.waitProcess process) := by
    cases h : k₁.forced .waitpid <;> simp [reply, record, h]
  refine ⟨(reply .waitpid (record (.waitProcess process) k₁).2).2, ?_, ?_⟩
  · simp only [waitProcess, StateM.bind_apply, hr]
    generalize (reply .waitpid (record (.waitProcess process) k).2).1 = r
    rcases r with _ | r
    · rfl
    · cases r <;> rfl
  · rw [ht, H.trace]
    simp

theorem register_trace (fd : Fd) (token : Token) (interest : Interest) :
    ∃ r calls k', EventQueue.register fd token interest k = (r, k') ∧
      EventQueue.Registration fd token interest r calls ∧
      k'.trace = k.trace ++ calls.toArray := by
  obtain ⟨r, calls, k', h, hr, H⟩ := EventQueue.register_spec fd token interest k
  refine ⟨r, calls, k', h, hr, ?_⟩
  rw [H.trace]
  rcases r with e | ⟨⟩ <;> rfl

end Sys

/-! ## The listener -/

/-- What has made a descriptor listen. -/
structure Listening (fd : Fd) (calls : List Call) : Prop where
  socket : .socket (.ok fd) ∈ calls
  bind : ∃ endpoint, .bind fd endpoint (.ok ()) ∈ calls
  listen : .listen fd Listener.backlog (.ok ()) ∈ calls
  smooth : Smooth calls

theorem Listening.mono {fd : Fd} {calls more : List Call} (H : Listening fd calls)
    (h : calls ⊆ more) (hs : Smooth more) : Listening fd more :=
  ⟨h H.socket, H.bind.imp fun _ hb => h hb, h H.listen, hs⟩

namespace Listener
variable (k : Kernel)

theorem addresses_onward (hostname : String) :
    ∃ r calls k', addresses hostname k = (r, k') ∧ k.Onward calls k' ∧ Private calls ∧
      Smooth calls := by
  cases ht : Net.Address.ofText? hostname with
  | some address =>
    exact ⟨_, [], k, by simp only [addresses, ht]; rfl, .refl k, private_nil, smooth_nil⟩
  | none =>
    by_cases hn : Char.ofNat 0 ∈ hostname.toList
    · exact ⟨.error (.nulInHostname hostname), [], k, by simp [addresses, ht, hn], .refl k,
        private_nil, smooth_nil⟩
    · obtain ⟨r, k₁, h, H⟩ := Sys.lookup_onward k hostname
      exact ⟨r.mapError (.lookup hostname), _, k₁, by simp [addresses, ht, hn, h], H,
        by simp [Call.isHandoff], by simp [Call.failed]⟩

theorem resolve_onward (hostname : Option String) (port : Nat) :
    ∃ r calls k', resolve hostname port k = (r, k') ∧ k.Onward calls k' ∧ Private calls ∧
      Smooth calls := by
  cases hostname with
  | none => exact ⟨_, [], k, rfl, .refl k, private_nil, smooth_nil⟩
  | some hostname =>
    obtain ⟨r, calls, k₁, h, H, hp, hs⟩ := addresses_onward k hostname
    rcases r with e | list
    · exact ⟨.error e, calls, k₁, by simp [resolve, h], H, hp, hs⟩
    cases hf : list.findSome? Net.Address.ipv4? with
    | none => exact ⟨.error (.noIPv4 hostname), calls, k₁, by simp [resolve, h, hf], H, hp, hs⟩
    | some ip => exact ⟨.ok ⟨ip, port⟩, calls, k₁, by simp [resolve, h, hf], H, hp, hs⟩

theorem prepare_onward (fd : Fd) (endpoint : Net.Endpoint) :
    ∃ r calls k', prepare fd endpoint k = (r, k') ∧ k.Onward calls k' ∧ Private calls ∧
      (r = .ok () → calls = [.reuseAddress fd (.ok ()), .bind fd endpoint (.ok ()),
        .listen fd backlog (.ok ())]) := by
  obtain ⟨r₁, k₁, h₁, H₁⟩ := Sys.reuseAddress_onward k fd
  rcases r₁ with e | ⟨⟩
  · exact ⟨.error (.reuseAddress e), _, k₁, by simp [prepare, h₁], H₁, by simp [Call.isHandoff],
      nofun⟩
  obtain ⟨r₂, k₂, h₂, H₂⟩ := Sys.bind_onward k₁ fd endpoint
  rcases r₂ with e | ⟨⟩
  · exact ⟨.error (.bind endpoint e), _, k₂, by simp [prepare, h₁, h₂], H₁.trans H₂,
      by simp [Call.isHandoff], nofun⟩
  obtain ⟨r₃, k₃, h₃, H₃⟩ := Sys.listen_onward k₂ fd backlog
  refine ⟨r₃.mapError (.listen endpoint), _, k₃, by simp [prepare, h₁, h₂, h₃],
    (H₁.trans H₂).trans H₃, by simp [Call.isHandoff], ?_⟩
  rcases r₃ with e | ⟨⟩
  · nofun
  · exact fun _ => rfl

theorem create_onward (hostname : Option String) (port : Nat) :
    ∃ r calls k', create hostname port k = (r, k') ∧ k.Onward calls k' ∧ Private calls ∧
      ∀ fd, r = .ok fd → Listening fd calls := by
  obtain ⟨r₁, calls₁, k₁, h₁, H₁, hp₁, hs₁⟩ := resolve_onward k hostname port
  rcases r₁ with e | endpoint
  · exact ⟨.error e, _, k₁, by simp [create, h₁], H₁, hp₁, nofun⟩
  obtain ⟨r₂, k₂, h₂, H₂⟩ := Sys.socket_onward k₁
  rcases r₂ with e | fd
  · exact ⟨.error (.socket e), _, k₂, by simp [create, h₁, h₂], H₁.trans H₂,
      by simp [hp₁, Call.isHandoff], nofun⟩
  obtain ⟨r₃, calls₃, k₃, h₃, H₃, hp₃, hs₃⟩ := prepare_onward k₂ fd endpoint
  have H := (H₁.trans H₂).trans H₃
  rcases r₃ with e | ⟨⟩
  · obtain ⟨r₄, k₄, h₄, H₄⟩ := Sys.close_onward k₃ fd
    exact ⟨.error e, _, k₄, by simp [create, h₁, h₂, h₃, h₄], H.trans H₄,
      by simp [hp₁, hp₃, Call.isHandoff], nofun⟩
  refine ⟨.ok fd, _, k₃, by simp [create, h₁, h₂, h₃], H, by simp [hp₁, hp₃, Call.isHandoff], ?_⟩
  rintro _ ⟨⟩
  rw [hs₃ rfl]
  exact ⟨by simp, ⟨endpoint, by simp⟩, by simp, by simp [hs₁, Call.failed]⟩

end Listener

/-! ## Going into the background -/

/-- Descriptors that were inherited are closed, up to the limit that the process has. -/
def Swept (k : Kernel) (keep : List Fd) (calls : List Call) : Prop :=
  ∃ limit, (Sys.descriptorLimit k).1 = .ok limit ∧ Daemon.stderr < Daemon.sweepBound limit ∧
    calls = (Daemon.swept keep (Daemon.sweepBound limit)).map .close

namespace Daemon

theorem closeAll_onward (fds : List Fd) (k : Kernel) :
    ∃ k', closeAll fds k = ((), k') ∧ k.Onward (fds.map .close) k' := by
  induction fds generalizing k with
  | nil => exact ⟨k, rfl, .refl k⟩
  | cons fd fds ih =>
    obtain ⟨r, k₁, h₁, H₁⟩ := Sys.close_onward k fd
    obtain ⟨k₂, h₂, H₂⟩ := ih k₁
    have h : closeAll (fd :: fds) k = closeAll fds (Sys.close fd k).2 := rfl
    exact ⟨k₂, by rw [h, h₁, h₂], H₁.trans H₂⟩

theorem private_closes (fds : List Fd) : Private (fds.map .close) := by
  simp [Private, Call.isHandoff]

theorem smooth_closes (fds : List Fd) : Smooth (fds.map .close) := by
  simp [Smooth, Call.failed]

/-- The limit is the one that the process begins with. -/
theorem closeInherited_follows {k k₁ : Kernel} {before : List Call} (H : k.Onward before k₁)
    (keep : List Fd) :
    ∃ r calls k', closeInherited keep k₁ = (r, k') ∧ k.Follows (before ++ calls) k' ∧
      Private calls ∧ (r = .ok () → Swept k keep calls) := by
  obtain ⟨k₂, h₂, H₂⟩ := Sys.descriptorLimit_follows k H
  cases hl : (Sys.descriptorLimit k).1 with
  | error e =>
    exact ⟨.error (.limit e), [], k₂, by simp [closeInherited, h₂, hl], by simpa using H₂,
      private_nil, nofun⟩
  | ok limit =>
    by_cases hb : sweepBound limit ≤ stderr
    · exact ⟨.error (.limitTooLow (sweepBound limit)), [], k₂,
        by simp [closeInherited, h₂, hl, hb], by simpa using H₂, private_nil, nofun⟩
    · obtain ⟨k₃, h₃, H₃⟩ := closeAll_onward (swept keep (sweepBound limit)) k₂
      exact ⟨.ok (), _, k₃, by simp [closeInherited, h₂, hl, hb, h₃], H₂.trans H₃.toFollows,
        private_closes _, fun _ => ⟨limit, hl, Nat.lt_of_not_le hb, rfl⟩⟩

theorem prepare_onward (k : Kernel) :
    ∃ r calls k', prepare k = (r, k') ∧ k.Onward calls k' ∧ Private calls ∧
      ∀ d, r = .ok d →
        calls = [.pipe (.ok (d.lifelineReader, d.lifelineWriter)), .openNull (.ok d.null)] := by
  obtain ⟨r₁, k₁, h₁, H₁⟩ := Sys.pipe_onward k
  rcases r₁ with e | ⟨reader, writer⟩
  · exact ⟨.error (.pipe e), _, k₁, by simp [prepare, h₁], H₁, by simp [Call.isHandoff], nofun⟩
  obtain ⟨r₂, k₂, h₂, H₂⟩ := Sys.openNull_onward k₁
  rcases r₂ with e | null
  · exact ⟨.error (.openNull e), _, k₂, by simp [prepare, h₁, h₂], H₁.trans H₂,
      by simp [Call.isHandoff], nofun⟩
  refine ⟨.ok ⟨reader, writer, null⟩, _, k₂, by simp [prepare, h₁, h₂], H₁.trans H₂,
    by simp [Call.isHandoff], ?_⟩
  rintro _ ⟨⟩
  rfl

/-- How the leader of the new session goes on: it fails, or it leaves the rest to a child, or it is
that child. -/
inductive Leaves (d : Daemon) : List Call → Except DaemonError Stage → Prop
  | failed {calls : List Call} {e : DaemonError}
    (h : ∀ call ∈ handoff calls, ∃ e, call = .fork (.error e)) : Leaves d calls (.error e)
  | done {calls : List Call} {child : Nat} (hc : 0 < child)
    (h : handoff calls = [.fork (.ok child)]) : Leaves d calls (.ok (.done 0))
  | daemon : Leaves d
    [.createSession (.ok ()), .setSignal .hangup .ignore (.ok ()), .fork (.ok 0)]
    (.ok (.daemon d))

theorem leaveSession_onward (d : Daemon) (k : Kernel) :
    ∃ r calls k', leaveSession d k = (r, k') ∧ k.Onward calls k' ∧ Leaves d calls r := by
  obtain ⟨r₁, k₁, h₁, H₁⟩ := Sys.createSession_onward k
  rcases r₁ with e | ⟨⟩
  · exact ⟨.error (.session e), _, k₁, by simp [leaveSession, h₁], H₁,
      .failed (by simp [handoff, Call.isHandoff])⟩
  obtain ⟨r₂, k₂, h₂, H₂⟩ := Sys.setSignal_onward k₁ .hangup .ignore
  rcases r₂ with e | ⟨⟩
  · exact ⟨.error (.ignoreHangup e), _, k₂, by simp [leaveSession, h₁, h₂], H₁.trans H₂,
      .failed (by simp [handoff, Call.isHandoff])⟩
  obtain ⟨r₃, k₃, h₃, H₃⟩ := Sys.fork_onward k₂
  have H := (H₁.trans H₂).trans H₃
  rcases r₃ with e | _ | child
  · exact ⟨.error (.fork e), _, k₃, by simp [leaveSession, h₁, h₂, h₃], H,
      .failed (by simp [handoff, Call.isHandoff])⟩
  · exact ⟨.ok (.daemon d), _, k₃, by simp [leaveSession, h₁, h₂, h₃], H, .daemon⟩
  · have hexit : k₃.Onward [.exit 0] (Sys.exit 0 k₃).2 := .made rfl rfl rfl
    exact ⟨.ok (.done 0), _, _, by simp [leaveSession, h₁, h₂, h₃], H.trans hexit,
      .done (Nat.succ_pos child) rfl⟩

/-- A step that concerns this process only, and cannot make a start fail. -/
def Quietly (p : Sys Unit) : Prop :=
  ∀ k, ∃ calls k', p k = ((), k') ∧ k.Onward calls k' ∧ Private calls ∧ Smooth calls

theorem Quietly.skip : Quietly (pure ()) := fun k => ⟨[], k, rfl, .refl k, private_nil, smooth_nil⟩

theorem complain_quietly (text : String) (result : Outcome) : Quietly (complain text result) := by
  rcases result with e | ⟨⟩
  · intro k
    obtain ⟨k₁, h, H⟩ :=
      Sys.print_onward k .stderr ("warning: " ++ text ++ ": " ++ e.labelled ++ "\n")
    exact ⟨_, k₁, h, H, by simp [Call.isHandoff], by simp [Call.failed]⟩
  · exact .skip

/-- A call is made, with a complaint if it fails, and then it goes on quietly. -/
theorem Quietly.complained (text : String) {p : Sys Outcome} {q : Sys Unit}
    {entry : Outcome → Call} (hp : ∀ k, ∃ r k', p k = (r, k') ∧ k.Onward [entry r] k')
    (hh : ∀ r, (entry r).isHandoff = false) (hf : ∀ r, (entry r).failed = false)
    (H : Quietly q) : Quietly (do complain text (← p); q) := by
  intro k
  obtain ⟨r, k₁, h₁, H₁⟩ := hp k
  obtain ⟨told, k₂, h₂, H₂, hp₂, hs₂⟩ := complain_quietly text r k₁
  obtain ⟨calls, k₃, h₃, H₃, hp₃, hs₃⟩ := H k₂
  exact ⟨_, k₃, by simp [h₁, h₂, h₃], (H₁.trans H₂).trans H₃, by simp [hh, hp₂, hp₃],
    by simp [hf, hs₂, hs₃]⟩

/-- The exit code for a child that was never ready, by how it has ended. -/
def childCode : Except Errno Sys.ProcessStatus → Nat
  | .ok (.exited code) => if code = 0 then 1 else code
  | _ => 1

/-- The exit code of the first process, by what it has read and how its child has ended. -/
def originCode (read : Except Errno Nat) (status : Except Errno Sys.ProcessStatus) : Nat :=
  match read with
  | .ok 1 => 0
  | _ => childCode status

/-- The exit code of a process that could not wait for its child is that of a failure. -/
def codeOf : Except DaemonError Nat → Nat
  | .error _ => 1
  | .ok code => code

variable {k k₁ : Kernel} {before : List Call}

theorem died_trace (H : k.Follows before k₁) (child : Nat) :
    ∃ r k', awaitReady.died child k₁ = (r, k') ∧
      k'.trace = k.trace ++ (before ++ [Call.waitProcess child]).toArray ∧
      codeOf r = childCode (Sys.waitProcess child k).1 := by
  obtain ⟨k', h, ht⟩ := Sys.waitProcess_follows k H child
  cases hs : (Sys.waitProcess child k).1 with
  | error e => exact ⟨.error (.waitProcess child e), k', by simp [awaitReady.died, h, hs], ht, rfl⟩
  | ok status =>
    cases status with
    | exited code =>
      exact ⟨.ok (if code = 0 then 1 else code), k', by simp [awaitReady.died, h, hs], ht, rfl⟩
    | running | signaled _ => exact ⟨.ok 1, k', by simp [awaitReady.died, h, hs], ht, rfl⟩

theorem awaitReady_trace (H : k.Follows before k₁) (d : Daemon) (child : Nat) :
    ∃ read r calls k', awaitReady d child k₁ = (r, k') ∧
      k'.trace = k.trace ++ (before ++ calls).toArray ∧
      handoff calls = [.read d.lifelineReader 1 read] ∧
      codeOf r = originCode read (Sys.waitProcess child k).1 := by
  obtain ⟨r₂, k₂, h₂, H₂⟩ := Sys.close_onward k₁ d.lifelineWriter
  obtain ⟨told, k₃, h₃, H₃, hp₃, -⟩ :=
    complain_quietly "failed to close lifeline in parent" r₂ k₂
  obtain ⟨read, k₄, h₄, H₄⟩ := Sys.read_onward k₃ d.lifelineReader 1
  let calls : List Call := .close d.lifelineWriter :: told ++ [.read d.lifelineReader 1 read]
  have H' : k.Follows (before ++ calls) k₄ := by
    simpa [calls] using ((H.trans H₂.toFollows).trans H₃.toFollows).trans H₄.toFollows
  have hcalls : handoff calls = [.read d.lifelineReader 1 read] := by
    simp [calls, Call.isHandoff, hp₃.handoff]
  have hdied {more : List Call} {k₅ : Kernel} (H₅ : k.Follows (before ++ calls ++ more) k₅)
      (hp : Private more) (hc : originCode read = childCode)
      (h : awaitReady d child k₁ = awaitReady.died child k₅) :
      ∃ r calls k', awaitReady d child k₁ = (r, k') ∧
        k'.trace = k.trace ++ (before ++ calls).toArray ∧
        handoff calls = [.read d.lifelineReader 1 read] ∧
        codeOf r = originCode read (Sys.waitProcess child k).1 := by
    obtain ⟨r, k', h', ht, hr⟩ := died_trace H₅ child
    exact ⟨r, calls ++ more ++ [.waitProcess child], k', h.trans h', by simpa using ht,
      by simp [hcalls, hp.handoff, Call.isHandoff], hc ▸ hr⟩
  refine ⟨read, ?_⟩
  rcases read with e | n
  · obtain ⟨told', k₅, h₅, H₅, hp₅, -⟩ :=
      complain_quietly "failed read lifeline in parent" (.error e) k₄
    exact hdied (H'.trans H₅.toFollows) hp₅ rfl (by simp [awaitReady, h₂, h₃, h₄, h₅])
  match n with
  | 1 => exact ⟨.ok 0, calls, k₄, by simp [awaitReady, h₂, h₃, h₄], H'.trace, hcalls, rfl⟩
  | 0 | n + 2 =>
    exact hdied (by simpa using H') private_nil rfl (by simp [awaitReady, h₂, h₃, h₄])

/-- All calls that make a daemon of a process, once inherited descriptors are closed. -/
def departure (sweep : List Call) (d : Daemon) : List Call :=
  sweep ++ [.setUmask umask, .pipe (.ok (d.lifelineReader, d.lifelineWriter)),
    .openNull (.ok d.null), .fork (.ok 0), .createSession (.ok ()),
    .setSignal .hangup .ignore (.ok ()), .fork (.ok 0)]

theorem handoff_departure {keep : List Fd} {sweep : List Call} (hs : Swept k keep sweep)
    (d : Daemon) : handoff (departure sweep d) = [.fork (.ok 0), .fork (.ok 0)] := by
  obtain ⟨limit, -, -, rfl⟩ := hs
  simp [departure, (private_closes _).handoff, Call.isHandoff]

theorem smooth_departure {keep : List Fd} {sweep : List Call} (hs : Swept k keep sweep)
    (d : Daemon) : Smooth (departure sweep d) := by
  obtain ⟨limit, -, -, rfl⟩ := hs
  simp [departure, smooth_closes, Call.failed]

/-- What becomes of a process that goes into the background: it fails, or it is one of the three
that are there then. -/
inductive Starts (k : Kernel) (keep : List Fd) : List Call → Except DaemonError Stage → Prop
  | failed {calls : List Call} {e : DaemonError}
    (h : ∀ call ∈ handoff calls, call = .fork (.ok 0) ∨ ∃ e, call = .fork (.error e)) :
    Starts k keep calls (.error e)
  | origin {calls : List Call} {reader writer : Fd} {child : Nat} {read : Except Errno Nat}
    {result : Except DaemonError Nat} (hc : 0 < child)
    (hp : .pipe (.ok (reader, writer)) ∈ calls)
    (h : handoff calls = [.fork (.ok child), .read reader 1 read])
    (hr : codeOf result = originCode read (Sys.waitProcess child k).1) :
    Starts k keep calls (result.map .done)
  | leader {calls : List Call} {child : Nat} (hc : 0 < child)
    (h : handoff calls = [.fork (.ok 0), .fork (.ok child)]) : Starts k keep calls (.ok (.done 0))
  | daemon {sweep : List Call} {d : Daemon} (hs : Swept k keep sweep) :
    Starts k keep (departure sweep d) (.ok (.daemon d))

theorem start_starts (H : k.Onward before k₁) (keep : List Fd) :
    ∃ r calls k', Daemon.start keep k₁ = (r, k') ∧
      k'.trace = k.trace ++ (before ++ calls).toArray ∧ Starts k keep calls r ∧
      ∀ d, r = .ok (.daemon d) → k.Follows (before ++ calls) k' := by
  obtain ⟨r₂, sweep, k₂, h₂, H₂, hp₂, hs⟩ := closeInherited_follows H keep
  rcases r₂ with e | ⟨⟩
  · exact ⟨.error e, _, k₂, by simp [Daemon.start, h₂], H₂.trace, .failed (by simp [hp₂.handoff]),
      nofun⟩
  have humask : k₂.Onward [.setUmask umask] (Sys.setUmask umask k₂).2 := .made rfl rfl rfl
  obtain ⟨r₃, calls₃, k₃, h₃, H₃, hp₃, hs₃⟩ := prepare_onward (Sys.setUmask umask k₂).2
  have H₃ := (H₂.trans humask.toFollows).trans H₃.toFollows
  have hp : Private (sweep ++ [.setUmask umask] ++ calls₃) := by simp [hp₂, hp₃, Call.isHandoff]
  simp only [List.append_assoc] at H₃ hp
  rcases r₃ with e | d
  · exact ⟨.error e, _, k₃, by simp [Daemon.start, h₂, h₃], H₃.trace,
      .failed (by simp only [hp.handoff]; simp), nofun⟩
  obtain ⟨r₄, k₄, h₄, H₄⟩ := Sys.fork_onward k₃
  have H₄ := H₃.trans H₄.toFollows
  have hpipe : Call.pipe (.ok (d.lifelineReader, d.lifelineWriter)) ∈ calls₃ := by
    rw [hs₃ d rfl]
    exact List.mem_cons_self
  have hhandoff (r : Except Errno Nat) (more : List Call) :
      handoff (sweep ++ .setUmask umask :: calls₃ ++ .fork r :: more) =
        .fork r :: handoff more := by
    rw [handoff_append, Private.handoff (by simpa using hp)]
    rfl
  rcases r₄ with e | _ | child
  · refine ⟨.error (.fork e), sweep ++ .setUmask umask :: calls₃ ++ [.fork (.error e)], k₄,
      by simp [Daemon.start, h₂, h₃, h₄], by simpa using H₄.trace, .failed ?_, nofun⟩
    rw [hhandoff]
    simp
  · obtain ⟨r₅, calls₅, k₅, h₅, H₅, hl⟩ := leaveSession_onward d k₄
    have H₅ := H₄.trans H₅.toFollows
    refine ⟨r₅, sweep ++ .setUmask umask :: calls₃ ++ .fork (.ok 0) :: calls₅, k₅,
      by simp [Daemon.start, h₂, h₃, h₄, h₅], by simpa using H₅.trace, ?_,
      fun _ _ => by simpa using H₅⟩
    cases hl with
    | failed h =>
      refine .failed ?_
      rw [hhandoff]
      exact List.forall_mem_cons.2 ⟨.inl rfl, fun call hcall => .inr (h call hcall)⟩
    | done hc h => exact .leader hc (by rw [hhandoff, h])
    | daemon =>
      rw [hs₃ d rfl]
      simpa [departure] using Starts.daemon (d := d) (hs rfl)
  · obtain ⟨read, r₅, calls₅, k₅, h₅, ht₅, hh₅, hr₅⟩ := awaitReady_trace H₄ d (child + 1)
    have hpipe : Call.pipe (.ok (d.lifelineReader, d.lifelineWriter)) ∈
        sweep ++ .setUmask umask :: calls₃ ++ .fork (.ok (child + 1)) :: calls₅ := by
      simp [hs₃ d rfl]
    refine ⟨r₅.map .done, _, k₅, by simp [Daemon.start, h₂, h₃, h₄, h₅], by simpa using ht₅,
      .origin (Nat.succ_pos child) hpipe (by rw [hhandoff, hh₅]) hr₅, ?_⟩
    rcases r₅ with e | code <;> nofun

/-- Lets go of the lifeline and of the standard streams. -/
def detach (d : Daemon) : Sys Unit := do
  complain "failed to cut the lifeline" (← Sys.close d.lifelineWriter)
  complain "failed to close stdin" (← Sys.duplicate d.null stdin)
  complain "failed to close stdout" (← Sys.duplicate d.null stdout)
  complain "failed to close stderr" (← Sys.duplicate d.null stderr)
  if stderr < d.null then discard (Sys.close d.null)

theorem detach_quietly (d : Daemon) : Quietly (detach d) := by
  have hdup (target : Fd) (k : Kernel) := Sys.duplicate_onward k d.null target
  have hclose : Quietly (if stderr < d.null then discard (Sys.close d.null) else pure ()) := by
    split
    · intro k
      obtain ⟨r, k', h, H⟩ := Sys.close_onward k d.null
      have hd : (discard (Sys.close d.null) : Sys Unit) k = ((), (Sys.close d.null k).2) := rfl
      exact ⟨_, k', by rw [hd, h], H, by simp [Call.isHandoff], by simp [Call.failed]⟩
    · exact .skip
  have hwriter (k : Kernel) := Sys.close_onward k d.lifelineWriter
  exact .complained _ hwriter (fun _ => rfl) (fun _ => rfl) <|
    .complained _ (hdup stdin) (fun _ => rfl) (fun _ => rfl) <|
    .complained _ (hdup stdout) (fun _ => rfl) (fun _ => rfl) <|
    .complained _ (hdup stderr) (fun _ => rfl) (fun _ => rfl) hclose

/-- Reporting is writing one byte to the lifeline; what else is done concerns this process only. -/
theorem finish_onward (d : Daemon) (k : Kernel) :
    ∃ r told written after k', finish d k = (r, k') ∧
      k.Onward (told ++ .write d.lifelineWriter [1] written :: after) k' ∧
      Private told ∧ Private after ∧ Smooth told ∧ Smooth after := by
  obtain ⟨r₁, k₁, h₁, H₁⟩ := Sys.close_onward k d.lifelineReader
  obtain ⟨told, k₂, h₂, H₂, hp₂, hs₂⟩ :=
    complain_quietly "failed to close read end of lifeline in child" r₁ k₁
  obtain ⟨written, k₃, h₃, H₃⟩ := Sys.write_onward k₂ d.lifelineWriter [1]
  have H := (H₁.trans H₂).trans H₃
  have hp : Private ([.close d.lifelineReader] ++ told) := by simp [hp₂, Call.isHandoff]
  have hs : Smooth ([.close d.lifelineReader] ++ told) := by simp [hs₂, Call.failed]
  rcases written with e | n
  · exact ⟨.error (.readiness e), _, _, [], k₃, by simp [finish, h₁, h₂, h₃], H, hp, private_nil,
      hs, smooth_nil⟩
  · obtain ⟨after, k₄, h₄, H₄, hp₄, hs₄⟩ := detach_quietly d k₃
    have h : finish d k = (.ok (), (detach d k₃).2) := by
      simp only [finish, detach, StateM.bind_apply, h₁, h₂, h₃]
      split <;> rfl
    exact ⟨.ok (), _, _, after, k₄, by rw [h, h₄], by simpa using H.trans H₄, hp, hp₄, hs, hs₄⟩

end Daemon

end OnePage
