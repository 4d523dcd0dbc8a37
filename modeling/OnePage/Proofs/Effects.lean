import OnePage.Proofs.Messages
import OnePage.Server.Serve

/-! # What calls do to the kernel

A call is an equation `f k = (a, k')` and the relation of `k'` to `k`. Most calls leave the
descriptors and the event queue alone, and only lengthen the trace (`Kernel.Extends`); the others
do the same to a kernel with one of them changed. A failed call changes nothing else. -/

namespace OnePage

/-! ## Changes to the kernel -/

theorem Table.erase_erase {α : Type} (t : Table α) (k : Nat) :
    (t.erase k).erase k = t.erase k := Table.ext fun j => by
  simp only [Table.get?_erase]
  split <;> rfl

theorem Table.erase_insert {α : Type} (t : Table α) (k : Nat) (v : α) :
    (t.insert k v).erase k = t.erase k := Table.ext fun j => by
  simp only [Table.get?_erase, Table.get?_insert]
  split <;> rfl

theorem Table.insert_insert {α : Type} (t : Table α) (k : Nat) (v w : α) :
    (t.insert k v).insert k w = t.insert k w := Table.ext fun j => by
  simp only [Table.get?_insert]
  split <;> rfl

theorem Table.erase_eq_self {α : Type} {t : Table α} {k : Nat} (h : t.get? k = none) :
    t.erase k = t := Table.ext fun j => by
  rw [Table.get?_erase]
  split
  · rename_i hj
    rw [hj, h]
  · rfl

namespace Kernel

/-- `k'` is what `calls` make of `k`, none of which opens, closes or watches anything. -/
structure Extends (k : Kernel) (calls : List Call) (k' : Kernel) : Prop where
  descriptors : k'.descriptors = k.descriptors
  watches : k'.watches = k.watches
  clock : k'.clock = k.clock
  epoch : k'.epoch = k.epoch
  drift : k'.drift = k.drift
  zone : k'.zone = k.zone
  walk : k'.walk = k.walk
  stopped : k'.stopped = k.stopped
  trace : k'.trace = k.trace ++ calls.toArray
  carries : Carries k.unwritten calls k'.unwritten
  heard (h : k.Heard) : k'.Heard ∧ ∀ call ∈ calls, call.isBreak = false

def opened (k : Kernel) (fd : Fd) (resource : Resource) : Kernel :=
  { k with descriptors := k.descriptors.insert fd resource }

def watch (k : Kernel) (fd : Fd) (w : Watch) : Kernel :=
  { k with watches := k.watches.insert fd w }

def unwatch (k : Kernel) (fd : Fd) : Kernel := { k with watches := k.watches.erase fd }

def closed (k : Kernel) (fd : Fd) : Kernel :=
  { k with descriptors := k.descriptors.erase fd, watches := k.watches.erase fd }

/-- A change that a call makes if it succeeds. -/
def onSuccess (k : Kernel) (result : Outcome) (change : Kernel → Kernel) : Kernel :=
  match result with
  | .ok () => change k
  | .error _ => k

@[simp] theorem onSuccess_ok (k : Kernel) (change : Kernel → Kernel) :
    k.onSuccess (.ok ()) change = change k := rfl

@[simp] theorem onSuccess_error (k : Kernel) (e : Errno) (change : Kernel → Kernel) :
    k.onSuccess (.error e) change = k := rfl

/-- Closing a descriptor ends what it is watched for, whether or not that was ended before. -/
theorem closed_unwatch (k : Kernel) (fd : Fd) (result : Outcome) :
    (k.onSuccess result (·.unwatch fd)).closed fd = k.closed fd := by
  rcases result with _ | ⟨⟩
  · rfl
  · simp only [onSuccess, closed, unwatch, Table.erase_erase]

/-- A descriptor that was free is free again once it is closed. -/
theorem closed_opened {k : Kernel} {fd : Fd} (H : k.descriptors.get? fd = none)
    (resource : Resource) : (k.opened fd resource).closed fd = k.unwatch fd := by
  have h : (k.descriptors.insert fd resource).erase fd = k.descriptors := Table.ext fun j => by
    simp only [Table.get?_erase, Table.get?_insert]
    split
    · rename_i h; rw [h, H]
    · rfl
  simp only [opened, closed, unwatch, h]

namespace Extends
variable {k k' k'' : Kernel} {calls more : List Call}

/-- Nothing that counts here has changed. -/
theorem of_eq (h : k' = { k with
    incoming := k'.incoming, pending := k'.pending, forced := k'.forced, files := k'.files })
    (hf : ∀ call, k'.forced call ⊆ k.forced call) : k.Extends [] k' := by
  have hheard (H : k.Heard) : k'.Heard := fun stream reply hreply => H stream reply (hf _ hreply)
  rw [h] at hheard ⊢
  exact ⟨rfl, rfl, rfl, rfl, rfl, rfl, rfl, rfl, by simp, .refl _,
    fun H => ⟨hheard H, List.forall_mem_nil _⟩⟩

theorem refl (k : Kernel) : k.Extends [] k := .of_eq rfl fun _ => List.Subset.refl _

theorem trans (H : k.Extends calls k') (H' : k'.Extends more k'') :
    k.Extends (calls ++ more) k'' where
  descriptors := H'.descriptors.trans H.descriptors
  watches := H'.watches.trans H.watches
  clock := H'.clock.trans H.clock
  epoch := H'.epoch.trans H.epoch
  drift := H'.drift.trans H.drift
  zone := H'.zone.trans H.zone
  walk := H'.walk.trans H.walk
  stopped := H'.stopped.trans H.stopped
  trace := by rw [H'.trace, H.trace]; simp
  carries := H.carries.trans H'.carries
  heard h := by
    obtain ⟨h', hcalls⟩ := H.heard h
    obtain ⟨h'', hmore⟩ := H'.heard h'
    exact ⟨h'', List.forall_mem_append.2 ⟨hcalls, hmore⟩⟩

protected theorem opened (H : k.Extends calls k') (fd : Fd) (resource : Resource) :
    (k.opened fd resource).Extends calls (k'.opened fd resource) :=
  { H with descriptors := by simp [Kernel.opened, H.descriptors] }

protected theorem watch (H : k.Extends calls k') (fd : Fd) (w : Watch) :
    (k.watch fd w).Extends calls (k'.watch fd w) :=
  { H with watches := by simp [Kernel.watch, H.watches] }

protected theorem unwatch (H : k.Extends calls k') (fd : Fd) :
    (k.unwatch fd).Extends calls (k'.unwatch fd) :=
  { H with watches := by simp [Kernel.unwatch, H.watches] }

protected theorem closed (H : k.Extends calls k') (fd : Fd) :
    (k.closed fd).Extends calls (k'.closed fd) :=
  { H with
    descriptors := by simp [Kernel.closed, H.descriptors]
    watches := by simp [Kernel.closed, H.watches] }

theorem secondsAt (H : k.Extends calls k') (n : Nat) : k'.secondsAt n = k.secondsAt n := by
  simp only [Kernel.secondsAt, H.epoch, H.clock, H.drift]

theorem size (H : k.Extends calls k') : k'.trace.size = k.trace.size + calls.length := by
  simp [H.trace]

/-- Calls that have nothing to do with the log are made, which may take what sockets give. -/
theorem of_made (h : ∀ call ∈ calls, call.isLog = false)
    (hk : k' = { k with pending := k'.pending, trace := k.trace ++ calls.toArray }) :
    k.Extends calls k' := by
  rw [hk]
  exact ⟨rfl, rfl, rfl, rfl, rfl, rfl, rfl, rfl, rfl, .silent _ h,
    fun H => ⟨H, fun call hcall => Call.not_isBreak (h call hcall)⟩⟩

theorem record (k : Kernel) {call : Call} (h : call.isLog = false) :
    k.Extends [call] (Sys.record call k).2 :=
  .of_made (List.forall_mem_singleton.2 h) (by simp [Sys.record])

end Extends

end Kernel

/-- The calls that a step makes. -/
def Sys.calls {α : Type} (p : Sys α) (k : Kernel) : List Call :=
  (p k).2.trace.toList.drop k.trace.size

theorem Sys.calls_eq {α : Type} {p : Sys α} {k : Kernel} {calls : List Call}
    (h : (p k).2.trace = k.trace ++ calls.toArray) : p.calls k = calls := by
  simp [Sys.calls, h, ← Array.length_toList]

/-! ## Results laid down in advance -/

namespace Sys

theorem set_subset {k : Kernel} {call : SystemCall} {r : Option Reply} {rest : List (Option Reply)}
    (h : k.forced call = r :: rest) (c : SystemCall) :
    k.forced.set call rest c ⊆ k.forced c := by
  by_cases hc : c = call
  · rw [hc, Forced.set, if_pos rfl, h]
    exact List.subset_cons_self _ _
  · rw [Forced.set, if_neg hc]
    exact List.Subset.refl _

theorem reply_spec (call : SystemCall) (k : Kernel) :
    ∃ r k', reply call k = (r, k') ∧ k.Extends [] k' := by
  cases h : k.forced call with
  | nil => exact ⟨none, k, by simp [reply, h], .refl k⟩
  | cons r rest =>
    exact ⟨r, { k with forced := k.forced.set call rest }, by simp [reply, h],
      .of_eq rfl (set_subset h)⟩

theorem outcome_spec (call : SystemCall) (k : Kernel) :
    ∃ r k', outcome call k = (r, k') ∧ k.Extends [] k' := by
  obtain ⟨r, k', h, H⟩ := reply_spec call k
  refine ⟨(outcome call k).1, k', Prod.ext rfl ?_, H⟩
  simp only [outcome, StateM.bind_apply, h]
  split <;> rfl

theorem controlResult_spec (senseless : Bool) (e : Errno) (k : Kernel) :
    ∃ r k', controlResult senseless e k = (r, k') ∧ k.Extends [] k' := by
  obtain ⟨r, k', h, H⟩ := outcome_spec .epollControl k
  rcases r with e' | ⟨⟩
  · exact ⟨.error e', k', by simp [controlResult, h], H⟩
  · exact ⟨if senseless then .error e else .ok (), k', by simp [controlResult, h], H⟩

/-! ## The event queue -/

/-- A call on the event queue, by its result: the change it makes and the entry it leaves. -/
theorem control_spec (senseless : Bool) (e : Errno) {change : Kernel → Kernel}
    (hchange : ∀ {k calls k'}, k.Extends calls k' → (change k).Extends calls (change k'))
    {call : Outcome → Call} (hcall : ∀ r, (call r).isLog = false) (k : Kernel) :
    ∃ r k', (do
      let result ← controlResult senseless e
      if result.isOk then modify change
      record (call result)
      return result : Sys Outcome) k = (r, k') ∧ (k.onSuccess r change).Extends [call r] k' := by
  obtain ⟨r, k', h, H⟩ := controlResult_spec senseless e k
  rcases r with e | ⟨⟩
  · exact ⟨.error e, _, by simp [h, Except.isOk, Except.toBool], H.trans (.record k' (hcall _))⟩
  · exact ⟨.ok (), _, by simp [h, Except.isOk, Except.toBool],
      (hchange H).trans (.record _ (hcall _))⟩

theorem add_spec (fd : Fd) (token : Token) (conditions : Conditions) (k : Kernel) :
    ∃ r k', add fd token conditions k = (r, k') ∧
      (k.onSuccess r (·.watch fd ⟨token, conditions⟩)).Extends [.add fd token conditions r] k' :=
  control_spec _ _ (fun H => H.watch fd _) (fun _ => rfl) k

theorem modifyWatch_spec (fd : Fd) (token : Token) (conditions : Conditions) (k : Kernel) :
    ∃ r k', modifyWatch fd token conditions k = (r, k') ∧
      (k.onSuccess r (·.watch fd ⟨token, conditions⟩)).Extends
        [.modify fd token conditions r] k' :=
  control_spec _ _ (fun H => H.watch fd _) (fun _ => rfl) k

theorem delete_spec (fd : Fd) (k : Kernel) :
    ∃ r k', delete fd k = (r, k') ∧
      (k.onSuccess r (·.unwatch fd)).Extends [.delete fd r] k' :=
  control_spec _ _ (fun H => H.unwatch fd) (fun _ => rfl) k

theorem createQueue_spec (k : Kernel) :
    ∃ r k', createQueue k = (r, k') ∧ ∀ fd, r = .ok fd → k.descriptors.get? fd = none ∧
      (k.opened fd .eventQueue).Extends [.createQueue (.ok fd)] k' := by
  obtain ⟨r, k₁, h, H⟩ := reply_spec .epollCreate k
  by_cases hr : ∃ e, r = some (.fails e)
  · obtain ⟨e, rfl⟩ := hr
    refine ⟨.error e, (record (.createQueue (.error e)) k₁).2, ?_, fun fd h => by cases h⟩
    simp [createQueue, h]
  · let fd := k₁.descriptors.firstFree k₁.floor
    refine ⟨.ok fd, (record (.createQueue (.ok fd)) (k₁.opened fd .eventQueue)).2, ?_, ?_⟩
    · simp only [createQueue, StateM.bind_apply, h]
      split
      · exact absurd ⟨_, rfl⟩ hr
      · rfl
    · intro fd h
      cases h
      refine ⟨?_, (H.opened _ _).trans (.record _ rfl)⟩
      rw [← H.descriptors]
      exact Table.get?_firstFree ..

/-! ## Descriptors and sockets -/

theorem close_spec (fd : Fd) (k : Kernel) :
    ∃ r k', close fd k = (r, k') ∧ (k.closed fd).Extends [.close fd] k' := by
  obtain ⟨r, k', h, H⟩ := outcome_spec .close k
  exact ⟨r, _, by simp [close, h]; rfl, (H.closed fd).trans (.record _ rfl)⟩

theorem setNonblocking_spec (fd : Fd) (k : Kernel) :
    ∃ r k', setNonblocking fd k = (r, k') ∧ k.Extends [.setNonblocking fd r] k' :=
  ⟨_, _, rfl, .record k rfl⟩

/-- Calls to accept that were interrupted and made again. -/
def interruptions (listener : Fd) (n : Nat) : List Call :=
  List.replicate n (.accept listener (.error .EINTR))

/-- What accepting comes to: it fails, or a descriptor that was free is open. -/
inductive Accepted (k : Kernel) (listener : Fd) :
    Except Errno (Fd × Net.Endpoint) → Kernel → Prop
  | failed (n : Nat) {e : Errno} {k' : Kernel}
    (H : k.Extends (interruptions listener n ++ [.accept listener (.error e)]) k') :
    Accepted k listener (.error e) k'
  | opened (n : Nat) {fd : Fd} {peer : Net.Endpoint} {resource : Resource} {k' : Kernel}
    (hfree : k.descriptors.get? fd = none)
    (H : (k.opened fd resource).Extends
      (interruptions listener n ++ [.accept listener (.ok fd)]) k') :
    Accepted k listener (.ok (fd, peer)) k'

theorem Accepted.interrupted {k k₁ k' : Kernel} {listener : Fd}
    {result : Except Errno (Fd × Net.Endpoint)}
    (H : k.Extends [.accept listener (.error .EINTR)] k₁) (H' : Accepted k₁ listener result k') :
    Accepted k listener result k' := by
  cases H' with
  | failed n H' => exact .failed (n + 1) (H.trans H')
  | opened n hfree H' => exact .opened (n + 1) (H.descriptors ▸ hfree) ((H.opened _ _).trans H')

theorem acceptFrom_spec (listener : Fd) (incoming : List Incoming) (k : Kernel) :
    ∃ r k', acceptFrom listener incoming k = (r, k') ∧ Accepted k listener r k' := by
  have hset (k : Kernel) (rest : List Incoming) : k.Extends [] { k with incoming := rest } :=
    .of_eq rfl fun _ => List.Subset.refl _
  induction incoming generalizing k with
  | nil => exact ⟨_, _, rfl, .failed 0 ((hset k []).trans (.record _ rfl))⟩
  | cons first rest ih =>
    cases first with
    | fails e =>
      by_cases he : e = .EINTR
      · subst he
        obtain ⟨r, k', h, H⟩ := ih (record (.accept listener (.error .EINTR)) k).2
        exact ⟨r, k', h, H.interrupted (.record k rfl)⟩
      · refine ⟨.error e, _, ?_, .failed 0 ((hset k rest).trans (.record _ rfl))⟩
        simp only [acceptFrom]
        rfl
    | peer peer nonblocking =>
      have H :=
        (hset k rest).opened (k.descriptors.firstFree k.floor) (.connection peer nonblocking)
      exact ⟨_, _, rfl, .opened 0 (Table.get?_firstFree ..) (H.trans (.record _ rfl))⟩

theorem accept_spec (listener : Fd) (k : Kernel) :
    ∃ r k', accept listener k = (r, k') ∧ Accepted k listener r k' :=
  acceptFrom_spec listener k.incoming k

/-- Talking on a socket leaves what was done there, and nothing else, in the trace. -/
theorem exchange_spec {α : Type} (fd : Fd) (stats : Stats) (talk : Talk α) (k : Kernel) :
    ∃ pending, ∀ a x, talk { pending := pending, done := #[], stats := stats } = (a, x) →
      ∃ k', exchange fd stats talk k = ((a, x.stats), k') ∧
        k.Extends (x.done.toList.map (.operation fd)) k' := by
  refine ⟨(((k.watches.get? fd).map (·.token)).bind k.pending.get?).getD {}, fun a x h => ?_⟩
  refine ⟨_, by simp only [exchange, StateM.bind_apply, StateM.get_apply, StateT.run, h]; rfl, ?_⟩
  exact .of_made (by simp [Call.isLog]) (by simp [← Array.toList_map])

theorem usage_spec (k : Kernel) : ∃ r k', usage k = (r, k') ∧ k.Extends [] k' := by
  obtain ⟨r, k', h, H⟩ := reply_spec .getrusage k
  refine ⟨(usage k).1, k', Prod.ext rfl ?_, H⟩
  simp only [usage, StateM.bind_apply, h]
  split <;> rfl

theorem localAddress_spec (fd : Fd) (k : Kernel) :
    ∃ r k', localAddress fd k = (r, k') ∧ k.Extends [] k' := by
  obtain ⟨r, k', h, H⟩ := outcome_spec .getsockname k
  refine ⟨(localAddress fd k).1, k', Prod.ext rfl ?_, H⟩
  rcases r with e | ⟨⟩
  · simp [localAddress, h]
  · simp only [localAddress, StateM.bind_apply, h, StateM.get_apply]
    rcases k'.descriptors.get? fd with _ | resource
    · rfl
    · cases resource with
      | socket bound => cases bound <;> rfl
      | _ => rfl

/-- Time passes while a process waits, but what is open and watched stays so. -/
structure Waited (k : Kernel) (call : Call) (k' : Kernel) : Prop where
  descriptors : k'.descriptors = k.descriptors
  watches : k'.watches = k.watches
  unwritten : k'.unwritten = k.unwritten
  trace : k'.trace = k.trace.push call

/-- What is reported changes only what has come in. -/
theorem receive_eq (reports : List Report) (k : Kernel) :
    ∃ incoming pending, reports.foldl Kernel.receive k =
      { k with incoming := incoming, pending := pending } := by
  induction reports generalizing k with
  | nil => exact ⟨k.incoming, k.pending, rfl⟩
  | cons report reports ih =>
    obtain ⟨incoming, pending, h⟩ : ∃ incoming pending, k.receive report =
        { k with incoming := incoming, pending := pending } := by
      unfold Kernel.receive
      dsimp only
      split <;> exact ⟨_, _, rfl⟩
    obtain ⟨incoming', pending', h'⟩ := ih (k.receive report)
    refine ⟨incoming', pending', ?_⟩
    rw [List.foldl_cons, h', h]

theorem wait_spec (capacity : Nat) (timeout : Int) (round? : Option Round) (k : Kernel) :
    ∃ r k', wait capacity timeout round? k = (r, k') ∧
      Waited k (.wait capacity timeout (r.map List.length)) k' := by
  cases round? with
  | none => exact ⟨_, _, rfl, rfl, rfl, rfl, rfl⟩
  | some round =>
    cases h : round.failure with
    | some e =>
      refine ⟨.error e, (record (.wait capacity timeout (.error e)) (k.begin round)).2, ?_,
        rfl, rfl, rfl, rfl⟩
      simp [wait, h]
    | none =>
      let reports := round.reports.take capacity
      obtain ⟨incoming, pending, hk⟩ := receive_eq reports (k.begin round)
      refine ⟨.ok (reports.map (·.event)), (record (.wait capacity timeout (.ok reports.length))
        (reports.foldl Kernel.receive (k.begin round))).2, ?_, ?_⟩
      · simp [wait, h, reports]
      · rw [hk]
        refine ⟨rfl, rfl, rfl, ?_⟩
        simp [record, Except.map]
        rfl

end Sys

/-! ## Registering -/

namespace EventQueue

/-- The calls that register a descriptor, by their result. One that is watched already has what it
is watched for changed. -/
inductive Registration (fd : Fd) (token : Token) (interest : Interest) :
    Outcome → List Call → Prop
  | added : Registration fd token interest (.ok ()) [.add fd token interest.conditions (.ok ())]
  | refused {e : Errno} (he : e ≠ .EEXIST) :
    Registration fd token interest (.error e) [.add fd token interest.conditions (.error e)]
  | changed (result : Outcome) :
    Registration fd token interest result
      [.add fd token interest.conditions (.error .EEXIST),
        .modify fd token interest.conditions result]

theorem Registration.not_isLog {fd : Fd} {token : Token} {interest : Interest} {result : Outcome}
    {calls : List Call} (H : Registration fd token interest result calls) :
    ∀ call ∈ calls, call.isLog = false := by
  cases H <;> simp [Call.isLog]

theorem register_spec (fd : Fd) (token : Token) (interest : Interest) (k : Kernel) :
    ∃ r calls k', register fd token interest k = (r, k') ∧
      Registration fd token interest r calls ∧
      (k.onSuccess r (·.watch fd ⟨token, interest.conditions⟩)).Extends calls k' := by
  obtain ⟨r, k₁, h, H⟩ := Sys.add_spec fd token interest.conditions k
  rcases r with e | ⟨⟩
  · by_cases he : e = .EEXIST
    · subst he
      obtain ⟨r, k', h', H'⟩ := Sys.modifyWatch_spec fd token interest.conditions k₁
      refine ⟨r, _, k', by simp [register, reregister, h, h'], .changed r, ?_⟩
      rcases r with e | ⟨⟩
      · exact H.trans H'
      · exact (H.watch fd _).trans H'
    · refine ⟨.error e, _, k₁, ?_, .refused he, H⟩
      simp only [register, StateM.bind_apply, h]
      cases e <;> first | rfl | exact absurd rfl he
  · exact ⟨.ok (), _, k₁, by simp [register, h], .added, H⟩

/-- What forgetting a descriptor comes to: one that is not watched is forgotten already. -/
def forgotten : Outcome → Outcome
  | .error .ENOENT => .ok ()
  | deleted => deleted

theorem deregister_spec (fd : Fd) (k : Kernel) :
    ∃ deleted k', deregister fd k = (forgotten deleted, k') ∧
      (k.onSuccess deleted (·.unwatch fd)).Extends [.delete fd deleted] k' := by
  obtain ⟨deleted, k', h, H⟩ := Sys.delete_spec fd k
  refine ⟨deleted, k', ?_, H⟩
  simp only [deregister, StateM.bind_apply, h]
  unfold forgotten
  split <;> simp_all

end EventQueue

/-! ## Logging -/

/-- Whether a call only tells something to whoever reads the log or the standard streams. -/
def Call.isMessage : Call → Bool
  | .print .. => true
  | .log .. => true
  | _ => false

namespace LogSink

/-- Whether a message cannot be taken for a line of the access log, which begins with a digit. -/
def Plain (message : Severity × String) : Prop :=
  message.1 = .info → ∀ c ∈ message.2.toList.head?, c.isDigit = false

theorem Plain.warning (text : String) : Plain (.warning, text) := fun h => by cases h

theorem Plain.error (text : String) : Plain (.error, text) := fun h => by cases h

/-- `call` is what writing a message can come to. -/
def Writes (sink : LogSink) (severity : Severity) (message : String) (call : Call) : Prop :=
  ∃ left outputs left', sink.Yields severity message left outputs left' ∧
    call = .log severity message outputs

/-- The calls that write some messages, one for each. -/
inductive Tells (sink : LogSink) : List (Severity × String) → List Call → Prop
  | nil : Tells sink [] []
  | cons {severity : Severity} {message : String} {call : Call}
    {messages : List (Severity × String)} {calls : List Call}
    (H : sink.Writes severity message call) (Hs : Tells sink messages calls) :
    Tells sink ((severity, message) :: messages) (call :: calls)

/-- Writing a message is what comes of it, and then the entry in the trace. -/
theorem write_eq (sink : LogSink) (severity : Severity) (message : String) (k : Kernel) :
    ∃ outputs k₁, sink.write severity message k =
        Sys.record (.log severity message outputs) k₁ ∧ k.Wrote k₁ ∧
      k₁.files = sink.filesAfter outputs k.files ∧
      sink.Yields severity message k.unwritten outputs k₁.unwritten ∧
      k.Extends [.log severity message outputs]
        (Sys.record (.log severity message outputs) k₁).2 := by
  obtain ⟨outputs, k₁, h, Hk, hfiles, H, hheard⟩ := sink.put_spec severity message k
  refine ⟨outputs, k₁, ?_, Hk, hfiles, H, ?_⟩
  · simp only [write, StateM.bind_apply, h]
  · have hbreak (hk : k.Heard) :
        ∀ call ∈ [Call.log severity message outputs], call.isBreak = false := by
      simpa [Call.isBreak] using hheard hk
    have hk' (hk : k.Heard) : k₁.Heard := Hk.heard hk
    rw [Hk.rest] at hk' ⊢
    exact ⟨rfl, rfl, rfl, rfl, rfl, rfl, rfl, rfl, by simp [Sys.record], H.carries,
      fun hk => ⟨hk' hk, hbreak hk⟩⟩

theorem write_spec (sink : LogSink) (severity : Severity) (message : String) (k : Kernel) :
    ∃ call k', sink.write severity message k = ((), k') ∧ k.Extends [call] k' ∧
      sink.Tells [(severity, message)] [call] := by
  obtain ⟨outputs, k₁, h, -, -, H, Hk⟩ := sink.write_eq severity message k
  exact ⟨_, _, h, Hk, .cons ⟨_, _, _, H, rfl⟩ .nil⟩

theorem Writes.isMessage {sink : LogSink} {severity : Severity} {message : String} {call : Call}
    (H : sink.Writes severity message call) : call.isMessage := by
  obtain ⟨_, _, _, -, rfl⟩ := H
  rfl

namespace Tells
variable {sink : LogSink} {messages more : List (Severity × String)} {calls calls' : List Call}

theorem append (H : sink.Tells messages calls) (H' : sink.Tells more calls') :
    sink.Tells (messages ++ more) (calls ++ calls') := by
  induction H with
  | nil => exact H'
  | cons H _ ih => exact .cons H ih

theorem isMessage (H : sink.Tells messages calls) : ∀ call ∈ calls, call.isMessage := by
  induction H with
  | nil => exact List.forall_mem_nil _
  | cons H _ ih => exact List.forall_mem_cons.2 ⟨H.isMessage, ih⟩

end Tells

end LogSink

namespace Server

theorem info_spec (message : String) (s : Server) (k : Kernel) :
    ∃ call k', info message s k = (((), s), k') ∧ k.Extends [call] k' ∧
      s.log.Tells [(.info, message)] [call] := by
  obtain ⟨call, k', h, H⟩ := s.log.write_spec .info message k
  exact ⟨call, k', by simp [info, LogSink.info, h], H⟩

theorem warn_spec (message : String) (s : Server) (k : Kernel) :
    ∃ call k', warn message s k = (((), s), k') ∧ k.Extends [call] k' ∧
      s.log.Tells [(.warning, message)] [call] := by
  obtain ⟨call, k', h, H⟩ := s.log.write_spec .warning message k
  exact ⟨call, k', by simp [warn, LogSink.warn, h], H⟩

end Server

end OnePage
