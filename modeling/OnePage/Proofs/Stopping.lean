import OnePage.Proofs.Breaking
import OnePage.Proofs.Idleness
import OnePage.Proofs.Pausing

/-! # How serving ends

A server polls on until a wait fails or a signal has asked it to stop, and nothing else ends it
(`Moment.exists_goesOn`), as long as the standard streams take what it tells. Where a wait fails it
says so and leaves all as it is (`Moment.BreaksOff`). Where it was asked to stop, it first takes
care of what the wait has reported, and then closes all that is open and logs the totals
(`Moment.ShutsDown`). -/

namespace OnePage

/-! ## Calls that do not wait -/

def Call.isWait : Call → Bool
  | wait .. => true
  | _ => false

section
variable {calls : List Call}

theorem not_isWait_of_isMessage (h : ∀ call ∈ calls, call.isMessage) :
    ∀ call ∈ calls, call.isWait = false := by
  intro call hcall
  have hm := h call hcall
  cases call with
  | wait => cases hm
  | _ => rfl

theorem EventQueue.Registration.not_isWait {fd : Fd} {token : Token} {interest : Interest}
    {result : Outcome} (H : Registration fd token interest result calls) :
    ∀ call ∈ calls, call.isWait = false := by
  cases H <;> simp [Call.isWait]

end

namespace Server
open EventQueue

theorem Attempt.not_isWait {listener : Fd} {paused paused' : Option Nanoseconds}
    {calls : List Call} (H : Attempt listener paused calls paused') :
    ∀ call ∈ calls, call.isWait = false := by
  cases H with
  | unpaused => exact List.forall_mem_nil _
  | resumed hr => exact hr.not_isWait
  | failed hr ht => exact List.forall_mem_append.2 ⟨hr.not_isWait, not_isWait_of_isMessage ht⟩

theorem Closing.not_isWait {log : LogSink} {seconds zone : Int} {c : Connection}
    {calls : List Call} (H : Closing log seconds zone c calls) :
    ∀ call ∈ calls, call.isWait = false := by
  obtain ⟨ht⟩ := H
  have htold := not_isWait_of_isMessage ht.isMessage
  exact List.forall_mem_cons.2 ⟨rfl, List.forall_mem_append.2
    ⟨htold, List.forall_mem_singleton.2 rfl⟩⟩

/-! ## Closing all connections -/

/-- The calls that close connections one after the other, at one time for the log. As long as
accepting is paused, an attempt to go on with it follows each of them. -/
inductive Drains (log : LogSink) (seconds zone : Int) (listener : Fd) :
    Option Nanoseconds → List Connection → List Call → Prop
  | nil {paused : Option Nanoseconds} : Drains log seconds zone listener paused [] []
  | cons {paused paused' : Option Nanoseconds} {c : Connection} {cs : List Connection}
    {closing attempt calls : List Call} (Hc : Closing log seconds zone c closing)
    (Ha : Attempt listener paused attempt paused')
    (H : Drains log seconds zone listener paused' cs calls) :
    Drains log seconds zone listener paused (c :: cs) (closing ++ (attempt ++ calls))

theorem Drains.not_isWait {log : LogSink} {seconds zone : Int} {listener : Fd}
    {paused : Option Nanoseconds} {cs : List Connection} {calls : List Call}
    (H : Drains log seconds zone listener paused cs calls) :
    ∀ call ∈ calls, call.isWait = false := by
  induction H with
  | nil => exact List.forall_mem_nil _
  | cons Hc Ha _ ih =>
    exact List.forall_mem_append.2 ⟨Hc.not_isWait, List.forall_mem_append.2 ⟨Ha.not_isWait, ih⟩⟩

/-- Closing what is in the table under some tokens. -/
theorem closeAll_spec {tokens : List Token} (hd : tokens.Nodup) {s : Server}
    (hs : ∀ token ∈ tokens, s.connections.contains token) (seconds : Int) (k : Kernel) :
    ∃ calls s' k', tokens.forM (close · seconds) s k = (((), s'), k') ∧
      Drains s.log seconds k.zone s.listener s.pausedSince
        (tokens.filterMap s.connections.get?) calls ∧
      k.Adds calls k' ∧ s'.log = s.log ∧ s'.stats = s.stats := by
  induction tokens generalizing s k with
  | nil => exact ⟨[], s, k, rfl, .nil, .refl k, rfl, rfl⟩
  | cons token tokens ih =>
    obtain ⟨hne, hd⟩ := List.nodup_cons.1 hd
    obtain ⟨hc, hs⟩ := List.forall_mem_cons.1 hs
    obtain ⟨c, hc⟩ := Option.isSome_iff_exists.1 hc
    obtain ⟨closing, k₁, Hc, H, h₁⟩ := close_spec hc seconds k
    obtain ⟨attempt, paused, k₂, h₂, H₂, Ha⟩ :=
      resumeIfPaused_spec { s with connections := s.connections.erase token } k₁
    have H₁ : k.Adds closing k₁ := H.adds rfl
    -- the others are still there
    have hother {t : Token} (ht : t ∈ tokens) :
        (s.connections.erase token).get? t = s.connections.get? t := by
      rw [Table.get?_erase, if_neg]
      rintro rfl
      exact hne ht
    have hs' : ∀ t ∈ tokens, (s.connections.erase token).contains t := fun t ht => by
      rw [Table.contains, hother ht]
      exact hs t ht
    obtain ⟨calls, s', k', h₃, Hd, H₃, hlog, hstats⟩ :=
      @ih hd { s with connections := s.connections.erase token, pausedSince := paused } hs' k₂
    have hzone : k₂.zone = k.zone := H₂.zone.trans H₁.zone
    have hcs : tokens.filterMap (s.connections.erase token).get? =
        tokens.filterMap s.connections.get? := List.filterMap_congr fun t ht => hother ht
    refine ⟨_, s', k', ?_, ?_, H₁.trans (H₂.trans H₃), hlog, hstats⟩
    · have hrun : (token :: tokens).forM (close · seconds) s k =
          tokens.forM (close · seconds) (close token seconds s k).1.2
            (close token seconds s k).2 := rfl
      rw [hrun, h₁, h₂]
      exact h₃
    · rw [List.filterMap_cons_some hc]
      exact .cons Hc Ha (hcs ▸ hzone ▸ Hd)

end Server

namespace Moment
open Server

/-! ## Signals -/

section
variable {m : Moment} {rounds : List Round}

theorem stopped_wait (asked : Option Nanoseconds) (round : Round) (k : Kernel) :
    (EventQueue.wait EventQueue.capacity asked (some round) k).2.stopped =
      (k.stopped || round.stop) := by
  have hbegin : (k.begin round).stopped = (k.stopped || round.stop) := rfl
  obtain ⟨incoming, pending, hk⟩ :=
    Sys.receive_eq (round.reports.take EventQueue.capacity) (k.begin round)
  cases h : round.failure with
  | some e => simp [EventQueue.wait, Sys.wait, h, Sys.record, hbegin]
  | none => simp [EventQueue.wait, Sys.wait, h, Sys.record, hk, hbegin]

theorem stopped_run (m : Moment) {acts : List Act}
    (h : ∀ a ∈ acts, ∀ timeout round?, a ≠ .wait timeout round?) :
    (m.run acts).kernel.stopped = m.kernel.stopped := by
  induction acts generalizing m with
  | nil => rfl
  | cons a acts ih =>
    obtain ⟨ha, h⟩ := List.forall_mem_cons.1 h
    obtain ⟨calls, x, k', hrun, Hk⟩ := Act.adds ha m.server m.kernel
    refine (ih (m.act a) h).trans ?_
    rw [act, hrun]
    exact Hk.stopped

/-- Only a signal that comes during a wait asks a server to stop. -/
theorem stopped_polled (m : Moment) (round : Round) :
    (m.polled round).kernel.stopped = (m.kernel.stopped || round.stop) := by
  obtain ⟨⟨result, k⟩, hwait⟩ : ∃ r, EventQueue.wait EventQueue.capacity m.server.nextWait
    (some round) m.kernel = r := ⟨_, rfl⟩
  have hstop := stopped_wait m.server.nextWait round m.kernel
  rw [hwait] at hstop
  have hkernel : (m.act (.wait m.server.nextWait (some round))).kernel = k := congrArg (·.2) hwait
  rw [polled, pollActs, hwait, run_cons, stopped_run, hkernel, hstop]
  cases result with
  | error e => exact List.forall_mem_nil _
  | ok events =>
    refine List.forall_mem_append.2 ⟨?_, by simp⟩
    intro a ha
    obtain ⟨event, -, rfl⟩ := List.mem_map.1 ha
    exact fun _ _ => Act.noConfusion

/-- Which waits fail, and when a signal asks it to stop, is all that tells how long a server goes
on. -/
theorem goesOn_iff : m.GoesOn rounds ↔
    (∀ round ∈ rounds, ∀ e, round.failure = some e → e = .EINTR) ∧
      (rounds = [] ∨ m.kernel.stopped = false ∧ ∀ round ∈ rounds.dropLast, round.stop = false) := by
  induction rounds generalizing m with
  | nil => simp [GoesOn]
  | cons round rounds ih =>
    rw [GoesOn, ih, stopped_polled]
    cases rounds with
    | nil => simp [and_comm]
    | cons next rounds =>
      simp only [List.forall_mem_cons, List.dropLast_cons_cons, Bool.or_eq_false_iff,
        reduceCtorEq, false_or]
      tauto

/-- A server goes on until it has been told to stop or a wait fails. -/
theorem exists_goesOn (m : Moment) (rounds : List Round) :
    ∃ n, m.GoesOn (rounds.take n) ∧
      let served := m.polls (rounds.take n)
      served.kernel.stopped = true ∨ served.kernel.stopped = false ∧ ∃ e, e ≠ .EINTR ∧
        (EventQueue.wait EventQueue.capacity served.server.nextWait rounds[n]?
          served.kernel).1 = .error e := by
  induction rounds generalizing m with
  | nil =>
    refine ⟨0, trivial, ?_⟩
    cases hstop : m.kernel.stopped with
    | true => exact .inl hstop
    | false => exact .inr ⟨hstop, .EBADF, by decide, rfl⟩
  | cons round rounds ih =>
    cases hstop : m.kernel.stopped with
    | true => exact ⟨0, trivial, .inl hstop⟩
    | false =>
      by_cases hround : ∀ e, round.failure = some e → e = .EINTR
      · obtain ⟨n, H, hend⟩ := ih (m.polled round)
        exact ⟨n + 1, ⟨hstop, hround, H⟩, hend⟩
      · simp only [not_forall] at hround
        obtain ⟨e, he, hne⟩ := hround
        refine ⟨0, trivial, .inr ⟨hstop, e, hne, ?_⟩⟩
        rw [List.getElem?_cons_zero, wait_result, he]

end

/-! ## The two ways to end -/

/-- A server ends because a wait has failed: it says so, and does nothing else. -/
structure BreaksOff (m : Moment) (round? : Option Round) (e : Errno)
    (result : (Except ServeError Unit × Server) × Kernel) : Prop where
  running : m.kernel.stopped = false
  failed : (EventQueue.wait EventQueue.capacity m.server.nextWait round? m.kernel).1 = .error e
  uninterrupted : e ≠ .EINTR
  outcome : result.1.1 = .error (.wait e)
  server : result.1.2 = m.server
  watches : result.2.watches = m.kernel.watches
  descriptors : result.2.descriptors = m.kernel.descriptors
  calls : ∃ told, m.server.log.Tells [(.error, (ServeError.wait e).chain.oneLine)] told ∧
    result.2.trace = m.kernel.trace ++ (.wait EventQueue.capacity
      (EventQueue.timeoutArgument m.server.nextWait) (.error e) :: told).toArray

/-- The kernel when all connections have been closed. -/
def drained (m : Moment) : Kernel :=
  ((m.kernel.walk.order m.server.connections.keys).forM (close · m.seconds) m.server m.kernel).2

/-- A server ends because it has been told to stop: it waits no more, closes the connections that
are open, and logs the totals, unless the kernel does not tell the processor time. -/
structure ShutsDown (m : Moment) (result : (Except ServeError Unit × Server) × Kernel) : Prop where
  stopped : m.kernel.stopped = true
  empty : result.1.2.connections = ∅
  stats : result.1.2.stats = m.server.stats
  watched {fd : Fd} (h : result.2.watches.contains fd) : fd = m.server.listener
  line {token : Token} {c : Connection} (h : m.server.connections.get? token = some c)
    (seconds zone : Int) : (Log.accessLine c seconds zone).isSome = c.status.isSome
  outcome : result.1.1 = summarized (Sys.usage m.drained).1
  calls : ∃ cs closing told, cs.Perm (m.server.connections.entries.map (·.2)) ∧
    Drains m.server.log m.seconds m.kernel.zone m.server.listener m.server.pausedSince cs closing ∧
    m.drained.trace = m.kernel.trace ++ closing.toArray ∧
    m.server.log.Tells ((summary (Sys.usage m.drained).1 m.server.stats).map (.info, ·)) told ∧
    result.2.trace = m.kernel.trace ++ (closing ++ told).toArray ∧
    ∀ call ∈ closing ++ told, call.isWait = false

section
variable {m : Moment} {round? : Option Round} {e : Errno}

theorem breaksOff (hstop : m.kernel.stopped = false) (hne : e ≠ .EINTR)
    (hfail : (EventQueue.wait EventQueue.capacity m.server.nextWait round? m.kernel).1 = .error e)
    (next : Serving (Except ServeError Unit)) :
    m.BreaksOff round? e (serveRound round? next m.server m.kernel) := by
  obtain ⟨r, k₁, h₁, H₁⟩ := Sys.wait_spec EventQueue.capacity
    (EventQueue.timeoutArgument m.server.nextWait) round? m.kernel
  have hwait : EventQueue.wait EventQueue.capacity m.server.nextWait round? m.kernel =
      (r, k₁) := h₁
  obtain rfl : r = .error e := by rw [← hfail, hwait]
  have hpoll : poll m.server.nextWait round? m.server m.kernel =
      ((.error (.wait e), m.server), k₁) := by
    have houtcome := poll_outcome m.server.nextWait round? m.server m.kernel
    obtain ⟨hs, hk⟩ := m.run_poll m.server.nextWait round?
    simp only [pollActs, hwait, run_cons, run_nil] at hs hk
    refine Prod.ext (Prod.ext ?_ hs) (hk.trans (congrArg (·.2) hwait))
    rw [houtcome, hwait]
    cases e <;> first | rfl | exact absurd rfl hne
  obtain ⟨call, k₂, h₂, H₂, ht⟩ :=
    m.server.log.write_spec .error (ServeError.wait e).chain.oneLine k₁
  have hrun : serveRound round? next m.server m.kernel =
      ((.error (.wait e), m.server), k₂) := by
    simp [serveRound, hstop, hpoll, LogSink.error, h₂]
  rw [hrun]
  refine ⟨hstop, hfail, hne, rfl, rfl, H₂.watches.trans H₁.watches,
    H₂.descriptors.trans H₁.descriptors, [call], ht, ?_⟩
  rw [H₂.trace, H₁.trace, Array.push_eq_append, Array.append_assoc]
  rfl

/-- A connection in the table has a line for the access log just where it has a status. -/
theorem isSome_accessLine (H : Reachable m) {token : Token} {c : Connection}
    (h : m.server.connections.get? token = some c) (seconds zone : Int) :
    (Log.accessLine c seconds zone).isSome = c.status.isSome := by
  cases H.coherent.table h with
  | waiting => simp_all [Log.accessLine]
  | replying => simp_all [Log.accessLine]

theorem shutsDown (H : Reachable m) (hstop : m.kernel.stopped = true)
    (next : Serving (Except ServeError Unit)) :
    m.ShutsDown (serveRound round? next m.server m.kernel) := by
  have hrun : serveRound round? next m.server m.kernel = shutDown m.server m.kernel := by
    simp [serveRound, hstop]
  rw [hrun]
  have hempty := shutDown_connections m.server m.kernel
  have hperm := m.kernel.walk.perm m.server.connections.keys
  obtain ⟨closing, s₁, k₁, h₁, Hd, H₁, hlog, hstats⟩ :=
    closeAll_spec (hperm.nodup_iff.2 m.server.connections.nodup_keys)
      (fun token ht => Table.mem_keys.1 (hperm.mem_iff.1 ht)) m.seconds m.kernel
  obtain ⟨told, k₂, h₂, H₂, ht⟩ := logStats_spec s₁ k₁
  have hcs := m.server.connections.filterMap_keys ▸ hperm.filterMap m.server.connections.get?
  have hclose : (m.kernel.walk.order m.server.connections.keys).forM (close · m.seconds)
      m.server m.kernel = (((), s₁), k₁) := h₁
  have h : shutDown m.server m.kernel = logStats s₁ k₁ := by
    have hrun : shutDown m.server m.kernel = logStats
        ((m.kernel.walk.order m.server.connections.keys).forM (close · m.seconds) m.server
          m.kernel).1.2 m.drained := rfl
    rw [hrun, drained, hclose]
  obtain rfl : m.drained = k₁ := congrArg (·.2) hclose
  rw [hlog, hstats] at ht
  refine ⟨hstop, hempty, ?_, ?_, isSome_accessLine H, ?_, _, closing, told, hcs, Hd, H₁.trace, ht,
    ?_, ?_⟩
  · rw [h, h₂]
    exact hstats
  · intro fd hfd
    obtain ⟨acts, hserver, hkernel⟩ := IsRun.shutDown m
    have R := (H.run acts).registered
    rw [hkernel] at hfd
    obtain ⟨w, hw⟩ := Option.isSome_iff_exists.1 hfd
    by_contra hl
    obtain ⟨c, hc, -⟩ := R.entry (H.listener_run acts ▸ hl) hw
    rw [← hserver, hempty] at hc
    cases hc
  · rw [h, h₂]
  · rw [h, h₂, H₂.trace, H₁.trace]
    simp
  · exact List.forall_mem_append.2 ⟨Hd.not_isWait, not_isWait_of_isMessage ht.isMessage⟩

theorem serveRounds_eq (rounds : List Round) :
    ∃ next, serveRounds rounds = serveRound rounds.head? next := by
  cases rounds with
  | nil => exact ⟨_, rfl⟩
  | cons round rounds => exact ⟨_, rfl⟩

/-- What serving comes to is told by the round after those for which it goes on. -/
theorem GoesOn.serve {rounds : List Round} {n : Nat}
    (Hn : (m.act .announce).GoesOn (rounds.take n)) :
    ∃ next, let served := (m.act .announce).polls (rounds.take n)
      Server.serve rounds m.server m.kernel =
        serveRound rounds[n]? next served.server served.kernel := by
  obtain ⟨next, hnext⟩ := serveRounds_eq (rounds.drop n)
  have hserve := Hn.serveRounds (rounds.drop n)
  rw [List.take_append_drop, hnext, List.head?_drop] at hserve
  exact ⟨next, hserve⟩

end

end Moment

/-! ## Messages that are taken -/

/-- Whether the results that a wait lays down let the standard streams take all. -/
def Round.Heard (round : Round) : Prop :=
  ∀ entry ∈ round.forced, ∀ stream : Stream, stream.call = entry.1 →
    ∀ reply ∈ entry.2, Reply.refuses reply = false

/-- Whether the results that an act lays down let the standard streams take all. -/
def Server.Act.Heard : Act → Prop
  | .wait _ (some round) => round.Heard
  | _ => True

theorem Kernel.Heard.begin {k : Kernel} (H : k.Heard) {round : Round} (h : round.Heard) :
    (k.begin round).Heard := by
  unfold Round.Heard at h
  have hforced : (k.begin round).forced =
      round.forced.foldl (fun f entry => f.set entry.1 entry.2) k.forced := rfl
  rw [Kernel.Heard, hforced]
  rw [Kernel.Heard] at H
  generalize k.forced = forced at H
  generalize round.forced = entries at h
  induction entries generalizing forced with
  | nil => exact H
  | cons entry entries ih =>
    obtain ⟨hentry, h⟩ := List.forall_mem_cons.1 h
    refine ih _ (fun stream => ?_) h
    by_cases hs : stream.call = entry.1
    · simpa [Forced.set, hs] using hentry stream hs
    · simpa [Forced.set, hs] using H stream

theorem Sys.wait_heard (capacity : Nat) (timeout : Int) {round? : Option Round} {k : Kernel}
    (H : k.Heard) (h : ∀ round ∈ round?, round.Heard) :
    (wait capacity timeout round? k).2.Heard := by
  cases round? with
  | none => exact H
  | some round =>
    have hbegin := H.begin (h round rfl)
    cases hf : round.failure with
    | some e =>
      simp only [wait, StateM.bind_apply, StateM.modify_apply, hf]
      exact hbegin
    | none =>
      obtain ⟨incoming, pending, hk⟩ :=
        receive_eq (round.reports.take capacity) (k.begin round)
      simp only [wait, StateM.bind_apply, StateM.modify_apply, hf, hk]
      exact hbegin

namespace Moment
open Server

theorem act_heard {m : Moment} (H : m.kernel.Heard) {a : Act} (h : a.Heard) :
    ∃ calls, (m.act a).kernel.trace = m.kernel.trace ++ calls.toArray ∧ Unbroken calls ∧
      (m.act a).kernel.Heard := by
  by_cases ha : ∀ timeout round?, a ≠ .wait timeout round?
  · obtain ⟨calls, x, k', hrun, Hk⟩ := Act.adds ha m.server m.kernel
    obtain ⟨hheard, hcalls⟩ := Hk.heard H
    have hkernel : (m.act a).kernel = k' := congrArg (·.2) hrun
    exact ⟨calls, hkernel ▸ Hk.trace, hcalls, hkernel ▸ hheard⟩
  · simp only [not_forall, not_not] at ha
    obtain ⟨timeout, round?, rfl⟩ := ha
    obtain ⟨r, k', hwait, Hw⟩ := Sys.wait_spec EventQueue.capacity
      (EventQueue.timeoutArgument timeout) round? m.kernel
    have hheard : k'.Heard := by
      have hwaited := Sys.wait_heard EventQueue.capacity (EventQueue.timeoutArgument timeout) H
        fun round hround => by
          obtain rfl : round? = some round := hround
          exact h
      rwa [hwait] at hwaited
    have hkernel : (m.act (.wait timeout round?)).kernel = k' := congrArg (·.2) hwait
    exact ⟨[.wait EventQueue.capacity (EventQueue.timeoutArgument timeout) (r.map List.length)],
      by rw [hkernel, Hw.trace, Array.push_eq_append], List.forall_mem_singleton.2 rfl,
      hkernel ▸ hheard⟩

/-- Where the standard streams take all, no message ends the process. -/
theorem run_heard {m : Moment} (H : m.kernel.Heard) {acts : List Act} (h : ∀ a ∈ acts, a.Heard) :
    ∃ calls, (m.run acts).kernel.trace = m.kernel.trace ++ calls.toArray ∧ Unbroken calls := by
  induction acts generalizing m with
  | nil => exact ⟨[], by simp, List.forall_mem_nil _⟩
  | cons a acts ih =>
    obtain ⟨ha, h⟩ := List.forall_mem_cons.1 h
    obtain ⟨calls, ht, hcalls, H₁⟩ := m.act_heard H ha
    obtain ⟨more, ht', hmore⟩ := ih H₁ h
    exact ⟨calls ++ more, by rw [run_cons, ht', ht]; simp, (unbroken_append calls more).2
      ⟨hcalls, hmore⟩⟩

theorem roundActs_heard {round? : Option Round} (h : ∀ round ∈ round?, round.Heard)
    {more : Moment → List Act} (hmore : ∀ m, ∀ a ∈ more m, a.Heard) (m : Moment) :
    ∀ a ∈ roundActs round? more m, a.Heard := by
  have hwait : (Act.wait m.server.nextWait round?).Heard := by
    cases round? with
    | none => trivial
    | some round => exact h round rfl
  have hpoll : ∀ a ∈ m.pollActs m.server.nextWait round?, a.Heard := by
    obtain ⟨⟨result, k⟩, hresult⟩ : ∃ r, EventQueue.wait EventQueue.capacity m.server.nextWait
      round? m.kernel = r := ⟨_, rfl⟩
    rw [pollActs, hresult]
    refine List.forall_mem_cons.2 ⟨hwait, ?_⟩
    cases result with
    | error e => exact List.forall_mem_nil _
    | ok events =>
      refine List.forall_mem_append.2 ⟨fun a ha => ?_,
        List.forall_mem_cons.2 ⟨trivial, List.forall_mem_singleton.2 trivial⟩⟩
      obtain ⟨event, -, rfl⟩ := List.mem_map.1 ha
      trivial
  unfold roundActs
  split
  · refine List.forall_mem_append.2 ⟨fun a ha => ?_, List.forall_mem_singleton.2 trivial⟩
    obtain ⟨token, -, rfl⟩ := List.mem_map.1 ha
    trivial
  · refine List.forall_mem_append.2 ⟨hpoll, ?_⟩
    split
    · exact List.forall_mem_singleton.2 trivial
    · exact hmore _

theorem serveActs_heard (m : Moment) {rounds : List Round} (h : ∀ round ∈ rounds, round.Heard) :
    ∀ a ∈ m.serveActs rounds, a.Heard := by
  have hrounds : ∀ m, ∀ a ∈ roundsActs rounds m, a.Heard := by
    induction rounds with
    | nil => exact roundActs_heard (by simp) fun _ => List.forall_mem_nil _
    | cons round rounds ih =>
      obtain ⟨hround, h⟩ := List.forall_mem_cons.1 h
      exact roundActs_heard (fun _ hr => Option.some.inj hr ▸ hround) (ih h)
  exact List.forall_mem_cons.2 ⟨trivial, hrounds _⟩

end Moment

open Server in
/-- How a server serves. -/
structure Moment.Serves (m : Moment) : Prop where
  /-- It ends because a wait has failed, or because it was told to stop. -/
  ends (rounds : List Round) :
    let result := serve rounds m.server m.kernel
    ∃ n, (m.act .announce).GoesOn (rounds.take n) ∧
      ((∃ e, (m.served (rounds.take n)).BreaksOff rounds[n]? e result) ∨
        (m.served (rounds.take n)).ShutsDown result)
  goesOn {rounds : List Round} (h : (m.act .announce).GoesOn rounds) (more : List Round) :
    serve (rounds ++ more) m.server m.kernel =
      serveRounds more (m.served rounds).server (m.served rounds).kernel
  /-- For how long it goes on is told by what the waits come to and by when a signal asks it to
  stop. What comes of its other calls does not matter. -/
  goesOn_iff (rounds : List Round) : m.GoesOn rounds ↔
    (∀ round ∈ rounds, ∀ e, round.failure = some e → e = .EINTR) ∧
      (rounds = [] ∨ m.kernel.stopped = false ∧ ∀ round ∈ rounds.dropLast, round.stop = false)
  interrupted (timeout : Option Nanoseconds) {round : Round} (h : round.failure = some .EINTR) :
    ∃ k, poll timeout (some round) m.server m.kernel = ((.ok (), m.server), k) ∧
      Sys.Waited m.kernel (.wait EventQueue.capacity (EventQueue.timeoutArgument timeout)
        (.error .EINTR)) k
  /-- What a wait reports is all taken care of, also where a signal came during it. -/
  handled (timeout : Option Nanoseconds) {round? : Option Round} {events : List Event} {k : Kernel}
    (h : EventQueue.wait EventQueue.capacity timeout round? m.kernel = (.ok events, k)) :
    poll timeout round? m.server m.kernel =
      (do handleBatch k.clock events; return .ok () : Serving (Except ServeError Unit)) m.server k
  /-- Where the standard streams take all that is told, the process does what serving comes to, and
  then only writes what is left of the log and tells why it has ended. -/
  process {rounds : List Round} (h : Unbroken (Sys.calls (serve rounds m.server) m.kernel)) :
    let result := serve rounds m.server m.kernel
    let ended := Program.process (serve rounds) m.server m.kernel
    ∃ more : List Call, ended.2.trace = result.2.trace ++ more.toArray ∧
      (∀ call ∈ more, (∃ bytes, call = .flush bytes) ∨ ∃ text, call = .print .stderr text) ∧
      (ended.1 = 0 ↔ result.1.1 = .ok ())
  processGoesOn {rounds : List Round} (h : (m.act .announce).GoesOn rounds) {calls : List Call}
    (ht : (m.served rounds).kernel.trace = m.kernel.trace ++ calls.toArray) (hc : Unbroken calls)
    (more : List Round) : Program.process (serve (rounds ++ more)) m.server m.kernel =
      Program.process (serveRounds more) (m.served rounds).server (m.served rounds).kernel
  /-- No failure but that of a standard stream keeps what is told from being taken. -/
  unbroken {rounds : List Round} (h : m.kernel.Heard) (hr : ∀ round ∈ rounds, round.Heard) :
    Unbroken (Sys.calls (serve rounds m.server) m.kernel)

/-- **What ends a server.** It polls for one round after the other, as long as it has not been told
to stop and no wait fails but where a signal interrupts it. So it ends because a wait has failed,
which it tells the log and returns, with all else as it was; or because it was told to stop. Then it
waits no more, closes each connection that is open, with a line for the access log if that has a
status, and logs the totals. A wait that is interrupted changes nothing. The process does the same
as long as the standard streams take what it tells; that a file or the system's log does not take a
message does not end it. -/
theorem serving_ends {m : Moment} (H : Reachable m) : m.Serves where
  ends rounds := by
    obtain ⟨n, Hn, hend⟩ := (m.act .announce).exists_goesOn rounds
    obtain ⟨next, hserve⟩ := Hn.serve
    have Hserved := (H.act .announce).polls (rounds.take n)
    refine ⟨n, Hn, ?_⟩
    rw [hserve]
    rcases hend with hstop | ⟨hstop, e, hne, hfail⟩
    · exact .inr (Moment.shutsDown Hserved hstop next)
    · exact .inl ⟨e, Moment.breaksOff hstop hne hfail next⟩
  goesOn h more := h.serveRounds more
  goesOn_iff rounds := Moment.goesOn_iff
  interrupted timeout round h := by
    obtain ⟨r, k, hrun, Hw⟩ := Sys.wait_spec EventQueue.capacity
      (EventQueue.timeoutArgument timeout) (some round) m.kernel
    have hwait : EventQueue.wait EventQueue.capacity timeout (some round) m.kernel = (r, k) := hrun
    have hr := Moment.wait_result timeout round m.kernel
    rw [hwait, h] at hr
    obtain rfl : r = .error .EINTR := hr
    exact ⟨k, by simp [Server.poll, hwait], Hw⟩
  handled timeout round? events k h := by simp [Server.poll, h]
  process h := Program.process_unbroken (m.comesTo_serve _).trace h
  processGoesOn {rounds} h calls ht hc more := by
    exact Program.process_congr (h.serveRounds more) ht hc
      ((m.served rounds).comesTo_rounds more).trace
  unbroken {rounds} h hr := by
    obtain ⟨calls, ht, hcalls⟩ := Moment.run_heard h (m.serveActs_heard hr)
    obtain ⟨-, hkernel⟩ := m.comesTo_serve rounds
    rw [← hkernel] at ht
    rwa [Sys.calls_eq ht]

/-- A server with one connection. A signal interrupts its first wait, and another one asks it to
stop during the second. -/
theorem serving_ends_blocked :
    let rounds : List Round :=
      [{ failure := some .EINTR }, { failure := some .EINTR, stop := true }]
    let result := Server.serve rounds Moment.blocked.server Moment.blocked.kernel
    Moment.blocked.server.connections.size = 1 ∧ (Moment.blocked.act .announce).GoesOn rounds ∧
      ∃ n, (Moment.blocked.served (rounds.take n)).ShutsDown result := by
  intro rounds result
  have H := serving_ends Reachable.blocked
  have hsize : Moment.blocked.server.connections.size = 1 := by decide +kernel
  have hgoes : (Moment.blocked.act .announce).GoesOn rounds := by
    refine Moment.goesOn_iff.2 ⟨by simp [rounds], .inr ⟨by decide +kernel, by simp [rounds]⟩⟩
  have hok : (Server.serve rounds Moment.blocked.server
      Moment.blocked.kernel).1.1.isOk = true := by decide +kernel
  obtain ⟨n, -, H⟩ := H.ends rounds
  refine ⟨hsize, hgoes, n, H.resolve_left ?_⟩
  rintro ⟨e, Hb⟩
  rw [Hb.outcome] at hok
  cases hok

/-! ## Messages that are not taken -/

/-- A request comes, and from then on the standard output takes nothing. -/
def Round.unheard : Round where
  changes := [.write "./index.html" (Text.bytes "hi")]
  forced := [(.writeOut, [some (.fails .EPIPE)])]
  reports := [.ofBytes 1 (Text.bytes "GET / x\n")]

/-- Why a wait has failed does not come to be on a log that is full, the file of number 3. A
standard output that takes no more ends the process before it waits again, though no wait fails and
nothing asks it to stop. -/
theorem serving_ends_unheard :
    (let m := Moment.startOn (.file 3)
      let result := Server.serve [{ failure := some .ENOMEM }] m.server m.kernel
      Reachable m ∧ result.1.1 = .error (.wait .ENOMEM) ∧
        ∀ call ∈ result.2.trace, call.isPut = false) ∧
    (let rounds : List Round := [.unheard, {}]
      let ended := Program.process (Server.serve rounds) Moment.greeted.server Moment.greeted.kernel
      Reachable .greeted ∧ (Moment.greeted.act .announce).GoesOn rounds ∧
        ended.1 = Program.brokenCode ∧
        ended.2.trace.countP Call.isWait = Moment.greeted.kernel.trace.countP Call.isWait + 1) := by
  have hgoes : (Moment.greeted.act .announce).GoesOn [.unheard, {}] := by
    refine Moment.goesOn_iff.2 ⟨by simp [Round.unheard], .inr ⟨by decide +kernel, ?_⟩⟩
    simp [Round.unheard]
  have hfull : (Server.serve [{ failure := some .ENOMEM }] (Moment.startOn (.file 3)).server
      (Moment.startOn (.file 3)).kernel).2.trace.all (!·.isPut) := by decide +kernel
  refine ⟨⟨.startOn _, by decide +kernel, fun call hcall => ?_⟩, .greeted, hgoes, by decide +kernel,
    by decide +kernel⟩
  obtain ⟨i, hi, rfl⟩ := Array.mem_iff_getElem.1 hcall
  simpa using Array.all_eq_true.1 hfull i hi

end OnePage
