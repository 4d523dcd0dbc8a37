import Mathlib.Data.List.Basic
import OnePage.Proofs.Breaking
import OnePage.Proofs.Moves
import OnePage.Proofs.Startup

/-! # The hand-off to a daemon

A program that goes into the background is three processes: the first one waits for a byte on the
lifeline, the second one leads the session for a moment, and the third one is the daemon. Each of
them runs the same code, so a run of it is that of one of them, told by what its calls to fork
return. Its exit code and what it does with the lifeline follow from how it starts
(`Program.Commences`); what it does as a server concerns no other process. -/

namespace OnePage

/-! ## The server -/

/-- The log is opened among the files that the process begins with. -/
theorem LogSink.ofTarget_trace {k k₁ : Kernel} {before : List Call} (H : k.Follows before k₁)
    (target : LogTarget) :
    ∃ calls k', ofTarget target k₁ = ((ofTarget target k).1, k') ∧
      k'.trace = k.trace ++ (before ++ calls).toArray ∧ Private calls ∧ Smooth calls := by
  cases target with
  | stdout => exact ⟨[], k₁, rfl, by simp [H.trace], private_nil, smooth_nil⟩
  | syslog =>
    refine ⟨[.openLog ident processOption daemonFacility], _, rfl, ?_, by simp [Call.isHandoff],
      by simp [Call.failed]⟩
    simp [H.trace]
  | file path =>
    refine ⟨[], (ofTarget (.file path) k₁).2, ?_, ?_, private_nil, smooth_nil⟩
    · cases h : k.files.openForAppend path <;> simp [ofTarget, H.files, h]
    · cases h : k.files.openForAppend path <;> simp [ofTarget, H.files, h, H.trace]

theorem EventQueue.Registration.isPrivate {fd : Fd} {token : Token} {interest : Interest}
    {result : Outcome} {calls : List Call} (H : Registration fd token interest result calls) :
    Private calls := by
  cases H <;> simp [Call.isHandoff]

theorem EventQueue.Registration.smooth {fd : Fd} {token : Token} {interest : Interest}
    {calls : List Call} (H : Registration fd token interest (.ok ()) calls) : Smooth calls := by
  cases H <;> simp [Call.failed]

theorem Server.create_trace (config : Config) (listener : Fd) (log : LogSink) (k : Kernel) :
    ∃ r calls k', create config listener log k = (r, k') ∧
      k'.trace = k.trace ++ calls.toArray ∧ Private calls ∧
      ∀ s, r = .ok s → ∃ fd registering, calls = .createQueue (.ok fd) :: registering ∧
        EventQueue.Registration listener listenerToken .accept (.ok ()) registering := by
  obtain ⟨r₁, k₁, h₁, H₁⟩ := Sys.createQueue_onward k
  rcases r₁ with e | fd
  · obtain ⟨r₂, k₂, h₂, H₂⟩ := Sys.close_onward k₁ listener
    exact ⟨.error (.createQueue e), _, k₂, by simp [create, EventQueue.create, h₁, h₂],
      (H₁.trans H₂).trace, by simp [Call.isHandoff], fun _ h => by cases h⟩
  obtain ⟨r₂, registering, k₂, h₂, hr, ht⟩ :=
    Sys.register_trace k₁ listener listenerToken .accept
  rcases r₂ with e | ⟨⟩
  · obtain ⟨r₃, k₃, h₃, H₃⟩ := Sys.close_onward k₂ fd
    obtain ⟨r₄, k₄, h₄, H₄⟩ := Sys.close_onward k₃ listener
    refine ⟨.error (.register e),
      .createQueue (.ok fd) :: registering ++ [.close fd, .close listener], k₄, ?_, ?_,
      by simp [hr.isPrivate, Call.isHandoff], fun _ h => by cases h⟩
    · simp [create, EventQueue.create, EventQueue.close, h₁, h₂, h₃, h₄]
    · simp [H₄.trace, H₃.trace, ht, H₁.trace]
  · refine ⟨(create config listener log k).1, .createQueue (.ok fd) :: registering, k₂,
      by simp [create, EventQueue.create, h₁, h₂], ?_, by simp [hr.isPrivate, Call.isHandoff],
      fun s _ => ⟨fd, registering, rfl, hr⟩⟩
    simp [ht, H₁.trace]

namespace Program

theorem setSignals_onward (list : List (Signal × Disposition)) (k : Kernel) :
    ∃ r calls k', setSignals list k = (r, k') ∧ k.Onward calls k' ∧ Private calls ∧
      (r = .ok () → calls = list.map fun entry => .setSignal entry.1 entry.2 (.ok ())) := by
  induction list generalizing k with
  | nil => exact ⟨.ok (), [], k, rfl, .refl k, private_nil, fun _ => rfl⟩
  | cons entry list ih =>
    obtain ⟨r₁, k₁, h₁, H₁⟩ := Sys.setSignal_onward k entry.1 entry.2
    rcases r₁ with e | ⟨⟩
    · exact ⟨.error (.signal entry.1 e), _, k₁, by simp [setSignals, h₁], H₁,
        by simp [Call.isHandoff], fun h => by cases h⟩
    · obtain ⟨r₂, calls, k₂, h₂, H₂, hp₂, hs₂⟩ := ih k₁
      refine ⟨r₂, _, k₂, by simp [setSignals, h₁, h₂], H₁.trans H₂, by simp [hp₂, Call.isHandoff],
        fun h => ?_⟩
      rw [hs₂ h]
      rfl

/-- What a server that is ready to serve has been given. -/
structure Equipped (k : Kernel) (config : Config) (listener : Fd) (calls : List Call) : Prop where
  signals : ∀ entry ∈ dispositions, .setSignal entry.1 entry.2 (.ok ()) ∈ calls
  log : ∃ log, (LogSink.ofTarget config.log k).1 = .ok log
  queue : ∃ fd, .createQueue (.ok fd) ∈ calls
  registered : ∃ registering, registering ⊆ calls ∧
    EventQueue.Registration listener listenerToken .accept (.ok ()) registering
  smooth : Smooth calls

theorem Equipped.mono {k : Kernel} {config : Config} {listener : Fd} {calls more : List Call}
    (H : Equipped k config listener calls) (h : calls ⊆ more) (hs : Smooth more) :
    Equipped k config listener more where
  signals entry hentry := h (H.signals entry hentry)
  log := H.log
  queue := H.queue.imp fun _ hq => h hq
  registered := H.registered.imp fun _ hr => ⟨List.Subset.trans hr.1 h, hr.2⟩
  smooth := hs

variable {k k₁ : Kernel} {before : List Call} {config : Config}

theorem setUp_trace (H : k.Follows before k₁) (config : Config) (listener : Fd) :
    ∃ r calls k', setUp config listener k₁ = (r, k') ∧
      k'.trace = k.trace ++ (before ++ calls).toArray ∧ Private calls ∧
      ∀ s, r = .ok s → Equipped k config listener calls := by
  obtain ⟨r₂, signals, k₂, h₂, H₂, hp₂, hs₂⟩ := setSignals_onward dispositions k₁
  have H₂ := H.trans H₂.toFollows
  rcases r₂ with e | ⟨⟩
  · obtain ⟨r₃, k₃, h₃, H₃⟩ := Sys.close_onward k₂ listener
    exact ⟨.error e, _, k₃, by simp [setUp, h₂, h₃],
      by simpa using (H₂.trans H₃.toFollows).trace, by simp [hp₂, Call.isHandoff],
      fun _ h => by cases h⟩
  obtain ⟨opening, k₃, h₃, ht₃, hp₃, hs₃⟩ := LogSink.ofTarget_trace H₂ config.log
  cases hl : (LogSink.ofTarget config.log k).1 with
  | error e =>
    obtain ⟨r₄, k₄, h₄, H₄⟩ := Sys.close_onward k₃ listener
    refine ⟨.error (.log e), signals ++ opening ++ [.close listener], k₄,
      by simp [setUp, openServer, h₂, h₃, hl, h₄], ?_, by simp [hp₂, hp₃, Call.isHandoff],
      fun _ h => by cases h⟩
    simp [H₄.trace, ht₃]
  | ok log =>
    obtain ⟨r₄, creating, k₄, h₄, ht₄, hp₄, hs₄⟩ := Server.create_trace config listener log k₃
    refine ⟨r₄.mapError .setup, signals ++ opening ++ creating, k₄,
      by simp [setUp, openServer, h₂, h₃, hl, h₄], by simp [ht₄, ht₃], by simp [hp₂, hp₃, hp₄], ?_⟩
    rcases r₄ with e | s
    · intro _ h
      cases h
    rintro _ -
    obtain ⟨fd, registering, rfl, hr⟩ := hs₄ s rfl
    have hsignals := hs₂ rfl
    exact {
      signals := fun entry hentry => by
        have : Call.setSignal entry.1 entry.2 (.ok ()) ∈ signals := by
          rw [hsignals]
          exact List.mem_map_of_mem hentry
        simp [this]
      log := ⟨log, hl⟩
      queue := ⟨fd, by simp⟩
      registered := ⟨registering, fun call hcall => by simp [hcall], hr⟩
      smooth := by simp [hsignals, hs₃, hr.smooth, dispositions, Call.failed] }

/-- What becomes of a daemon on its way to serving: it fails, or it reports to be ready once it
is. -/
inductive Readies (k : Kernel) (config : Config) (listener : Fd) (d : Daemon) :
    List Call → Except StartError Server → Prop
  | failed {calls : List Call} {e : StartError} (hp : Private calls) :
    Readies k config listener d calls (.error e)
  | reported {setup told after : List Call} {written : Except Errno Nat}
    {result : Except StartError Server} (he : Equipped k config listener setup)
    (hp : Private (setup ++ told)) (hp' : Private after) (hs : Smooth told) (hs' : Smooth after) :
    Readies k config listener d
      (setup ++ told ++ .write d.lifelineWriter [1] written :: after) result

theorem makeServer_trace (H : k.Follows before k₁) (config : Config) (listener : Fd)
    (d : Daemon) :
    ∃ r calls k', makeServer config listener (some d) k₁ = (r, k') ∧
      k'.trace = k.trace ++ (before ++ calls).toArray ∧ Readies k config listener d calls r := by
  obtain ⟨r₂, setup, k₂, h₂, ht₂, hp₂, he⟩ := setUp_trace H config listener
  rcases r₂ with e | s
  · exact ⟨.error e, setup, k₂, by simp [makeServer, h₂], ht₂, .failed hp₂⟩
  obtain ⟨r₃, told, written, after, k₃, h₃, H₃, hp₃, hp₃', hs₃, hs₃'⟩ := d.finish_onward k₂
  have ht₃ : k₃.trace = k.trace ++
      (before ++ (setup ++ told ++ .write d.lifelineWriter [1] written :: after)).toArray := by
    simp [H₃.trace, ht₂]
  have hp : Private (setup ++ told) := by simp [hp₂, hp₃]
  rcases r₃ with e | ⟨⟩
  · obtain ⟨r₄, k₄, h₄, H₄⟩ := Sys.close_onward k₃ s.listener
    obtain ⟨r₅, k₅, h₅, H₅⟩ := Sys.close_onward k₄ s.queue.fd
    refine ⟨.error (.daemon e), setup ++ told ++ .write d.lifelineWriter [1] written ::
      (after ++ [.close s.listener, .close s.queue.fd]), k₅,
      by simp [makeServer, reportReady, Except.mapError, EventQueue.close, h₂, h₃, h₄, h₅], ?_,
      .reported (he s rfl) hp (by simp [hp₃', Call.isHandoff]) hs₃ (by simp [hs₃', Call.failed])⟩
    simp [H₅.trace, H₄.trace, ht₃]
  · exact ⟨.ok s, _, k₃, by simp [makeServer, reportReady, Except.mapError, h₂, h₃], ht₃,
      .reported (he s rfl) hp hp₃' hs₃ hs₃'⟩

/-- All that has succeeded before a daemon reports to be ready. -/
structure Prepared (k : Kernel) (config : Config) (writer : Fd) (calls : List Call) : Prop where
  listening : ∃ listener, Listening listener calls ∧ Equipped k config listener calls ∧
    ∃ sweep, sweep ⊆ calls ∧ Swept k [listener] sweep
  pipe : ∃ reader, .pipe (.ok (reader, writer)) ∈ calls
  null : ∃ fd, .openNull (.ok fd) ∈ calls
  forks : handoff calls = [.fork (.ok 0), .fork (.ok 0)]
  session : .createSession (.ok ()) ∈ calls
  hangup : .setSignal .hangup .ignore (.ok ()) ∈ calls

/-- The exit code of a process that does not get as far as serving. -/
def codeOf : Except StartError Start → Option Nat
  | .error _ => some 1
  | .ok (.exit code) => some code
  | .ok (.serve _) => none

/-- How the start of a program goes that is to be a daemon: as that of the first process, of the
second one, of a daemon that reports to be ready, or of any of them when something fails. -/
inductive Commences (k : Kernel) (config : Config) : List Call → Except StartError Start → Prop
  | failed {calls : List Call} {e : StartError}
    (h : ∀ call ∈ handoff calls, call = .fork (.ok 0) ∨ ∃ e, call = .fork (.error e)) :
    Commences k config calls (.error e)
  | origin {calls : List Call} {reader writer : Fd} {child : Nat} {read : Except Errno Nat}
    {result : Except StartError Start} (hc : 0 < child)
    (hp : .pipe (.ok (reader, writer)) ∈ calls)
    (h : handoff calls = [.fork (.ok child), .read reader 1 read])
    (hr : codeOf result = some (Daemon.originCode read (Sys.waitProcess child k).1)) :
    Commences k config calls result
  | leader {calls : List Call} {child : Nat} (hc : 0 < child)
    (h : handoff calls = [.fork (.ok 0), .fork (.ok child)]) :
    Commences k config calls (.ok (.exit 0))
  | ready {before after : List Call} {writer : Fd} {written : Except Errno Nat}
    {result : Except StartError Start} (hb : Prepared k config writer before)
    (ha : Private after) (hs : Smooth after) (hr : ∀ code, result ≠ .ok (.exit code)) :
    Commences k config (before ++ .write writer [1] written :: after) result

theorem startWith_commences (hd : config.daemon = true) {listener : Fd}
    (H : k.Onward before k₁) (hp : Private before) (hl : Listening listener before) :
    ∃ r calls k', startWith config listener k₁ = (r, k') ∧
      k'.trace = k.trace ++ (before ++ calls).toArray ∧
      Commences k config (before ++ calls) r := by
  obtain ⟨r₂, starting, k₂, h₂, ht₂, Hs, H₂⟩ := Daemon.start_starts H [listener]
  cases Hs with
  | @failed _ e h =>
    obtain ⟨r₃, k₃, h₃, H₃⟩ := Sys.close_onward k₂ listener
    refine ⟨.error (.daemon e), starting ++ [.close listener], k₃,
      by simp [startWith, hd, h₂, h₃], by simp [H₃.trace, ht₂], .failed ?_⟩
    simpa [hp.handoff, Call.isHandoff] using h
  | @origin _ reader writer child read result hc hpipe h hr =>
    have hpipe : Call.pipe (.ok (reader, writer)) ∈ before ++ starting :=
      List.mem_append_right _ hpipe
    have hh : handoff (before ++ starting) = [.fork (.ok child), .read reader 1 read] := by
      rw [handoff_append, hp.handoff, h, List.nil_append]
    rcases result with e | code
    · obtain ⟨r₃, k₃, h₃, H₃⟩ := Sys.close_onward k₂ listener
      refine ⟨.error (.daemon e), starting ++ [.close listener], k₃,
        by simp [startWith, hd, h₂, h₃, Except.map], by simp [H₃.trace, ht₂], ?_⟩
      rw [← List.append_assoc]
      refine .origin hc (List.mem_append_left _ hpipe) ?_ (congrArg some hr)
      rw [handoff_append, hh]
      rfl
    · exact ⟨.ok (.exit code), starting, k₂, by simp [startWith, hd, h₂, Except.map], ht₂,
        .origin hc hpipe hh (congrArg some hr)⟩
  | leader hc h =>
    exact ⟨.ok (.exit 0), starting, k₂, by simp [startWith, hd, h₂], ht₂,
      .leader hc (by simp [hp.handoff, h])⟩
  | @daemon sweep d hs =>
    obtain ⟨r₃, making, k₃, h₃, ht₃, Hr⟩ := makeServer_trace (H₂ d rfl) config listener d
    refine ⟨r₃.map .serve, Daemon.departure sweep d ++ making, k₃, by simp [startWith, hd, h₂, h₃],
      by simpa using ht₃, ?_⟩
    rw [← List.append_assoc]
    have hh : handoff (before ++ Daemon.departure sweep d) = [.fork (.ok 0), .fork (.ok 0)] := by
      rw [handoff_append, hp.handoff, Daemon.handoff_departure hs, List.nil_append]
    cases Hr with
    | failed hpm =>
      refine .failed ?_
      rw [handoff_append, hh, hpm.handoff]
      simp
    | @reported setup told after written _ he hpm hpa hst hsa =>
      have hsmooth : Smooth (before ++ Daemon.departure sweep d ++ (setup ++ told)) := by
        simp [hl.smooth, Daemon.smooth_departure hs, he.smooth, hst]
      have hdeparture {calls : List Call} (h : calls ⊆ Daemon.departure sweep d) :
          calls ⊆ before ++ Daemon.departure sweep d ++ (setup ++ told) :=
        fun call hcall => by simp [h hcall]
      rw [← List.append_assoc]
      have hserves (code : Nat) : r₃.map Start.serve ≠ .ok (.exit code) := by
        rcases r₃ with e | s <;> intro h <;> cases h
      refine .ready ?_ hpa hsa hserves
      exact {
        listening := ⟨listener, hl.mono (fun call hcall => by simp [hcall]) hsmooth,
          he.mono (fun call hcall => by simp [hcall]) hsmooth, sweep,
          hdeparture (List.subset_append_left ..), hs⟩
        pipe := ⟨d.lifelineReader, by simp [Daemon.departure]⟩
        null := ⟨d.null, by simp [Daemon.departure]⟩
        forks := by rw [handoff_append, hh, hpm.handoff, List.append_nil]
        session := by simp [Daemon.departure]
        hangup := by simp [Daemon.departure] }

theorem start_commences (hd : config.daemon = true) (program : String) (k : Kernel) :
    ∃ r calls k', start program (.run config) k = (r, k') ∧
      k'.trace = k.trace ++ calls.toArray ∧ Commences k config calls r := by
  obtain ⟨k₁, h₁, H₁⟩ := Sys.print_onward k .stdout (banner ++ "\n")
  obtain ⟨r₂, calls₂, k₂, h₂, H₂, hp₂, hl⟩ :=
    Listener.create_onward k₁ config.hostname config.port
  have H := H₁.trans H₂
  have hp : Private ([.print .stdout (banner ++ "\n")] ++ calls₂) := by simp [hp₂, Call.isHandoff]
  rcases r₂ with e | listener
  · exact ⟨.error (.listen e), _, k₂, by simp [start, h₁, h₂], H.trace,
      .failed (by rw [hp.handoff]; simp)⟩
  have hl : Listening listener ([.print .stdout (banner ++ "\n")] ++ calls₂) :=
    (hl listener rfl).mono (List.subset_append_right ..) (by
      simp [(hl listener rfl).smooth, Call.failed])
  obtain ⟨r₃, calls₃, k₃, h₃, ht₃, Hc⟩ := startWith_commences hd H hp hl
  exact ⟨r₃, _, k₃, by simp [start, h₁, h₂, h₃], ht₃, Hc⟩

end Program

/-! ## Serving -/

theorem Call.not_isHandoff_of_isMessage {call : Call} (h : call.isMessage) :
    call.isHandoff = false := by
  cases call <;> first | rfl | contradiction

theorem LogSink.Tells.isPrivate {sink : LogSink} {messages : List (Severity × String)}
    {calls : List Call} (H : sink.Tells messages calls) : Private calls :=
  fun call hcall => Call.not_isHandoff_of_isMessage (H.isMessage call hcall)

theorem private_operations (fd : Fd) (ops : List Operation) :
    Private (ops.map (Call.operation fd)) := by
  simp [Private, Call.isHandoff]

theorem private_interruptions (listener : Fd) (n : Nat) :
    Private (Sys.interruptions listener n) := fun call hcall => by
  rw [List.eq_of_mem_replicate hcall]
  rfl

namespace Server
variable {s s' : Server} {k k' : Kernel} {new : List Occurrence}

theorem Closing.isPrivate {log : LogSink} {seconds zone : Int} {c : Connection}
    {calls : List Call} (H : Closing log seconds zone c calls) : Private calls := by
  obtain ⟨ht⟩ := H
  simp [ht.isPrivate, Call.isHandoff]

theorem Ending.isPrivate {log : LogSink} {token : Token} {c last : Connection} {verdict : Verdict}
    {calls : List Call} (H : Ending log token c verdict calls last) : Private calls := by
  cases H with
  | close => exact private_nil
  | fail ht => exact ht.isPrivate
  | rearm ht => simp [ht.isPrivate, Call.isHandoff]

/-- A server forks nothing, and neither reads from a pipe nor writes to one. -/
theorem Move.isPrivate (H : Move s k new s' k') : Private (new.filterMap Occurrence.call?) := by
  cases H with
  | tell ht =>
    rw [Occurrence.filterMap_calls]
    exact ht.isPrivate
  | wait hc | unaccepted hc | pause hc =>
    rw [Occurrence.filterMap_calls, hc]
    simp [private_interruptions, Call.isHandoff]
  | resume hc | unresumed hc =>
    rw [Occurrence.filterMap_calls]
    exact hc.isPrivate
  | adopt _ hr hc =>
    rw [Occurrence.filterMap_calls, hc]
    simp [private_interruptions, hr.isPrivate, Call.isHandoff]
  | refuse _ ht hc =>
    rw [Occurrence.filterMap_calls, hc]
    simp [private_interruptions, ht.isPrivate, Call.isHandoff]
  | unregistered _ hr ht hc =>
    rw [Occurrence.filterMap_calls, hc]
    simp [private_interruptions, hr.isPrivate, ht.isPrivate, Call.isHandoff]
  | stay _ _ hc | rearm _ _ hc =>
    rw [List.filterMap_cons, Occurrence.call?, Occurrence.filterMap_calls, hc]
    simp [private_operations, Call.isHandoff]
  | finish _ _ He Hc hc =>
    rw [List.filterMap_cons, Occurrence.call?, Occurrence.filterMap_calls, hc]
    simp [private_operations, He.isPrivate, Hc.isPrivate]
  | close _ _ Hc =>
    rw [Occurrence.filterMap_calls]
    exact Hc.isPrivate

theorem Moves.isPrivate (H : Moves s k new s' k') : Private (new.filterMap Occurrence.call?) := by
  induction H with
  | nil => exact private_nil
  | cons H _ ih => simp [H.isPrivate, ih]

theorem run_isPrivate (m : Moment) (acts : List Act) :
    ∃ calls, (m.run acts).kernel.trace = m.kernel.trace ++ calls.toArray ∧ Private calls := by
  induction acts generalizing m with
  | nil => exact ⟨[], by simp, private_nil⟩
  | cons a acts ih =>
    obtain ⟨new, H, -⟩ := act_moves m a
    obtain ⟨calls, ht, hp⟩ := ih (m.act a)
    refine ⟨new.filterMap Occurrence.call? ++ calls, ?_, by simp [H.isPrivate, hp]⟩
    rw [Moment.run_cons, ht, H.trace]
    simp

theorem serve_isPrivate (rounds : List Round) (s : Server) (k : Kernel) :
    ∃ calls, (serve rounds s k).2.trace = k.trace ++ calls.toArray ∧ Private calls := by
  obtain ⟨acts, -, hk⟩ := IsRun.serve rounds ⟨s, k, []⟩
  rw [hk]
  exact run_isPrivate ⟨s, k, []⟩ acts

end Server

/-! ## The whole process -/

namespace Program
variable {k : Kernel} {config : Config}

theorem fail_private (chain : Chain) (k : Kernel) :
    ∃ calls k', fail chain k = (1, k') ∧ k'.trace = k.trace ++ calls.toArray ∧ Private calls := by
  obtain ⟨k', h, H⟩ := Sys.print_onward k .stderr chain.report
  exact ⟨_, k', by simp [fail, h], H.trace, by simp [Call.isHandoff]⟩

/-- Serving concerns no other process, also where it ends with a message. -/
theorem process_isPrivate (rounds : List Round) (s : Server) (k : Kernel) :
    ∃ calls, (process (Server.serve rounds) s k).2.trace = k.trace ++ calls.toArray ∧
      Private calls := by
  obtain ⟨serving, ht, hp⟩ := Server.serve_isPrivate rounds s k
  have hserve : Server.serve rounds s k = (((Server.serve rounds s k).1.1,
    (Server.serve rounds s k).1.2), (Server.serve rounds s k).2) := rfl
  obtain ⟨code, ending, -, ht', hending, -⟩ := process_spec hserve ht
  have hp' : Private ending := fun call hcall => by
    obtain ⟨_, rfl⟩ | ⟨_, rfl⟩ := hending call hcall <;> rfl
  refine ⟨_, ht', fun call hcall => ?_⟩
  exact (private_append ..).2 ⟨hp, hp'⟩ call ((Call.untilBreak_prefix _).subset hcall)

/-- What a process does after it has started concerns no other process. -/
theorem run_trace {arguments : List String}
    (hread : CommandLine.read k.files arguments = .ok (.run config)) (program : String)
    (rounds : List Round) {r : Except StartError Start} {k' : Kernel}
    (h : start program (.run config) k = (r, k')) :
    ∃ rest, (run program arguments rounds k).2.trace = k'.trace ++ rest.toArray ∧ Private rest ∧
      ∀ code, codeOf r = some code → (run program arguments rounds k).1 = code := by
  rcases r with e | code | server
  · obtain ⟨calls, k'', h', ht, hp⟩ := fail_private e.chain k'
    have hrun : run program arguments rounds k = fail e.chain k' := by simp [run, hread, h]
    rw [hrun, h']
    refine ⟨calls, ht, hp, ?_⟩
    rintro _ ⟨⟩
    rfl
  · have hrun : run program arguments rounds k = (code, k') := by simp [run, hread, h]
    rw [hrun]
    exact ⟨[], by simp, private_nil, fun _ hc => Option.some.inj hc⟩
  · obtain ⟨calls, ht, hp⟩ := process_isPrivate rounds server k'
    have hrun : run program arguments rounds k = process (Server.serve rounds) server k' := by
      simp [run, hread, h]
    rw [hrun]
    exact ⟨calls, ht, hp, fun _ h => by cases h⟩

/-- How a program hands off to a daemon. `started` is what it has done when it starts to serve or
gives that up, and `calls` is all that it does. -/
structure HandsOff (k : Kernel) (config : Config) (started calls : List Call) (serves : Prop)
    (code : Nat) : Prop where
  /-- In the first process the exit code is that of a success if the lifeline gave it a byte, and
  never otherwise. -/
  origin : ∀ child rest, 0 < child → handoff calls = .fork (.ok child) :: rest →
    ∃ reader writer read, .pipe (.ok (reader, writer)) ∈ calls ∧
      rest = [.read reader 1 read] ∧ (code = 0 ↔ read = .ok 1) ∧
      (read ≠ .ok 1 → ∀ status, status ≠ 0 →
        (Sys.waitProcess child k).1 = .ok (.exited status) → code = status) ∧
      (read ≠ .ok 1 → (∀ status, status ≠ 0 →
        (Sys.waitProcess child k).1 ≠ .ok (.exited status)) → code = 1)
  /-- The second process does nothing with the lifeline. -/
  leader : ∀ child rest, 0 < child → handoff calls = .fork (.ok 0) :: .fork (.ok child) :: rest →
    rest = [] ∧ ¬ serves
  /-- Nothing but one byte is written, and that once all has succeeded. -/
  written : ∀ before fd data result after, calls = before ++ .write fd data result :: after →
    data = [1] ∧ Prepared k config fd before ∧ Private after
  failed : (∀ child, .fork (.ok child) ∈ calls → child = 0) →
    ¬ (Smooth started ∧ ∃ before fd, before <+: started ∧ Prepared k config fd before) →
    (∀ fd data result, .write fd data result ∉ calls) ∧ ¬ serves ∧ code ≠ 0

theorem mem_handoff {calls : List Call} {call : Call} (h : call ∈ calls) (hc : call.isHandoff) :
    call ∈ handoff calls := List.mem_filter.2 ⟨h, hc⟩

theorem originCode_eq_zero_iff (read : Except Errno Nat)
    (status : Except Errno Sys.ProcessStatus) :
    Daemon.originCode read status = 0 ↔ read = .ok 1 := by
  have hchild : Daemon.childCode status ≠ 0 := by
    unfold Daemon.childCode
    split
    · split <;> simp_all
    · simp
  unfold Daemon.originCode
  split
  · simp
  · rename_i h
    exact iff_of_false hchild h

theorem childCode_eq_one {status : Except Errno Sys.ProcessStatus}
    (h : ∀ code, code ≠ 0 → status ≠ .ok (.exited code)) : Daemon.childCode status = 1 := by
  unfold Daemon.childCode
  split
  · split
    · rfl
    · rename_i code hc
      exact absurd rfl (h code hc)
  · rfl

theorem originCode_eq_childCode {read : Except Errno Nat} (h : read ≠ .ok 1) :
    Daemon.originCode read = Daemon.childCode := by
  funext status
  unfold Daemon.originCode
  split
  · exact absurd rfl h
  · rfl

namespace HandsOff
variable {started calls : List Call} {serves : Prop} {code child : Nat}

/-- A write is among the calls by which processes deal with each other. -/
theorem not_written {fd : Fd} {data : List UInt8} {result : Except Errno Nat}
    (h : .write fd data result ∉ handoff calls) : .write fd data result ∉ calls :=
  fun hw => h (mem_handoff hw rfl)

theorem not_split {before after : List Call} {fd : Fd} {data : List UInt8}
    {result : Except Errno Nat} (h : .write fd data result ∉ handoff calls) :
    calls ≠ before ++ .write fd data result :: after := by
  rintro rfl
  exact not_written h (by simp)

theorem forked {more : List Call} (hh : handoff calls = .fork (.ok child) :: more) :
    .fork (.ok child) ∈ calls :=
  (List.mem_filter.1 (hh ▸ List.mem_cons_self : _ ∈ handoff calls)).1

theorem of_failed
    (hf : ∀ call ∈ handoff calls, call = .fork (.ok 0) ∨ ∃ e, call = .fork (.error e))
    (hs : ¬ serves) (hcode : code ≠ 0) : HandsOff k config started calls serves code := by
  have hfork {child : Nat} (hc : 0 < child) (hmem : .fork (.ok child) ∈ handoff calls) : False := by
    rcases hf _ hmem with hz | ⟨e, he⟩
    · cases hz
      contradiction
    · cases he
  have hwrite {fd : Fd} {data : List UInt8} {result : Except Errno Nat} :
      .write fd data result ∉ handoff calls := fun hw => by
    rcases hf _ hw with hz | ⟨e, he⟩ <;> contradiction
  exact {
    origin := fun child more hc hh => (hfork hc (by simp [hh])).elim
    leader := fun child more hc hh => (hfork hc (by simp [hh])).elim
    written := fun before fd data result after he => (not_split hwrite he).elim
    failed := fun _ _ => ⟨fun _ _ _ => not_written hwrite, hs, hcode⟩ }

theorem of_origin {reader writer : Fd} {read : Except Errno Nat} (hc : 0 < child)
    (hp : .pipe (.ok (reader, writer)) ∈ calls)
    (hh : handoff calls = [.fork (.ok child), .read reader 1 read])
    (hcode : code = Daemon.originCode read (Sys.waitProcess child k).1) :
    HandsOff k config started calls serves code where
  origin child' more _ hh' := by
    rw [hh] at hh'
    cases hh'
    refine ⟨reader, writer, read, hp, rfl, by rw [hcode, originCode_eq_zero_iff], ?_, ?_⟩
    · intro hr status hs hst
      rw [hcode, originCode_eq_childCode hr, hst, Daemon.childCode, if_neg hs]
    · intro hr hst
      rw [hcode, originCode_eq_childCode hr, childCode_eq_one hst]
  leader child' more _ hh' := by
    rw [hh] at hh'
    cases hh'
  written before fd data result after he := (not_split (by simp [hh]) he).elim
  failed hz _ := absurd (hz child (forked hh)) (Nat.ne_of_gt hc)

theorem of_leader (hc : 0 < child) (hh : handoff calls = [.fork (.ok 0), .fork (.ok child)])
    (hs : ¬ serves) : HandsOff k config started calls serves code where
  origin child' more hc' hh' := by
    rw [hh] at hh'
    cases hh'
    contradiction
  leader child' more _ hh' := by
    rw [hh] at hh'
    cases hh'
    exact ⟨rfl, hs⟩
  written before fd data result after he := (not_split (by simp [hh]) he).elim
  failed hz _ := by
    have hmem : Call.fork (.ok child) ∈ handoff calls := by simp [hh]
    exact absurd (hz child (List.mem_filter.1 hmem).1) (Nat.ne_of_gt hc)

theorem of_ready {before after : List Call} {writer : Fd} {written : Except Errno Nat}
    (hb : Prepared k config writer before) (hpre : before <+: started) (hs : Smooth started)
    (ha : Private after) :
    HandsOff k config started (before ++ .write writer [1] written :: after) serves code := by
  have hh : handoff (before ++ .write writer [1] written :: after) =
      [.fork (.ok 0), .fork (.ok 0), .write writer [1] written] := by
    simp [hb.forks, ha.handoff, Call.isHandoff]
  exact {
    origin := fun child more hc hh' => by
      rw [hh] at hh'
      cases hh'
      contradiction
    leader := fun child more hc hh' => by
      rw [hh] at hh'
      cases hh'
      contradiction
    written := fun before' fd data result after' he => by
      rw [List.append_cons_inj_of_notMem (not_written (by simp [hb.forks]))
        (not_written (by simp [ha.handoff]))] at he
      obtain ⟨rfl, hcall, rfl⟩ := he
      cases hcall
      exact ⟨rfl, hb, ha⟩
    failed := fun _ hn => absurd ⟨hs, before, writer, hpre, hb⟩ hn }

end HandsOff

/-- **The hand-off to a daemon.** Whatever comes of its calls, the first process exits with the
code of a success if it has read one byte from the lifeline, and else with that of its child or of
a failure. The second process writes nothing. The daemon writes one byte, and does so once all has
succeeded that it needs; when something fails it writes nothing, does not serve and exits with the
code of a failure. -/
theorem daemon_hands_off {arguments : List String}
    (hread : CommandLine.read k.files arguments = .ok (.run config))
    (hd : config.daemon = true) (program : String) (rounds : List Round) :
    HandsOff k config ((start program (.run config)).calls k)
      ((run program arguments rounds).calls k)
      (∃ server, (start program (.run config) k).1 = .ok (.serve server))
      (run program arguments rounds k).1 := by
  obtain ⟨r, started, k', h, ht, Hc⟩ := start_commences hd program k
  obtain ⟨rest, ht', hp, hcode⟩ := run_trace hread program rounds h
  have hstarted : (start program (.run config)).calls k = started :=
    Sys.calls_eq (by rw [h, ht])
  have hcalls : (run program arguments rounds).calls k = started ++ rest :=
    Sys.calls_eq (by rw [ht', ht]; simp)
  have hhandoff : handoff (started ++ rest) = handoff started := by
    rw [handoff_append, hp.handoff, List.append_nil]
  rw [hstarted, hcalls, h]
  cases Hc with
  | failed hf => exact .of_failed (hhandoff ▸ hf) (by simp) (by simp [hcode 1 rfl])
  | origin hc hpipe hh hr =>
    exact .of_origin hc (List.mem_append_left _ hpipe) (hhandoff.trans hh) (hcode _ hr)
  | leader hc hh => exact .of_leader hc (hhandoff.trans hh) (by simp)
  | @ready before after writer written result hb ha hs =>
    obtain ⟨listener, -, he, -⟩ := hb.listening
    rw [List.append_assoc, List.cons_append]
    exact .of_ready hb (List.prefix_append ..) (by simp [he.smooth, hs, Call.failed])
      ((private_append ..).2 ⟨ha, hp⟩)

end Program

/-- A process that may have no descriptors but the standard ones when it closes what it has
inherited. -/
def Kernel.narrow : Kernel := ({} : Kernel).force [(.getrlimit, [some (.value 3)])]

/-- A server in the background that logs to where daemons log to. -/
def Config.background : Config := { daemon := true, log := .syslog }

namespace Program

/-- The daemon serves until it is stopped. -/
theorem daemon_hands_off_stopped :
    CommandLine.read Kernel.narrow.files ["--daemon"] = .ok (.run .background) ∧
      HandsOff .narrow .background ((start "serverd" (.run .background)).calls .narrow)
        ((run "serverd" ["--daemon"] [{ stop := true, failure := some .EINTR }]).calls .narrow)
        (∃ server, (start "serverd" (.run .background) .narrow).1 = .ok (.serve server)) 0 := by
  have hread : CommandLine.read Kernel.narrow.files ["--daemon"] = .ok (.run .background) := by
    rfl
  have hcode : (run "serverd" ["--daemon"] [{ stop := true, failure := some .EINTR }] .narrow).1 =
      0 := by decide +kernel
  have H := daemon_hands_off hread rfl "serverd" [{ stop := true, failure := some .EINTR }]
  rw [hcode] at H
  exact ⟨hread, H⟩

end Program

end OnePage
