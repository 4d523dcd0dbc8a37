import OnePage.Proofs.Incidents
import OnePage.Proofs.Isolation

/-! # Pausing

Whether accepting is paused can be told from the calls that were made, since these are a row of
incidents (`Server.Incidents.pausedAfter`). While it is, a connection that is closed is followed by
an attempt to go on, and so is a poll that leaves none open. -/

namespace OnePage

/-! ## Rows of incidents -/

/-- The calls of an act are those of a row of incidents. -/
theorem Reachable.act_incidents {m : Moment} (H : Reachable m) (a : Server.Act) :
    (m.act a).server.listener = m.server.listener ∧
      Server.Incidents m.server.listener m.server.pausedSince
        ((m.news a).filterMap Occurrence.call?) (m.act a).server.pausedSince := by
  obtain ⟨⟨calls, x, s, k, h, hl, htrace, Hi⟩, -⟩ :=
    Server.ByIncidents.act a m.server m.kernel H.registered
  have hnews : m.news a = (a.turns m.server m.kernel).map .turn ++ calls.map .call :=
    Moment.news_eq (by rw [h]; exact htrace)
  have hserver : (m.act a).server = s := congrArg (·.1.2) h
  rw [hnews, List.filterMap_append, Occurrence.filterMap_turns, Occurrence.filterMap_calls,
    List.nil_append, hserver]
  exact ⟨hl, Hi⟩

/-- The calls of a run are those of a row of incidents. -/
theorem Reachable.incidents {m : Moment} (H : Reachable m) :
    Server.Incidents m.server.listener none (m.history.filterMap Occurrence.call?)
      m.server.pausedSince := by
  induction H with
  | created _ _ _ hc =>
    obtain ⟨queue, calls, rfl, -⟩ := Server.create_spec hc
    exact .nil
  | @act m H a ih =>
    obtain ⟨hl, Hi⟩ := H.act_incidents a
    have hhistory : (m.act a).history = m.history ++ m.news a := rfl
    rw [hhistory, List.filterMap_append, hl]
    exact ih.append Hi
/-! ## What can be told from the calls -/

namespace Call

/-- Whether a call fails to accept because there is no descriptor left. -/
def exhausts (listener : Fd) : Call → Bool
  | .accept fd (.error e) => fd = listener ∧ (e = .EMFILE ∨ e = .ENFILE)
  | _ => false

/-- Whether a call has registered the listener under its token. -/
def reopens (listener : Fd) : Call → Bool
  | .add fd token _ result => fd = listener ∧ token = listenerToken ∧ result = .ok ()
  | .modify fd token _ result => fd = listener ∧ token = listenerToken ∧ result = .ok ()
  | _ => false

end Call

/-- Whether accepting is paused after a call, by whether it was before. -/
def stillPaused (listener : Fd) (paused : Bool) (call : Call) : Bool :=
  call.exhausts listener || paused && !call.reopens listener

/-- Whether accepting is paused after some calls, by whether it was before them. -/
def pausedAfter (listener : Fd) (paused : Bool) (calls : List Call) : Bool :=
  calls.foldl (stillPaused listener) paused

section
variable {listener fd : Fd} {call : Call} {calls more : List Call} {b : Bool}

theorem pausedAfter_append (listener : Fd) (b : Bool) (calls more : List Call) :
    pausedAfter listener b (calls ++ more) =
      pausedAfter listener (pausedAfter listener b calls) more := List.foldl_append

theorem pausedAfter_aside (h : ∀ call ∈ calls, call.isAside listener) :
    pausedAfter listener b calls = b := by
  induction calls generalizing b with
  | nil => rfl
  | cons call calls ih =>
    obtain ⟨hcall, hcalls⟩ := List.forall_mem_cons.1 h
    have hstill : stillPaused listener b call = b := by
      cases call with
      | accept fd result =>
        rcases result with e | fd'
        · simp only [Call.isAside, decide_eq_true_eq] at hcall
          simp [stillPaused, Call.exhausts, Call.reopens, hcall]
        · simp [stillPaused, Call.exhausts, Call.reopens]
      | add fd | modify fd =>
        simp only [Call.isAside, decide_eq_true_eq] at hcall
        simp [stillPaused, Call.exhausts, Call.reopens, hcall]
      | _ => simp [stillPaused, Call.exhausts, Call.reopens]
    rw [pausedAfter, List.foldl_cons, hstill]
    exact ih hcalls

theorem pausedAfter_messages (h : ∀ call ∈ calls, call.isMessage) :
    pausedAfter listener b calls = b :=
  pausedAfter_aside fun call hcall => Call.isAside_of_isMessage (h call hcall)

theorem Server.Attempt.pausedAfter {paused paused' : Option Nanoseconds}
    (H : Attempt listener paused calls paused') :
    pausedAfter listener paused.isSome calls = paused'.isSome := by
  cases H with
  | unpaused => rfl
  | resumed hr => cases hr <;> simp [OnePage.pausedAfter, stillPaused, Call.exhausts, Call.reopens]
  | failed hr ht =>
    rw [pausedAfter_append, pausedAfter_messages ht]
    cases hr <;> simp [OnePage.pausedAfter, stillPaused, Call.exhausts, Call.reopens]

theorem pausedAfter_cons_delete (deleted : Outcome) :
    pausedAfter listener b (.delete fd deleted :: calls) = pausedAfter listener b calls := by
  cases b <;> rfl

theorem pausedAfter_cons_close :
    pausedAfter listener b (.close fd :: calls) = pausedAfter listener b calls := by
  cases b <;> rfl

theorem Server.Incident.pausedAfter {paused paused' : Option Nanoseconds}
    (H : Incident listener paused calls paused') :
    pausedAfter listener paused.isSome calls = paused'.isSome := by
  cases H with
  | aside h => exact pausedAfter_aside h
  | @exhausted _ now n e deleted told he ht =>
    have hpaused : stillPaused listener paused.isSome (.accept listener (.error e)) = true := by
      simp [stillPaused, Call.exhausts, he]
    rw [pausedAfter_append, pausedAfter_aside (isAside_interruptions listener n),
      OnePage.pausedAfter, List.foldl_cons, hpaused]
    exact (pausedAfter_cons_delete deleted).trans (pausedAfter_messages ht)
  | dismissed _ ht Ha =>
    rw [pausedAfter_cons_delete, pausedAfter_append, pausedAfter_messages ht,
      pausedAfter_cons_close]
    exact Ha.pausedAfter
  | retried Ha => exact Ha.pausedAfter

/-- Whether accepting is paused can be told from the calls. -/
theorem Server.Incidents.pausedAfter {paused paused' : Option Nanoseconds}
    (H : Incidents listener paused calls paused') :
    pausedAfter listener paused.isSome calls = paused'.isSome := by
  induction H with
  | nil => rfl
  | cons H _ ih => rw [pausedAfter_append, H.pausedAfter, ih]

/-! ## Connections that are closed -/

/-- Where messages are followed by something else, they end in one place. -/
theorem split_messages {told told' : List Call} {call call' : Call} {l l' : List Call}
    (ht : ∀ call ∈ told, call.isMessage) (ht' : ∀ call ∈ told', call.isMessage)
    (hc : call.isMessage = false) (hc' : call'.isMessage = false)
    (h : told ++ call :: l = told' ++ call' :: l') : l = l' := by
  induction told generalizing told' with
  | nil =>
    cases told' with
    | nil =>
      cases h
      rfl
    | cons x told' =>
      cases h
      rw [ht' _ (List.mem_cons_self ..)] at hc
      cases hc
  | cons x told ih =>
    cases told' with
    | nil =>
      cases h
      rw [ht _ (List.mem_cons_self ..)] at hc'
      cases hc'
    | cons x' told' =>
      rw [List.cons_append, List.cons_append, List.cons.injEq] at h
      exact ih (List.forall_mem_cons.1 ht).2 (List.forall_mem_cons.1 ht').2 h.2

theorem not_delete_of_aside {deleted : Outcome} (h : ∀ call ∈ calls, call.isAside listener) :
    .delete fd deleted ∉ calls := fun hmem => by cases h _ hmem

theorem not_delete_of_messages {deleted : Outcome} (h : ∀ call ∈ calls, call.isMessage) :
    .delete fd deleted ∉ calls := fun hmem => by cases h _ hmem

theorem Server.Attempt.not_delete {paused paused' : Option Nanoseconds} {deleted : Outcome}
    (H : Attempt listener paused calls paused') : .delete fd deleted ∉ calls := by
  cases H with
  | unpaused => exact List.not_mem_nil
  | resumed hr => cases hr <;> simp
  | failed hr ht =>
    intro h
    rcases List.mem_append.1 h with h | h
    · cases hr <;> simp at h
    · exact not_delete_of_messages ht h

/-- A connection is forgotten only where it is closed. -/
theorem Server.Incident.of_delete {paused paused' : Option Nanoseconds} {deleted : Outcome}
    {before rest : List Call} (H : Incident listener paused calls paused') (hfd : fd ≠ listener)
    (h : calls = before ++ .delete fd deleted :: rest) :
    before = [] ∧ ∃ told more, rest = told ++ .close fd :: more ∧
      (∀ call ∈ told, call.isMessage) ∧ Attempt listener paused more paused' := by
  have hmem : .delete fd deleted ∈ calls := by simp [h]
  cases H with
  | aside hcalls => exact absurd hmem (not_delete_of_aside hcalls)
  | exhausted _ ht =>
    rcases List.mem_append.1 hmem with hmem | hmem
    · exact absurd hmem (not_delete_of_aside (isAside_interruptions listener _))
    · simp only [List.mem_cons, reduceCtorEq, false_or, Call.delete.injEq] at hmem
      rcases hmem with ⟨hl, -⟩ | hmem
      · exact absurd hl hfd
      · exact absurd hmem (not_delete_of_messages ht)
  | @dismissed _ _ fd' deleted' told more _ ht Ha =>
    cases before with
    | nil =>
      cases h
      exact ⟨rfl, told, more, rfl, ht, Ha⟩
    | cons call before =>
      rw [List.cons_append, List.cons.injEq] at h
      have hmem : .delete fd deleted ∈ told ++ .close fd' :: more := by simp [h.2]
      rcases List.mem_append.1 hmem with hmem | hmem
      · exact absurd hmem (not_delete_of_messages ht)
      · rcases List.mem_cons.1 hmem with hmem | hmem
        · cases hmem
        · exact absurd hmem Ha.not_delete
  | retried Ha => exact absurd hmem Ha.not_delete

/-- A connection that is closed while accepting is paused is followed by an attempt to go on. -/
theorem Server.Incidents.attempt {paused paused' : Option Nanoseconds} {deleted : Outcome}
    {before told after : List Call} (H : Incidents listener paused calls paused')
    (hfd : fd ≠ listener) (ht : ∀ call ∈ told, call.isMessage)
    (h : calls = before ++ .delete fd deleted :: (told ++ .close fd :: after))
    (hp : OnePage.pausedAfter listener paused.isSome before = true) :
    ∃ result attempt rest,
      EventQueue.Registration listener listenerToken .accept result attempt ∧
        after = attempt ++ rest := by
  induction H generalizing before with
  | nil => simp at h
  | @cons paused paused' paused'' calls more H _ ih =>
    have hclose : (Call.close fd).isMessage = false := rfl
    rcases List.append_eq_append_iff.1 h with ⟨later, hbefore, hmore⟩ | ⟨rest, hcalls, hrest⟩
    · rw [hbefore, pausedAfter_append, H.pausedAfter] at hp
      exact ih hmore hp
    · cases rest with
      | nil =>
        rw [List.append_nil] at hcalls
        rw [← hcalls, H.pausedAfter] at hp
        have hmore : more = [] ++ .delete fd deleted :: (told ++ .close fd :: after) := hrest.symm
        exact ih hmore hp
      | cons call rest =>
        rw [List.cons_append, List.cons.injEq] at hrest
        obtain ⟨rfl, hrest⟩ := hrest
        obtain ⟨rfl, told', more', rfl, ht', Ha⟩ := H.of_delete hfd hcalls
        have hafter : after = more' ++ more :=
          split_messages ht ht' hclose hclose (hrest.trans (by simp))
        cases Ha with
        | unpaused => cases hp
        | resumed hr => exact ⟨_, more', more, hr, hafter⟩
        | @failed _ e tried told'' hr _ =>
          exact ⟨_, tried, told'' ++ more, hr, by rw [hafter, List.append_assoc]⟩

/-- Accepting goes on only by a call that has registered the listener, with no descriptor missing
after it. -/
theorem exists_reopens (h : pausedAfter listener true calls = false) :
    ∃ before call after, calls = before ++ call :: after ∧ call.reopens listener ∧
      ∀ later ∈ after, later.exhausts listener = false := by
  induction calls using List.reverseRecOn with
  | nil => cases h
  | append_singleton calls call ih =>
    rw [pausedAfter_append] at h
    have hcall : stillPaused listener (pausedAfter listener true calls) call = false := h
    rw [stillPaused, Bool.or_eq_false_iff] at hcall
    obtain ⟨hexhausts, hcall⟩ := hcall
    by_cases hreopens : call.reopens listener
    · exact ⟨calls, call, [], rfl, hreopens, List.forall_mem_nil _⟩
    · have hcalls : pausedAfter listener true calls = false := by simpa [hreopens] using hcall
      obtain ⟨before, call', after, rfl, hreopens', hlater⟩ := ih hcalls
      refine ⟨before, call', after ++ [call], by simp, hreopens', ?_⟩
      exact List.forall_mem_append.2 ⟨hlater, List.forall_mem_singleton.2 hexhausts⟩

end

/-! ## Leaving the table -/

/-- A connection that a verdict has led to leave has been forgotten and closed. -/
theorem Alone.conclude_eq_none {c : Connection} {results : List Outcome} {seconds zone : Int}
    {verdict : Verdict} {deeds : List Deed}
    (h : Alone.conclude c results seconds zone verdict = (deeds, none)) :
    ∃ before deleted messages,
      deeds = before ++ .delete deleted :: (Alone.tell messages ++ [.close]) := by
  cases verdict with
  | wait => cases h
  | close =>
    cases h
    exact ⟨[], _, _, rfl⟩
  | fail cause =>
    cases h
    exact ⟨[_], _, _, rfl⟩
  | rearm =>
    unfold conclude at h
    dsimp only at h
    split at h
    · cases h
      exact ⟨[_, _], _, _, rfl⟩
    · cases h

/-- A connection that is gone has been forgotten and closed. -/
theorem Alone.step_eq_none {path : String} {timeout : Option Nanoseconds} {x : Stimulus}
    {c : Connection} {deeds : List Deed} (h : Alone.step path timeout x (some c) = (deeds, none)) :
    ∃ before deleted messages,
      deeds = before ++ .delete deleted :: (Alone.tell messages ++ [.close]) := by
  unfold step at h
  dsimp only at h
  split at h
  · cases h
  · rename_i now ready page _
    obtain ⟨ops, verdict, c', hhear⟩ : ∃ ops verdict c',
      c.hear ready path page now x.answers = (ops, verdict, c') := ⟨_, _, _, rfl⟩
    rw [hhear] at h
    dsimp only at h
    rw [Prod.mk.injEq] at h
    obtain ⟨hdeeds, hnone⟩ := h
    obtain ⟨before, deleted, messages, hleft⟩ := Alone.conclude_eq_none (Prod.ext rfl hnone)
    refine ⟨ops.map .operation ++ before, deleted, messages, ?_⟩
    rw [← hdeeds, List.append_assoc, ← hleft]
  · split at h
    · cases h
    · split at h
      · cases h
        exact ⟨[], _, _, rfl⟩
      · cases h
  · cases h
    exact ⟨[], _, _, rfl⟩

theorem forall₂_split {α β : Type} {R : α → β → Prop} {as bs : List α} {cs : List β}
    (h : List.Forall₂ R (as ++ bs) cs) :
    ∃ ds es, cs = ds ++ es ∧ List.Forall₂ R as ds ∧ List.Forall₂ R bs es := by
  induction as generalizing cs with
  | nil => exact ⟨[], cs, rfl, .nil, h⟩
  | cons a as ih =>
    obtain ⟨d, ds, hd, hrest, rfl⟩ := List.forall₂_cons_left_iff.1 h
    obtain ⟨ds, es, rfl, hds, hes⟩ := ih hrest
    exact ⟨d :: ds, es, rfl, .cons hd hds, hes⟩

theorem Deed.Made.messages {log : LogSink} {fd : Fd} {token : Token}
    {messages : List (Severity × String)} {calls : List Call}
    (H : List.Forall₂ (Deed.Made log fd token) (Alone.tell messages) calls) :
    ∀ call ∈ calls, call.isMessage := by
  induction messages generalizing calls with
  | nil =>
    cases H
    exact List.forall_mem_nil _
  | cons message messages ih =>
    cases H with
    | cons h H =>
      cases h with
      | tell h => exact List.forall_mem_cons.2 ⟨h.isMessage, ih H⟩

/-- What is done on a descriptor stands together. -/
theorem exists_segment (fd : Fd) (occurrences : List Occurrence) :
    ∃ before after, occurrences = before ++ (segment fd occurrences ++ after) := by
  obtain ⟨before, hbefore⟩ := List.dropWhile_suffix (fun o => o.socket? ≠ some fd)
    (l := occurrences)
  obtain ⟨after, hafter⟩ := List.rdropWhile_prefix (fun o => o.socket? ≠ some fd)
    (occurrences.dropWhile fun o => o.socket? ≠ some fd)
  exact ⟨before, after, by rw [segment, hafter, hbefore]⟩

/-- A connection that has left the table has been taken off the queue and closed, and nothing but
messages came between. -/
theorem Reachable.left {m : Moment} (H : Reachable m) {token : Token} {a : Server.Act}
    {c : Connection} (hc : m.record? token = some c) (hgone : (m.act a).record? token = none) :
    ∃ before deleted told after, (m.news a).filterMap Occurrence.call? =
        before ++ .delete c.socket deleted :: (told ++ .close c.socket :: after) ∧
      ∀ call ∈ told, call.isMessage := by
  obtain ⟨deeds, hdeeds, Hdone⟩ := H.agrees token a
  rw [hc, hgone] at hdeeds
  have hleft : ∃ before deleted messages,
      deeds = before ++ .delete deleted :: (Alone.tell messages ++ [.close]) := by
    rw [Moment.stimulus?] at hdeeds
    cases hcue : m.cue? token a with
    | none =>
      rw [hcue] at hdeeds
      cases hdeeds
    | some cue =>
      rw [hcue] at hdeeds
      simp only [Option.map_some, Option.toList, Alone.run, List.append_nil, Option.map_none]
        at hdeeds
      exact Alone.step_eq_none hdeeds
  obtain ⟨first, deleted, messages, rfl⟩ := hleft
  have Hmade : List.Forall₂ (Deed.Made m.server.log c.socket token)
      (first ++ .delete deleted :: (Alone.tell messages ++ [.close]))
      ((m.share token a).filterMap Occurrence.call?) := by
    rw [Moment.made, Moment.socket?_eq hc] at Hdone
    dsimp only at Hdone
    rw [List.forall₂_map_right_iff] at Hdone
    exact Hdone
  obtain ⟨begun, ended, hshare, -, Hended⟩ := forall₂_split Hmade
  obtain ⟨_, rest, ⟨⟩, Hrest, rfl⟩ := List.forall₂_cons_left_iff.1 Hended
  obtain ⟨told, last, rfl, Htold, Hlast⟩ := forall₂_split Hrest
  obtain ⟨_, _, ⟨⟩, ⟨⟩, rfl⟩ := List.forall₂_cons_left_iff.1 Hlast
  obtain ⟨before, after, hnews⟩ := exists_segment c.socket (m.news a)
  have hsegment : segment c.socket (m.news a) = m.share token a := by
    rw [Moment.share, Moment.socket?_eq hc]
  refine ⟨before.filterMap Occurrence.call? ++ begun, deleted, told,
    after.filterMap Occurrence.call?, ?_, Deed.Made.messages Htold⟩
  rw [hnews, List.filterMap_append, List.filterMap_append, hsegment, hshare]
  simp

/-! ## The end of a poll -/

/-- Where accepting stays paused for long with no connection open, another attempt has failed. -/
theorem Moment.retry_failed {m : Moment} {now since : Nanoseconds}
    (hempty : (m.act (.retryAccepting now)).server.connections.isEmpty)
    (hp : (m.act (.retryAccepting now)).server.pausedSince = some since)
    (hlate : Server.acceptRetry ≤ now - since) :
    ∃ e attempt told, m.news (.retryAccepting now) = (attempt ++ told).map .call ∧
      EventQueue.Registration m.server.listener listenerToken .accept (.error e) attempt ∧
      ∀ call ∈ told, call.isMessage := by
  have hstill (h : Server.retryAccepting now m.server m.kernel = (((), m.server), m.kernel)) :
      (m.act (.retryAccepting now)).server = m.server := congrArg (·.1.2) h
  cases hbefore : m.server.pausedSince with
  | none =>
    have h : Server.retryAccepting now m.server m.kernel = (((), m.server), m.kernel) := by
      simp [Server.retryAccepting, hbefore]
    rw [hstill h, hbefore] at hp
    cases hp
  | some since' =>
    by_cases hr : m.server.connections.isEmpty = true ∧ Server.acceptRetry ≤ now - since'
    · have h : Server.retryAccepting now m.server m.kernel =
          Server.resume m.server m.kernel := by simp [Server.retryAccepting, hbefore, hr]
      obtain ⟨calls, s, k, hresume, H⟩ := Server.resume_spec m.server m.kernel
      have hrun : (Server.Act.retryAccepting now).run m.server m.kernel = (((), s), k) :=
        h.trans hresume
      have hserver : (m.act (.retryAccepting now)).server = s := congrArg (·.1.2) hrun
      have hnews : m.news (.retryAccepting now) = calls.map .call :=
        Moment.news_eq (by rw [hrun]; exact H.adds.trace)
      rw [hserver] at hp
      cases H with
      | resumed => cases hp
      | @failed e attempt told _ hr ht _ =>
        exact ⟨e, attempt, told, hnews, hr, ht.isMessage⟩
    · have h : Server.retryAccepting now m.server m.kernel = (((), m.server), m.kernel) := by
        simp [Server.retryAccepting, hbefore, hr]
      rw [hstill h] at hempty hp
      rw [hbefore] at hp
      cases hp
      exact absurd ⟨hempty, hlate⟩ hr

/-- Accepting that fails for another reason changes nothing about the server. -/
theorem Moment.accept_failed {m : Moment} {e : Errno}
    (h : (Sys.accept m.server.listener m.kernel).1 = .error e) (he : e ≠ .EMFILE)
    (he' : e ≠ .ENFILE) (now : Nanoseconds) {event : Event} (hl : event.token = listenerToken) :
    (m.act (.dispatch now event)).server = m.server := by
  obtain ⟨k, haccept⟩ : ∃ k, Sys.accept m.server.listener m.kernel = (.error e, k) :=
    ⟨_, Prod.ext h rfl⟩
  have hrun : (Server.Act.dispatch now event).run = Server.accept now := by
    simp [Server.Act.run, Server.dispatch, hl]
  have hserver : (Server.accept now m.server m.kernel).1.2 = m.server := by
    by_cases hagain : e = .EAGAIN
    · subst hagain
      simp [Server.accept, haccept]
    · obtain ⟨call, k', hwarn, -, -⟩ :=
        Server.warn_spec ("accept() failed: " ++ e.numbered) m.server k
      rw [Server.accept_eq_warn haccept hagain (not_or.2 ⟨he, he'⟩) now, hwarn]
  rw [Moment.act, hrun]
  exact hserver

theorem Reachable.listener_run {m : Moment} (H : Reachable m) (acts : List Server.Act) :
    (m.run acts).server.listener = m.server.listener := by
  induction acts generalizing m with
  | nil => rfl
  | cons a acts ih => exact (ih (H.act a)).trans (H.act_incidents a).1

/-- **Accepting that is paused goes on.** Whether it is paused can be told from the calls: it is
since the last failure to accept for want of a descriptor, until the listener is registered again.
An act that ends a pause has registered the listener, and no descriptor was missing after that.
A connection that leaves the table while accepting is paused is followed by an attempt to register
the listener, after its socket has been closed. If accepting is still paused after a poll that has
left no connection open, and has been for a tenth of a second, then the last thing done in that
poll was an attempt that failed. No other failure to accept changes anything. -/
theorem paused_accepting_resumes {m : Moment} (H : Reachable m) :
    m.server.pausedSince.isSome =
      pausedAfter m.server.listener false (m.history.filterMap Occurrence.call?) ∧
    (∀ a, m.server.pausedSince ≠ none → (m.act a).server.pausedSince = none →
      ∃ before call after, (m.news a).filterMap Occurrence.call? = before ++ call :: after ∧
        call.reopens m.server.listener ∧
        ∀ later ∈ after, later.exhausts m.server.listener = false) ∧
    (∀ a token c, m.record? token = some c → (m.act a).record? token = none →
      ∃ before deleted told after, (m.news a).filterMap Occurrence.call? =
          before ++ .delete c.socket deleted :: (told ++ .close c.socket :: after) ∧
        (∀ call ∈ told, call.isMessage) ∧
        (pausedAfter m.server.listener m.server.pausedSince.isSome before = true →
          ∃ result attempt rest, after = attempt ++ rest ∧
            EventQueue.Registration m.server.listener listenerToken .accept result attempt)) ∧
    (∀ limit round? events k since,
      EventQueue.wait EventQueue.capacity limit round? m.kernel = (.ok events, k) →
      let result := Server.poll limit round? m.server m.kernel
      result.1.2.connections.isEmpty → result.1.2.pausedSince = some since →
      .ofMilliseconds 100 ≤ k.clock - since →
      ∃ acts e attempt told, m.pollActs limit round? = acts ++ [.retryAccepting k.clock] ∧
        (m.run acts).news (.retryAccepting k.clock) = (attempt ++ told).map .call ∧
        EventQueue.Registration m.server.listener listenerToken .accept (.error e) attempt ∧
        ∀ call ∈ told, call.isMessage) ∧
    ∀ e, (Sys.accept m.server.listener m.kernel).1 = .error e → e ≠ .EMFILE → e ≠ .ENFILE →
      ∀ now event, event.token = listenerToken →
        (m.act (.dispatch now event)).server = m.server := by
  refine ⟨H.incidents.pausedAfter.symm, ?_, ?_, ?_, ?_⟩
  · intro a hp hp'
    have Hi := (H.act_incidents a).2.pausedAfter
    rw [hp', Option.isSome_iff_ne_none.2 hp] at Hi
    exact exists_reopens Hi
  · intro a token c hc hgone
    obtain ⟨before, deleted, told, after, hnews, ht⟩ := H.left hc hgone
    refine ⟨before, deleted, told, after, hnews, ht, fun hp => ?_⟩
    obtain ⟨result, attempt, rest, hr, hafter⟩ :=
      (H.act_incidents a).2.attempt (H.registered.ne_listener hc) ht hnews hp
    exact ⟨result, attempt, rest, hafter, hr⟩
  · intro limit round? events k since hwait result hempty hp hlate
    obtain ⟨hs, -⟩ := m.run_poll limit round?
    have hacts : m.pollActs limit round? =
        (.wait limit round? :: events.map (.dispatch k.clock) ++ [.evictIdle k.clock]) ++
          [.retryAccepting k.clock] := by
      simp [Moment.pollActs, hwait]
    generalize (_ :: events.map _ ++ [_] : List Server.Act) = acts at hacts
    have hlast : result.1.2 = ((m.run acts).act (.retryAccepting k.clock)).server := by
      rw [hs, hacts, Moment.run_append]
      rfl
    rw [hlast] at hempty hp
    obtain ⟨e, attempt, told, hnews, hr, ht⟩ := Moment.retry_failed hempty hp hlate
    rw [H.listener_run acts] at hr
    exact ⟨acts, e, attempt, told, hacts, hnews, hr, ht⟩
  · intro e h he he' now event hl
    exact Moment.accept_failed h he he' now hl

/-- A server that has run out of descriptors with no connection open. -/
def Moment.starved : Moment :=
  Moment.start.report
    { event := ⟨listenerToken, { input := true }⟩, incoming := [.fails .ENFILE] } []

theorem Reachable.starved : Reachable .starved := Reachable.start.report _ _

/-- Accepting goes on once the connection is closed; where none is open, an attempt fails after a
tenth of a second. -/
theorem paused_accepting_resumes_exhausted :
    (Moment.exhausted.server.pausedSince = some 0 ∧
      (Moment.exhausted.act (.close 1 0)).server.pausedSince = none ∧
      ∃ before call after, (Moment.exhausted.news (.close 1 0)).filterMap Occurrence.call? =
        before ++ call :: after ∧ call.reopens 3) ∧
    ∃ acts e attempt told,
      (((Moment.starved.run acts).news (.retryAccepting (.ofMilliseconds 100))) =
        (attempt ++ told).map .call) ∧
      EventQueue.Registration 3 listenerToken .accept (.error e) attempt := by
  have hp : Moment.exhausted.server.pausedSince = some 0 := by decide +kernel
  have hp' : (Moment.exhausted.act (.close 1 0)).server.pausedSince = none := by decide +kernel
  obtain ⟨-, hends, -⟩ := paused_accepting_resumes Reachable.exhausted
  obtain ⟨before, call, after, hnews, hcall, -⟩ := hends (.close 1 0) (by simp [hp]) hp'
  refine ⟨⟨hp, hp', before, call, after, hnews, hcall⟩, ?_⟩
  obtain ⟨-, -, -, hlate, -⟩ := paused_accepting_resumes Reachable.starved
  let round : Round :=
    { elapsed := .ofMilliseconds 100, forced := [(.epollControl, [some (.fails .ENOMEM)])] }
  let waited := EventQueue.wait EventQueue.capacity Moment.starved.server.nextWait (some round)
    Moment.starved.kernel
  have hclock : waited.2.clock = .ofMilliseconds 100 := by decide +kernel
  obtain ⟨acts, e, attempt, told, -, hnews, hr, -⟩ :=
    hlate Moment.starved.server.nextWait (some round) [] waited.2 0 rfl (by decide +kernel)
      (by decide +kernel) (by rw [hclock]; decide)
  rw [hclock] at hnews
  exact ⟨acts, e, attempt, told, hnews, hr⟩

end OnePage
