import Mathlib.Data.List.DropRight
import OnePage.Proofs.Alone
import OnePage.Proofs.Conservation
import OnePage.Proofs.Elsewhere

/-! # Isolation of connections

Whatever a server does, each of its connections does what it would do on its own (`isolated`). What
a connection is given by an act is its `Moment.stimulus?`, and what is done for it is its
`Moment.share` of what happens. An act that is not about a connection leaves its record as it is
and has no share for it; an act that is gives the machine of `Alone.run` one step. -/

namespace OnePage

/-- What happens from the first to the last thing that is done on a descriptor. -/
def segment (fd : Fd) (occurrences : List Occurrence) : List Occurrence :=
  (occurrences.dropWhile fun o => o.socket? ≠ some fd).rdropWhile fun o => o.socket? ≠ some fd

section
variable {fd : Fd} {before middle after : List Occurrence}

theorem segment_off (h : ∀ o ∈ before, o.socket? ≠ some fd) : segment fd before = [] := by
  have hnil : before.dropWhile (fun o => o.socket? ≠ some fd) = [] :=
    List.dropWhile_eq_nil_iff.2 fun o ho => by simpa using h o ho
  rw [segment, hnil, List.rdropWhile_nil]

theorem filter_dropWhile (fd : Fd) (occurrences : List Occurrence) :
    (occurrences.dropWhile fun o => o.socket? ≠ some fd).filter (fun o => o.socket? = some fd) =
      occurrences.filter fun o => o.socket? = some fd := by
  induction occurrences with
  | nil => rfl
  | cons o occurrences ih =>
    by_cases h : o.socket? = some fd
    · simp [h]
    · simpa [h] using ih

/-- Nothing that is done on the descriptor is left out. -/
theorem segment_filter (fd : Fd) (occurrences : List Occurrence) :
    (segment fd occurrences).filter (fun o => o.socket? = some fd) =
      occurrences.filter fun o => o.socket? = some fd := by
  rw [segment, List.rdropWhile, List.filter_reverse, filter_dropWhile, List.filter_reverse,
    List.reverse_reverse, filter_dropWhile]

/-- Whether what happens begins and ends on a descriptor. -/
structure Spans (fd : Fd) (occurrences : List Occurrence) : Prop where
  first {o : Occurrence} (h : occurrences.head? = some o) : o.socket? = some fd
  last {o : Occurrence} (h : occurrences.getLast? = some o) : o.socket? = some fd

theorem Spans.of_on (h : ∀ o ∈ middle, o.socket? = some fd) : Spans fd middle :=
  ⟨fun ho => h _ (List.mem_of_head? ho), fun ho => h _ (List.mem_of_getLast? ho)⟩

theorem Spans.of_ends {o o' : Occurrence} (h : o.socket? = some fd) (h' : o'.socket? = some fd) :
    Spans fd (o :: (middle ++ [o'])) :=
  ⟨fun ho => by cases ho; exact h, fun ho => by
    rw [← List.cons_append, List.getLast?_concat] at ho
    cases ho
    exact h'⟩

theorem segment_eq (hbefore : ∀ o ∈ before, o.socket? ≠ some fd)
    (hafter : ∀ o ∈ after, o.socket? ≠ some fd) (H : Spans fd middle) :
    segment fd (before ++ (middle ++ after)) = middle := by
  rcases List.eq_nil_or_concat' middle with rfl | ⟨init, last, rfl⟩
  · exact segment_off (List.forall_mem_append.2 ⟨hbefore, hafter⟩)
  have hon : last.socket? = some fd := H.last (by simp)
  have hrdrop : (init ++ [last] ++ after).rdropWhile (fun o => o.socket? ≠ some fd) =
      init ++ [last] := by
    induction after using List.reverseRecOn with
    | nil => simp [List.rdropWhile_concat_neg, hon]
    | append_singleton after o ih =>
      obtain ⟨hafter, ho⟩ := List.forall_mem_append.1 hafter
      rw [← List.append_assoc, List.rdropWhile_concat_pos _ _ _ (by simpa using ho o (by simp))]
      exact ih hafter
  have hdrop : (init ++ [last] ++ after).dropWhile (fun o => o.socket? ≠ some fd) =
      init ++ [last] ++ after := by
    cases init with
    | nil => simp [hon]
    | cons first init => simp [H.first rfl]
  rw [segment, List.dropWhile_append_of_pos (by simpa using hbefore), hdrop, hrdrop]

end

/-- What is not on a descriptor does not end its registration. -/
theorem Call.deletes_eq_false {fd : Fd} {call : Call}
    (h : (Occurrence.call call).socket? ≠ some fd) : call.deletes fd = false := by
  cases call with
  | delete fd' result =>
    exact decide_eq_false fun he => h (congrArg some he)
  | _ => rfl

namespace Server

theorem Closing.spans {log : LogSink} {seconds zone : Int} {c : Connection} {calls : List Call}
    (H : Closing log seconds zone c calls) : Spans c.socket (calls.map .call) := by
  obtain ⟨ht⟩ := H
  rw [List.map_cons, List.map_append]
  exact .of_ends rfl rfl

/-- What follows a turn ends on the connection's socket. -/
theorem Concludes.spans {s : Server} {k k' : Kernel} {token : Token} {c : Connection}
    {verdict : Verdict} {calls before : List Call} {stays : Bool}
    (H : Concludes s k token c verdict calls stays k') (turn : Turn)
    (hturn : turn.before.socket = c.socket)
    (hbefore : ∀ call ∈ before, (Occurrence.call call).socket? = some c.socket) :
    Spans c.socket (.turn turn :: (before ++ calls).map .call) := by
  have hfirst : (Occurrence.turn turn).socket? = some c.socket := congrArg some hturn
  have hon : ∀ o ∈ before.map Occurrence.call, o.socket? = some c.socket := by simpa using hbefore
  cases H with
  | wait =>
    rw [List.append_nil]
    exact .of_on (List.forall_mem_cons.2 ⟨hfirst, hon⟩)
  | rearm =>
    rw [List.map_append]
    exact .of_ends hfirst rfl
  | finish He Hc =>
    obtain ⟨ht⟩ := Hc
    rw [← List.append_assoc, ← List.cons_append, ← List.append_assoc, List.map_append]
    refine .of_ends hfirst ?_
    rw [← He.life.1]
    rfl

theorem Concludes.operations {s : Server} {k k' : Kernel} {token : Token} {c : Connection}
    {verdict : Verdict} {calls : List Call} {stays : Bool}
    (H : Concludes s k token c verdict calls stays k') :
    OnePage.operations (calls.map .call) = [] := by
  cases H with
  | wait => rfl
  | rearm => rfl
  | finish He Hc => rw [List.map_append, operations_append, He.operations, Hc.operations]; rfl

theorem Adopts.spans {s s' : Server} {k k' : Kernel} {now : Nanoseconds} {fd : Fd}
    {peer : Net.Endpoint} {calls : List Call} (H : Adopts s k now fd peer calls s' k') :
    Spans fd (calls.map .call) := by
  cases H with
  | registered hr => exact .of_on (List.forall_mem_cons.2 ⟨rfl, hr.socket⟩)
  | blocking =>
    rw [List.map_cons, List.map_append]
    exact .of_ends rfl rfl
  | unregistered =>
    rw [List.map_cons, List.map_append]
    exact .of_ends rfl rfl

end Server

/-- A call does a deed, on the descriptor that it is paired with. -/
def Deed.Done (log : LogSink) (token : Token) (deed : Deed) (call : Fd × Call) : Prop :=
  deed.Made log call.1 token call.2

namespace Moment
open Server

/-- What an act adds to the history. -/
def news (m : Moment) (a : Act) : List Occurrence :=
  (a.turns m.server m.kernel).map .turn ++ callsSince m.kernel (a.run m.server m.kernel).2

def record? (m : Moment) (token : Token) : Option Connection := m.server.connections.get? token

/-- The socket that is accepted, and its peer, if an event makes it the connection of `token`. -/
def accepted? (m : Moment) (token : Token) (event : Event) : Option (Fd × Net.Endpoint) :=
  if event.token = listenerToken ∧ token = m.server.nextToken then
    (Sys.accept m.server.listener m.kernel).1.toOption
  else none

/-- The socket of a connection during an act. -/
def socket? (m : Moment) (token : Token) (a : Act) : Option Fd :=
  match m.record? token, a with
  | some c, _ => some c.socket
  | none, .dispatch _ event => (m.accepted? token event).map (·.1)
  | none, _ => none

/-- What is done for a connection in an act, on its socket and in the log. -/
def share (m : Moment) (token : Token) (a : Act) : List Occurrence :=
  match m.socket? token a with
  | some fd => segment fd (m.news a)
  | none => []

/-- Why something may be done for a connection in an act, with the page if it is read. -/
def cue? (m : Moment) (token : Token) (a : Act) : Option Cue :=
  match m.record? token, a with
  | none, .dispatch now event =>
    (m.accepted? token event).map fun accepted => .greeting now accepted.2
  | some c, .dispatch now event =>
    if event.token = token then
      some (.event now event.conditions
        (if (operations (m.share token a)).any Operation.readsPage then
          c.page m.kernel.files m.server.config.indexPath
        else .ok .empty))
    else none
  | some _, .evictIdle now => some (.sweep now)
  | some _, .close t _ => if t = token then some .stop else none
  | _, _ => none

/-- What the clock shows when an act comes to close a connection, and 0 if it does not. At the stop
all connections are closed at one time. -/
def closedAt (m : Moment) (token : Token) (a : Act) : Int :=
  match m.socket? token a, a with
  | some _, .close _ seconds => seconds
  | some fd, _ =>
    let calls := (m.news a).filterMap Occurrence.call?
    if calls.any (Call.deletes fd) then
      m.kernel.secondsAt (m.kernel.trace.size + (Call.beforeDeleting fd calls).length)
    else 0
  | none, _ => 0

/-- All that an act gives to a connection. -/
def stimulus? (m : Moment) (token : Token) (a : Act) : Option Stimulus :=
  (m.cue? token a).map fun cue =>
    { cue
      answers := (operations (m.share token a)).filterMap
        (·.answer? ((m.socket? token a).bind m.kernel.socketError))
      results := ((m.share token a).filterMap Occurrence.call?).filterMap Call.result?
      seconds := m.closedAt token a
      zone := m.kernel.zone }

/-- All that acts in a row give to a connection. -/
def stimuli (token : Token) : Moment → List Act → List Stimulus
  | _, [] => []
  | m, a :: acts => (m.stimulus? token a).toList ++ stimuli token (m.act a) acts

/-- The calls that an act makes for a connection, with the socket that it has then. -/
def made (m : Moment) (token : Token) (a : Act) : List (Fd × Call) :=
  match m.socket? token a with
  | some fd => ((m.share token a).filterMap Occurrence.call?).map (fd, ·)
  | none => []

/-- The calls that acts in a row make for a connection. -/
def calls (token : Token) : Moment → List Act → List (Fd × Call)
  | _, [] => []
  | m, a :: acts => m.made token a ++ calls token (m.act a) acts

/-- Whether an act does for a connection what the machine does, and leaves it as the machine
does. -/
def Agrees (m : Moment) (token : Token) (a : Act) : Prop :=
  ∃ deeds, Alone.run m.server.config.indexPath m.server.config.timeout
      (m.stimulus? token a).toList ((m.record? token).map Connection.nameless) =
        (deeds, ((m.act a).record? token).map Connection.nameless) ∧
    List.Forall₂ (Deed.Done m.server.log token) deeds (m.made token a)

section
variable {m : Moment} {token : Token} {a : Act} {c : Connection} {calls : List Call}

theorem news_eq
    (h : (a.run m.server m.kernel).2.trace = m.kernel.trace ++ calls.toArray) :
    m.news a = (a.turns m.server m.kernel).map .turn ++ calls.map .call := by
  have hsize : m.kernel.trace.toList.length = m.kernel.trace.size := Array.length_toList
  rw [news, callsSince, h, Array.toList_append, List.drop_append_of_le_length (by omega), ← hsize,
    List.drop_length, List.nil_append]

/-- What is not for a connection. -/
theorem Agrees.aside (hcue : m.cue? token a = none)
    (hrecord : (m.act a).record? token = m.record? token) (hshare : m.share token a = []) :
    m.Agrees token a := by
  refine ⟨[], ?_, ?_⟩
  · rw [stimulus?, hcue, hrecord]
    rfl
  · cases hs : m.socket? token a with
    | none => simp only [made, hs, List.forall₂_nil_left_iff]
    | some fd => simp only [made, hs, hshare, List.filterMap_nil, List.map_nil, List.Forall₂.nil]

/-- A share that the machine is given as a whole. -/
theorem Agrees.step {cue : Cue} {fd : Fd} {ops : List Operation} {deeds : List Deed}
    (hcue : m.cue? token a = some cue) (hsocket : m.socket? token a = some fd)
    (hops : operations (m.share token a) = ops)
    (hcalls : (m.share token a).filterMap Occurrence.call? = calls)
    (h : Alone.step m.server.config.indexPath m.server.config.timeout
      { cue
        answers := ops.filterMap (·.answer? (m.kernel.socketError fd))
        results := calls.filterMap Call.result?
        seconds := m.closedAt token a
        zone := m.kernel.zone } ((m.record? token).map Connection.nameless) =
          (deeds, ((m.act a).record? token).map Connection.nameless))
    (H : List.Forall₂ (Deed.Made m.server.log fd token) deeds calls) : m.Agrees token a := by
  refine ⟨deeds, ?_, ?_⟩
  · simp only [stimulus?, hcue, hops, hcalls, hsocket, Option.map_some, Option.bind_some,
      Option.toList, Alone.run, h, List.append_nil]
  · simp only [made, hsocket, hcalls]
    exact List.forall₂_map_right_iff.2 H

/-- The connection is closed by some of the calls of an act, for the log when they come to that. -/
theorem closedAt_eq {fd : Fd} {before after : List Call} (hs : m.socket? token a = some fd)
    (hstop : ∀ t seconds, a ≠ .close t seconds)
    (hnews : (m.news a).filterMap Occurrence.call? = before ++ (calls ++ after))
    (hbefore : ∀ call ∈ before, call.deletes fd = false) (hcalls : calls.any (Call.deletes fd)) :
    m.closedAt token a = m.kernel.secondsAt
      (m.kernel.trace.size + before.length + (Call.beforeDeleting fd calls).length) := by
  have hany : ((m.news a).filterMap Occurrence.call?).any (Call.deletes fd) := by
    simp only [hnews, List.any_append, hcalls, Bool.true_or, Bool.or_true]
  have hahead : Call.beforeDeleting fd ((m.news a).filterMap Occurrence.call?) =
      before ++ Call.beforeDeleting fd calls := by
    rw [hnews, Call.beforeDeleting_append hbefore, Call.beforeDeleting_append_of_any hcalls]
  unfold closedAt
  split
  · exact absurd rfl (hstop _ _)
  · rename_i fd' _ _ hs'
    obtain rfl := Option.some.inj (hs.symm.trans hs')
    rw [if_pos hany, hahead, List.length_append, Nat.add_assoc]
  · rename_i hs'
    rw [hs] at hs'
    cases hs'

theorem share_eq {fd : Fd} {before middle after : List Occurrence}
    (hs : m.socket? token a = some fd) (hn : m.news a = before ++ (middle ++ after))
    (hbefore : ∀ o ∈ before, o.socket? ≠ some fd) (hafter : ∀ o ∈ after, o.socket? ≠ some fd)
    (H : Spans fd middle) : m.share token a = middle := by
  rw [share, hs, hn]
  exact segment_eq hbefore hafter H

theorem socket?_eq (hc : m.record? token = some c) : m.socket? token a = some c.socket := by
  simp only [socket?, hc]

/-- An act that does nothing on a connection's socket has no share for it. -/
theorem share_off (hnone : m.record? token = none → m.socket? token a = none)
    (htrace : (a.run m.server m.kernel).2.trace = m.kernel.trace ++ calls.toArray)
    (hoff : ∀ c, m.record? token = some c →
      (∀ turn ∈ a.turns m.server m.kernel, turn.before.socket ≠ c.socket) ∧
      ∀ o ∈ calls.map Occurrence.call, o.socket? ≠ some c.socket) : m.share token a = [] := by
  cases hc : m.record? token with
  | none => simp only [share, hnone hc]
  | some c =>
    obtain ⟨hturns, hcalls⟩ := hoff c hc
    simp only [share, socket?_eq hc]
    apply segment_off
    rw [news_eq htrace]
    refine List.forall_mem_append.2 ⟨?_, hcalls⟩
    intro o ho
    obtain ⟨turn, hturn, rfl⟩ := List.mem_map.1 ho
    exact fun h => hturns turn hturn (Option.some.inj h)

/-- What is on the listener or on other sockets is not on a connection's own. -/
theorem socket_of_abroad (R : m.server.Registered m.kernel) (hc : m.record? token = some c)
    (h : ∀ call ∈ calls, m.server.Abroad token call) :
    ∀ o ∈ calls.map Occurrence.call, o.socket? ≠ some c.socket := by
  intro o ho hs
  obtain ⟨call, hcall, rfl⟩ := List.mem_map.1 ho
  rcases h call hcall _ hs with h | ⟨t, d, ht, hd, hs⟩
  · exact R.ne_listener hc h
  · exact ht (R.token_unique hd hc hs)

/-- An act that does not concern a connection has no share for it and leaves its record. -/
theorem share_elsewhere (R : m.server.Registered m.kernel)
    (hnone : m.record? token = none → m.socket? token a = none)
    (hturns : ∀ c, m.record? token = some c →
      ∀ turn ∈ a.turns m.server m.kernel, turn.before.socket ≠ c.socket)
    (H : ∃ calls x s k, a.run m.server m.kernel = ((x, s), k) ∧
      Elsewhere token m.server m.kernel calls s k) :
    (m.act a).record? token = m.record? token ∧ m.share token a = [] := by
  obtain ⟨calls, x, s, k, h, He⟩ := H
  constructor
  · rw [record?, act, h]
    exact He.entry
  · have htrace : (a.run m.server m.kernel).2.trace = m.kernel.trace ++ calls.toArray := by
      rw [h]
      exact He.adds.trace
    exact share_off hnone htrace fun c hc => ⟨hturns c hc, socket_of_abroad R hc He.abroad⟩

/-- The connection leaves the table, in the course of an act that has told it to. -/
theorem Agrees.leave (R : m.server.Registered m.kernel) (hc : m.record? token = some c)
    {cue : Cue} (hcue : m.cue? token a = some cue) {last : Connection}
    (hlast : last.socket = c.socket) {before closing after : List Call}
    (Hc : Closing m.server.log (m.closedAt token a) m.kernel.zone last closing)
    (hturns : a.turns m.server m.kernel = [])
    (htrace : (a.run m.server m.kernel).2.trace =
      m.kernel.trace ++ (before ++ (closing ++ after)).toArray)
    (hbefore : ∀ call ∈ before, m.server.Abroad token call)
    (hafter : ∀ call ∈ after, m.server.Abroad token call)
    (hgone : (m.act a).record? token = none)
    (hstep : ∀ answers results seconds zone,
      Alone.step m.server.config.indexPath m.server.config.timeout
        ⟨cue, answers, results, seconds, zone⟩ (some c.nameless) =
          (Alone.leave last.nameless results seconds zone, none)) : m.Agrees token a := by
  have hnews : m.news a = before.map .call ++ (closing.map .call ++ after.map .call) := by
    rw [news_eq htrace, hturns]
    simp
  have hshare : m.share token a = closing.map .call :=
    share_eq (socket?_eq hc) hnews (socket_of_abroad R hc hbefore) (socket_of_abroad R hc hafter)
      (hlast ▸ Hc.spans)
  have hcalls : (m.share token a).filterMap Occurrence.call? = closing := by
    rw [hshare, Occurrence.filterMap_calls]
  have Hmade := Hc.alone token
  rw [hlast] at Hmade
  refine Agrees.step hcue (socket?_eq hc) rfl hcalls ?_ Hmade
  rw [hc, hgone]
  exact hstep ..

end

/-! ## Each act -/

section
variable {m : Moment} {token : Token} {c : Connection}

theorem Agrees.wait (timeout : Option Nanoseconds) (round? : Option Round) :
    m.Agrees token (.wait timeout round?) := by
  obtain ⟨r, k, h, H⟩ := Sys.wait_spec EventQueue.capacity (EventQueue.timeoutArgument timeout)
    round? m.kernel
  have hrun : (Act.wait timeout round?).run m.server m.kernel = (((), m.server), k) := by
    simp [Act.run, EventQueue.wait, h]
  have hcue : m.cue? token (.wait timeout round?) = none := by
    cases hc : m.record? token <;> simp [cue?, hc]
  have hrecord : (m.act (.wait timeout round?)).record? token = m.record? token := by
    rw [record?, act, hrun]
    rfl
  have htrace := congrArg (·.2.trace) hrun
  simp only [H.trace, Array.push_eq_append] at htrace
  have hshare : m.share token (.wait timeout round?) = [] := by
    refine share_off (fun h => by simp [socket?, h]) htrace fun c _ => ⟨List.forall_mem_nil _, ?_⟩
    intro o ho hs
    rw [List.mem_singleton.1 ho] at hs
    cases hs
  exact .aside hcue hrecord hshare

/-- Idle connections are looked for. -/
theorem Agrees.sweep (R : m.server.Registered m.kernel) (hc : m.record? token = some c)
    (now : Nanoseconds) : m.Agrees token (.evictIdle now) := by
  have hcue : m.cue? token (.evictIdle now) = some (.sweep now) := by simp [cue?, hc]
  by_cases hidle : ∃ timeout, m.server.config.timeout = some timeout ∧
    token ∈ m.server.idleTokens now timeout
  case neg =>
    have hspare (timeout : Nanoseconds) (ht : m.server.config.timeout = some timeout) :
        token ∉ m.server.idleTokens now timeout := fun h => hidle ⟨timeout, ht, h⟩
    have H : ∃ calls x s k, (Act.evictIdle now).run m.server m.kernel = ((x, s), k) ∧
        Elsewhere token m.server m.kernel calls s k := evictIdle_elsewhere hspare m.kernel
    obtain ⟨hrecord, hshare⟩ := share_elsewhere R (fun h => by simp [socket?, h])
      (fun _ _ => List.forall_mem_nil _) H
    refine Agrees.step hcue (socket?_eq hc) rfl (by rw [hshare]; rfl) ?_ .nil
    rw [hrecord, hc]
    cases ht : m.server.config.timeout with
    | none => rfl
    | some timeout =>
      have hnot : ¬timeout ≤ now - c.lastActive := fun h =>
        hspare timeout ht (mem_idleTokens.2 ⟨c, hc, h⟩)
      simp only [Option.map_some, Alone.step]
      exact if_neg hnot
  obtain ⟨timeout, ht, htoken⟩ := hidle
  obtain ⟨d, hd, hidle⟩ := mem_idleTokens.1 htoken
  obtain rfl : d = c := Option.some.inj (hd.symm.trans hc)
  obtain ⟨before, closing, after, x, s, k, hbefore, Hc, hafter, hrun, hgone, htrace⟩ :=
    evictIdle_cut ht hd htoken m.kernel
  have hgone : (m.act (.evictIdle now)).record? token = none := by
    rw [record?, act, Act.run, hrun]
    exact hgone
  have htrace : ((Act.evictIdle now).run m.server m.kernel).2.trace =
      m.kernel.trace ++ (before ++ (closing ++ after)).toArray := by
    rw [Act.run, hrun]
    exact htrace
  have hlast : d.fail.socket = d.socket := rfl
  have hcalls : (m.news (.evictIdle now)).filterMap Occurrence.call? =
      before ++ (closing ++ after) := by
    rw [news_eq htrace]
    exact Occurrence.filterMap_calls _
  have hclosed := closedAt_eq (socket?_eq hc) (fun _ _ => Act.noConfusion) hcalls
    (fun call hcall => Call.deletes_eq_false
      (socket_of_abroad R hc hbefore _ (List.mem_map_of_mem hcall))) Hc.deletes
  rw [show Call.beforeDeleting d.socket closing = [] from Hc.beforeDeleting] at hclosed
  refine Agrees.leave R hc hcue hlast (hclosed ▸ Hc) rfl htrace hbefore hafter hgone ?_
  intro answers results seconds zone
  simp only [Alone.step, ht, Connection.nameless_fail]
  exact if_pos hidle

/-- The server stops. -/
theorem Agrees.stop (R : m.server.Registered m.kernel) (hc : m.record? token = some c)
    (seconds : Int) : m.Agrees token (.close token seconds) := by
  obtain ⟨closing, k₁, Hc, H, h⟩ := close_spec hc seconds m.kernel
  have Hr : Apart token resumeIfPaused := .resumeIfPaused
  obtain ⟨more, x, s, k, h', He⟩ :=
    Hr { m.server with connections := m.server.connections.erase token } k₁
  have hrun : (Act.close token seconds).run m.server m.kernel = ((x, s), k) := h.trans h'
  have hcue : m.cue? token (.close token seconds) = some .stop := by simp [cue?, hc]
  have hgone : (m.act (.close token seconds)).record? token = none := by
    rw [record?, act, hrun]
    exact He.entry.trans (by simp)
  have Hk : m.kernel.Adds closing k₁ := H.adds rfl
  have htrace : ((Act.close token seconds).run m.server m.kernel).2.trace =
      m.kernel.trace ++ ([] ++ (closing ++ more)).toArray := by
    rw [hrun]
    exact (Hk.trans He.adds).trace
  have Hc : Closing m.server.log (m.closedAt token (.close token seconds)) m.kernel.zone c
      closing := by
    simpa only [closedAt, socket?_eq hc] using Hc
  exact Agrees.leave R hc hcue rfl Hc rfl htrace (List.forall_mem_nil _)
    (fun call hcall => abroad_of_erase (He.abroad call hcall)) hgone fun _ _ _ _ => rfl

/-- What an event leads to for its connection, all of which is the connection's share. -/
theorem share_dispatch (R : m.server.Registered m.kernel) {event : Event}
    (hc : m.record? event.token = some c) (now : Nanoseconds) :
    ∃ ops verdict c' stats k₁ s₁ calls stays k₂,
      Sys.exchange c.socket m.server.stats
        (c.handle event.conditions m.kernel.files m.server.config.indexPath now) m.kernel =
          (((verdict, c'), stats), k₁) ∧
      c.Handles event.conditions m.kernel.files m.server.config.indexPath now m.server.stats ops
        verdict c' stats ∧
      m.kernel.Adds (ops.map (.operation c.socket)) k₁ ∧
      Concludes s₁ k₁ event.token c' verdict calls stays k₂ ∧ s₁.log = m.server.log ∧
      m.share event.token (.dispatch now event) =
        .turn ⟨c, event.conditions, m.kernel.files, now, verdict, c'⟩ ::
          (ops.map (Call.operation c.socket) ++ calls).map .call ∧
      (calls.any (Call.deletes c.socket) → m.closedAt event.token (.dispatch now event) =
        k₁.secondsAt (k₁.trace.size + (Call.beforeDeleting c.socket calls).length)) ∧
      (m.act (.dispatch now event)).record? event.token = if stays then some c' else none := by
  have hl : event.token ≠ listenerToken := (Nat.ne_of_lt (R.token hc).1).symm
  obtain ⟨ops, verdict, c', stats, k₁, s₁, calls, stays, k₂, more, s, k, h, Hh, Hops, Hc, hlog,
    habroad, hrun, hrecord, htrace⟩ := dispatch_cut hl hc now m.kernel
  have hturns : (Act.dispatch now event).turns m.server m.kernel =
      [⟨c, event.conditions, m.kernel.files, now, verdict, c'⟩] := by
    have hc : m.server.connections.get? event.token = some c := hc
    simp [Act.turns, turn?, hl, hc, h]
  have hrun : (Act.dispatch now event).run m.server m.kernel = (((), s), k) := hrun
  have htrace : ((Act.dispatch now event).run m.server m.kernel).2.trace =
      m.kernel.trace ++ (ops.map (Call.operation c.socket) ++ calls ++ more).toArray := by
    rw [hrun]
    exact htrace
  have hnews : m.news (.dispatch now event) = [] ++
      (.turn ⟨c, event.conditions, m.kernel.files, now, verdict, c'⟩ ::
        (ops.map (Call.operation c.socket) ++ calls).map .call ++ more.map .call) := by
    rw [news_eq htrace, hturns]
    simp
  have hon : ∀ call ∈ ops.map (Call.operation c.socket),
      (Occurrence.call call).socket? = some c'.socket := by
    rw [Hh.socket]
    simp [Occurrence.socket?]
  have hspans := Hc.spans ⟨c, event.conditions, m.kernel.files, now, verdict, c'⟩ Hh.socket.symm hon
  rw [Hh.socket] at hspans
  refine ⟨ops, verdict, c', stats, k₁, s₁, calls, stays, k₂, h, Hh, Hops, Hc, hlog, ?_, ?_, ?_⟩
  · exact share_eq (socket?_eq hc) hnews (List.forall_mem_nil _) (socket_of_abroad R hc habroad)
      hspans
  · intro hany
    have hcalls : (m.news (.dispatch now event)).filterMap Occurrence.call? =
        ops.map (Call.operation c.socket) ++ (calls ++ more) := by
      rw [hnews, List.nil_append, List.cons_append, List.filterMap_cons_none rfl,
        ← List.map_append, Occurrence.filterMap_calls, List.append_assoc]
    have hbefore : ∀ call ∈ ops.map (Call.operation c.socket), call.deletes c.socket = false := by
      simp [Call.deletes]
    rw [closedAt_eq (socket?_eq hc) (fun _ _ => Act.noConfusion) hcalls hbefore hany,
      Hops.secondsAt, Hops.size]
  · rw [record?, act, hrun]
    exact hrecord

/-- An event for the connection. -/
theorem Agrees.event (R : m.server.Registered m.kernel) (hc : m.record? token = some c)
    {event : Event} (he : event.token = token) (now : Nanoseconds) :
    m.Agrees token (.dispatch now event) := by
  subst he
  obtain ⟨ops, verdict, c', stats, k₁, s₁, calls, stays, k₂, h, Hh, Hops, Hc, hlog, hshare,
    hclosed, hrecord⟩ := share_dispatch R hc now
  have hcause (cause : Option Errno) (hv : verdict = .fail (.socket cause)) :
      cause = m.kernel.socketError c.socket := by
    subst hv
    exact Connection.cause_eq_socketError Hh.not_socket (congrArg (·.1.1.1) h)
  have hcalls : (m.share event.token (.dispatch now event)).filterMap Occurrence.call? =
      ops.map (.operation c.socket) ++ calls := by
    rw [hshare, List.filterMap_cons_none rfl, Occurrence.filterMap_calls]
  have hops : operations (m.share event.token (.dispatch now event)) = ops :=
    hshare ▸ operations_taken [] _ ops Hc.operations
  have hcue : m.cue? event.token (.dispatch now event) = some (.event now event.conditions
      (if ops.any Operation.readsPage then c.page m.kernel.files m.server.config.indexPath
        else .ok .empty)) := by
    simp only [cue?, hc, if_true, hops]
  have hpage (hreads : ∃ op ∈ ops, op.readsPage) :
      (if ops.any Operation.readsPage then c.page m.kernel.files m.server.config.indexPath
        else .ok .empty) = c.page m.kernel.files m.server.config.indexPath :=
    if_pos (List.any_eq_true.2 hreads)
  obtain ⟨deeds, hdeeds, Hmade⟩ := Hc.step Hh hcause hpage m.server.config.timeout hclosed
  rw [Hops.zone] at hdeeds
  rw [hlog] at Hmade
  refine Agrees.step hcue (socket?_eq hc) hops hcalls ?_ Hmade
  rw [hc, hrecord, Option.map_some, hdeeds]
  cases stays <;> rfl

/-- What accepting adds to the trace, up to what is done for the socket. -/
theorem accept_trace {event : Event} (he : event.token = listenerToken) (now : Nanoseconds)
    {n : Nat} {fd : Fd} {peer : Net.Endpoint} {resource : Resource} {calls : List Call}
    {s : Server} {k₁ k : Kernel}
    (h : Sys.accept m.server.listener m.kernel = (.ok (fd, peer), k₁))
    (H : (m.kernel.opened fd resource).Extends (Sys.interruptions m.server.listener n ++
      [.accept m.server.listener (.ok fd)]) k₁)
    (hadopt : adopt now fd peer m.server k₁ = (((), s), k)) (Hk : k₁.Adds calls k) :
    (Act.dispatch now event).run m.server m.kernel = (((), s), k) ∧
      k.trace = m.kernel.trace ++ (Sys.interruptions m.server.listener n ++
        [Call.accept m.server.listener (.ok fd)] ++ calls).toArray := by
  have Hk₁ : m.kernel.Adds _ k₁ := H.adds rfl
  refine ⟨?_, (Hk₁.trans Hk).trace⟩
  rw [Act.run, dispatch_eq_accept he]
  simp [accept, h, hadopt]

/-- Before a socket is made something, it has no part in what is done. -/
theorem silent_accept {listener fd fd' : Fd} {n : Nat} :
    ∀ o ∈ (Sys.interruptions listener n ++ [Call.accept listener (.ok fd)]).map Occurrence.call,
      o.socket? ≠ some fd' := by
  intro o ho h
  rw [List.map_append] at ho
  rcases List.mem_append.1 ho with ho | ho
  · rw [(Occurrence.silent_of_interruption o ho).1] at h
    cases h
  · rw [List.mem_singleton.1 ho] at h
    cases h

/-- The connection is accepted. -/
theorem Agrees.greeting (R : m.server.Registered m.kernel) {event : Event}
    (he : event.token = listenerToken) (now : Nanoseconds) {n : Nat} {fd : Fd}
    {peer : Net.Endpoint} {resource : Resource} {k₁ : Kernel}
    (h : Sys.accept m.server.listener m.kernel = (.ok (fd, peer), k₁))
    (H : (m.kernel.opened fd resource).Extends (Sys.interruptions m.server.listener n ++
      [.accept m.server.listener (.ok fd)]) k₁) :
    m.Agrees m.server.nextToken (.dispatch now event) := by
  obtain ⟨calls, s, k, hadopt, Ha⟩ := adopt_spec now fd peer m.server k₁
  obtain ⟨hrun, htrace⟩ := accept_trace he now h H hadopt Ha.adds
  have hc : m.record? m.server.nextToken = none := R.get?_nextToken
  have haccepted : m.accepted? m.server.nextToken event = some (fd, peer) := by
    simp [accepted?, he, h, Except.toOption]
  have hsocket : m.socket? m.server.nextToken (.dispatch now event) = some fd := by
    simp only [socket?, hc, haccepted, Option.map_some]
  have hcue : m.cue? m.server.nextToken (.dispatch now event) = some (.greeting now peer) := by
    simp only [cue?, hc, haccepted, Option.map_some]
  have hnews : m.news (.dispatch now event) = (Sys.interruptions m.server.listener n ++
      [Call.accept m.server.listener (.ok fd)]).map .call ++ (calls.map .call ++ []) := by
    rw [news_eq (by rw [hrun]; exact htrace)]
    simp [Act.turns, turn?, he]
  have hshare : m.share m.server.nextToken (.dispatch now event) = calls.map .call :=
    share_eq hsocket hnews silent_accept (List.forall_mem_nil _) Ha.spans
  obtain ⟨deeds, hdeeds, Hmade⟩ := Ha.alone R.get?_nextToken
  refine Agrees.step hcue hsocket rfl (by rw [hshare, Occurrence.filterMap_calls]) ?_ Hmade
  rw [hc, record?, act, hrun, Option.map_none, Alone.step]
  exact hdeeds

/-- Another connection is accepted. -/
theorem Agrees.other (R : m.server.Registered m.kernel) {event : Event}
    (he : event.token = listenerToken) (ht : token ≠ m.server.nextToken) (now : Nanoseconds)
    {n : Nat} {fd : Fd} {peer : Net.Endpoint} {resource : Resource} {k₁ : Kernel}
    (hfree : m.kernel.descriptors.get? fd = none)
    (h : Sys.accept m.server.listener m.kernel = (.ok (fd, peer), k₁))
    (H : (m.kernel.opened fd resource).Extends (Sys.interruptions m.server.listener n ++
      [.accept m.server.listener (.ok fd)]) k₁) :
    m.Agrees token (.dispatch now event) := by
  obtain ⟨calls, s, k, hadopt, Ha⟩ := adopt_spec now fd peer m.server k₁
  obtain ⟨hrun, htrace⟩ := accept_trace he now h H hadopt Ha.adds
  have haccepted : m.accepted? token event = none := by simp [accepted?, ht]
  have hcue : m.cue? token (.dispatch now event) = none := by
    cases hc : m.record? token with
    | none => simp [cue?, hc, haccepted]
    | some c =>
      have hne : event.token ≠ token := he ▸ Nat.ne_of_lt (R.token hc).1
      simp [cue?, hc, hne]
  have hrecord : (m.act (.dispatch now event)).record? token = m.record? token := by
    rw [record?, act, hrun]
    exact Ha.get? ht
  have hshare : m.share token (.dispatch now event) = [] := by
    refine share_off (fun hc => by simp [socket?, hc, haccepted]) (by rw [hrun]; exact htrace)
      fun c hc => ⟨by simp [Act.turns, turn?, he], ?_⟩
    intro o ho hs
    rw [List.map_append] at ho
    rcases List.mem_append.1 ho with ho | ho
    · exact silent_accept o ho hs
    · rcases Ha.confined o ho with h | h
      · exact R.socket_ne_of_free hfree hc (Option.some.inj (hs.symm.trans h))
      · rw [h.1] at hs
        cases hs
  exact .aside hcue hrecord hshare

/-- An act that never concerns the connection. -/
theorem Agrees.apart {a : Act} (R : m.server.Registered m.kernel) (hcue : m.cue? token a = none)
    (hnone : m.record? token = none → m.socket? token a = none)
    (hturns : ∀ c, m.record? token = some c →
      ∀ turn ∈ a.turns m.server m.kernel, turn.before.socket ≠ c.socket)
    (H : ∃ calls x s k, a.run m.server m.kernel = ((x, s), k) ∧
      Elsewhere token m.server m.kernel calls s k) : m.Agrees token a := by
  obtain ⟨hrecord, hshare⟩ := share_elsewhere R hnone hturns H
  exact .aside hcue hrecord hshare

theorem Agrees.general {a : Act} (R : m.server.Registered m.kernel) (h : a.isGeneral) :
    m.Agrees token a := by
  cases a with
  | announce | retryAccepting now | logStats | complain e =>
    refine .apart R ?_ (fun hc => by simp [socket?, hc]) (fun _ _ => List.forall_mem_nil _)
      (Apart.of_isGeneral rfl _ _)
    cases hc : m.record? token <;> simp [cue?, hc]
  | _ => cases h

/-- An event, for whatever it is. -/
theorem Agrees.dispatch (R : m.server.Registered m.kernel) (token : Token) (now : Nanoseconds)
    (event : Event) : m.Agrees token (.dispatch now event) := by
  by_cases he : event.token = listenerToken
  case pos =>
    obtain ⟨r, k₁, h, H⟩ := Sys.accept_spec m.server.listener m.kernel
    cases H with
    | opened n hfree H =>
      by_cases ht : token = m.server.nextToken
      · exact ht ▸ .greeting R he now h H
      · exact .other R he ht now hfree h H
    | failed n H =>
      have haccepted : m.accepted? token event = none := by
        simp [accepted?, h, Except.toOption]
      have hrun : (Act.dispatch now event).run = Server.accept now := by
        simp [Act.run, Server.dispatch, he]
      refine .apart R ?_ (fun hc => by simp [socket?, hc, haccepted])
        (fun _ _ => by simp [Act.turns, turn?, he]) (hrun ▸ accept_elsewhere h H token now)
      cases hc : m.record? token with
      | none => simp [cue?, hc, haccepted]
      | some c =>
        have hne : event.token ≠ token := he ▸ Nat.ne_of_lt (R.token hc).1
        simp [cue?, hc, hne]
  have haccepted : m.accepted? token event = none := by simp [accepted?, he]
  have hrun : (Act.dispatch now event).run = Server.handle event now := by
    simp [Act.run, Server.dispatch, he]
  by_cases ht : event.token = token
  case neg =>
    refine .apart R ?_ (fun hc => by simp [socket?, hc, haccepted]) ?_
      (hrun ▸ Apart.handle ht now m.server m.kernel)
    · cases hc : m.record? token with
      | none => simp [cue?, hc, haccepted]
      | some c => simp [cue?, hc, ht]
    · intro c hc turn hturn hs
      simp only [Act.turns, turn?, he, if_false, Option.mem_toList, Option.map_eq_some_iff] at hturn
      obtain ⟨d, hd, rfl⟩ := hturn
      exact ht (R.token_unique hd hc hs)
  cases hc : m.record? token with
  | some c => exact .event R hc ht now
  | none =>
    have hnone : m.server.connections.get? event.token = none := ht ▸ hc
    have hgone : Server.handle event now m.server m.kernel = (((), m.server), m.kernel) :=
      handle_gone hnone now m.kernel
    refine .apart R (by simp [cue?, hc, haccepted]) (fun _ => by simp [socket?, hc, haccepted])
      (fun c h => by rw [hc] at h; cases h) ⟨[], _, _, _, hrun ▸ hgone, .refl token _ _⟩

end

end Moment

/-- Every act does for a connection what the machine does. -/
theorem Reachable.agrees {m : Moment} (H : Reachable m) (token : Token) (a : Server.Act) :
    m.Agrees token a := by
  have R := H.registered
  cases a with
  | wait timeout round? => exact .wait timeout round?
  | dispatch now event => exact .dispatch R token now event
  | announce | retryAccepting now | logStats | complain e => exact .general R rfl
  | evictIdle now =>
    cases hc : m.record? token with
    | some c => exact .sweep R hc now
    | none =>
      have hspare (timeout : Nanoseconds) (_ : m.server.config.timeout = some timeout) :
          token ∉ m.server.idleTokens now timeout := by
        intro h
        obtain ⟨c, h, -⟩ := Server.mem_idleTokens.1 h
        rw [Moment.record?, h] at hc
        cases hc
      exact .apart R (by simp [Moment.cue?, hc]) (fun hc => by simp [Moment.socket?, hc])
        (fun _ _ => List.forall_mem_nil _) (Server.evictIdle_elsewhere hspare m.kernel)
  | close t seconds =>
    by_cases ht : t = token
    case neg =>
      exact .apart R (by cases hc : m.record? token <;> simp [Moment.cue?, hc, ht])
        (fun hc => by simp [Moment.socket?, hc]) (fun _ _ => List.forall_mem_nil _)
        (Server.Apart.close ht seconds ..)
    subst ht
    cases hc : m.record? t with
    | some c => exact .stop R hc seconds
    | none =>
      have hgone : Server.close t seconds m.server m.kernel = (((), m.server), m.kernel) :=
        Server.close_gone hc seconds m.kernel
      exact .apart R (by simp [Moment.cue?, hc]) (fun hc => by simp [Moment.socket?, hc])
        (fun _ _ => List.forall_mem_nil _) ⟨[], _, _, _, hgone, .refl t _ _⟩

/-! ## Runs -/

/-- What acts in a row do for a connection is what the machine does in a row. -/
theorem Reachable.projects {m : Moment} (H : Reachable m) (token : Token)
    (acts : List Server.Act) :
    ∃ deeds, Alone.run m.server.config.indexPath m.server.config.timeout (m.stimuli token acts)
        ((m.record? token).map Connection.nameless) =
          (deeds, ((m.run acts).record? token).map Connection.nameless) ∧
      List.Forall₂ (Deed.Done m.server.log token) deeds (m.calls token acts) := by
  induction acts generalizing m with
  | nil => exact ⟨[], rfl, .nil⟩
  | cons a acts ih =>
    obtain ⟨deeds, hdeeds, Hdone⟩ := H.agrees token a
    obtain ⟨more, hmore, Hmore⟩ := ih (H.act a)
    obtain ⟨new, Hs, -⟩ := Server.act_moves m a
    obtain ⟨hconfig, hlog⟩ := Hs.made
    rw [hconfig] at hmore
    rw [hlog] at Hmore
    refine ⟨deeds ++ more, ?_, List.rel_append Hdone Hmore⟩
    rw [Moment.stimuli, Alone.run_append, hdeeds, hmore]
    rfl

/-! ## Polls -/

/-- The acts that polling comes to: the events of a batch in their order, a sweep, and another try
to accept. -/
def Moment.pollActs (m : Moment) (timeout : Option Nanoseconds) (round? : Option Round) :
    List Server.Act :=
  let (result, k) := EventQueue.wait EventQueue.capacity timeout round? m.kernel
  .wait timeout round? ::
    match result with
    | .ok events =>
      events.map (.dispatch k.clock) ++ [.evictIdle k.clock, .retryAccepting k.clock]
    | .error _ => []

theorem Moment.run_dispatches (m : Moment) (now : Nanoseconds) (events : List Event) :
    (events.forM (Server.dispatch now) m.server m.kernel).1.2 =
        (m.run (events.map (.dispatch now))).server ∧
      (events.forM (Server.dispatch now) m.server m.kernel).2 =
        (m.run (events.map (.dispatch now))).kernel := by
  induction events generalizing m with
  | nil => exact ⟨rfl, rfl⟩
  | cons event events ih => exact ih (m.act (.dispatch now event))

theorem Moment.run_poll (m : Moment) (timeout : Option Nanoseconds) (round? : Option Round) :
    (Server.poll timeout round? m.server m.kernel).1.2 =
        (m.run (m.pollActs timeout round?)).server ∧
      (Server.poll timeout round? m.server m.kernel).2 =
        (m.run (m.pollActs timeout round?)).kernel := by
  obtain ⟨⟨r, k⟩, h⟩ : ∃ result, EventQueue.wait EventQueue.capacity timeout round? m.kernel =
    result := ⟨_, rfl⟩
  have hserver : (m.act (.wait timeout round?)).server = m.server := rfl
  have hkernel : (m.act (.wait timeout round?)).kernel = k := congrArg (·.2) h
  simp only [pollActs, h, run_cons, Server.poll, Serving.bind_apply, Serving.lift_apply]
  cases r with
  | error e => cases e <;> exact ⟨hserver.symm, hkernel.symm⟩
  | ok events =>
    obtain ⟨hs, hk⟩ := (m.act (.wait timeout round?)).run_dispatches k.clock events
    rw [hserver, hkernel] at hs hk
    simp only [run_append, Server.handleBatch, Serving.bind_apply, Serving.getThe_apply, hs, hk]
    exact ⟨rfl, rfl⟩

/-! ## Isolation -/

/-- **Isolation.** What a server does for a connection in any run, the connection would do on its
own, given what becomes of the calls on its own socket, the events under its own token, the page
where it is read, and the time; and so it is with how the connection is then, after any acts as
after a poll. All that is done on the socket counts. Two runs that give the same to two connections
which start alike do the same for them, whatever else happens in them. -/
theorem isolated {m : Moment} (H : Reachable m) (token : Token) :
    (∀ acts, ∃ deeds,
      Alone.run m.server.config.indexPath m.server.config.timeout (m.stimuli token acts)
          ((m.record? token).map Connection.nameless) =
        (deeds, ((m.run acts).record? token).map Connection.nameless) ∧
      List.Forall₂ (Deed.Done m.server.log token) deeds (m.calls token acts)) ∧
    (∀ timeout round?,
      ((Server.poll timeout round? m.server m.kernel).1.2.connections.get? token).map
          Connection.nameless =
        (Alone.run m.server.config.indexPath m.server.config.timeout
          (m.stimuli token (m.pollActs timeout round?))
          ((m.record? token).map Connection.nameless)).2) ∧
    (∀ a fd, m.socket? token a = some fd →
      (m.share token a).filter (fun o => o.socket? = some fd) =
        (m.news a).filter fun o => o.socket? = some fd) ∧
    ∀ m' token' acts acts', Reachable m' →
      m'.server.config.indexPath = m.server.config.indexPath →
      m'.server.config.timeout = m.server.config.timeout →
      (m'.record? token').map Connection.nameless = (m.record? token).map Connection.nameless →
      m'.stimuli token' acts' = m.stimuli token acts →
      ((m'.run acts').record? token').map Connection.nameless =
          ((m.run acts).record? token).map Connection.nameless ∧
        ∃ deeds, List.Forall₂ (Deed.Done m.server.log token) deeds (m.calls token acts) ∧
          List.Forall₂ (Deed.Done m'.server.log token') deeds (m'.calls token' acts') := by
  refine ⟨H.projects token, ?_, ?_, ?_⟩
  · intro timeout round?
    obtain ⟨deeds, hdeeds, -⟩ := H.projects token (m.pollActs timeout round?)
    rw [(m.run_poll timeout round?).1, hdeeds]
    rfl
  · intro a fd hs
    simp only [Moment.share, hs]
    exact segment_filter fd (m.news a)
  · intro m' token' acts acts' H' hpath htimeout hrecord hstimuli
    obtain ⟨deeds, hdeeds, Hdone⟩ := H.projects token acts
    obtain ⟨deeds', hdeeds', Hdone'⟩ := H'.projects token' acts'
    rw [hpath, htimeout, hrecord, hstimuli, hdeeds, Prod.mk.injEq] at hdeeds'
    obtain ⟨rfl, hafter⟩ := hdeeds'
    exact ⟨hafter.symm, deeds, Hdone, Hdone'⟩

/-- Another connection has been accepted just before the one of `Moment.greeted`. -/
def Moment.crowded : Moment :=
  (Moment.start.report
    { event := ⟨listenerToken, { input := true }⟩
      incoming := [.peer ⟨.unspecified, 40001⟩ (.ok ()), .peer ⟨.unspecified, 40000⟩ (.ok ())] }
    []).act (.dispatch 0 ⟨listenerToken, { input := true }⟩)

theorem Reachable.crowded : Reachable .crowded := (Reachable.start.report _ _).act _

/-- A connection sends a request and gets part of the reply before the server stops. -/
def Server.interrupted (token : Token) (others : List Act) : List Act :=
  .wait none (some {
    changes := [.write "./index.html" (Text.bytes "hi")]
    reports := [{
      event := ⟨token, { input := true }⟩
      pending := {
        recv := [.ok (Text.bytes "GET / x\n")]
        sendfile := [.ok 1, .error .EAGAIN] } }] }) ::
    (others ++ [.dispatch 0 ⟨token, { input := true }⟩, .close token 0])

/-- The other connection fails in the meantime. -/
theorem isolated_crowded :
    let alone := Server.interrupted 1 []
    let crowded := Server.interrupted 2 [.dispatch 0 ⟨1, { error := true }⟩]
    Moment.crowded.stimuli 2 crowded = Moment.greeted.stimuli 1 alone ∧
      (Moment.greeted.calls 1 alone).length = 9 ∧
      ∃ deeds,
        List.Forall₂ (Deed.Done Moment.greeted.server.log 1) deeds
          (Moment.greeted.calls 1 alone) ∧
        List.Forall₂ (Deed.Done Moment.crowded.server.log 2) deeds
          (Moment.crowded.calls 2 crowded) := by
  intro alone crowded
  have hrecord : (Moment.crowded.record? 2).map Connection.nameless =
      (Moment.greeted.record? 1).map Connection.nameless := by decide +kernel
  have hstimuli : Moment.crowded.stimuli 2 crowded = Moment.greeted.stimuli 1 alone := by
    decide +kernel
  obtain ⟨-, -, -, htwo⟩ := isolated Reachable.greeted 1
  obtain ⟨-, hdeeds⟩ :=
    htwo .crowded 2 alone crowded Reachable.crowded rfl rfl hrecord hstimuli
  exact ⟨hstimuli, by decide +kernel, hdeeds⟩

end OnePage
