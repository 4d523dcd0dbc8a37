import OnePage.Proofs.Effects
import OnePage.Server.Serve

/-! # Runs of a server

A run is cut into acts: a wait, an event, a sweep of idle connections, and so on. Between two acts
the server is at rest, and all that holds of it then is said of `Reachable` moments. Polling and
serving come to what some acts in a row come to (`IsRun.poll`, `IsRun.serve`), whatever comes of
their calls. A moment remembers what has happened: the calls in the order they were made,
and ahead of the calls of an event that a connection took, the turn it had. -/

namespace OnePage

/-- An event as a connection took it. -/
structure Turn where
  before : Connection
  conditions : Conditions
  /-- The files as they were then. -/
  files : Files
  now : Nanoseconds
  verdict : Verdict
  after : Connection

/-- Something that happens in a run. -/
inductive Occurrence where
  | turn (turn : Turn)
  | call (call : Call)

namespace Occurrence

/-- The call that is made, if it is one. -/
def call? : Occurrence → Option Call
  | call c => some c
  | turn _ => none

theorem filterMap_calls (calls : List Call) :
    (calls.map call).filterMap call? = calls := by
  induction calls with
  | nil => rfl
  | cons c calls ih => exact congrArg (c :: ·) ih

theorem filterMap_turns (turns : List Turn) : (turns.map turn).filterMap call? = [] := by
  induction turns with
  | nil => rfl
  | cons t turns ih => exact ih

end Occurrence

namespace Server

/-- What a server does between two moments at rest. -/
inductive Act where
  | announce
  | wait (timeout : Option Nanoseconds) (round? : Option Round)
  | dispatch (now : Nanoseconds) (event : Event)
  | evictIdle (now : Nanoseconds)
  | retryAccepting (now : Nanoseconds)
  /-- For the log this happens `seconds` after the start of 1970. -/
  | close (token : Token) (seconds : Int)
  | logStats
  | complain (e : ServeError)

def Act.run : Act → Serving Unit
  | announce => Server.announce
  | wait timeout round? => do
    let _ ← EventQueue.wait EventQueue.capacity timeout round?
  | dispatch now event => Server.dispatch now event
  | evictIdle now => Server.evictIdle now
  | retryAccepting now => Server.retryAccepting now
  | close token seconds => Server.close token seconds
  | logStats => do
    let _ ← Server.logStats
  | complain e => do (← get).log.error e.chain.oneLine

/-- The turn that a connection has at an event. -/
def turn? (now : Nanoseconds) (event : Event) (s : Server) (k : Kernel) : Option Turn :=
  if event.token = listenerToken then none
  else (s.connections.get? event.token).map fun c =>
    let talk := c.handle event.conditions k.files s.config.indexPath now
    let result := (Sys.exchange c.socket s.stats talk k).1.1
    { before := c, conditions := event.conditions, files := k.files, now,
      verdict := result.1, after := result.2 }

/-- The turn that an act gives to a connection, if it does. -/
def Act.turns : Act → Server → Kernel → List Turn
  | dispatch now event, s, k => (s.turn? now event k).toList
  | _, _, _ => []

end Server

/-- A server at rest in the course of a run, with all that has happened since it was created. -/
structure Moment where
  server : Server
  kernel : Kernel
  history : List Occurrence

namespace Moment
open Server

/-- What the system's clock shows to a server that is at rest. -/
def seconds (m : Moment) : Int := m.kernel.secondsAt m.kernel.trace.size

/-- The calls that have been made since a kernel was as `k`. -/
def callsSince (k k' : Kernel) : List Occurrence :=
  (k'.trace.toList.drop k.trace.size).map .call

def act (m : Moment) (a : Act) : Moment :=
  let result := a.run m.server m.kernel
  { server := result.1.2
    kernel := result.2
    history := m.history ++ ((a.turns m.server m.kernel).map .turn ++
      callsSince m.kernel result.2) }

end Moment

/-- The moments of a run: a server that has been created around an open listener, with nothing
watched before and nothing written to the log, and all that acts in any order make of it. -/
inductive Reachable : Moment → Prop
  | created {config : Config} {listener : Fd} {log : LogSink} {k k' : Kernel} {s : Server}
    (hl : k.descriptors.contains listener) (hw : k.watches = ∅) (hn : k.unwritten = [])
    (hc : Server.create config listener log k = (.ok s, k')) : Reachable ⟨s, k', []⟩
  | act {m : Moment} (H : Reachable m) (a : Server.Act) : Reachable (m.act a)

/-- A process with a listening socket. -/
def Kernel.listening : Kernel :=
  { descriptors := (default : Kernel).descriptors.insert 3 (.socket none true) }

/-- A server that has been created there. -/
def Moment.start : Moment where
  server :=
    { config := {}, listener := 3, queue := ⟨500⟩, connections := ∅, nextToken := 1,
      pausedSince := none, log := .stdout, stats := {} }
  kernel := (Server.create {} 3 .stdout .listening).2
  history := []

theorem Reachable.start : Reachable .start :=
  have hl : Kernel.listening.descriptors.contains 3 := by decide
  .created hl rfl rfl rfl

/-- A server that has been created with some log. -/
def Moment.startOn (log : LogSink) : Moment :=
  { Moment.start with server := { Moment.start.server with log := log } }

theorem Reachable.startOn (log : LogSink) : Reachable (.startOn log) :=
  have hl : Kernel.listening.descriptors.contains 3 := by decide
  .created hl rfl rfl rfl

/-- A wait that reports one event, and what is done about it. -/
def Moment.report (m : Moment) (report : Report) (changes : List FileChange) : Moment :=
  (m.act (.wait none (some { changes := changes, reports := [report] }))).act
    (.dispatch m.kernel.clock report.event)

theorem Reachable.report {m : Moment} (H : Reachable m) (report : Report)
    (changes : List FileChange) : Reachable (m.report report changes) :=
  (H.act _).act _

/-- A new connection. -/
def Report.greeting : Report where
  event := ⟨listenerToken, { input := true }⟩
  incoming := [.peer ⟨.unspecified, 40000⟩ (.ok ())]

/-- Bytes that have come on a connection. -/
def Report.ofBytes (token : Token) (bytes : List UInt8) : Report where
  event := ⟨token, { input := true }⟩
  pending := { recv := [.ok bytes] }

/-! ## Polling and serving are runs -/

/-- The moment that acts in a row lead to. -/
def Moment.run (m : Moment) (acts : List Server.Act) : Moment := acts.foldl Moment.act m

@[simp] theorem Moment.run_nil (m : Moment) : m.run [] = m := rfl

@[simp] theorem Moment.run_cons (m : Moment) (a : Server.Act) (acts : List Server.Act) :
    m.run (a :: acts) = (m.act a).run acts := rfl

theorem Moment.run_append (m : Moment) (acts more : List Server.Act) :
    m.run (acts ++ more) = (m.run acts).run more := List.foldl_append

theorem Reachable.run {m : Moment} (H : Reachable m) (acts : List Server.Act) :
    Reachable (m.run acts) := by
  induction acts generalizing m with
  | nil => exact H
  | cons a acts ih => exact ih (H.act a)

/-- Whether a step always comes to what some acts in a row come to. -/
def IsRun {α : Type} (f : Serving α) : Prop :=
  ∀ m : Moment, ∃ acts, (f m.server m.kernel).1.2 = (m.run acts).server ∧
    (f m.server m.kernel).2 = (m.run acts).kernel

namespace IsRun
variable {α β : Type}

theorem act (a : Server.Act) : IsRun a.run := fun _ => ⟨[a], rfl, rfl⟩

theorem pure (a : α) : IsRun (Pure.pure a) := fun _ => ⟨[], rfl, rfl⟩

theorem get : IsRun (MonadState.get : Serving Server) := fun _ => ⟨[], rfl, rfl⟩

theorem getKernel : IsRun (getThe Kernel : Serving Kernel) := fun _ => ⟨[], rfl, rfl⟩

theorem wallClock : IsRun (liftM Sys.wallClock) := fun _ => ⟨[], rfl, rfl⟩

theorem bind {x : Serving α} {f : α → Serving β} (H : IsRun x) (H' : ∀ a, IsRun (f a)) :
    IsRun (x >>= f) := by
  intro m
  obtain ⟨acts, hs, hk⟩ := H m
  obtain ⟨more, hs', hk'⟩ := H' (x m.server m.kernel).1.1 (m.run acts)
  refine ⟨acts ++ more, ?_, ?_⟩
  · rw [Moment.run_append, Serving.bind_apply, hs, hk]
    exact hs'
  · rw [Moment.run_append, Serving.bind_apply, hs, hk]
    exact hk'

theorem forM {f : α → Serving Unit} (H : ∀ a, IsRun (f a)) (as : List α) : IsRun (as.forM f) := by
  induction as with
  | nil => exact .pure ()
  | cons a as ih => exact (H a).bind fun _ => ih

theorem wait (timeout : Option Nanoseconds) (round? : Option Round) :
    IsRun (liftM (EventQueue.wait EventQueue.capacity timeout round?)) :=
  act (.wait timeout round?)

theorem handleBatch (now : Nanoseconds) (events : List Event) :
    IsRun (Server.handleBatch now events) :=
  (forM (fun event => act (.dispatch now event)) events).bind fun _ =>
    (act (.evictIdle now)).bind fun _ => act (.retryAccepting now)

theorem poll (timeout : Option Nanoseconds) (round? : Option Round) :
    IsRun (Server.poll timeout round?) := by
  refine (wait timeout round?).bind fun result => ?_
  split
  · exact .pure _
  · exact .pure _
  · exact getKernel.bind fun k => (handleBatch k.clock _).bind fun _ => .pure _

theorem logStats : IsRun Server.logStats := fun _ => ⟨[.logStats], rfl, rfl⟩

theorem shutDown : IsRun Server.shutDown :=
  wallClock.bind fun seconds => getKernel.bind fun _ => get.bind fun _ =>
    (forM (fun token => act (.close token seconds)) _).bind fun _ => logStats

theorem serveRound (round? : Option Round) {next : Serving (Except ServeError Unit)}
    (H : IsRun next) : IsRun (Server.serveRound round? next) := by
  refine getKernel.bind fun k => ?_
  split
  · exact shutDown
  · refine get.bind fun s => (poll s.nextWait round?).bind fun result => ?_
    split
    · rename_i e
      exact (act (.complain e)).bind fun _ => pure (Except.error e)
    · exact H

theorem serveRounds (rounds : List Round) : IsRun (Server.serveRounds rounds) := by
  induction rounds with
  | nil => exact serveRound none (.pure _)
  | cons round rounds ih => exact serveRound (some round) ih

theorem serve (rounds : List Round) : IsRun (Server.serve rounds) :=
  (act .announce).bind fun _ => serveRounds rounds

end IsRun

/-- What comes of a poll is told by its wait. -/
theorem Server.poll_outcome (timeout : Option Nanoseconds) (round? : Option Round) (s : Server)
    (k : Kernel) : (poll timeout round? s k).1.1 =
      match (EventQueue.wait EventQueue.capacity timeout round? k).1 with
      | .error .EINTR => .ok ()
      | .error e => .error (.wait e)
      | .ok _ => .ok () := by
  obtain ⟨⟨result, k'⟩, h⟩ : ∃ result, EventQueue.wait EventQueue.capacity timeout round? k =
    result := ⟨_, rfl⟩
  simp only [poll, Serving.bind_apply, Serving.lift_apply, h]
  rcases result with e | events
  · cases e <;> rfl
  · rfl

/-- Whatever happens during a wait, a server is at rest after it has polled. -/
theorem Reachable.poll {m : Moment} (H : Reachable m) (timeout : Option Nanoseconds)
    (round? : Option Round) : ∃ h, Reachable
      ⟨(Server.poll timeout round? m.server m.kernel).1.2,
        (Server.poll timeout round? m.server m.kernel).2, h⟩ := by
  obtain ⟨acts, hs, hk⟩ := IsRun.poll timeout round? m
  rw [hs, hk]
  exact ⟨(m.run acts).history, H.run acts⟩

end OnePage
