import OnePage.Proofs.Isolation

/-! # Polling in a row

A server that serves polls for one round after the other, until a wait fails or it has been told to
stop (`Moment.GoesOn`). All that it does are acts in a row (`Moment.comesTo_serve`). -/

namespace OnePage

namespace Moment
open Server

/-- The moment after one poll of a server that serves. -/
def polled (m : Moment) (round : Round) : Moment :=
  m.run (m.pollActs m.server.nextWait (some round))

def polls (m : Moment) (rounds : List Round) : Moment := rounds.foldl polled m

/-- Whether a server goes on to poll for each of these rounds: it has not been told to stop before,
and no wait fails but where a signal interrupts it. -/
def GoesOn : Moment → List Round → Prop
  | _, [] => True
  | m, round :: rounds =>
    m.kernel.stopped = false ∧ (∀ e, round.failure = some e → e = .EINTR) ∧
      (m.polled round).GoesOn rounds

/-- The moment after a server has said that it serves, and has polled for some rounds. -/
def served (m : Moment) (rounds : List Round) : Moment := (m.act .announce).polls rounds

section
variable {m : Moment} {round : Round} {rounds : List Round}

/-- What a wait comes to is laid down in its round. -/
theorem wait_result (asked : Option Nanoseconds) (round : Round) (k : Kernel) :
    (EventQueue.wait EventQueue.capacity asked (some round) k).1 = match round.failure with
      | some e => .error e
      | none => .ok ((round.reports.take EventQueue.capacity).map (·.event)) := by
  cases h : round.failure <;> simp [EventQueue.wait, Sys.wait, h]

theorem poll_ok (asked : Option Nanoseconds) (h : ∀ e, round.failure = some e → e = .EINTR)
    (s : Server) (k : Kernel) : (poll asked (some round) s k).1.1 = .ok () := by
  rw [poll_outcome, wait_result]
  cases hf : round.failure with
  | none => rfl
  | some e => rw [h e hf]

/-- Serving is polling, as long as the server is not told to stop and its waits do not fail. -/
theorem GoesOn.serveRounds (H : m.GoesOn rounds) (more : List Round) :
    Server.serveRounds (rounds ++ more) m.server m.kernel =
      Server.serveRounds more (m.polls rounds).server (m.polls rounds).kernel := by
  induction rounds generalizing m with
  | nil => rfl
  | cons round rounds ih =>
    obtain ⟨hstop, hround, H⟩ := H
    have hok := poll_ok m.server.nextWait hround m.server m.kernel
    obtain ⟨hs, hk⟩ := m.run_poll m.server.nextWait (some round)
    refine Eq.trans ?_ (ih H)
    simp only [List.cons_append, Server.serveRounds, serveRound, Serving.bind_apply,
      Serving.getThe_apply, Serving.get_apply, hstop, Bool.false_eq_true, if_false, hok, hs, hk]
    rfl

end

/-! ## Serving is a run -/

/-- The acts that a server comes to when it stops. -/
def stopActs (m : Moment) : List Act :=
  (m.kernel.walk.order m.server.connections.keys).map (.close · m.seconds) ++ [.logStats]

/-- The acts that serving comes to from one poll on, with those that come after it. -/
def roundActs (round? : Option Round) (more : Moment → List Act) (m : Moment) : List Act :=
  if m.kernel.stopped then m.stopActs
  else
    let acts := m.pollActs m.server.nextWait round?
    acts ++ match (Server.poll m.server.nextWait round? m.server m.kernel).1.1 with
      | .error e => [.complain e]
      | .ok () => more (m.run acts)

def roundsActs : List Round → Moment → List Act
  | [] => roundActs none fun _ => []
  | round :: rounds => roundActs (some round) (roundsActs rounds)

/-- The acts that serving comes to. -/
def serveActs (m : Moment) (rounds : List Round) : List Act :=
  .announce :: roundsActs rounds (m.act .announce)

/-- Whether a step comes to these acts. -/
def ComesTo {α : Type} (m : Moment) (f : Serving α) (acts : List Act) : Prop :=
  (f m.server m.kernel).1.2 = (m.run acts).server ∧ (f m.server m.kernel).2 = (m.run acts).kernel

/-- Acts in a row only add to the calls that have been made. -/
theorem trace_run (m : Moment) (acts : List Act) :
    ∃ calls : List Call, (m.run acts).kernel.trace = m.kernel.trace ++ calls.toArray := by
  induction acts generalizing m with
  | nil => exact ⟨[], by simp⟩
  | cons a acts ih =>
    obtain ⟨new, Hs, -⟩ := act_moves m a
    obtain ⟨calls, hcalls⟩ := ih (m.act a)
    exact ⟨new.filterMap Occurrence.call? ++ calls, by rw [run_cons, hcalls, Hs.trace]; simp⟩

theorem ComesTo.trace {m : Moment} {α : Type} {f : Serving α} {acts : List Act}
    (H : m.ComesTo f acts) : (f m.server m.kernel).2.trace =
      m.kernel.trace ++ (Sys.calls (f m.server) m.kernel).toArray := by
  obtain ⟨calls, ht⟩ := m.trace_run acts
  rw [← H.2] at ht
  rw [ht, Sys.calls_eq ht]

theorem comesTo_closes (m : Moment) (tokens : List Token) (seconds : Int) :
    m.ComesTo (tokens.forM (Server.close · seconds)) (tokens.map (.close · seconds)) := by
  induction tokens generalizing m with
  | nil => exact ⟨rfl, rfl⟩
  | cons token tokens ih => exact ih (m.act (.close token seconds))

theorem comesTo_shutDown (m : Moment) : m.ComesTo shutDown m.stopActs := by
  obtain ⟨hs, hk⟩ := m.comesTo_closes (m.kernel.walk.order m.server.connections.keys) m.seconds
  simp only [seconds] at hs hk
  simp only [ComesTo, stopActs, seconds, run_append, shutDown, Serving.bind_apply,
    Serving.getThe_apply, Serving.get_apply, Serving.lift_apply, Sys.wallClock_apply, hs, hk]
  exact ⟨rfl, rfl⟩

theorem comesTo_round (m : Moment) (round? : Option Round)
    {next : Serving (Except ServeError Unit)} {more : Moment → List Act}
    (h : ∀ m : Moment, m.ComesTo next (more m)) :
    m.ComesTo (serveRound round? next) (roundActs round? more m) := by
  by_cases hstop : m.kernel.stopped
  · have hrun : serveRound round? next m.server m.kernel = shutDown m.server m.kernel := by
      simp only [serveRound, Serving.bind_apply, Serving.getThe_apply, hstop, if_true]
    simp only [ComesTo, roundActs, hstop, if_true, hrun]
    exact m.comesTo_shutDown
  · obtain ⟨hs, hk⟩ := m.run_poll m.server.nextWait round?
    simp only [Bool.not_eq_true] at hstop
    cases hr : (Server.poll m.server.nextWait round? m.server m.kernel).1.1 with
    | error e =>
      simp only [ComesTo, roundActs, hstop, Bool.false_eq_true, if_false, hr, run_append,
        serveRound, Serving.bind_apply, Serving.getThe_apply, Serving.get_apply, hs, hk]
      exact ⟨rfl, rfl⟩
    | ok =>
      simp only [ComesTo, roundActs, hstop, Bool.false_eq_true, if_false, hr, run_append,
        serveRound, Serving.bind_apply, Serving.getThe_apply, Serving.get_apply, hs, hk]
      exact h _

theorem comesTo_rounds (m : Moment) (rounds : List Round) :
    m.ComesTo (serveRounds rounds) (roundsActs rounds m) := by
  induction rounds generalizing m with
  | nil => exact m.comesTo_round none fun _ => ⟨rfl, rfl⟩
  | cons round rounds ih => exact m.comesTo_round (some round) ih

theorem comesTo_serve (m : Moment) (rounds : List Round) :
    m.ComesTo (serve rounds) (m.serveActs rounds) :=
  (m.act .announce).comesTo_rounds rounds

/-- How it ends to serve from one poll on. -/
theorem round_outcome (m : Moment) (round? : Option Round)
    (next : Serving (Except ServeError Unit)) :
    (serveRound round? next m.server m.kernel).1.1 =
      if m.kernel.stopped then (shutDown m.server m.kernel).1.1
      else match (Server.poll m.server.nextWait round? m.server m.kernel).1.1 with
        | .error e => .error e
        | .ok () =>
          (next (m.run (m.pollActs m.server.nextWait round?)).server
            (m.run (m.pollActs m.server.nextWait round?)).kernel).1.1 := by
  obtain ⟨hs, hk⟩ := m.run_poll m.server.nextWait round?
  by_cases hstop : m.kernel.stopped
  · simp only [serveRound, Serving.bind_apply, Serving.getThe_apply, hstop, if_true]
  · rw [Bool.not_eq_true] at hstop
    simp only [serveRound, Serving.bind_apply, Serving.getThe_apply, Serving.get_apply, hstop,
      Bool.false_eq_true, if_false]
    cases hr : (Server.poll m.server.nextWait round? m.server m.kernel).1.1 with
    | error e => rfl
    | ok => simp only [hs, hk]

end Moment

theorem Reachable.polls {m : Moment} (H : Reachable m) (rounds : List Round) :
    Reachable (m.polls rounds) := by
  induction rounds generalizing m with
  | nil => exact H
  | cons round rounds ih => exact ih (H.run _)

end OnePage
