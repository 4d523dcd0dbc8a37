import Mathlib.Algebra.Group.Int.Defs
import OnePage.Config.CommandLine
import OnePage.Proofs.Idleness

/-! # How long a wait can last

The kernel has 32 bits for the milliseconds that a wait may last, and one that is given a negative
number waits without end. A timeout of fewer than 2³¹ milliseconds is what the kernel is given, and
a longer one is cut down to the low bits (`timeoutArgument_cases`), whatever these come to. So a
server whose timeout is not too long waits within bounds while a connection is open
(`waits_bounded`), and one whose timeout is can wait without end (`waits_unbounded`). -/

namespace OnePage

namespace EventQueue

/-- The milliseconds of a timeout before they are cut down to the low bits. -/
def saturated (timeout : Nanoseconds) : Nat := min timeout.milliseconds maxTimeout

section
variable {timeout timeout' : Nanoseconds}

theorem saturated_le (timeout : Nanoseconds) : saturated timeout ≤ timeout.milliseconds :=
  Nat.min_le_left ..

/-- The low bits are the number that they are, or a negative one if the highest of them is set. -/
theorem timeoutArgument_cases (timeout : Nanoseconds) :
    (saturated timeout % 2 ^ 32 < 2 ^ 31 ∧
      timeoutArgument (some timeout) = (saturated timeout % 2 ^ 32 : Nat)) ∨
    (2 ^ 31 ≤ saturated timeout % 2 ^ 32 ∧ saturated timeout % 2 ^ 32 < 2 ^ 32 ∧
      timeoutArgument (some timeout) = ((saturated timeout % 2 ^ 32 : Nat) : Int) - 2 ^ 32) := by
  have h : timeoutArgument (some timeout) = Int.bmod (saturated timeout) 0x100000000 := rfl
  rw [Int.bmod_def] at h
  split at h <;> omega

theorem timeoutArgument_bounds (timeout? : Option Nanoseconds) :
    -2 ^ 31 ≤ timeoutArgument timeout? ∧ timeoutArgument timeout? < 2 ^ 31 := by
  cases timeout? with
  | none => decide
  | some timeout =>
    have hcases := timeoutArgument_cases timeout
    omega

theorem timeoutArgument_le (timeout : Nanoseconds) :
    timeoutArgument (some timeout) ≤ timeout.milliseconds := by
  have hle := saturated_le timeout
  have hcases := timeoutArgument_cases timeout
  omega

theorem timeoutArgument_nonneg_iff : 0 ≤ timeoutArgument (some timeout) ↔
    saturated timeout % 2 ^ 32 < 2 ^ 31 := by
  have hcases := timeoutArgument_cases timeout
  omega

/-- A wait is as endless as one without a timeout if all the low bits are set. -/
theorem timeoutArgument_eq_neg_one_iff : timeoutArgument (some timeout) = -1 ↔
    saturated timeout % 2 ^ 32 = 2 ^ 32 - 1 := by
  have hcases := timeoutArgument_cases timeout
  omega

/-- A timeout that is too long is cut off at the longest wait there is only where its low bits
happen to say so. -/
theorem timeoutArgument_eq_min_iff :
    timeoutArgument (some timeout) = min (timeout.milliseconds : Int) (2 ^ 31 - 1) ↔
      timeout.milliseconds < 2 ^ 31 ∨ saturated timeout % 2 ^ 32 = 2 ^ 31 - 1 := by
  have hsaturated : saturated timeout = min timeout.milliseconds 0x7FFFFFFFFFFFFFFF := rfl
  have hcases := timeoutArgument_cases timeout
  omega

theorem timeoutArgument_eq_iff : timeoutArgument (some timeout) = timeout.milliseconds ↔
    timeout.milliseconds < 2 ^ 31 := by
  refine ⟨fun h => ?_, Moment.timeoutArgument_eq⟩
  have hlt := (timeoutArgument_bounds (some timeout)).2
  rw [h] at hlt
  exact_mod_cast hlt

theorem milliseconds_mono (h : timeout ≤ timeout') : timeout.milliseconds ≤ timeout'.milliseconds :=
  Nat.div_le_div_right h

theorem timeoutArgument_mono (h : timeout ≤ timeout') (hlt : timeout'.milliseconds < 2 ^ 31) :
    timeoutArgument (some timeout) ≤ timeoutArgument (some timeout') := by
  have hle := milliseconds_mono h
  rw [timeoutArgument_eq_iff.2 hlt, timeoutArgument_eq_iff.2 (Nat.lt_of_le_of_lt hle hlt)]
  exact_mod_cast hle

end

end EventQueue

namespace Server
open EventQueue

variable {s : Server} {token : Token} {c : Connection}

/-- While accepting is paused a wait is as long as the pause, unless a timeout is shorter. -/
theorem nextWait_paused {timeout : Nanoseconds} (hp : s.pausedSince.isSome)
    (ht : s.config.timeout = some timeout) (hle : acceptRetry ≤ timeout) :
    s.nextWait = some acceptRetry := by
  obtain ⟨since, hsince⟩ := Option.isSome_iff_exists.1 hp
  cases he : s.connections.isEmpty <;> simp [nextWait, hsince, ht, he, Nat.min_eq_right hle]

theorem nextWait_empty (hp : s.pausedSince = none) (he : s.connections.isEmpty) :
    s.nextWait = none := by
  rw [nextWait, hp, he]
  rfl

theorem nextWait_open (hp : s.pausedSince = none) (hc : s.connections.get? token = some c) :
    s.nextWait = s.config.timeout := by
  rw [nextWait, hp, Table.isEmpty_of_get? hc]
  rfl

end Server

open EventQueue in
/-- **How long a server waits.** Without a timeout the kernel is given −1. With one it is given the
low 32 bits, as a signed number, of the whole milliseconds: never more than those are, and just
those if they are fewer than 2³¹, so that of such timeouts a longer one makes for no shorter wait.
One that is longer still is cut off at 2³¹ − 1 only where its low bits happen to say so, and for
some of these the kernel is asked to wait without end. A server that serves with a timeout waits for
the length of the pause if accepting is paused. Otherwise it waits without end if no connection is
open, and if one is, for as long as its timeout makes for. -/
theorem waits_bounded (timeout : Nanoseconds) :
    let argument := timeoutArgument (some timeout)
    let lowBits := min timeout.milliseconds (2 ^ 63 - 1) % 2 ^ 32
    timeoutArgument none = -1 ∧
    (-2 ^ 31 ≤ argument ∧ argument < 2 ^ 31) ∧ argument ≤ timeout.milliseconds ∧
    (argument = min (timeout.milliseconds : Int) (2 ^ 31 - 1) ↔
      timeout.milliseconds < 2 ^ 31 ∨ lowBits = 2 ^ 31 - 1) ∧
    (argument = -1 ↔ lowBits = 2 ^ 32 - 1) ∧ (0 ≤ argument ↔ lowBits < 2 ^ 31) ∧
    (timeout.milliseconds < 2 ^ 31 → argument = timeout.milliseconds ∧
      ∀ shorter ≤ timeout, timeoutArgument (some shorter) ≤ argument) ∧
    ∀ m : Moment, m.server.config.timeout = some timeout →
      ∀ rounds, (m.act .announce).GoesOn rounds →
      let served := (m.act .announce).polls rounds
      let given := timeoutArgument served.server.nextWait
      (∀ more, Server.serve (rounds ++ more) m.server m.kernel =
        Server.serveRounds more served.server served.kernel) ∧
      (∀ round?, ∃ result k,
        EventQueue.wait capacity served.server.nextWait round? served.kernel = (result, k) ∧
        Sys.Waited served.kernel (.wait capacity given (result.map List.length)) k) ∧
      (served.server.pausedSince.isSome → Server.acceptRetry ≤ timeout → given = 100) ∧
      (served.server.pausedSince = none → served.server.connections.isEmpty → given = -1) ∧
      ∀ token c, served.server.pausedSince = none → served.record? token = some c →
        given = argument := by
  refine ⟨rfl, timeoutArgument_bounds (some timeout), timeoutArgument_le timeout,
    timeoutArgument_eq_min_iff, timeoutArgument_eq_neg_one_iff, timeoutArgument_nonneg_iff,
    fun hlt => ⟨timeoutArgument_eq_iff.2 hlt, fun shorter hle => timeoutArgument_mono hle hlt⟩, ?_⟩
  intro m ht rounds Hr served given
  have ht : served.server.config.timeout = some timeout := by
    obtain ⟨acts, hacts, -⟩ := (m.act .announce).polls_acts rounds
    have hconfig : served.server.config = m.server.config := by
      rw [show served = (m.act .announce).run acts from hacts, Moment.config_run]
      exact m.config_run [.announce]
    rw [hconfig, ht]
  refine ⟨fun more => Hr.serveRounds more, fun round? => Sys.wait_spec .., fun hp hle => ?_,
    fun hp he => ?_, fun token c hp hc => ?_⟩
  · rw [show given = _ from congrArg timeoutArgument (Server.nextWait_paused hp ht hle)]
    rfl
  · exact congrArg timeoutArgument (Server.nextWait_empty hp he)
  · exact congrArg timeoutArgument ((Server.nextWait_open hp hc).trans ht)

/-- A server that closes connections which have been idle for some seconds. -/
def Moment.patient (seconds : Nat) : Moment :=
  { Moment.start with
    server := { Moment.start.server with config := { timeout := some (.ofSeconds seconds) } } }

/-- One connection comes in. -/
def Round.greeting : List Round :=
  [{ reports := [{
      event := ⟨listenerToken, { input := true }⟩
      incoming := [.peer ⟨.unspecified, 40000⟩ (.ok ())] }] }]

/-- The longest timeout in seconds that fits, with a connection open. -/
theorem waits_bounded_patient :
    let served := ((Moment.patient 2147483).act .announce).polls Round.greeting
    EventQueue.timeoutArgument served.server.nextWait = 2147483000 := by
  intro served
  have hgoes : ((Moment.patient 2147483).act .announce).GoesOn Round.greeting := by
    refine ⟨by decide +kernel, fun e he => ?_, trivial⟩
    cases he
  obtain ⟨c, hc⟩ : ∃ c, served.record? 1 = some c :=
    Option.isSome_iff_exists.1 (by decide +kernel)
  obtain ⟨-, -, -, -, -, -, hexact, hserve⟩ := waits_bounded (.ofSeconds 2147483)
  obtain ⟨-, -, -, -, hopen⟩ := hserve (.patient 2147483) rfl _ hgoes
  exact (hopen 1 c (by decide +kernel) hc).trans (hexact (by decide)).1

/-- A timeout of 2³² − 1 milliseconds is none to the kernel, and one that is a millisecond longer is
no wait at all. One more second than what fits is a negative number, and with a number of seconds
that the command line takes as well as any other a server waits without end while a connection is
open. -/
theorem waits_unbounded :
    EventQueue.timeoutArgument (some (.ofMilliseconds (2 ^ 32 - 1))) = -1 ∧
    EventQueue.timeoutArgument (some (.ofMilliseconds (2 ^ 32))) = 0 ∧
    EventQueue.timeoutArgument (some (.ofSeconds 2147484)) < 0 ∧
    (∀ files, CommandLine.read files ["--timeout", "9223372036854776"] =
      .ok (.run (Moment.patient 9223372036854776).server.config)) ∧
    let served := ((Moment.patient 9223372036854776).act .announce).polls Round.greeting
    (served.record? 1).isSome ∧ EventQueue.timeoutArgument served.server.nextWait = -1 := by
  refine ⟨by decide +kernel, by decide +kernel, by decide +kernel, fun files => ?_,
    by decide +kernel, by decide +kernel⟩
  rfl

end OnePage
