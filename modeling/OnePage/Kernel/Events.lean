import OnePage.Files.Change
import OnePage.Kernel.Basic

/-! # Calls on the event queue

The queue watches descriptors and reports what they are ready for. What happens during one wait
is a `Round`. -/

namespace OnePage

/-- An event, and the results that calls on its socket will have. -/
structure Report where
  event : Event
  incoming : List Incoming := []
  pending : Pending := {}

/-- What happens during one wait. -/
structure Round where
  elapsed : Nanoseconds := 0
  /-- Lists of results that replace those laid down for their calls. -/
  forced : List (SystemCall × List (Option Reply)) := []
  changes : List FileChange := []
  /-- The order in which connections are walked through until the next wait. -/
  walk : Walk := .ascending
  /-- Whether a signal asks the process to stop. -/
  stop : Bool := false
  /-- Why the wait fails, if it does. -/
  failure : Option Errno := none
  reports : List Report := []

namespace Kernel

def force (k : Kernel) (forced : List (SystemCall × List (Option Reply))) : Kernel :=
  { k with forced := forced.foldl (fun f entry => f.set entry.1 entry.2) k.forced }

/-- Time passes and things change, and results not asked for are forgotten. -/
def begin (k : Kernel) (round : Round) : Kernel :=
  let k := { k with clock := k.clock + round.elapsed }.force round.forced
  { k with
    files := k.files.changes round.changes
    walk := round.walk
    incoming := []
    pending := ∅
    stopped := k.stopped || round.stop }

/-- What has come in with one report. -/
def receive (k : Kernel) (report : Report) : Kernel :=
  let token := report.event.token
  if token = listenerToken then { k with incoming := k.incoming ++ report.incoming }
  else
    let before := (k.pending.get? token).getD {}
    { k with pending := k.pending.insert token (before.append report.pending) }

end Kernel

namespace Sys

def createQueue : Sys (Except Errno Fd) := do
  match ← reply .epollCreate with
  | some (.fails e) =>
    record (.createQueue (.error e))
    return .error e
  | _ =>
    let fd ← allocate .eventQueue
    record (.createQueue (.ok fd))
    return .ok fd

/-- The result of a change to the queue: the one laid down for it, or else a failure where the
change makes no sense. -/
def controlResult (senseless : Bool) (failure : Errno) : Sys Outcome := do
  match ← outcome .epollControl with
  | .error e => return .error e
  | .ok () => return if senseless then .error failure else .ok ()

def add (fd : Fd) (token : Token) (conditions : Conditions) : Sys Outcome := do
  let result ← controlResult ((← get).watches.contains fd) .EEXIST
  if result.isOk then
    modify fun k => { k with watches := k.watches.insert fd ⟨token, conditions⟩ }
  record (.add fd token conditions result)
  return result

def modifyWatch (fd : Fd) (token : Token) (conditions : Conditions) : Sys Outcome := do
  let result ← controlResult (!(← get).watches.contains fd) .ENOENT
  if result.isOk then
    modify fun k => { k with watches := k.watches.insert fd ⟨token, conditions⟩ }
  record (.modify fd token conditions result)
  return result

def delete (fd : Fd) : Sys Outcome := do
  let result ← controlResult (!(← get).watches.contains fd) .ENOENT
  if result.isOk then modify fun k => { k with watches := k.watches.erase fd }
  record (.delete fd result)
  return result

/-- Waits. What is reported past the capacity is lost, and without a round the queue is gone. -/
def wait (capacity : Nat) (timeout : Int) (round? : Option Round) :
    Sys (Except Errno (List Event)) := do
  match round? with
  | none =>
    record (.wait capacity timeout (.error .EBADF))
    return .error .EBADF
  | some round =>
    modify (·.begin round)
    match round.failure with
    | some e =>
      record (.wait capacity timeout (.error e))
      return .error e
    | none =>
      let reports := round.reports.take capacity
      modify fun k => reports.foldl Kernel.receive k
      record (.wait capacity timeout (.ok reports.length))
      return .ok (reports.map (·.event))

end Sys

end OnePage
