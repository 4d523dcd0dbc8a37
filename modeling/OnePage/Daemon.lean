import OnePage.Kernel.Process

/-! # Going into the background

The process forks twice, and the daemon is what is left in a session of its own. The first process
holds one end of a pipe, the lifeline, until the daemon has written to it or is gone: so what goes
wrong at the start shows in its exit code. -/

namespace OnePage

inductive DaemonError where
  | limit (e : Errno)
  | limitTooLow (bound : Nat)
  | pipe (e : Errno)
  | openNull (e : Errno)
  | fork (e : Errno)
  | waitProcess (process : Nat) (e : Errno)
  | session (e : Errno)
  | ignoreHangup (e : Errno)
  | readiness (e : Errno)
  deriving DecidableEq, Repr

def DaemonError.chain : DaemonError → Chain
  | limit e => ["failed to close inherited descriptors", e.numbered]
  | limitTooLow bound =>
    ["failed to close inherited descriptors",
      "descriptor limit " ++ toString bound ++ " is too low"]
  | pipe e => ["failed to create pipe", e.labelled]
  | openNull e => ["failed to open /dev/null", e.numbered]
  | fork e => ["failed to fork process", e.labelled]
  | waitProcess process e => ["failed to wait for process " ++ toString process, e.labelled]
  | session e => ["failed to create session", e.labelled]
  | ignoreHangup e => ["failed to ignore SIGHUP", e.labelled]
  | readiness e => ["failed to signal readiness", e.labelled]

/-- What a daemon holds until it is ready. -/
structure Daemon where
  lifelineReader : Fd
  lifelineWriter : Fd
  null : Fd
  deriving DecidableEq, Repr

namespace Daemon

def stdin : Fd := 0

def stdout : Fd := 1

def stderr : Fd := 2

/-- Files of the daemon are not for others, and not for its group to write. -/
def umask : Nat := 0o027

/-- The bound of the sweep where there is no limit on descriptors. -/
def unlimitedSweep : Nat := 0x100000

/-- The greatest number a descriptor can have. -/
def maxDescriptor : Nat := 0x7FFFFFFF

/-- The sweep closes descriptors below this. -/
def sweepBound : Sys.Limit → Nat
  | .unlimited => unlimitedSweep
  | .below n => min n maxDescriptor

/-- The descriptors that a sweep closes, in order. -/
def swept (keep : List Fd) (bound : Nat) : List Fd :=
  (List.range' (stderr + 1) (bound - (stderr + 1))).filter fun fd => !keep.contains fd

/-- Closes descriptors whether they are open or not. -/
def closeAll (fds : List Fd) : Sys Unit := fds.forM fun fd => discard (Sys.close fd)

def closeInherited (keep : List Fd) : Sys (Except DaemonError Unit) := do
  match ← Sys.descriptorLimit with
  | .error e => return .error (.limit e)
  | .ok limit =>
    let bound := sweepBound limit
    if bound ≤ stderr then return .error (.limitTooLow bound)
    closeAll (swept keep bound)
    return .ok ()

/-- Complains about a step that failed and is not needed to go on. -/
def complain (text : String) (result : Outcome) : Sys Unit := do
  match result with
  | .ok () => return ()
  | .error e => Sys.print .stderr ("warning: " ++ text ++ ": " ++ e.labelled ++ "\n")

/-- A process after it has tried to become a daemon. -/
inductive Stage where
  | daemon (daemon : Daemon)
  /-- The daemon is another process, and this one is at its end. -/
  | done (code : Nat)
  deriving DecidableEq, Repr

/-- Waits in the first process for the daemon to be ready, and gives the exit code. -/
def awaitReady (lifeline : Daemon) (child : Nat) : Sys (Except DaemonError Nat) := do
  complain "failed to close lifeline in parent" (← Sys.close lifeline.lifelineWriter)
  match ← Sys.read lifeline.lifelineReader 1 with
  | .ok 1 => return .ok 0
  | .ok _ => died
  | .error e =>
    complain "failed read lifeline in parent" (.error e)
    died
where
  /-- The exit code for a daemon that was never ready: its own, unless that is a success. -/
  died : Sys (Except DaemonError Nat) := do
    match ← Sys.waitProcess child with
    | .error e => return .error (.waitProcess child e)
    | .ok (.exited code) => return .ok (if code = 0 then 1 else code)
    | .ok _ => return .ok 1

/-- Leaves the session of the first process, for a new one without a terminal. The leader of that
session ends, so that no terminal can come back. -/
def leaveSession (daemon : Daemon) : Sys (Except DaemonError Stage) := do
  match ← Sys.createSession with
  | .error e => return .error (.session e)
  | .ok () =>
    match ← Sys.setSignal .hangup .ignore with
    | .error e => return .error (.ignoreHangup e)
    | .ok () =>
      match ← Sys.fork with
      | .error e => return .error (.fork e)
      | .ok 0 => return .ok (.daemon daemon)
      | .ok _ =>
        Sys.exit 0
        return .ok (.done 0)

/-- Makes the lifeline and opens the null device. -/
def prepare : Sys (Except DaemonError Daemon) := do
  match ← Sys.pipe with
  | .error e => return .error (.pipe e)
  | .ok (reader, writer) =>
    match ← Sys.openNull with
    | .error e => return .error (.openNull e)
    | .ok null => return .ok ⟨reader, writer, null⟩

/-- Closes inherited descriptors other than those in `keep`, and forks. -/
def start (keep : List Fd) : Sys (Except DaemonError Stage) := do
  match ← closeInherited keep with
  | .error e => return .error e
  | .ok () =>
    Sys.setUmask umask
    match ← prepare with
    | .error e => return .error e
    | .ok daemon =>
      match ← Sys.fork with
      | .error e => return .error (.fork e)
      | .ok 0 => leaveSession daemon
      | .ok child => return (← awaitReady daemon child).map .done

/-- Tells the first process that the daemon is ready, and lets go of the standard streams. -/
def finish (daemon : Daemon) : Sys (Except DaemonError Unit) := do
  complain "failed to close read end of lifeline in child" (← Sys.close daemon.lifelineReader)
  match ← Sys.write daemon.lifelineWriter [1] with
  | .error e => return .error (.readiness e)
  | .ok _ =>
    complain "failed to cut the lifeline" (← Sys.close daemon.lifelineWriter)
    complain "failed to close stdin" (← Sys.duplicate daemon.null stdin)
    complain "failed to close stdout" (← Sys.duplicate daemon.null stdout)
    complain "failed to close stderr" (← Sys.duplicate daemon.null stderr)
    if stderr < daemon.null then discard (Sys.close daemon.null)
    return .ok ()

end Daemon

end OnePage
