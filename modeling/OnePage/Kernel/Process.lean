import OnePage.Kernel.Basic

/-! # Calls on the process itself -/

namespace OnePage.Sys

/-- How a process that has been asked about has ended. -/
inductive ProcessStatus where
  | running
  | exited (code : Nat)
  | signaled (signal : Nat)
  deriving DecidableEq, Repr

namespace ProcessStatus

/-- The status of a process keeps this many codes apart. -/
def codes : Nat := 256

/-- A process that was ended by a signal has its number in the status below this; a multiple is
added if the process has left its memory behind. -/
def signals : Nat := 128

/-- The signals that have names are numbered from 1 up to here. -/
def maxNamedSignal : Nat := 31

/-- A process that has ended by itself. -/
def ofCode (code : Nat) : ProcessStatus := .exited (code % codes)

/-- A process that was ended by a signal. One without a name, as the real-time signals are, is not
understood; a status without a signal is that of a process that has ended by itself. -/
def ofSignal (status : Nat) : Except Errno ProcessStatus :=
  let signal := status % signals
  if signal = 0 then .ok (.exited 0)
  else if signal ≤ maxNamedSignal then .ok (.signaled signal)
  else .error .EINVAL

example : ofSignal 31 = .ok (.signaled 31) := rfl
example : ofSignal 139 = .ok (.signaled 11) := rfl
example : ofSignal 32 = .error .EINVAL := rfl

end ProcessStatus

inductive Limit where
  | unlimited
  | below (n : Nat)
  deriving DecidableEq, Repr

/-- The number that stands for no limit. -/
def Limit.infinity : Nat := 0xFFFFFFFFFFFFFFFF

def Limit.ofNat (n : Nat) : Limit := if n = infinity then .unlimited else .below n

/-- How many descriptors a process may have, unless something else is laid down. -/
def defaultLimit : Nat := 1024

def usage : Sys (Except Errno Usage) := do
  match ← reply .getrusage with
  | some (.fails e) => return .error e
  | some (.usage u) => return .ok u
  | _ => return .ok {}

def descriptorLimit : Sys (Except Errno Limit) := do
  match ← reply .getrlimit with
  | some (.fails e) => return .error e
  | some .unlimited => return .ok .unlimited
  | some (.value n) => return .ok (.ofNat n)
  | _ => return .ok (.below defaultLimit)

def setUmask (mask : Nat) : Sys Unit := record (.setUmask mask)

/-- Opens a pipe; the ends are for reading and for writing. -/
def pipe : Sys (Except Errno (Fd × Fd)) := do
  match ← reply .pipe with
  | some (.fails e) =>
    record (.pipe (.error e))
    return .error e
  | some (.pair reader writer) =>
    modify fun k => { k with
      descriptors := (k.descriptors.insert reader .pipeReader).insert writer .pipeWriter }
    record (.pipe (.ok (reader, writer)))
    return .ok (reader, writer)
  | _ =>
    let reader ← allocate .pipeReader
    let writer ← allocate .pipeWriter
    record (.pipe (.ok (reader, writer)))
    return .ok (reader, writer)

/-- The descriptor of the null device, unless another is laid down. -/
def nullDescriptor : Fd := 499

def openNull : Sys (Except Errno Fd) := do
  match ← reply .openNull with
  | some (.fails e) =>
    record (.openNull (.error e))
    return .error e
  | some (.value fd) => opened fd
  | _ => opened nullDescriptor
where
  opened (fd : Fd) : Sys (Except Errno Fd) := do
    modify fun k => { k with descriptors := k.descriptors.insert fd .null }
    record (.openNull (.ok fd))
    return .ok fd

/-- Forks. The process goes on as the new one, unless the number of a new one is laid down. -/
def fork : Sys (Except Errno Nat) := do
  let result := match ← reply .fork with
    | some (.fails e) => .error e
    | some (.value n) => .ok n
    | _ => .ok 0
  record (.fork result)
  return result

def createSession : Sys Outcome := do
  let result ← outcome .setsid
  record (.createSession result)
  return result

def setSignal (signal : Signal) (disposition : Disposition) : Sys Outcome := do
  let result ← outcome .signal
  record (.setSignal signal disposition result)
  return result

/-- Reads from a pipe; how many bytes came. -/
def read (fd : Fd) (length : Nat) : Sys (Except Errno Nat) := do
  let result := match ← reply .read with
    | some (.fails e) => .error e
    | some (.value n) => .ok n
    | _ => .ok 0
  record (.read fd length result)
  return result

/-- Writes to a pipe, which takes all. -/
def write (fd : Fd) (data : List UInt8) : Sys (Except Errno Nat) := do
  let result := (← outcome .write).map fun _ => data.length
  record (.write fd data result)
  return result

/-- Asks how a process has ended, without waiting for it to end. -/
def waitProcess (process : Nat) : Sys (Except Errno ProcessStatus) := do
  record (.waitProcess process)
  match ← reply .waitpid with
  | some (.fails e) => return .error e
  | some (.exited code) => return .ok (.ofCode code)
  | some (.signaled status) => return ProcessStatus.ofSignal status
  | _ => return .ok .running

/-- Makes `target` stand for what `source` stands for. -/
def duplicate (source target : Fd) : Sys Outcome := do
  let result ← outcome .dup2
  if result.isOk then
    modify fun k =>
      match k.descriptors.get? source with
      | some resource => { k with descriptors := k.descriptors.insert target resource }
      | none => k
  record (.duplicate source target result)
  return result

def exit (code : Nat) : Sys Unit := record (.exit code)

end OnePage.Sys
