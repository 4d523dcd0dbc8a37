import OnePage.Kernel.Call
import OnePage.Time

/-! # The kernel

What a process can see of the system it runs on: its descriptors, the event queue, sockets with
results yet to come, files, clocks, and results that some calls are bound to have. Every system
call is a step on this state, and leaves itself in the trace. -/

namespace OnePage

/-- Calls whose results can be laid down in advance. -/
inductive SystemCall where
  | socket | setsockopt | bind | listen | getsockname | epollCreate | epollControl | getrusage
  | getrlimit | pipe | openNull | fork | setsid | signal | read | write | waitpid | dup2 | close
  /-- Writing to the standard streams, and at the end of the log's file. -/
  | writeOut | writeError | append
  deriving DecidableEq, Repr

/-- Processor time, in seconds and microseconds. -/
structure Usage where
  userSeconds : Nat := 0
  userMicroseconds : Nat := 0
  systemSeconds : Nat := 0
  systemMicroseconds : Nat := 0
  deriving DecidableEq, Repr

/-- A result laid down in advance. -/
inductive Reply where
  | fails (e : Errno)
  /-- A count, a process, a descriptor or a limit. -/
  | value (n : Nat)
  /-- Two descriptors. -/
  | pair (m n : Nat)
  | unlimited
  | usage (usage : Usage)
  | exited (code : Nat)
  /-- The number of a signal, and more where memory was left behind. -/
  | signaled (status : Nat)
  deriving DecidableEq, Repr

/-- For each call its next results. A missing one is what the call gives by itself. -/
abbrev Forced := SystemCall → List (Option Reply)

def Forced.none : Forced := fun _ => []

def Forced.set (forced : Forced) (call : SystemCall) (replies : List (Option Reply)) : Forced :=
  fun c => if c = call then replies else forced c

/-- What an open descriptor stands for. -/
inductive Resource where
  /-- Open before the process began. -/
  | inherited
  | socket (bound : Option Net.Endpoint) (listening : Bool)
  /-- An accepted connection, and whether it can be made non-blocking. -/
  | connection (peer : Net.Endpoint) (nonblocking : Outcome)
  | eventQueue
  | pipeReader
  | pipeWriter
  | null
  deriving Inhabited

/-- What a descriptor is watched for, and as what. -/
structure Watch where
  token : Token
  conditions : Conditions
  deriving DecidableEq, Repr

/-- The order in which a table is walked through. It tells nothing but the order. -/
structure Walk where
  order : List Token → List Token
  perm (tokens : List Token) : (order tokens).Perm tokens

def Walk.ascending : Walk := ⟨id, .refl⟩

/-- What the next call to accept finds. -/
inductive Incoming where
  | peer (peer : Net.Endpoint) (nonblocking : Outcome)
  | fails (e : Errno)

inductive LookupFailure where
  | unknownName
  | again
  | fail
  deriving DecidableEq, Repr

def LookupFailure.message : LookupFailure → String
  | unknownName => "Name or service not known"
  | again => "Temporary failure in name resolution"
  | fail => "Non-recoverable failure in name resolution"

structure Kernel where
  /-- The identity of the process. -/
  process : Nat := 4242
  /-- Time since the process began. -/
  clock : Nanoseconds := 0
  /-- The time at which the process began, in seconds after the start of 1970. -/
  epoch : Int := 1620965123
  /-- How far the system's clock has come to be ahead of `clock`, once so many calls have been made.
  It goes on between calls, and can be set. -/
  drift : Nat → Int := fun _ => 0
  /-- How many seconds the local time is ahead. -/
  zone : Int := 0
  /-- New descriptors are the lowest free numbers from here on. -/
  floor : Nat := 500
  descriptors : Table Resource :=
    ((Table.empty.insert 0 .inherited).insert 1 .inherited).insert 2 .inherited
  watches : Table Watch := ∅
  /-- What has come in on the listener. -/
  incoming : List Incoming := []
  /-- Results that sockets have yet to give, by the token they are watched as. -/
  pending : Table Pending := ∅
  forced : Forced := Forced.none
  walk : Walk := .ascending
  files : Files := Files.initial
  /-- What has been written to the log's file and not been taken by it. -/
  unwritten : List UInt8 := []
  hosts : List (String × Except LookupFailure (List Net.Address)) := []
  /-- Set once a signal has asked the process to stop. -/
  stopped : Bool := false
  trace : Array Call := #[]

instance : Inhabited Kernel := ⟨{}⟩

/-- What the system's clock shows once so many calls have been made, in seconds after the start of
1970. -/
def Kernel.secondsAt (k : Kernel) (calls : Nat) : Int :=
  (k.epoch * Nanoseconds.perSecond + k.clock + k.drift calls) / Nanoseconds.perSecond

abbrev Sys := StateM Kernel

namespace Sys

def record (call : Call) : Sys Unit := modify fun k => { k with trace := k.trace.push call }

/-- The result that is laid down for a call, if there is one. -/
def reply (call : SystemCall) : Sys (Option Reply) := do
  let k ← get
  match k.forced call with
  | [] => return none
  | r :: rest =>
    set { k with forced := k.forced.set call rest }
    return r

/-- Whether a call that has no result of its own succeeds. -/
def outcome (call : SystemCall) : Sys Outcome := do
  match ← reply call with
  | some (.fails e) => return .error e
  | _ => return .ok ()

/-- Opens a new descriptor. -/
def allocate (resource : Resource) : Sys Fd := do
  let k ← get
  let fd := k.descriptors.firstFree k.floor
  set { k with descriptors := k.descriptors.insert fd resource }
  return fd

/-- Closes a descriptor, also where the call reports a failure. -/
def close (fd : Fd) : Sys Outcome := do
  let result ← outcome .close
  modify fun k => { k with descriptors := k.descriptors.erase fd, watches := k.watches.erase fd }
  record (.close fd)
  return result

def print (stream : Stream) (text : String) : Sys Unit := record (.print stream text)

/-- Seconds after the start of 1970. -/
def wallClock : Sys Int := do
  let k ← get
  return k.secondsAt k.trace.size

end Sys

end OnePage
