import OnePage.Connection
import OnePage.Log.Message

/-! # System calls

The calls that a process makes, each with its result, as an observer sees them go by. All that comes
of one message to the log is one entry. A summary joins neighbouring pieces of text, and
neighbouring closes of ascending numbers that were never watched. -/

namespace OnePage

inductive Signal where
  | hangup
  | interrupt
  | terminate
  | brokenPipe
  deriving DecidableEq, Repr

def Signal.name : Signal → String
  | hangup => "SIGHUP"
  | interrupt => "SIGINT"
  | terminate => "SIGTERM"
  | brokenPipe => "SIGPIPE"

inductive Disposition where
  | ignore
  | handler
  deriving DecidableEq, Repr

inductive Call where
  | lookup (host : String)
  | socket (result : Except Errno Fd)
  | reuseAddress (fd : Fd) (result : Outcome)
  | bind (fd : Fd) (endpoint : Net.Endpoint) (result : Outcome)
  | listen (fd : Fd) (backlog : Nat) (result : Outcome)
  | createQueue (result : Except Errno Fd)
  | add (fd : Fd) (token : Token) (conditions : Conditions) (result : Outcome)
  | modify (fd : Fd) (token : Token) (conditions : Conditions) (result : Outcome)
  | delete (fd : Fd) (result : Outcome)
  /-- Waits for events, at most `capacity` of them; the result is how many there were. -/
  | wait (capacity : Nat) (timeout : Int) (result : Except Errno Nat)
  | accept (listener : Fd) (result : Except Errno Fd)
  | setNonblocking (fd : Fd) (result : Outcome)
  | operation (fd : Fd) (operation : Operation)
  | close (fd : Fd)
  | print (stream : Stream) (text : String)
  | openLog (ident : String) (option facility : Nat)
  /-- A message is handed to the log, and this is what comes of it. -/
  | log (severity : Severity) (message : String) (outputs : List Output)
  | setUmask (mask : Nat)
  | pipe (result : Except Errno (Fd × Fd))
  | openNull (result : Except Errno Fd)
  /-- The result is the new process, or 0 in it. -/
  | fork (result : Except Errno Nat)
  | createSession (result : Outcome)
  | setSignal (signal : Signal) (disposition : Disposition) (result : Outcome)
  | read (fd : Fd) (length : Nat) (result : Except Errno Nat)
  | write (fd : Fd) (data : List UInt8) (result : Except Errno Nat)
  /-- Asks how a process has ended, without waiting for it. -/
  | waitProcess (process : Nat)
  | duplicate (source target : Fd) (result : Outcome)
  | exit (code : Nat)
  /-- What is left of the log is written to its file in the end. -/
  | flush (bytes : List UInt8)

namespace Call

/-- Whether a process ends at a call, since a standard stream does not take a message. -/
def isBreak : Call → Bool
  | log _ _ outputs => outputs.any Output.isBroken
  | _ => false

/-- What a process does that would make some calls: none of them after one that ends it. -/
def untilBreak : List Call → List Call
  | [] => []
  | call :: calls => if call.isBreak then [call] else call :: untilBreak calls

end Call

/-! ## Summaries -/

/-- A line of a summary. -/
inductive Line where
  | call (call : Call)
  | output (output : Output)
  /-- One after the other, the descriptors from `first` to `last` are closed. -/
  | closes (first last : Fd)

/-- A summary as far as it goes. -/
structure Summary where
  lines : Array Line := #[]
  /-- Descriptors that have been watched. Closing one of them has a line of its own. -/
  watched : List Fd := []

namespace Summary

def add (s : Summary) (line : Line) : Summary := { s with lines := s.lines.push line }

/-- Puts a line in place of the last one. -/
def replace (s : Summary) (line : Line) : Summary := { s with lines := s.lines.pop.push line }

/-- Whether closing `fd` can share a line with closing `last` just before it. -/
def joins (s : Summary) (last fd : Fd) : Bool :=
  fd == last + 1 && !s.watched.contains last && !s.watched.contains fd

/-- Takes in a part of what has come of a message. Where nothing was taken there is no line. -/
def tell (s : Summary) (output : Output) : Summary :=
  match output, s.lines.back? with
  | .print _ [], _ => s
  | .append [], _ => s
  | .print stream bytes, some (.output (.print before start)) =>
    if before = stream then s.replace (.output (.print stream (start ++ bytes)))
    else s.add (.output output)
  | .append bytes, some (.output (.append start)) => s.replace (.output (.append (start ++ bytes)))
  | _, _ => s.add (.output output)

/-- Takes in one more call. Opening a page leaves no line. -/
def push (s : Summary) (c : Call) : Summary :=
  match c with
  | .operation _ (.openPage ..) => s
  | .close fd =>
    match s.lines.back? with
    | some (.closes first last) =>
      if s.joins last fd then s.replace (.closes first fd) else s.add (.closes fd fd)
    | _ => s.add (.closes fd fd)
  | .print stream text => s.tell (.print stream (Text.bytes text))
  | .log _ _ outputs => outputs.foldl tell s
  | .flush bytes => s.tell (.append bytes)
  | .add fd _ _ (.ok ()) => { s.add (.call c) with watched := fd :: s.watched }
  | _ => s.add (.call c)

def ofCalls (calls : Array Call) : Summary := calls.foldl push {}

end Summary

end OnePage
