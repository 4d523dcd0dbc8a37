import OnePage.Errno
import OnePage.Text.Utf8

/-! # What becomes of messages

A message goes to a standard stream, to the system's log or to the end of a file. A standard stream
that does not take a message ends the process; a file that does not is complained of. -/

namespace OnePage

inductive Stream where
  | stdout
  | stderr
  deriving DecidableEq, Repr

inductive Severity where
  | info
  | warning
  | error
  deriving DecidableEq, Repr

namespace Severity

/-- The number that the system's log has for a severity. -/
def priority : Severity → Nat
  | info => 6
  | warning => 4
  | error => 3

/-- What a message begins with. -/
def label : Severity → String
  | info => ""
  | warning => "warning: "
  | error => "error: "

def stream : Severity → Stream
  | info => .stdout
  | _ => .stderr

end Severity

/-- Why bytes are not all written. -/
inductive WriteError where
  | os (e : Errno)
  /-- A call took nothing of what had been kept for later. -/
  | keptUntaken
  /-- A call took nothing of what was written past what is kept. -/
  | untaken
  deriving DecidableEq, Repr

def WriteError.message : WriteError → String
  | os e => e.numbered
  | keptUntaken => "failed to write the buffered data"
  | untaken => "failed to write whole buffer"

/-- A part of what comes of a message. -/
inductive Output where
  /-- What a standard stream has taken. -/
  | print (stream : Stream) (bytes : List UInt8)
  /-- A standard stream has taken this and takes no more, which ends the process. -/
  | broken (stream : Stream) (bytes : List UInt8) (cause : WriteError)
  /-- What is written at the end of the log's file. -/
  | append (bytes : List UInt8)
  | syslog (priority : Nat) (format message : String)
  deriving DecidableEq, Repr

/-- Whether the process is at its end. -/
def Output.isBroken : Output → Bool
  | broken .. => true
  | _ => false

end OnePage
