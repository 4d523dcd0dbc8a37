import OnePage.Kernel.Events
import OnePage.Time

/-! # The event queue

Watches descriptors under tokens, and waits until one of them is ready. Watching a descriptor that
is watched already changes what it is watched for, and a descriptor that is not watched can be
forgotten all the same. -/

namespace OnePage

structure EventQueue where
  fd : Fd
  deriving DecidableEq, Repr

namespace EventQueue

/-- How many events one wait can report to a server. -/
def capacity : Nat := 10

def create : Sys (Except Errno EventQueue) := do
  match ← Sys.createQueue with
  | .error e => return .error e
  | .ok fd => return .ok ⟨fd⟩

/-- Changes what a descriptor is watched for. -/
def reregister (fd : Fd) (token : Token) (interest : Interest) : Sys Outcome :=
  Sys.modifyWatch fd token interest.conditions

def register (fd : Fd) (token : Token) (interest : Interest) : Sys Outcome := do
  match ← Sys.add fd token interest.conditions with
  | .error .EEXIST => reregister fd token interest
  | result => return result

def deregister (fd : Fd) : Sys Outcome := do
  match ← Sys.delete fd with
  | .error .ENOENT => return .ok ()
  | result => return result

/-- The most milliseconds that a wait can be asked for. -/
def maxTimeout : Nat := 0x7FFFFFFFFFFFFFFF

/-- One more than the numbers that the kernel's argument has bits for. -/
def argumentModulus : Nat := 0x100000000

/-- The number of milliseconds that the kernel is given: the low bits, as a signed number, of the
whole milliseconds of a timeout, which are cut off at `maxTimeout` before. -/
def timeoutArgument : Option Nanoseconds → Int
  | none => -1
  | some timeout => Int.bmod (min timeout.milliseconds maxTimeout : Nat) argumentModulus

/-- Waits for at most `capacity` events, without end if there is no timeout. -/
def wait (capacity : Nat) (timeout : Option Nanoseconds) (round? : Option Round) :
    Sys (Except Errno (List Event)) :=
  Sys.wait capacity (timeoutArgument timeout) round?

/-- Lets go of the queue itself. -/
def close (queue : EventQueue) : Sys Unit := do
  let _ ← Sys.close queue.fd

end EventQueue

end OnePage
