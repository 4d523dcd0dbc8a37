/-! # Time

Lengths of time, and points in time since a process began, are counted in nanoseconds. -/

namespace OnePage

abbrev Nanoseconds := Nat

namespace Nanoseconds

def perSecond : Nat := 1000000000

def perMillisecond : Nat := 1000000

def ofSeconds (n : Nat) : Nanoseconds := n * perSecond

def ofMilliseconds (n : Nat) : Nanoseconds := n * perMillisecond

/-- Whole seconds. -/
def seconds (t : Nanoseconds) : Nat := t / perSecond

/-- Whole milliseconds. -/
def milliseconds (t : Nanoseconds) : Nat := t / perMillisecond

end Nanoseconds

end OnePage
