/-! # Readiness

The conditions that a descriptor can be in, and which of them it is watched for. -/

namespace OnePage

abbrev Fd := Nat

/-- Identifies what a descriptor is watched as. -/
abbrev Token := Nat

/-- The token of the listener. -/
def listenerToken : Token := 0

/-- What a descriptor is ready for, or is watched for. -/
structure Conditions where
  input : Bool := false
  urgent : Bool := false
  output : Bool := false
  error : Bool := false
  /-- Both directions are gone. -/
  hangup : Bool := false
  /-- The peer will send no more. -/
  peerHangup : Bool := false
  /-- Each change is reported once. -/
  edge : Bool := false
  deriving DecidableEq, Repr

/-- Whether the peer will send no more, or the connection is gone. -/
def Conditions.isHangup (c : Conditions) : Bool := c.peerHangup || c.hangup

inductive Interest where
  | accept
  | read
  | write
  deriving DecidableEq, Repr

/-- The listener is reported for as long as someone waits, a connection once for each change. -/
def Interest.conditions : Interest → Conditions
  | accept => { input := true }
  | read => { input := true, error := true, peerHangup := true, edge := true }
  | write => { output := true, error := true, peerHangup := true, edge := true }

/-- A descriptor that is ready, by its token. -/
structure Event where
  token : Token
  conditions : Conditions
  deriving DecidableEq, Repr

end OnePage
