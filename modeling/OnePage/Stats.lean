/-! # Totals -/

namespace OnePage

/-- Totals over the life of a server. -/
structure Stats where
  connections : Nat := 0
  requests : Nat := 0
  /-- Bytes received from all peers. -/
  received : Nat := 0
  /-- Bytes sent to all peers. -/
  sent : Nat := 0
  deriving DecidableEq, Repr

namespace Stats

def addConnection (s : Stats) : Stats := { s with connections := s.connections + 1 }

def addRequest (s : Stats) : Stats := { s with requests := s.requests + 1 }

def addReceived (s : Stats) (n : Nat) : Stats := { s with received := s.received + n }

def addSent (s : Stats) (n : Nat) : Stats := { s with sent := s.sent + n }

end Stats

end OnePage
