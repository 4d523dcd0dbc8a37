import OnePage.Server.Basic

/-! # Accepting connections

The listener is watched until the process runs out of descriptors, and is watched again as soon
as one may be free. -/

namespace OnePage.Server

def pause (now : Nanoseconds) : Serving Unit := do
  modify fun s => { s with pausedSince := some now }
  match ← EventQueue.deregister (← get).listener with
  | .ok () => return ()
  | .error e => warn ("failed to pause listening socket: " ++ e.labelled)

def resume : Serving Unit := do
  match ← EventQueue.register (← get).listener listenerToken .accept with
  | .ok () => modify fun s => { s with pausedSince := none }
  | .error e => warn ("failed to resume listening socket: " ++ e.labelled)

/-- Makes an accepted socket a connection. -/
def adopt (now : Nanoseconds) (fd : Fd) (peer : Net.Endpoint) : Serving Unit := do
  match ← Sys.setNonblocking fd with
  | .error e =>
    warn ("failed to make connection from " ++ peer.text ++ " non-blocking: " ++ e.numbered)
    let _ ← Sys.close fd
  | .ok () =>
    let token := (← get).nextToken
    modify fun s => { s with nextToken := token + 1 }
    match ← EventQueue.register fd token .read with
    | .error e =>
      warn ("failed to register connection from " ++ peer.text ++ ": " ++ e.labelled)
      let _ ← Sys.close fd
    | .ok () =>
      modify fun s => { s with
        stats := s.stats.addConnection
        connections := s.connections.insert token (Connection.new now fd peer) }

/-- Accepts one connection. -/
def accept (now : Nanoseconds) : Serving Unit := do
  match ← Sys.accept (← get).listener with
  | .ok (fd, peer) => adopt now fd peer
  | .error .EAGAIN => return ()
  | .error e =>
    if e = .EMFILE ∨ e = .ENFILE then pause now
    warn ("accept() failed: " ++ e.numbered)

end OnePage.Server
