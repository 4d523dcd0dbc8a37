import OnePage.Log.Access
import OnePage.Server.Accepting

/-! # Closing connections

A connection leaves the table first, and then its socket is forgotten by the queue, its line is
logged and the socket is closed. Nothing else reaches the socket, so all this happens once. -/

namespace OnePage.Server

/-- Writes the access log's line for a connection that is closed at some time. -/
def logAccess (c : Connection) (seconds : Int) : Serving Unit := do
  match Log.accessLine c seconds (← getThe Kernel).zone with
  | some line => info line
  | none => return ()

/-- Closes a connection; its token is gone from then on. A descriptor is free after that, so
accepting goes on if it was paused. -/
def close (token : Token) (seconds : Int) : Serving Unit := do
  match (← get).connections.get? token with
  | none => return ()
  | some c =>
    modify fun s => { s with connections := s.connections.erase token }
    match ← EventQueue.deregister c.socket with
    | .ok () => pure ()
    | .error e => warn ("failed to deregister " ++ c.peer.text ++ ": " ++ e.labelled)
    logAccess c seconds
    let _ ← Sys.close c.socket
    if (← get).pausedSince.isSome then resume

/-- Marks a connection as given up and closes it. -/
def abandon (token : Token) : Serving Unit := do
  modify fun s =>
    match s.connections.get? token with
    | some c => { s with connections := s.connections.insert token c.fail }
    | none => s
  close token (← Sys.wallClock)

end OnePage.Server
