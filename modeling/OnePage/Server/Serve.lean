import OnePage.Server.Polling

/-! # Serving

Polls until a signal asks to stop or waiting fails. After a signal the connections that are left
are closed, and the totals are logged. -/

namespace OnePage.Server

def announce : Serving Unit := do
  let s ← get
  let hostname := s.config.hostname.getD Config.wildcard
  let process := toString (← getThe Kernel).process
  match ← Sys.localAddress s.listener with
  | .ok endpoint =>
    info ("listening on: http://" ++ endpoint.text ++ "/ (" ++ hostname ++ "), pid " ++ process)
  | .error _ => info ("listening on " ++ hostname ++ ", pid " ++ process)

/-- Hundredths of a second, in two digits. -/
def hundredths (microseconds : Nat) : String :=
  String.ofList (Log.padded 2 (microseconds / 10000))

def logStats : Serving (Except ServeError Unit) := do
  match ← Sys.usage with
  | .error e => return .error (.usage e)
  | .ok u =>
    let stats := (← get).stats
    info ("CPU time used: " ++ toString u.userSeconds ++ "." ++ hundredths u.userMicroseconds ++
      " user, " ++ toString u.systemSeconds ++ "." ++ hundredths u.systemMicroseconds ++ " system")
    info ("Connections: " ++ toString stats.connections ++ ", requests: " ++
      toString stats.requests)
    info ("Bytes: " ++ toString stats.received ++ " in, " ++ toString stats.sent ++ " out")
    return .ok ()

/-- Closes all connections, for the log at one time. -/
def shutDown : Serving (Except ServeError Unit) := do
  let seconds ← Sys.wallClock
  let tokens := (← getThe Kernel).walk.order (← get).connections.keys
  tokens.forM (close · seconds)
  logStats

/-- Polls once and goes on, unless a signal has asked to stop or the wait fails. -/
def serveRound (round? : Option Round) (next : Serving (Except ServeError Unit)) :
    Serving (Except ServeError Unit) := do
  if (← getThe Kernel).stopped then shutDown
  else
    match ← poll (← get).nextWait round? with
    | .error e =>
      (← get).log.error e.chain.oneLine
      return .error e
    | .ok () => next

/-- Polls for each round. After the last one the wait fails, so what would follow it is not
reached. -/
def serveRounds : List Round → Serving (Except ServeError Unit)
  | [] => serveRound none (return .ok ())
  | round :: rounds => serveRound (some round) (serveRounds rounds)

def serve (rounds : List Round) : Serving (Except ServeError Unit) := do
  announce
  serveRounds rounds

end OnePage.Server
