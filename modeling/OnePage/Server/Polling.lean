import OnePage.Server.Closing

/-! # Polling

One wait, and what is done about the events it reports: those of the batch in their order, then
idle connections, then the listener if it is not watched. -/

namespace OnePage.Server

/-- Lets a connection take an event, and does what it asks for. -/
def handle (event : Event) (now : Nanoseconds) : Serving Unit := do
  let s ← get
  match s.connections.get? event.token with
  | none => return () -- closed earlier in the same batch
  | some c =>
    let files := (← getThe Kernel).files
    let ((verdict, c), stats) ← Sys.exchange c.socket s.stats
      (c.handle event.conditions files s.config.indexPath now)
    set { s with stats := stats, connections := s.connections.insert event.token c }
    match verdict with
    | .wait => return ()
    | .close => close event.token (← Sys.wallClock)
    | .rearm =>
      match ← EventQueue.reregister c.socket event.token c.interest with
      | .ok () => return ()
      | .error e =>
        warn ("failed to re-register " ++ c.peer.text ++ ": " ++ e.labelled)
        abandon event.token
    | .fail cause =>
      warn (c.peer.text ++ ": " ++ cause.chain.oneLine)
      abandon event.token

def dispatch (now : Nanoseconds) (event : Event) : Serving Unit :=
  if event.token = listenerToken then accept now else handle event now

/-- The tokens of the connections that have been idle for as long as `timeout`. -/
def idleTokens (s : Server) (now timeout : Nanoseconds) : List Token :=
  (s.connections.entries.filter fun entry => timeout ≤ now - entry.2.lastActive).map (·.1)

def evictIdle (now : Nanoseconds) : Serving Unit := do
  let s ← get
  match s.config.timeout with
  | none => return ()
  | some timeout => ((← getThe Kernel).walk.order (s.idleTokens now timeout)).forM abandon

/-- Where no connection is left that could free a descriptor, accepting goes on after a while. -/
def retryAccepting (now : Nanoseconds) : Serving Unit := do
  let s ← get
  match s.pausedSince with
  | none => return ()
  | some since =>
    if s.connections.isEmpty && decide (acceptRetry ≤ now - since) then resume

/-- Handles what one wait reports. -/
def handleBatch (now : Nanoseconds) (events : List Event) : Serving Unit := do
  events.forM (dispatch now)
  evictIdle now
  retryAccepting now

/-- Waits once and handles what is reported. A wait that a signal interrupts reports nothing. -/
def poll (timeout : Option Nanoseconds) (round? : Option Round) :
    Serving (Except ServeError Unit) := do
  match ← EventQueue.wait EventQueue.capacity timeout round? with
  | .error .EINTR => return .ok ()
  | .error e => return .error (.wait e)
  | .ok events =>
    handleBatch (← getThe Kernel).clock events
    return .ok ()

end OnePage.Server
