import OnePage.Kernel.Basic

/-! # Calls on sockets -/

namespace OnePage.Sys

/-- The port given where any free one will do. -/
def ephemeralPort : Nat := 49152

/-- Looks a name up. Names that are not known are not found. -/
def lookup (host : String) : Sys (Except LookupFailure (List Net.Address)) := do
  record (.lookup host)
  let k ← get
  match k.hosts.find? fun entry => entry.1 == host with
  | some entry => return entry.2
  | none => return .error .unknownName

/-- A new socket for streams, non-blocking from the start. -/
def socket : Sys (Except Errno Fd) := do
  match ← reply .socket with
  | some (.fails e) =>
    record (.socket (.error e))
    return .error e
  | _ =>
    let fd ← allocate (.socket none false)
    record (.socket (.ok fd))
    return .ok fd

/-- Changes what a socket is bound to or whether it listens. -/
def updateSocket (fd : Fd) (change : Option Net.Endpoint → Bool → Resource) : Sys Unit :=
  modify fun k =>
    match k.descriptors.get? fd with
    | some (.socket bound listening) =>
      { k with descriptors := k.descriptors.insert fd (change bound listening) }
    | _ => k

def reuseAddress (fd : Fd) : Sys Outcome := do
  let result ← outcome .setsockopt
  record (.reuseAddress fd result)
  return result

def bind (fd : Fd) (endpoint : Net.Endpoint) : Sys Outcome := do
  let result ← outcome .bind
  record (.bind fd endpoint result)
  if result.isOk then
    let port := if endpoint.port = 0 then ephemeralPort else endpoint.port
    updateSocket fd fun _ listening => .socket (some { endpoint with port := port }) listening
  return result

def listen (fd : Fd) (backlog : Nat) : Sys Outcome := do
  let result ← outcome .listen
  record (.listen fd backlog result)
  if result.isOk then updateSocket fd fun bound _ => .socket bound true
  return result

/-- The address that a socket is bound to. -/
def localAddress (fd : Fd) : Sys (Except Errno Net.Endpoint) := do
  match ← outcome .getsockname with
  | .error e => return .error e
  | .ok () =>
    let k ← get
    match k.descriptors.get? fd with
    | some (.socket (some endpoint) _) => return .ok endpoint
    | _ => return .ok ⟨.unspecified, 0⟩

/-- Accepts what comes first among `incoming`. An interrupted call is made again at once. -/
def acceptFrom (listener : Fd) : List Incoming → Sys (Except Errno (Fd × Net.Endpoint))
  | [] => do
    modify fun k => { k with incoming := [] }
    record (.accept listener (.error .EAGAIN))
    return .error .EAGAIN
  | .fails .EINTR :: rest => do
    record (.accept listener (.error .EINTR))
    acceptFrom listener rest
  | .fails e :: rest => do
    modify fun k => { k with incoming := rest }
    record (.accept listener (.error e))
    return .error e
  | .peer peer nonblocking :: rest => do
    modify fun k => { k with incoming := rest }
    let fd ← allocate (.connection peer nonblocking)
    record (.accept listener (.ok fd))
    return .ok (fd, peer)

def accept (listener : Fd) : Sys (Except Errno (Fd × Net.Endpoint)) := do
  acceptFrom listener (← get).incoming

def setNonblocking (fd : Fd) : Sys Outcome := do
  let k ← get
  let result : Outcome := match k.descriptors.get? fd with
    | some (.connection _ nonblocking) => nonblocking
    | _ => .ok ()
  record (.setNonblocking fd result)
  return result

/-- Talks on a socket. Its results are those that its token has in the event queue. -/
def exchange {α : Type} (fd : Fd) (stats : Stats) (talk : Talk α) : Sys (α × Stats) := do
  let k ← get
  let token? := (k.watches.get? fd).map (·.token)
  let (result, x) := talk.run
    { pending := (token?.bind k.pending.get?).getD {}, done := #[], stats := stats }
  let pending := match token? with
    | some token => k.pending.insert token x.pending
    | none => k.pending
  set { k with pending := pending, trace := k.trace ++ x.done.map (Call.operation fd) }
  return (result, x.stats)

end OnePage.Sys
