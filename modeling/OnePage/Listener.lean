import OnePage.Config.Basic
import OnePage.Kernel.Sockets

/-! # The listening socket

Creating it is all or nothing: where a step fails, what was opened is closed again. -/

namespace OnePage

inductive ListenError where
  | nulInHostname (hostname : String)
  | lookup (hostname : String) (cause : LookupFailure)
  | noIPv4 (hostname : String)
  | socket (e : Errno)
  | reuseAddress (e : Errno)
  | bind (endpoint : Net.Endpoint) (e : Errno)
  | listen (endpoint : Net.Endpoint) (e : Errno)
  deriving DecidableEq, Repr

def ListenError.chain : ListenError → Chain
  | nulInHostname hostname => ["failed to resolve " ++ hostname, PathError.nul.message]
  | lookup hostname cause =>
    ["failed to resolve " ++ hostname, "failed to lookup address information: " ++ cause.message]
  | noIPv4 hostname => ["no IPv4 address found for " ++ hostname]
  | socket e => ["failed to create listening socket", e.labelled]
  | reuseAddress e => ["failed to set SO_REUSEADDR", e.labelled]
  | bind endpoint e => ["failed to bind listening socket to " ++ endpoint.text, e.labelled]
  | listen endpoint e => ["failed to listen on " ++ endpoint.text, e.labelled]

namespace Listener

/-- How many connections can wait to be accepted. -/
def backlog : Nat := 4096

/-- The addresses of a host. A numeric one is not looked up. -/
def addresses (hostname : String) : Sys (Except ListenError (List Net.Address)) := do
  match Net.Address.ofText? hostname with
  | some address => return .ok [address]
  | none =>
    if hostname.toList.contains (Char.ofNat 0) then return .error (.nulInHostname hostname)
    else return (← Sys.lookup hostname).mapError (.lookup hostname)

/-- The address to bind to: the first IPv4 address of a host, or all interfaces. -/
def resolve (hostname : Option String) (port : Nat) : Sys (Except ListenError Net.Endpoint) := do
  match hostname with
  | none => return .ok ⟨.unspecified, port⟩
  | some hostname =>
    match ← addresses hostname with
    | .error e => return .error e
    | .ok list =>
      match list.findSome? Net.Address.ipv4? with
      | some ip => return .ok ⟨ip, port⟩
      | none => return .error (.noIPv4 hostname)

/-- Makes a fresh socket listen. -/
def prepare (fd : Fd) (endpoint : Net.Endpoint) : Sys (Except ListenError Unit) := do
  match ← Sys.reuseAddress fd with
  | .error e => return .error (.reuseAddress e)
  | .ok () =>
    match ← Sys.bind fd endpoint with
    | .error e => return .error (.bind endpoint e)
    | .ok () => return (← Sys.listen fd backlog).mapError (.listen endpoint)

def create (hostname : Option String) (port : Nat) : Sys (Except ListenError Fd) := do
  match ← resolve hostname port with
  | .error e => return .error e
  | .ok endpoint =>
    match ← Sys.socket with
    | .error e => return .error (.socket e)
    | .ok fd =>
      match ← prepare fd endpoint with
      | .error e =>
        let _ ← Sys.close fd
        return .error e
      | .ok () => return .ok fd

end Listener

end OnePage
