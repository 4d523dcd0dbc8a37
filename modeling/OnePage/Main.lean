import OnePage.Program
import Std.Async.DNS
import Std.Async.Signal
import Std.Async.TCP
import Std.Async.Timer
import Std.Sync.Channel
import Std.Time

/-! # The program in the world

What happens outside is told to the kernel as a round, the server handles the round, and the calls
it has made are carried out. All decisions are the server's. -/

open Std.Async
open Std.Net (SocketAddress SocketAddressV4 IPv4Addr IPAddr)

namespace OnePage

/-- Something that happens while a server waits. -/
inductive Happening where
  | signal
  | timeout
  | arrival (peer : TCP.Socket.Client) (endpoint : Net.Endpoint)
  /-- Bytes have come, or none because the peer will send no more, or receiving has failed. -/
  | input (token : Token) (data : Except Errno (List UInt8))

instance : Inhabited Happening := ⟨.timeout⟩

/-- What is open outside. -/
structure Outside where
  /-- Nanoseconds on the system's clock when the kernel's clock started. -/
  began : Nat
  happenings : Std.Channel Happening
  listener : Option TCP.Socket.Server := none
  /-- Peers by the descriptor that the kernel has for them. -/
  peers : Table TCP.Socket.Client := ∅
  /-- A peer that is about to be accepted. -/
  arriving : Option TCP.Socket.Client := none
  logFile : Option String := none

namespace Outside

/-! ## Files -/

/-- The change that makes the kernel see a file as it is on disk. -/
def observe (path : String) : IO FileChange := do
  try
    return .write path (← IO.FS.readBinFile path).toList
  catch _ => return .remove path

/-- The directory of a file, made known to the kernel if the file can be written. -/
def observeDirectory (path : String) : IO (List FileChange) := do
  try
    discard (IO.FS.Handle.mk path .append)
    return [.makeDirectory (Path.join path "..")]
  catch _ => return []

/-- The files that an argument list makes the program read or write. -/
def observeNamed (arguments : List String) : IO (List FileChange) := do
  match CommandLine.readFrom {} arguments with
  | .ok (.flags flags) =>
    let read ← flags.configFile.toList.mapM observe
    match flags.log with
    | some (.file path) => return read ++ (← observeDirectory path)
    | _ => return read
  | _ => return []

/-! ## Addresses -/

def ofOctets (ip : IPv4Addr) : Net.IPv4 :=
  ⟨ip.octets[0], ip.octets[1], ip.octets[2], ip.octets[3]⟩

def endpointOf : SocketAddress → Net.Endpoint
  | .v4 address => ⟨ofOctets address.addr, address.port.toNat⟩
  | .v6 address => ⟨.unspecified, address.port.toNat⟩

def socketAddress (e : Net.Endpoint) : SocketAddress :=
  .v4 ⟨IPv4Addr.ofParts e.ip.a e.ip.b e.ip.c e.ip.d, UInt16.ofNat e.port⟩

/-- What a name is found to stand for. Addresses other than IPv4 are left out. -/
def lookUp (host : String) : Async (Except LookupFailure (List Net.Address)) := do
  try
    let found ← DNS.getAddrInfo host "" none
    return .ok (found.toList.filterMap fun
      | .v4 ip => some (.v4 (ofOctets ip))
      | .v6 _ => none)
  catch _ => return .error .unknownName

/-! ## The listener -/

def errnoOf (e : IO.Error) : Errno :=
  match e with
  | .resourceBusy .. => .EADDRINUSE
  | .permissionDenied .. => .EACCES
  | _ => .EADDRNOTAVAIL

/-- Listens, and lays down in the kernel what came of it. -/
def listen (outside : Outside) (k : Kernel) (endpoint : Net.Endpoint) : IO (Outside × Kernel) := do
  try
    let socket ← TCP.Socket.Server.mk
    socket.bind (socketAddress endpoint)
    socket.listen (UInt32.ofNat Listener.backlog)
    return ({ outside with listener := some socket }, k)
  catch e => return (outside, k.force [(.bind, [some (.fails (errnoOf e))])])

/-- Makes the kernel know the port that the system has chosen. -/
def settle (outside : Outside) (k : Kernel) (listener : Fd) : IO Kernel := do
  match outside.listener with
  | none => return k
  | some socket =>
    let endpoint := endpointOf (← socket.getSockName)
    return { k with descriptors := k.descriptors.insert listener (.socket (some endpoint) true) }

/-- What the kernel has to know of a host. Nothing is to be known of a numeric one. -/
def hostsFor (host : String) : Async (List (String × Except LookupFailure (List Net.Address))) := do
  match Net.Address.ofText? host with
  | some _ => return []
  | none => return [(host, ← lookUp host)]

/-- Listens where a configuration asks for it. -/
def prepare (outside : Outside) (k : Kernel) (config : Config) : Async (Outside × Kernel) := do
  let hosts ← match config.hostname with
    | none => pure []
    | some host => hostsFor host
  let k := { k with hosts }
  match (Listener.resolve config.hostname config.port).run k with
  | (.error _, _) => return (outside, k)
  | (.ok endpoint, _) => outside.listen k endpoint

/-! ## Happenings -/

def tell (happenings : Std.Channel Happening) (happening : Happening) : Async Unit :=
  discard (happenings.send happening)

def tellSignal (happenings : Std.Channel Happening) (signal : Std.Async.Signal) : Async Unit := do
  let waiter ← Signal.Waiter.mk signal true
  discard (await (← waiter.wait))
  tell happenings .signal

/-- Accepts without end. A peer that is gone already is not told of. -/
partial def tellArrivals (happenings : Std.Channel Happening) (listener : TCP.Socket.Server) :
    Async Unit := do
  try
    let peer ← listener.accept
    tell happenings (.arrival peer (endpointOf (← peer.getPeerName)))
  catch _ => sleep (.ofNat Server.acceptRetry.milliseconds)
  tellArrivals happenings listener

/-- Receives until there is no more to come. -/
partial def tellInput (happenings : Std.Channel Happening) (peer : TCP.Socket.Client)
    (token : Token) : Async Unit := do
  let data : Except Errno (List UInt8) ← try
      let data ← peer.recv? (UInt64.ofNat Connection.requestSize)
      pure (.ok ((data.map ByteArray.toList).getD []))
    catch _ => pure (.error .ECONNRESET)
  tell happenings (.input token data)
  match data with
  | .ok (_ :: _) => tellInput happenings peer token
  | _ => return ()

/-- Waits until something happens. -/
def next (outside : Outside) (timeout : Option Nanoseconds) : Async Happening := do
  match timeout with
  | none => await (← outside.happenings.recv)
  | some limit =>
    let timer ← Selector.sleep (.ofNat limit.milliseconds)
    Selectable.one #[
      .case timer fun _ => return .timeout,
      .case outside.happenings.recvSelector fun happening => return happening]

/-- What a happening is to the kernel. -/
def roundOf : Happening → Round
  | .signal => { stop := true, failure := some .EINTR }
  | .timeout => {}
  | .arrival _ endpoint => { reports := [{
      event := { token := listenerToken, conditions := { input := true } }
      incoming := [.peer endpoint (.ok ())] }] }
  | .input token data => { reports := [{
      event := {
        token
        conditions := { input := true, peerHangup := data.toOption == some [] } }
      pending := { recv := [data] } }] }

/-! ## Calls -/

def append (path : String) (bytes : List UInt8) : IO Unit := do
  try
    let file ← IO.FS.Handle.mk path .append
    file.write ⟨bytes.toArray⟩
  catch e => IO.eprint (LogSink.complaint (toString e))

/-- Writes to a standard stream. If that fails the program is at its end. -/
def print (stream : Stream) (bytes : List UInt8) : IO Unit := do
  let handle ← match stream with
    | .stdout => IO.getStdout
    | .stderr => IO.getStderr
  handle.write ⟨bytes.toArray⟩
  handle.flush

/-- Carries out what comes of a message. -/
def tellAll (outside : Outside) (outputs : List Output) : IO Unit := outputs.forM fun
  | .print stream bytes => print stream bytes
  | .broken stream bytes _ => print stream bytes
  | .append bytes => outside.logFile.forM (append · bytes)
  | .syslog _ _ message => IO.eprintln message

/-- Carries out a call that the kernel has seen. -/
def perform (outside : Outside) : Call → Async Outside
  | .print stream text => do
    print stream (Text.bytes text)
    return outside
  | .log _ _ outputs => do
    outside.tellAll outputs
    return outside
  | .flush bytes => do
    outside.tellAll [.append bytes]
    return outside
  | .accept _ (.ok fd) =>
    match outside.arriving with
    | none => return outside
    | some peer =>
      return { outside with arriving := none, peers := outside.peers.insert fd peer }
  | .add fd token _ (.ok ()) => do
    outside.peers.get? fd |>.forM fun peer => background (tellInput outside.happenings peer token)
    return outside
  | .operation fd (.send _ (.ok bytes)) => transmit fd bytes
  | .operation fd (.sendfile _ _ (.ok bytes)) => transmit fd bytes
  | .close fd => do
    match outside.peers.get? fd with
    | none => return outside
    | some peer =>
      try
        peer.native.cancelRecv
        peer.shutdown
      catch _ => pure ()
      return { outside with peers := outside.peers.erase fd }
  | _ => return outside
where
  /-- A peer that is gone gets nothing; it will be heard of no more. -/
  transmit (fd : Fd) (bytes : List UInt8) : Async Outside := do
    match outside.peers.get? fd with
    | none => return outside
    | some peer =>
      try peer.send ⟨bytes.toArray⟩ catch _ => pure ()
      return outside

/-- Carries out all calls made since the last time. -/
def performAll (outside : Outside) (k : Kernel) : Async (Outside × Kernel) := do
  let outside ← k.trace.foldlM perform outside
  return (outside, { k with trace := #[] })

/-! ## Serving -/

/-- One more round, with the time that has passed and the page as it now is. -/
def nextRound (outside : Outside) (server : Server) (k : Kernel) : Async (Outside × Round) := do
  let happening ← outside.next server.nextWait
  let elapsed := (← IO.monoNanosNow) - outside.began - k.clock
  let page ← observe server.config.indexPath
  let arriving := match happening with
    | .arrival peer _ => some peer
    | _ => none
  return ({ outside with arriving := arriving },
    { roundOf happening with elapsed := elapsed, changes := [page] })

/-- Serves round after round. -/
partial def serve (outside : Outside) (server : Server) (k : Kernel) : Async UInt32 := do
  let (outside, round?) ← if k.stopped then pure (outside, none)
    else do
      let (outside, round) ← outside.nextRound server k
      pure (outside, some round)
  let step := Server.serveRound round? (return .ok ())
  let ((outcome, server), k) := (StateT.run step server).run k
  let (outside, k) ← outside.performAll k
  match outcome, round? with
  | .ok (), some _ => serve outside server k
  | _, _ =>
    finish outside k do
      server.log.release
      Program.exitCode outcome
where
  /-- Ends with the exit code that the last calls give. -/
  finish (outside : Outside) (k : Kernel) (code : Sys Nat) : Async UInt32 := do
    let (code, k) := code.run k
    discard (outside.performAll k)
    return UInt32.ofNat code

/-- Runs the program that the arguments ask for. -/
def run (arguments : List String) : Async UInt32 := do
  let outside : Outside := { began := ← IO.monoNanosNow, happenings := ← Std.Channel.new }
  let files ← observeNamed arguments
  let now ← Std.Time.Timestamp.now
  let k : Kernel := {
    process := (← Std.Internal.UV.System.osGetPid).toNat
    epoch := now.toSecondsSinceUnixEpoch.val
    files := Files.initial.changes files }
  -- a process with threads cannot go on in a copy of itself
  let k := k.force [(.fork, [some (.fails .ENOSYS)])]
  match CommandLine.read k.files arguments with
  | .error e => serve.finish outside k (Program.fail e.chain)
  | .ok command =>
    let (outside, k) ← match command with
      | .run config => outside.prepare k config
      | _ => pure (outside, k)
    let (started, k) := (Program.start programName command).run k
    let (outside, k) ← outside.performAll k
    match started with
    | .error e => serve.finish outside k (Program.fail e.chain)
    | .ok (.exit code) => return UInt32.ofNat code
    | .ok (.serve server) =>
      let k ← outside.settle k server.listener
      let logFile := match server.config.log with
        | .file path => some path
        | _ => none
      background (tellSignal outside.happenings .sigint)
      background (tellSignal outside.happenings .sigterm)
      outside.listener.forM fun listener => background (tellArrivals outside.happenings listener)
      let ((_, server), k) := (StateT.run Server.announce server).run k
      let (outside, k) ← { outside with logFile := logFile }.performAll k
      serve outside server k

end Outside

end OnePage

/-- What fails is writing to a standard stream. -/
def main (arguments : List String) : IO UInt32 := do
  try (OnePage.Outside.run arguments).block
  catch _ => return UInt32.ofNat OnePage.Program.brokenCode
