import OnePage.Config.CommandLine
import OnePage.Config.Usage
import OnePage.Daemon
import OnePage.Listener
import OnePage.Server.Serve

/-! # The program

From the command line to the exit code. All that can fail fails before the daemon reports that it
is ready, or ends the server. A server is also at its end where a standard stream does not take a
message of its log; what is told before it serves is taken. -/

namespace OnePage

/-- What can keep a program from serving. -/
inductive StartError where
  | listen (cause : ListenError)
  | daemon (cause : DaemonError)
  | signal (signal : Signal) (e : Errno)
  | log (cause : LogError)
  | setup (cause : SetupError)
  deriving DecidableEq, Repr

def StartError.chain : StartError → Chain
  | listen cause => cause.chain
  | daemon cause => "failed to daemonize" :: cause.chain
  | signal s e => ["failed to set " ++ s.name ++ " handler", e.labelled]
  | log cause => cause.chain
  | setup cause => cause.chain

namespace Program

/-- The exit code of a process that fails, after it has told why. -/
def fail (chain : Chain) : Sys Nat := do
  Sys.print .stderr chain.report
  return 1

/-- Sets what is done on signals: a broken pipe is no reason to end, the others ask to stop. -/
def setSignals : List (Signal × Disposition) → Sys (Except StartError Unit)
  | [] => return .ok ()
  | (signal, disposition) :: rest => do
    match ← Sys.setSignal signal disposition with
    | .error e => return .error (.signal signal e)
    | .ok () => setSignals rest

def dispositions : List (Signal × Disposition) :=
  [(.brokenPipe, .ignore), (.interrupt, .handler), (.terminate, .handler)]

/-- Opens the log and creates a server around a listener, which is closed where this fails. -/
def openServer (config : Config) (listener : Fd) : Sys (Except StartError Server) := do
  match ← LogSink.ofTarget config.log with
  | .error e =>
    let _ ← Sys.close listener
    return .error (.log e)
  | .ok log => return (← Server.create config listener log).mapError .setup

/-- Makes ready to serve. -/
def setUp (config : Config) (listener : Fd) : Sys (Except StartError Server) := do
  match ← setSignals dispositions with
  | .error e =>
    let _ ← Sys.close listener
    return .error e
  | .ok () => openServer config listener

/-- Reports that the daemon is ready, if the program is one. -/
def reportReady : Option Daemon → Sys (Except StartError Unit)
  | none => return .ok ()
  | some daemon => return (← daemon.finish).mapError .daemon

/-- Makes a server that is ready to serve. Where this fails nothing of it stays open. -/
def makeServer (config : Config) (listener : Fd) (daemon? : Option Daemon) :
    Sys (Except StartError Server) := do
  match ← setUp config listener with
  | .error e => return .error e
  | .ok server =>
    match ← reportReady daemon? with
    | .error e =>
      let _ ← Sys.close server.listener
      server.queue.close
      return .error e
    | .ok () => return .ok server

/-- How a program goes on that has started. -/
inductive Start where
  | exit (code : Nat)
  | serve (server : Server)

/-- Starts with a listener, in the background if asked to. -/
def startWith (config : Config) (listener : Fd) : Sys (Except StartError Start) := do
  if config.daemon then
    match ← Daemon.start [listener] with
    | .error e =>
      let _ ← Sys.close listener
      return .error (.daemon e)
    | .ok (.done code) => return .ok (.exit code)
    | .ok (.daemon daemon) => return (← makeServer config listener (some daemon)).map .serve
  else return (← makeServer config listener none).map .serve

/-- Does what the command line asks for, as far as it is done before serving. -/
def start (program : String) (command : Command) : Sys (Except StartError Start) := do
  match command with
  | .help =>
    Sys.print .stdout (usage program)
    return .ok (.exit 0)
  | .version =>
    Sys.print .stdout (banner ++ "\n")
    return .ok (.exit 0)
  | .run config =>
    Sys.print .stdout (banner ++ "\n")
    match ← Listener.create config.hostname config.port with
    | .error e => return .error (.listen e)
    | .ok listener => startWith config listener

/-- The exit code of a process that has served. -/
def exitCode : Except ServeError Unit → Sys Nat
  | .error e => fail e.chain
  | .ok () => return 0

/-- The exit code of a process that a standard stream has ended. -/
def brokenCode : Nat := 101

/-- Cuts a process off at the message of its log that ends it, if one does. What is open then is
left to the system. -/
def cutOff (p : Sys Nat) : Sys Nat := do
  let start := (← get).trace
  let code ← p
  let k ← get
  let calls := k.trace.toList.drop start.size
  set { k with trace := start ++ (Call.untilBreak calls).toArray }
  return if calls.any Call.isBreak then brokenCode else code

/-- Serves, then lets go of the log and tells why serving has ended. -/
def serveOut (serving : Serving (Except ServeError Unit)) (server : Server) : Sys Nat := do
  let (outcome, server) ← serving.run server
  server.log.release
  exitCode outcome

/-- The process that serves. -/
def process (serving : Serving (Except ServeError Unit)) (server : Server) : Sys Nat :=
  cutOff (serveOut serving server)

/-- The whole process. The rounds are what happens during its waits. -/
def run (program : String) (arguments : List String) (rounds : List Round) : Sys Nat := do
  match CommandLine.read (← get).files arguments with
  | .error e => fail e.chain
  | .ok command =>
    match ← start program command with
    | .error e => fail e.chain
    | .ok (.exit code) => return code
    | .ok (.serve server) => process (Server.serve rounds) server

end Program

/-- Goes into the background and reports to be ready at once, as a process of its own. -/
def Daemon.run (keep : List Fd) : Sys Nat := do
  match ← Daemon.start keep with
  | .error e => Program.fail e.chain
  | .ok (.done code) => return code
  | .ok (.daemon daemon) =>
    match ← daemon.finish with
    | .error e => Program.fail e.chain
    | .ok () => return 0

end OnePage
