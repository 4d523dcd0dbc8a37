import OnePage.EventQueue
import OnePage.Kernel.Process
import OnePage.Kernel.Sockets
import OnePage.Log.Sink

/-! # The server

One listener and a table of connections, all watched by one event queue. -/

namespace OnePage

structure Server where
  config : Config
  listener : Fd
  queue : EventQueue
  connections : Table Connection
  /-- Tokens are never given twice, so an event for a connection that is gone is not taken for one
  that came later. -/
  nextToken : Token
  /-- Since when the process has been out of descriptors. Until one is free again the listener is
  not watched. -/
  pausedSince : Option Nanoseconds
  log : LogSink
  stats : Stats

inductive SetupError where
  | createQueue (e : Errno)
  | register (e : Errno)
  deriving DecidableEq, Repr

def SetupError.chain : SetupError → Chain
  | createQueue e => ["failed to create epoll instance", e.labelled]
  | register e => ["failed to register listening socket", e.labelled]

/-- What ends a server. -/
inductive ServeError where
  | wait (e : Errno)
  | usage (e : Errno)
  deriving DecidableEq, Repr

def ServeError.chain : ServeError → Chain
  | wait e => ["epoll_wait() failed", e.labelled]
  | usage e => ["failed to get resource usage", e.numbered]

abbrev Serving := StateT Server Sys

namespace Server

/-- How long accepting is paused where no connection is open that could free a descriptor. -/
def acceptRetry : Nanoseconds := .ofMilliseconds 100

/-- Starts to watch the listener. What was opened for it is closed where this fails. -/
def create (config : Config) (listener : Fd) (log : LogSink) : Sys (Except SetupError Server) := do
  match ← EventQueue.create with
  | .error e =>
    let _ ← Sys.close listener
    return .error (.createQueue e)
  | .ok queue =>
    match ← EventQueue.register listener listenerToken .accept with
    | .error e =>
      queue.close
      let _ ← Sys.close listener
      return .error (.register e)
    | .ok () =>
      return .ok {
        config, listener, queue, log
        connections := ∅
        nextToken := listenerToken + 1
        pausedSince := none
        stats := {} }

/-- How long the next wait may take. Without a limit it lasts until something is ready. -/
def nextWait (s : Server) : Option Nanoseconds :=
  let idle := if s.connections.isEmpty then none else s.config.timeout
  match s.pausedSince with
  | some _ => some ((idle.map (min · acceptRetry)).getD acceptRetry)
  | none => idle

def info (message : String) : Serving Unit := do (← get).log.info message

def warn (message : String) : Serving Unit := do (← get).log.warn message

end Server

end OnePage
