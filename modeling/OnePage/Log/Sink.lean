import OnePage.Config.Basic
import OnePage.Kernel.Writing

/-! # The log

Messages go to the standard streams, to the system's log or to the end of a file. Where the last two
do not take a message there is a complaint on the standard error stream, and all goes on. -/

namespace OnePage

/-- A log file that cannot be opened. -/
structure LogError where
  path : String
  cause : PathError
  deriving DecidableEq, Repr

def LogError.chain (e : LogError) : Chain :=
  ["failed to open log file " ++ e.path, e.cause.message]

inductive LogSink where
  | stdout
  | syslog
  | file (id : FileId)
  deriving DecidableEq, Repr

namespace LogSink

/-- The name under which the program appears in the system's log. -/
def ident : String := "serverd"

/-- Messages in the system's log name the process. -/
def processOption : Nat := 1

def daemonFacility : Nat := 24

def messageFormat : String := "%s"

def ofTarget : LogTarget → Sys (Except LogError LogSink)
  | .stdout => return .ok .stdout
  | .syslog => do
    Sys.record (.openLog ident processOption daemonFacility)
    return .ok .syslog
  | .file path => do
    let k ← get
    match k.files.openForAppend path with
    | .error cause => return .error ⟨path, cause⟩
    | .ok (id, files) =>
      set { k with files := files }
      return .ok (.file id)

/-- What tells why a message is not in the log. -/
def complaint (reason : String) : String :=
  "warning: failed to write log message: " ++ reason ++ "\n"

def complain (reason : String) : Sys Output :=
  Sys.deliver .stderr (Text.bytes (complaint reason))

/-- What comes of a message. -/
def put (sink : LogSink) (severity : Severity) (message : String) : Sys (List Output) := do
  let text := severity.label ++ message
  match sink with
  | .stdout => return [← Sys.deliver severity.stream (Text.bytes (text ++ "\n"))]
  | .syslog =>
    if text.toList.contains (Char.ofNat 0) then
      return [← complain "data provided contains a nul byte"]
    else return [.syslog severity.priority messageFormat text]
  | .file id =>
    match ← Sys.appendLine id text with
    | (taken, .ok ()) => return [.append taken]
    | (taken, .error e) => return [.append taken, ← complain e.message]

def write (sink : LogSink) (severity : Severity) (message : String) : Sys Unit := do
  Sys.record (.log severity message (← sink.put severity message))

/-- Lets go of the log. What is kept for a file may still be written. -/
def release : LogSink → Sys Unit
  | .file id => do Sys.record (.flush (← Sys.flush id))
  | _ => return ()

def info (sink : LogSink) (message : String) : Sys Unit := sink.write .info message

def warn (sink : LogSink) (message : String) : Sys Unit := sink.write .warning message

def error (sink : LogSink) (message : String) : Sys Unit := sink.write .error message

end LogSink

end OnePage
