import OnePage.Config.Basic
import OnePage.Config.File
import OnePage.Files.Basic
import OnePage.Text.Numeral

/-! # The command line

Arguments are read in groups from left to right: a flag, or a flag and its value. The first group
that asks for help or for the version, or that is wrong, decides; a configuration file is read
only when no group does. -/

namespace OnePage

/-- Flags that take the next argument as their value. -/
inductive ValueFlag where
  | setting (key : Config.Key)
  | configFile
  | timeout
  | log
  deriving DecidableEq, Repr

/-- What is missing where the value is. -/
def ValueFlag.noun : ValueFlag → String
  | setting .hostname => "hostname"
  | setting .port => "port"
  | setting .docroot => "directory"
  | configFile => "filename"
  | timeout => "number"
  | log => "filename"

inductive Flag where
  | help
  | version
  | daemon
  | syslog
  | value (flag : ValueFlag)
  deriving DecidableEq, Repr

def Flag.ofText? : String → Option Flag
  | "-h" | "--help" => some .help
  | "--version" => some .version
  | "-H" | "--hostname" => some (.value (.setting .hostname))
  | "-p" | "--port" => some (.value (.setting .port))
  | "-f" | "--configuration-filename" => some (.value .configFile)
  | "-r" | "--docroot" => some (.value (.setting .docroot))
  | "-t" | "--timeout" => some (.value .timeout)
  | "-d" | "--daemon" => some .daemon
  | "--log" => some (.value .log)
  | "--syslog" => some .syslog
  | _ => none

/-- Why a configuration file could not be read. -/
inductive ReadError where
  | path (e : PathError)
  | notUtf8
  deriving DecidableEq, Repr

def ReadError.message : ReadError → String
  | path e => e.message
  | notUtf8 => "stream did not contain valid UTF-8"

inductive ArgumentError where
  | unknown (argument : String)
  | noValue (argument : String) (flag : ValueFlag)
  | timeout (text : String) (cause : Text.NumeralError)
  | port (text : String) (cause : Text.NumeralError)
  | unreadable (path : String) (cause : ReadError)
  | configFile (path : String) (cause : Config.LineError)
  deriving DecidableEq, Repr

/-- What went wrong, and then what caused it. -/
def ArgumentError.chain : ArgumentError → Chain
  | unknown argument => ["unknown argument `" ++ argument ++ "'"]
  | noValue argument flag => ["missing " ++ flag.noun ++ " after " ++ argument]
  | timeout text cause => ["timeout number " ++ text ++ " is invalid", cause.message]
  | port text cause => ["port number " ++ text ++ " is invalid", cause.message]
  | unreadable path cause => ["failed to read " ++ path, cause.message]
  | configFile path cause => [cause.message path]

/-- What the flags say when read to the end. -/
structure Flags where
  settings : Config.Settings := {}
  configFile : Option String := none
  timeout : Option Nanoseconds := none
  daemon : Bool := false
  log : Option LogTarget := none
  deriving DecidableEq, Repr

/-- What the command line asks for. -/
inductive Command where
  | help
  | version
  | run (config : Config)
  deriving DecidableEq, Repr

namespace CommandLine

/-- A number of seconds, where 0 stands for no timeout at all. -/
def readTimeout (text : String) : Except ArgumentError (Option Nanoseconds) :=
  match Text.Numeral.read Text.maxSeconds text.toList with
  | .error cause => .error (.timeout text cause)
  | .ok 0 => .ok none
  | .ok seconds => .ok (some (.ofSeconds seconds))

def readPort (text : String) : Except ArgumentError Nat :=
  (Text.Numeral.read Text.maxPort text.toList).mapError (.port text)

/-- Takes in one flag with its value. -/
def setValue (flags : Flags) (value : String) : ValueFlag → Except ArgumentError Flags
  | .setting key => .ok { flags with settings := flags.settings.set value key }
  | .configFile => .ok { flags with configFile := some value }
  | .timeout => do return { flags with timeout := ← readTimeout value }
  | .log => .ok { flags with log := some (.file value) }

/-- The outcome of reading the arguments: a command that ends the reading, or all flags. -/
inductive Reading where
  | help
  | version
  | flags (flags : Flags)
  deriving DecidableEq, Repr

def readFrom (flags : Flags) : List String → Except ArgumentError Reading
  | [] => .ok (.flags flags)
  | argument :: rest =>
    match Flag.ofText? argument with
    | none => .error (.unknown argument)
    | some .help => .ok .help
    | some .version => .ok .version
    | some .daemon => readFrom { flags with daemon := true } rest
    | some .syslog => readFrom { flags with log := some .syslog } rest
    | some (.value flag) =>
      match rest with
      | [] => .error (.noValue argument flag)
      | value :: rest =>
        match setValue flags value flag with
        | .error e => .error e
        | .ok flags => readFrom flags rest

def readConfigFile (files : Files) (path : String) : Except ArgumentError Config.Settings :=
  match files.readAll path with
  | .error e => .error (.unreadable path (.path e))
  | .ok bytes =>
    match Text.Utf8.decode bytes with
    | none => .error (.unreadable path .notUtf8)
    | some text => (Config.readText text).mapError (.configFile path)

def hostname (name : String) : Option String :=
  if name = Config.wildcard then none else some name

/-- The configuration that flags and a configuration file make together. -/
def configure (flags : Flags) (file : Config.Settings) : Except ArgumentError Config := do
  let settings := flags.settings.orElse file
  let port ← match settings.port with
    | some text => readPort text
    | none => pure (Config.port {})
  return {
    hostname := settings.hostname.bind hostname
    port
    docroot := settings.docroot.getD (Config.docroot {})
    timeout := flags.timeout
    daemon := flags.daemon
    log := flags.log.getD (if flags.daemon then .syslog else .stdout) }

/-- Reads arguments, the program's name not among them. -/
def read (files : Files) (arguments : List String) : Except ArgumentError Command := do
  match ← readFrom {} arguments with
  | .help => return .help
  | .version => return .version
  | .flags flags =>
    let file ← match flags.configFile with
      | some path => readConfigFile files path
      | none => pure {}
    return .run (← configure flags file)

end CommandLine

end OnePage
