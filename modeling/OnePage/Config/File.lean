import OnePage.Text.Blank
import OnePage.Text.Split

/-! # The configuration file

Each line is `option=value`, or empty once its comment and the white space around it are gone.
The last line for an option counts, and the first bad line is reported. -/

namespace OnePage.Config

inductive Key where
  | hostname
  | port
  | docroot
  deriving DecidableEq, Repr

def Key.name : Key → String
  | hostname => "hostname"
  | port => "port"
  | docroot => "docroot"

def Key.ofName? (name : List Char) : Option Key :=
  [Key.hostname, Key.port, Key.docroot].find? fun k => k.name.toList == name

/-- What a file, or a command line, says about the options that both can set. -/
structure Settings where
  hostname : Option String := none
  port : Option String := none
  docroot : Option String := none
  deriving DecidableEq, Repr

def Settings.set (s : Settings) (value : String) : Key → Settings
  | .hostname => { s with hostname := some value }
  | .port => { s with port := some value }
  | .docroot => { s with docroot := some value }

def Settings.get (s : Settings) : Key → Option String
  | .hostname => s.hostname
  | .port => s.port
  | .docroot => s.docroot

/-- Settings that count, and others where they are silent. -/
def Settings.orElse (s others : Settings) : Settings where
  hostname := s.hostname.or others.hostname
  port := s.port.or others.port
  docroot := s.docroot.or others.docroot

@[simp] theorem Settings.get_set (s : Settings) (value : String) (k j : Key) :
    (s.set value k).get j = if j = k then some value else s.get j := by
  cases k <;> cases j <;> rfl

@[simp] theorem Settings.get_orElse (s others : Settings) (k : Key) :
    (s.orElse others).get k = (s.get k).or (others.get k) := by
  cases k <;> rfl

theorem Settings.ext_get {s t : Settings} (h : ∀ key, s.get key = t.get key) : s = t := by
  obtain ⟨hostname, port, docroot⟩ := s
  obtain ⟨hostname', port', docroot'⟩ := t
  cases h .hostname
  cases h .port
  cases h .docroot
  rfl

/-! ## Lines -/

inductive LineProblem where
  | noValue (option : String)
  | unknownOption (option : String)
  deriving DecidableEq, Repr

/-- A line that cannot be understood, lines counted from 1. -/
structure LineError where
  line : Nat
  problem : LineProblem
  deriving DecidableEq, Repr

def LineError.message (file : String) (e : LineError) : String :=
  let location := file ++ ":" ++ toString e.line ++ ": "
  match e.problem with
  | .noValue option => location ++ "option `" ++ option ++ "' has no value"
  | .unknownOption option => location ++ "unknown option `" ++ option ++ "'"

def lines (text : List Char) : List (List Char) := Text.split (· == '\n') text

/-- A line without its comment and the white space around it. -/
def strip (line : List Char) : List Char := Text.trim (line.takeWhile (· ≠ '#'))

/-- The parts of a stripped line on the two sides of its first `=`. -/
def divide (line : List Char) : List Char × List Char :=
  (Text.trim (line.takeWhile (· ≠ '=')), Text.trim ((line.dropWhile (· ≠ '=')).drop 1))

/-- What a line sets, if anything. -/
def readLine (line : List Char) : Except LineProblem (Option (Key × String)) :=
  let line := strip line
  if line = [] then .ok none
  else
    let (option, value) := divide line
    if value = [] then .error (.noValue (String.ofList option))
    else match Key.ofName? option with
      | none => .error (.unknownOption (String.ofList option))
      | some key => .ok (some (key, String.ofList value))

/-- Reads lines, the first of which has the number `line`. -/
def readLines (settings : Settings) (line : Nat) : List (List Char) → Except LineError Settings
  | [] => .ok settings
  | l :: rest =>
    match readLine l with
    | .error problem => .error ⟨line, problem⟩
    | .ok none => readLines settings (line + 1) rest
    | .ok (some (key, value)) => readLines (settings.set value key) (line + 1) rest

/-- The settings that the text of a configuration file makes. -/
def readText (text : List Char) : Except LineError Settings := readLines {} 1 (lines text)

end OnePage.Config
