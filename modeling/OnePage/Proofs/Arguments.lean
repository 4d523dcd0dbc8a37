import OnePage.Config.CommandLine
import Mathlib.Data.List.Basic
import Mathlib.Logic.ExistsUnique

/-! # What arguments mean

Arguments come in groups (`Written`), and the first group that decides ends them (`Decides`). Where
none does, each slot is filled by the last group for it (`lastIn`), and the command is made of the
slots and of the one file that they name (`Comes`). What is read is what the arguments mean
(`Means`). -/

namespace OnePage

/-- The texts that a flag is given by. -/
def Flag.spellings : Flag → List String
  | help => ["-h", "--help"]
  | version => ["--version"]
  | daemon => ["-d", "--daemon"]
  | syslog => ["--syslog"]
  | value (.setting .hostname) => ["-H", "--hostname"]
  | value (.setting .port) => ["-p", "--port"]
  | value (.setting .docroot) => ["-r", "--docroot"]
  | value .configFile => ["-f", "--configuration-filename"]
  | value .timeout => ["-t", "--timeout"]
  | value .log => ["--log"]

theorem Flag.ofText?_eq_some_iff {text : String} {flag : Flag} :
    ofText? text = some flag ↔ text ∈ flag.spellings := by
  constructor
  · intro h
    unfold ofText? at h
    split at h <;> cases h <;> simp [spellings]
  · have hall : ∀ spelling ∈ flag.spellings, ofText? spelling = some flag := by
      match flag with
      | .value (.setting key) => cases key <;> decide
      | .value .configFile | .value .timeout | .value .log => decide
      | .help | .version | .daemon | .syslog => decide
    exact hall text

theorem Flag.ofText?_eq_none_iff {text : String} :
    ofText? text = none ↔ ∀ flag : Flag, text ∉ flag.spellings := by
  rw [Option.eq_none_iff_forall_ne_some]
  exact forall_congr' fun flag => not_congr ofText?_eq_some_iff

namespace CommandLine
open Text

/-! ## Groups -/

/-- A group of arguments that does not decide. -/
inductive Group where
  | daemon
  | syslog
  | value (flag : ValueFlag) (text : String)
  deriving DecidableEq

/-- What a group is about. Both places that the log can be sent to are for the same slot. -/
inductive Slot where
  | daemon
  | value (flag : ValueFlag)
  deriving DecidableEq

namespace Group

def flag : Group → Flag
  | daemon => .daemon
  | syslog => .syslog
  | value flag _ => .value flag

def text? : Group → Option String
  | value _ text => some text
  | _ => none

def slot : Group → Slot
  | daemon => .daemon
  | syslog => .value .log
  | value flag _ => .value flag

/-- A timeout is a number. -/
def Sound (g : Group) : Prop :=
  ∀ text, g = .value .timeout text → ∃ seconds, Numeral.read maxSeconds text.toList = .ok seconds

/-- What a group does to the flags. -/
def apply (flags : Flags) : Group → Flags
  | daemon => { flags with daemon := true }
  | syslog => { flags with log := some .syslog }
  | value (.setting key) text => { flags with settings := flags.settings.set text key }
  | value .configFile path => { flags with configFile := some path }
  | value .timeout text => { flags with timeout := (readTimeout text).toOption.join }
  | value .log path => { flags with log := some (.file path) }

end Group

/-- Groups in a row, as they are written. -/
inductive Written : List Group → List String → Prop
  | nil : Written [] []
  | cons {g : Group} {spelling : String} {groups : List Group} {arguments : List String}
    (hspelling : spelling ∈ g.flag.spellings) (hsound : g.Sound) (H : Written groups arguments) :
    Written (g :: groups) (spelling :: (g.text?.toList ++ arguments))

/-- Arguments that begin with a group that decides, and what it decides. -/
inductive Decides : List String → Except ArgumentError Command → Prop
  | help {spelling : String} {rest : List String} (h : spelling ∈ Flag.help.spellings) :
    Decides (spelling :: rest) (.ok .help)
  | version {spelling : String} {rest : List String} (h : spelling ∈ Flag.version.spellings) :
    Decides (spelling :: rest) (.ok .version)
  | unknown {argument : String} {rest : List String}
    (h : ∀ flag : Flag, argument ∉ flag.spellings) :
    Decides (argument :: rest) (.error (.unknown argument))
  | noValue {spelling : String} {flag : ValueFlag} (h : spelling ∈ (Flag.value flag).spellings) :
    Decides [spelling] (.error (.noValue spelling flag))
  | timeout {spelling text : String} {cause : NumeralError} {rest : List String}
    (h : spelling ∈ (Flag.value .timeout).spellings)
    (hread : Numeral.read maxSeconds text.toList = .error cause) :
    Decides (spelling :: text :: rest) (.error (.timeout text cause))

/-- Arguments up to their end, or to the first group that decides. -/
structure Cuts (arguments : List String) (groups : List Group) (rest : List String) : Prop where
  written : ∃ words, Written groups words ∧ arguments = words ++ rest
  rest : rest = [] ∨ ∃ outcome, Decides rest outcome

section
variable {g g' : Group} {groups groups' : List Group}
variable {arguments arguments' words rest rest' : List String}
variable {spelling : String} {outcome : Except ArgumentError Command}

theorem Flag.eq_of_mem_spellings {flag flag' : Flag} (h : spelling ∈ flag.spellings)
    (h' : spelling ∈ flag'.spellings) : flag = flag' :=
  Option.some.inj ((Flag.ofText?_eq_some_iff.2 h).symm.trans (Flag.ofText?_eq_some_iff.2 h'))

theorem Cuts.decided (H : Decides arguments outcome) : Cuts arguments [] arguments :=
  ⟨⟨[], .nil, rfl⟩, .inr ⟨outcome, H⟩⟩

theorem Cuts.cons (hspelling : spelling ∈ g.flag.spellings) (hsound : g.Sound)
    (H : Cuts arguments groups rest) :
    Cuts (spelling :: (g.text?.toList ++ arguments)) (g :: groups) rest := by
  obtain ⟨⟨words, Hw, rfl⟩, hrest⟩ := H
  exact ⟨⟨_, .cons hspelling hsound Hw, by simp⟩, hrest⟩

theorem Group.sound_of_text?_eq_none (h : g.text? = none) : g.Sound := by
  rintro text rfl
  cases h

theorem readTimeout_eq {text : String} {seconds : Nat}
    (h : Numeral.read maxSeconds text.toList = .ok seconds) :
    readTimeout text = .ok (if seconds = 0 then none else some (.ofSeconds seconds)) := by
  rw [readTimeout, h]
  cases seconds <;> rfl

theorem Group.Sound.setValue_eq {flag : ValueFlag} {text : String} (H : (value flag text).Sound)
    (flags : Flags) : setValue flags text flag = .ok ((value flag text).apply flags) := by
  cases flag with
  | timeout =>
    obtain ⟨seconds, hread⟩ := H text rfl
    rw [setValue, apply, readTimeout_eq hread]
    rfl
  | setting | configFile | log => rfl

theorem Written.sound (H : Written groups words) : ∀ g ∈ groups, g.Sound := by
  induction H with
  | nil => simp
  | cons hspelling hsound H ih => exact List.forall_mem_cons.2 ⟨hsound, ih⟩

theorem Written.readFrom_append (H : Written groups words) (flags : Flags) (rest : List String) :
    readFrom flags (words ++ rest) = readFrom (groups.foldl Group.apply flags) rest := by
  induction H generalizing flags with
  | nil => rfl
  | @cons g spelling groups words hspelling hsound H ih =>
    have hflag := Flag.ofText?_eq_some_iff.2 hspelling
    rw [List.cons_append, List.append_assoc, readFrom, hflag]
    cases g with
    | daemon => exact ih _
    | syslog => exact ih _
    | value flag text =>
      simp only [Group.flag, Group.text?, Option.toList_some, List.singleton_append,
        hsound.setValue_eq]
      exact ih _

/-- What cannot be taken in is a timeout that is no number. -/
theorem setValue_eq_error {flags : Flags} {text : String} {flag : ValueFlag} {e : ArgumentError}
    (h : setValue flags text flag = .error e) : flag = .timeout ∧
      ∃ cause, Numeral.read maxSeconds text.toList = .error cause := by
  cases flag with
  | timeout =>
    refine ⟨rfl, ?_⟩
    cases hread : Numeral.read maxSeconds text.toList with
    | error cause => exact ⟨cause, rfl⟩
    | ok seconds =>
      simp [setValue, readTimeout_eq hread, bind, Except.bind, pure, Except.pure] at h
  | setting | configFile | log => cases h

theorem Group.sound_of_setValue {flags flags' : Flags} {text : String} {flag : ValueFlag}
    (h : setValue flags text flag = .ok flags') : (Group.value flag text).Sound := by
  intro number hg
  cases hg
  cases hread : Numeral.read maxSeconds text.toList with
  | ok seconds => exact ⟨seconds, rfl⟩
  | error cause => simp [setValue, readTimeout, hread, bind, Except.bind] at h

theorem exists_cuts (flags : Flags) (arguments : List String) :
    ∃ groups rest, Cuts arguments groups rest := by
  fun_induction readFrom flags arguments with
  | case1 => exact ⟨[], [], ⟨[], .nil, rfl⟩, .inl rfl⟩
  | case2 flags argument rest h => exact ⟨_, _, .decided (.unknown (Flag.ofText?_eq_none_iff.1 h))⟩
  | case3 flags argument rest h => exact ⟨_, _, .decided (.help (Flag.ofText?_eq_some_iff.1 h))⟩
  | case4 flags argument rest h => exact ⟨_, _, .decided (.version (Flag.ofText?_eq_some_iff.1 h))⟩
  | case5 flags argument rest h ih =>
    obtain ⟨groups, rest, H⟩ := ih
    exact ⟨.daemon :: groups, rest, H.cons (g := .daemon) (Flag.ofText?_eq_some_iff.1 h)
      (Group.sound_of_text?_eq_none rfl)⟩
  | case6 flags argument rest h ih =>
    obtain ⟨groups, rest, H⟩ := ih
    exact ⟨.syslog :: groups, rest, H.cons (g := .syslog) (Flag.ofText?_eq_some_iff.1 h)
      (Group.sound_of_text?_eq_none rfl)⟩
  | case7 flags argument flag h =>
    exact ⟨_, _, .decided (.noValue (Flag.ofText?_eq_some_iff.1 h))⟩
  | case8 flags argument flag h text rest e hset =>
    obtain ⟨rfl, cause, hread⟩ := setValue_eq_error hset
    exact ⟨_, _, .decided (.timeout (Flag.ofText?_eq_some_iff.1 h) hread)⟩
  | case9 flags argument flag h text rest flags' hset ih =>
    obtain ⟨groups, rest, H⟩ := ih
    exact ⟨.value flag text :: groups, rest,
      H.cons (g := .value flag text) (Flag.ofText?_eq_some_iff.1 h) (Group.sound_of_setValue hset)⟩

theorem not_decides (hspelling : spelling ∈ g.flag.spellings) (hsound : g.Sound) :
    ¬ Decides (spelling :: (g.text?.toList ++ arguments)) outcome := by
  intro H
  generalize hwords : spelling :: (g.text?.toList ++ arguments) = words at H
  cases H with
  | help h | version h =>
    obtain ⟨rfl, -⟩ := List.cons.inj hwords
    have hflag := Flag.eq_of_mem_spellings hspelling h
    cases g <;> cases hflag
  | unknown h =>
    obtain ⟨rfl, -⟩ := List.cons.inj hwords
    exact h _ hspelling
  | noValue h =>
    obtain ⟨rfl, hrest⟩ := List.cons.inj hwords
    have hflag := Flag.eq_of_mem_spellings hspelling h
    cases g <;> cases hflag
    cases hrest
  | timeout h hread =>
    obtain ⟨rfl, hrest⟩ := List.cons.inj hwords
    have hflag := Flag.eq_of_mem_spellings hspelling h
    cases g <;> cases hflag
    cases hrest
    obtain ⟨seconds, hread'⟩ := hsound _ rfl
    cases hread.symm.trans hread'

theorem Written.unique (H : Written groups words) (H' : Written groups' arguments')
    (hrest : rest = [] ∨ ∃ outcome, Decides rest outcome)
    (hrest' : rest' = [] ∨ ∃ outcome, Decides rest' outcome)
    (h : words ++ rest = arguments' ++ rest') : groups = groups' ∧ rest = rest' := by
  -- one cutting cannot end where the other one goes on
  have hno {g : Group} {spelling : String} {arguments : List String}
      (hspelling : spelling ∈ g.flag.spellings) (hsound : g.Sound) :
      ¬ (spelling :: (g.text?.toList ++ arguments) = [] ∨
        ∃ outcome, Decides (spelling :: (g.text?.toList ++ arguments)) outcome) := by
    rintro (hnil | ⟨outcome, Hd⟩)
    · cases hnil
    · exact not_decides hspelling hsound Hd
  induction H generalizing groups' arguments' with
  | nil =>
    cases H' with
    | nil => exact ⟨rfl, h⟩
    | cons hspelling hsound =>
      rw [List.nil_append] at h
      rw [h, List.cons_append, List.append_assoc] at hrest
      exact absurd hrest (hno hspelling hsound)
  | @cons g spelling groups words hspelling hsound H ih =>
    cases H' with
    | nil =>
      rw [List.nil_append] at h
      rw [← h, List.cons_append, List.append_assoc] at hrest'
      exact absurd hrest' (hno hspelling hsound)
    | @cons g' spelling' groups' words' hspelling' hsound' H' =>
      simp only [List.cons_append, List.append_assoc] at h
      obtain ⟨rfl, htail⟩ := List.cons.inj h
      have hflag := Flag.eq_of_mem_spellings hspelling hspelling'
      obtain ⟨rfl, hwords⟩ : g = g' ∧ words ++ rest = words' ++ rest' := by
        cases g <;> cases g' <;> cases hflag
        · exact ⟨rfl, htail⟩
        · exact ⟨rfl, htail⟩
        · obtain ⟨rfl, hwords⟩ := List.cons.inj htail
          exact ⟨rfl, hwords⟩
      obtain ⟨rfl, rfl⟩ := ih H' hwords
      exact ⟨rfl, rfl⟩

theorem Cuts.unique (H : Cuts arguments groups rest) (H' : Cuts arguments groups' rest') :
    groups = groups' ∧ rest = rest' := by
  obtain ⟨⟨words, Hw, h⟩, hrest⟩ := H
  obtain ⟨⟨words', Hw', h'⟩, hrest'⟩ := H'
  exact Hw.unique Hw' hrest hrest' (h.symm.trans h')

end

/-! ## Slots -/

/-- The group that fills a slot. -/
def lastIn (slot : Slot) (groups : List Group) : Option Group :=
  (groups.filter (·.slot = slot)).getLast?

/-- The last value of a flag. -/
def lastText (flag : ValueFlag) (groups : List Group) : Option String :=
  (lastIn (.value flag) groups).bind Group.text?

/-- What is said about an option that a configuration file can set, too. -/
def chosen (groups : List Group) (file : Config.Settings) (key : Config.Key) : Option String :=
  (lastText (.setting key) groups).or (file.get key)

/-- Where a group sends the log. -/
def Group.target? : Group → Option LogTarget
  | syslog => some .syslog
  | value .log path => some (.file path)
  | _ => none

/-- What the configuration file, if there is one, says. -/
inductive ReadsFile (files : Files) : Option String → Except ArgumentError Config.Settings → Prop
  | unnamed : ReadsFile files none (.ok {})
  | path {path : String} {e : PathError} (h : files.readAll path = .error e) :
    ReadsFile files (some path) (.error (.unreadable path (.path e)))
  | notUtf8 {path : String} {bytes : List UInt8} (h : files.readAll path = .ok bytes)
    (hdecode : Utf8.decode bytes = none) :
    ReadsFile files (some path) (.error (.unreadable path .notUtf8))
  | faulty {path : String} {bytes : List UInt8} {text : List Char} {e : Config.LineError}
    (h : files.readAll path = .ok bytes) (hdecode : Utf8.decode bytes = some text)
    (hread : Config.readText text = .error e) :
    ReadsFile files (some path) (.error (.configFile path e))
  | settings {path : String} {bytes : List UInt8} {text : List Char} {file : Config.Settings}
    (h : files.readAll path = .ok bytes) (hdecode : Utf8.decode bytes = some text)
    (hread : Config.readText text = .ok file) : ReadsFile files (some path) (.ok file)

/-- The configuration that groups and a configuration file make. -/
structure Makes (groups : List Group) (file : Config.Settings) (c : Config) : Prop where
  hostname : c.hostname = (chosen groups file .hostname).filter (· ≠ "*")
  port : ∀ text, chosen groups file .port = some text →
    Numeral.read maxPort text.toList = .ok c.port
  defaultPort : chosen groups file .port = none → c.port = 8080
  docroot : c.docroot = (chosen groups file .docroot).getD "."
  timeout : ∀ text, lastText .timeout groups = some text →
    ∃ seconds, Numeral.read maxSeconds text.toList = .ok seconds ∧
      c.timeout = if seconds = 0 then none else some (.ofSeconds seconds)
  noTimeout : lastText .timeout groups = none → c.timeout = none
  daemon : c.daemon = true ↔ .daemon ∈ groups
  log : c.log = ((lastIn (.value .log) groups).bind Group.target?).getD
    (if c.daemon then .syslog else .stdout)

/-- What comes of groups that do not decide. -/
inductive Comes (files : Files) (groups : List Group) : Except ArgumentError Command → Prop
  | file {e : ArgumentError} (hfile : ReadsFile files (lastText .configFile groups) (.error e)) :
    Comes files groups (.error e)
  | port {file : Config.Settings} {text : String} {cause : NumeralError}
    (hfile : ReadsFile files (lastText .configFile groups) (.ok file))
    (htext : chosen groups file .port = some text)
    (hread : Numeral.read maxPort text.toList = .error cause) :
    Comes files groups (.error (.port text cause))
  | run {file : Config.Settings} {c : Config}
    (hfile : ReadsFile files (lastText .configFile groups) (.ok file))
    (H : Makes groups file c) : Comes files groups (.ok (.run c))

/-- What arguments mean. -/
inductive Means (files : Files) : List String → Except ArgumentError Command → Prop
  | decided {groups : List Group} {words rest : List String}
    {outcome : Except ArgumentError Command} (H : Written groups words)
    (hrest : Decides rest outcome) : Means files (words ++ rest) outcome
  | read {groups : List Group} {arguments : List String} {outcome : Except ArgumentError Command}
    (H : Written groups arguments) (hcomes : Comes files groups outcome) :
    Means files arguments outcome

section
variable {g : Group} {slot : Slot} {groups groups' : List Group}
variable {arguments words rest : List String}
variable {flags : Flags} {files files' : Files} {file : Config.Settings} {c c' : Config}
variable {outcome : Except ArgumentError Command}

theorem lastIn_cons : lastIn slot (g :: groups) =
    (lastIn slot groups).or (if g.slot = slot then some g else none) := by
  rw [lastIn, lastIn, List.filter_cons]
  by_cases h : g.slot = slot
  · simp only [h, decide_true, if_true, List.getLast?_cons]
    cases (groups.filter (·.slot = slot)).getLast? <;> rfl
  · simp [h]

theorem mem_of_lastIn (h : lastIn slot groups = some g) : g ∈ groups ∧ g.slot = slot := by
  simpa using List.mem_filter.1 (List.mem_of_getLast? h)

/-- The last group for a slot is the one that counts. -/
theorem foldl_apply {β : Type} (field : Flags → β) (value : Group → β)
    (hin : ∀ g : Group, g.slot = slot → ∀ flags : Flags, field (g.apply flags) = value g)
    (hout : ∀ g : Group, g.slot ≠ slot → ∀ flags : Flags, field (g.apply flags) = field flags)
    (groups : List Group) (flags : Flags) : field (groups.foldl Group.apply flags) =
      (lastIn slot groups).elim (field flags) value := by
  induction groups generalizing flags with
  | nil => rfl
  | cons g groups ih =>
    rw [List.foldl_cons, ih, lastIn_cons]
    cases lastIn slot groups with
    | some last => rfl
    | none =>
      by_cases hslot : g.slot = slot
      · simpa [hslot] using hin g hslot flags
      · simpa [hslot] using hout g hslot flags

theorem foldl_apply_eq_bind {β : Type} (field : Flags → Option β) (value : Group → Option β)
    (hin : ∀ g : Group, g.slot = slot → ∀ flags : Flags, field (g.apply flags) = value g)
    (hout : ∀ g : Group, g.slot ≠ slot → ∀ flags : Flags, field (g.apply flags) = field flags)
    (hnone : field {} = none) (groups : List Group) :
    field (groups.foldl Group.apply {}) = (lastIn slot groups).bind value := by
  rw [foldl_apply field value hin hout, hnone]
  cases lastIn slot groups <;> rfl

theorem settings_get_foldl (groups : List Group) (key : Config.Key) :
    (groups.foldl Group.apply {}).settings.get key = lastText (.setting key) groups := by
  refine foldl_apply_eq_bind (fun flags => flags.settings.get key) _ ?_ ?_
    (by cases key <;> rfl) groups
  · rintro (_ | _ | ⟨flag, text⟩) hslot flags <;> cases hslot
    simp [Group.apply, Group.text?]
  · rintro (_ | _ | ⟨key' | _ | _ | _, text⟩) hslot flags <;> try rfl
    have hne : key ≠ key' := fun h => hslot (h ▸ rfl)
    simp [Group.apply, hne]

theorem configFile_foldl (groups : List Group) :
    (groups.foldl Group.apply {}).configFile = lastText .configFile groups := by
  refine foldl_apply_eq_bind Flags.configFile _ ?_ ?_ rfl groups
  · rintro (_ | _ | ⟨flag, text⟩) hslot flags <;> cases hslot
    rfl
  · rintro (_ | _ | ⟨_ | _ | _ | _, text⟩) hslot flags <;> first | rfl | exact absurd rfl hslot

theorem timeout_foldl (groups : List Group) :
    (groups.foldl Group.apply {}).timeout =
      (lastText .timeout groups).bind fun text => (readTimeout text).toOption.join := by
  rw [lastText, Option.bind_assoc]
  refine foldl_apply_eq_bind Flags.timeout _ ?_ ?_ rfl groups
  · rintro (_ | _ | ⟨flag, text⟩) hslot flags <;> cases hslot
    rfl
  · rintro (_ | _ | ⟨_ | _ | _ | _, text⟩) hslot flags <;> first | rfl | exact absurd rfl hslot

theorem log_foldl (groups : List Group) :
    (groups.foldl Group.apply {}).log = (lastIn (.value .log) groups).bind Group.target? := by
  refine foldl_apply_eq_bind Flags.log _ ?_ ?_ rfl groups
  · rintro (_ | _ | ⟨flag, text⟩) hslot flags <;> cases hslot <;> rfl
  · rintro (_ | _ | ⟨_ | _ | _ | _, text⟩) hslot flags <;> first | rfl | exact absurd rfl hslot

theorem lastIn_daemon_isSome : (lastIn .daemon groups).isSome ↔ .daemon ∈ groups := by
  constructor
  · intro h
    obtain ⟨hmem, hslot⟩ := mem_of_lastIn (Option.some_get h).symm
    generalize (lastIn .daemon groups).get h = g at hmem hslot
    cases g <;> cases hslot
    exact hmem
  · intro h
    rw [lastIn, List.getLast?_isSome]
    exact List.ne_nil_of_mem (List.mem_filter.2 ⟨h, rfl⟩)

theorem daemon_foldl (groups : List Group) :
    (groups.foldl Group.apply {}).daemon = (lastIn .daemon groups).isSome := by
  have h : (groups.foldl Group.apply {}).daemon =
      (lastIn .daemon groups).elim false fun _ => true := by
    refine foldl_apply Flags.daemon _ ?_ ?_ groups {}
    · rintro (_ | _ | ⟨flag, text⟩) hslot flags <;> cases hslot
      rfl
    · rintro (_ | _ | ⟨_ | _ | _ | _, text⟩) hslot flags <;> first | rfl | exact absurd rfl hslot
  rw [h]
  cases lastIn .daemon groups <;> rfl

/-! ## What is read -/

/-- What is done once all arguments have been read. -/
def finish (files : Files) : Reading → Except ArgumentError Command
  | .help => .ok .help
  | .version => .ok .version
  | .flags flags => do
    let file ← match flags.configFile with
      | some path => readConfigFile files path
      | none => pure {}
    return .run (← configure flags file)

theorem read_eq_bind (files : Files) (arguments : List String) :
    read files arguments = readFrom {} arguments >>= finish files := rfl

theorem Decides.bind_finish (H : Decides rest outcome) (files : Files) (flags : Flags) :
    readFrom flags rest >>= finish files = outcome := by
  cases H with
  | help h | version h => rw [readFrom, Flag.ofText?_eq_some_iff.2 h]; rfl
  | unknown h => rw [readFrom, Flag.ofText?_eq_none_iff.2 h]; rfl
  | noValue h => rw [readFrom, Flag.ofText?_eq_some_iff.2 h]; rfl
  | timeout h hread =>
    rw [readFrom, Flag.ofText?_eq_some_iff.2 h]
    simp [setValue, readTimeout, hread, bind, Except.bind]

theorem ReadsFile.finish_eq {result : Except ArgumentError Config.Settings}
    (H : ReadsFile files flags.configFile result) : finish files (.flags flags) =
      result >>= fun file => return .run (← configure flags file) := by
  rw [finish]
  cases hfile : flags.configFile with
  | none =>
    rw [hfile] at H
    cases H
    rfl
  | some filename =>
    rw [hfile] at H
    have hread : readConfigFile files filename = result := by
      cases H with
      | path h => simp [readConfigFile, h]
      | notUtf8 h hdecode => simp [readConfigFile, h, hdecode]
      | faulty h hdecode hread | settings h hdecode hread =>
        simp [readConfigFile, h, hdecode, hread, Except.mapError]
    simp only [hread]

theorem exists_readsFile (files : Files) (path? : Option String) :
    ∃ result, ReadsFile files path? result := by
  cases path? with
  | none => exact ⟨_, .unnamed⟩
  | some path =>
    cases h : files.readAll path with
    | error e => exact ⟨_, .path h⟩
    | ok bytes =>
      cases hdecode : Utf8.decode bytes with
      | none => exact ⟨_, .notUtf8 h hdecode⟩
      | some text =>
        cases hread : Config.readText text with
        | error e => exact ⟨_, .faulty h hdecode hread⟩
        | ok file => exact ⟨_, .settings h hdecode hread⟩

theorem Makes.unique (H : Makes groups file c) (H' : Makes groups file c') : c = c' := by
  have hport : c.port = c'.port := by
    cases htext : chosen groups file .port with
    | none => rw [H.defaultPort htext, H'.defaultPort htext]
    | some text => exact Except.ok.inj ((H.port text htext).symm.trans (H'.port text htext))
  have htimeout : c.timeout = c'.timeout := by
    cases htext : lastText .timeout groups with
    | none => rw [H.noTimeout htext, H'.noTimeout htext]
    | some text =>
      obtain ⟨seconds, hread, hc⟩ := H.timeout text htext
      obtain ⟨seconds', hread', hc'⟩ := H'.timeout text htext
      cases hread.symm.trans hread'
      rw [hc, hc']
  have hdaemon : c.daemon = c'.daemon := Bool.eq_iff_iff.2 (H.daemon.trans H'.daemon.symm)
  have hlog : c.log = c'.log := by rw [H.log, H'.log, hdaemon]
  have hhostname := H.hostname.trans H'.hostname.symm
  have hdocroot := H.docroot.trans H'.docroot.symm
  cases c
  cases c'
  simp_all

theorem bind_hostname (name? : Option String) :
    name?.bind hostname = name?.filter (· ≠ "*") := by
  cases name? with
  | none => rfl
  | some name =>
    by_cases h : name = "*" <;> simp [hostname, Config.wildcard, Option.filter, h]

/-- The configuration with its port. -/
def withPort (flags : Flags) (file : Config.Settings) (port : Nat) : Config where
  hostname := (flags.settings.orElse file).hostname.bind hostname
  port := port
  docroot := (flags.settings.orElse file).docroot.getD "."
  timeout := flags.timeout
  daemon := flags.daemon
  log := flags.log.getD (if flags.daemon then .syslog else .stdout)

theorem configure_eq (flags : Flags) (file : Config.Settings) : configure flags file =
    ((flags.settings.orElse file).port.elim (.ok 8080) readPort).map (withPort flags file) := by
  rw [configure]
  cases (flags.settings.orElse file).port with
  | none => rfl
  | some text =>
    change readPort text >>= _ = (readPort text).map _
    cases readPort text <;> rfl

theorem orElse_foldl_get (groups : List Group) (file : Config.Settings) (key : Config.Key) :
    ((groups.foldl Group.apply {}).settings.orElse file).get key = chosen groups file key := by
  rw [Config.Settings.get_orElse, settings_get_foldl, chosen]

theorem timeout_foldl_of_lastText {text : String} (hgroups : ∀ g ∈ groups, g.Sound)
    (h : lastText .timeout groups = some text) :
    ∃ seconds, Numeral.read maxSeconds text.toList = .ok seconds ∧
      (groups.foldl Group.apply {}).timeout =
        if seconds = 0 then none else some (.ofSeconds seconds) := by
  obtain ⟨g, hlast, htext⟩ := Option.bind_eq_some_iff.1 h
  obtain ⟨hmem, hslot⟩ := mem_of_lastIn hlast
  obtain rfl : g = .value .timeout text := by
    cases g <;> cases hslot
    cases htext
    rfl
  obtain ⟨seconds, hread⟩ := hgroups _ hmem text rfl
  refine ⟨seconds, hread, ?_⟩
  rw [timeout_foldl, h, Option.bind_some, readTimeout_eq hread]
  rfl

theorem makes_withPort (hgroups : ∀ g ∈ groups, g.Sound) (port : Nat)
    (hport : ∀ text, chosen groups file .port = some text →
      Numeral.read maxPort text.toList = .ok port)
    (hdefault : chosen groups file .port = none → port = 8080) :
    Makes groups file (withPort (groups.foldl Group.apply {}) file port) where
  hostname := (bind_hostname _).trans (by rw [← orElse_foldl_get]; rfl)
  port := hport
  defaultPort := hdefault
  docroot := by rw [← orElse_foldl_get]; rfl
  timeout := fun text => timeout_foldl_of_lastText hgroups
  noTimeout := fun h => by rw [withPort, timeout_foldl, h]; rfl
  daemon := by rw [withPort, daemon_foldl, lastIn_daemon_isSome]
  log := by rw [withPort, log_foldl]

/-- Only the port can go wrong. -/
theorem configure_cases (hgroups : ∀ g ∈ groups, g.Sound) (file : Config.Settings) :
    (∃ text cause, chosen groups file .port = some text ∧
      Numeral.read maxPort text.toList = .error cause ∧
      configure (groups.foldl Group.apply {}) file = .error (.port text cause)) ∨
    ∃ c, Makes groups file c ∧ configure (groups.foldl Group.apply {}) file = .ok c := by
  have hport : ((groups.foldl Group.apply {}).settings.orElse file).port =
    chosen groups file .port := orElse_foldl_get groups file .port
  rw [configure_eq, hport]
  cases htext : chosen groups file .port with
  | none => exact .inr ⟨_, makes_withPort hgroups _ (by simp [htext]) (fun _ => rfl), rfl⟩
  | some text =>
    cases hread : Numeral.read maxPort text.toList with
    | error cause => exact .inl ⟨text, cause, rfl, hread, by simp [readPort, hread]; rfl⟩
    | ok port =>
      refine .inr ⟨_, makes_withPort hgroups port ?_ (by simp [htext]), ?_⟩
      · intro text' htext'
        cases htext.symm.trans htext'
        exact hread
      · simp [readPort, hread]
        rfl

theorem Makes.configure_eq (hgroups : ∀ g ∈ groups, g.Sound) (H : Makes groups file c) :
    configure (groups.foldl Group.apply {}) file = .ok c := by
  obtain ⟨text, cause, htext, hread, -⟩ | ⟨c', H', hc'⟩ := configure_cases hgroups file
  · cases hread.symm.trans (H.port text htext)
  · rw [hc', H.unique H']

theorem configure_eq_error (hgroups : ∀ g ∈ groups, g.Sound) {text : String} {cause : NumeralError}
    (htext : chosen groups file .port = some text)
    (hread : Numeral.read maxPort text.toList = .error cause) :
    configure (groups.foldl Group.apply {}) file = .error (.port text cause) := by
  obtain ⟨text', cause', htext', hread', h⟩ | ⟨c, H, -⟩ := configure_cases hgroups file
  · cases htext.symm.trans htext'
    cases hread.symm.trans hread'
    exact h
  · cases hread.symm.trans (H.port text htext)

theorem Comes.finish_eq (hgroups : ∀ g ∈ groups, g.Sound) (H : Comes files groups outcome) :
    finish files (.flags (groups.foldl Group.apply {})) = outcome := by
  cases H with
  | file hfile =>
    rw [← configFile_foldl] at hfile
    rw [hfile.finish_eq]
    rfl
  | port hfile htext hread =>
    rw [← configFile_foldl] at hfile
    rw [hfile.finish_eq]
    simp only [bind, Except.bind, configure_eq_error hgroups htext hread]
  | run hfile H =>
    rw [← configFile_foldl] at hfile
    rw [hfile.finish_eq]
    simp only [bind, Except.bind, H.configure_eq hgroups, pure, Except.pure]

theorem exists_comes (hgroups : ∀ g ∈ groups, g.Sound) (files : Files) :
    ∃ outcome, Comes files groups outcome := by
  obtain ⟨result, hfile⟩ := exists_readsFile files (lastText .configFile groups)
  cases result with
  | error e => exact ⟨_, .file hfile⟩
  | ok file =>
    obtain ⟨text, cause, htext, hread, -⟩ | ⟨c, H, -⟩ := configure_cases hgroups file
    · exact ⟨_, .port hfile htext hread⟩
    · exact ⟨_, .run hfile H⟩

theorem Means.read_eq (H : Means files arguments outcome) :
    CommandLine.read files arguments = outcome := by
  cases H with
  | decided H hrest => rw [read_eq_bind, H.readFrom_append, hrest.bind_finish]
  | read H hcomes =>
    have hread := H.readFrom_append {} []
    rw [List.append_nil] at hread
    rw [read_eq_bind, hread]
    exact hcomes.finish_eq H.sound

theorem exists_means (files : Files) (arguments : List String) :
    ∃ outcome, Means files arguments outcome := by
  obtain ⟨groups, rest, ⟨words, H, rfl⟩, rfl | ⟨outcome, hrest⟩⟩ := exists_cuts {} arguments
  · obtain ⟨outcome, hcomes⟩ := exists_comes H.sound files
    rw [List.append_nil]
    exact ⟨outcome, .read H hcomes⟩
  · exact ⟨outcome, .decided H hrest⟩

theorem read_eq_iff :
    CommandLine.read files arguments = outcome ↔ Means files arguments outcome := by
  refine ⟨?_, Means.read_eq⟩
  rintro rfl
  obtain ⟨outcome, H⟩ := exists_means files arguments
  rwa [H.read_eq]

theorem foldl_apply_congr (h : ∀ slot, lastIn slot groups' = lastIn slot groups) :
    groups'.foldl Group.apply {} = groups.foldl Group.apply {} := by
  have hsettings :
      (groups'.foldl Group.apply {}).settings = (groups.foldl Group.apply {}).settings :=
    Config.Settings.ext_get fun key => by
      rw [settings_get_foldl, settings_get_foldl, lastText, lastText, h]
  have hconfigFile := configFile_foldl groups'
  have htimeout := timeout_foldl groups'
  have hdaemon := daemon_foldl groups'
  have hlog := log_foldl groups'
  rw [lastText, h, ← lastText, ← configFile_foldl] at hconfigFile
  rw [lastText, h, ← lastText, ← timeout_foldl] at htimeout
  rw [h, ← daemon_foldl] at hdaemon
  rw [h, ← log_foldl] at hlog
  generalize groups.foldl Group.apply {} = flags at *
  generalize groups'.foldl Group.apply {} = flags' at *
  cases flags
  cases flags'
  simp_all

/-- Groups can change places as long as the same ones fill the slots. -/
theorem Cuts.read_congr {arguments' : List String} (H : Cuts arguments groups rest)
    (H' : Cuts arguments' groups' rest) (h : ∀ slot, lastIn slot groups' = lastIn slot groups)
    (files : Files) : CommandLine.read files arguments' = CommandLine.read files arguments := by
  obtain ⟨⟨words, Hw, rfl⟩, -⟩ := H
  obtain ⟨⟨words', Hw', rfl⟩, -⟩ := H'
  rw [read_eq_bind, read_eq_bind, Hw.readFrom_append, Hw'.readFrom_append, foldl_apply_congr h]

theorem finish_congr (h : ∀ path, flags.configFile = some path →
    files.readAll path = files'.readAll path) :
    finish files (.flags flags) = finish files' (.flags flags) := by
  rw [finish, finish]
  cases hpath : flags.configFile with
  | none => rfl
  | some path => simp only [readConfigFile, h path hpath]

theorem Decides.append (H : Decides rest outcome)
    (hvalue : ∀ argument flag, outcome ≠ .error (.noValue argument flag)) (more : List String) :
    Decides (rest ++ more) outcome := by
  cases H with
  | help h => exact .help h
  | version h => exact .version h
  | unknown h => exact .unknown h
  | noValue h => exact absurd rfl (hvalue _ _)
  | timeout h hread => exact .timeout h hread

theorem Makes.log_ne_stdout (H : Makes groups file c) (hdaemon : c.daemon = true) :
    c.log ≠ .stdout := by
  rw [H.log, hdaemon]
  cases hlast : lastIn (.value .log) groups with
  | none => exact LogTarget.noConfusion
  | some g =>
    obtain ⟨-, hslot⟩ := mem_of_lastIn hlast
    cases g <;> cases hslot <;> exact LogTarget.noConfusion

end

/-- **What the command line means.** Arguments can be cut in one way only: into groups that do not
decide, each of them a flag or a flag with whatever the next argument is, and a rest that is empty
or begins with a group that decides. If there is such a group, then the outcome is what it decides:
no file matters, and nothing that comes after it does. Otherwise the outcome is that of the last
group in each slot and of the file that the last one of the flags for it names, which is the only
one that matters. A daemon does not log to the standard output, and what is not last in its slot can
change, as can the order of what is in different slots. -/
theorem command_line_semantics (arguments : List String) :
    (∀ files outcome, CommandLine.read files arguments = outcome ↔ Means files arguments outcome) ∧
    (∃! cut : List Group × List String, Cuts arguments cut.1 cut.2) ∧
    (∀ groups rest outcome, Cuts arguments groups rest → Decides rest outcome → ∀ files more,
      (more = [] ∨ ∀ argument flag, outcome ≠ .error (.noValue argument flag)) →
        CommandLine.read files (arguments ++ more) = outcome) ∧
    (∀ groups, Written groups arguments → ∀ files files' : Files,
      (∀ path, lastText .configFile groups = some path →
        files.readAll path = files'.readAll path) →
      CommandLine.read files arguments = CommandLine.read files' arguments) ∧
    (∀ files c, CommandLine.read files arguments = .ok (.run c) → c.daemon = true →
      c.log ≠ .stdout) ∧
    ∀ arguments' groups groups' rest, Cuts arguments groups rest → Cuts arguments' groups' rest →
      (∀ slot, lastIn slot groups' = lastIn slot groups) →
      ∀ files, CommandLine.read files arguments' = CommandLine.read files arguments := by
  refine ⟨fun files outcome => read_eq_iff, ?cut, ?decided, ?file, ?daemon,
    fun arguments' groups groups' rest H H' h files => H.read_congr H' h files⟩
  case cut =>
    obtain ⟨groups, rest, H⟩ := exists_cuts {} arguments
    refine ⟨(groups, rest), H, fun cut H' => ?_⟩
    obtain ⟨hgroups, hrest⟩ := H'.unique H
    exact Prod.ext hgroups hrest
  case decided =>
    rintro groups rest outcome ⟨⟨words, Hw, rfl⟩, -⟩ Hd files more hmore
    have Hd' : Decides (rest ++ more) outcome := by
      rcases hmore with rfl | hvalue
      · rwa [List.append_nil]
      · exact Hd.append hvalue more
    rw [List.append_assoc]
    exact (Means.decided Hw Hd').read_eq
  case file =>
    intro groups Hw files files' h
    have hread := Hw.readFrom_append {} []
    rw [List.append_nil] at hread
    rw [read_eq_bind, read_eq_bind, hread]
    exact finish_congr fun path hpath => h path (configFile_foldl groups ▸ hpath)
  case daemon =>
    intro files c h hdaemon
    cases read_eq_iff.1 h with
    | decided _ Hd => cases Hd
    | read _ hcomes =>
      cases hcomes with
      | run _ H => exact H.log_ne_stdout hdaemon

/-- A value can look like a flag. -/
example (files : Files) : CommandLine.read files ["-t", "9", "--log", "--syslog", "-d", "-t", "0"] =
    .ok (.run { daemon := true, log := .file "--syslog" }) := by
  rfl

end CommandLine

end OnePage
