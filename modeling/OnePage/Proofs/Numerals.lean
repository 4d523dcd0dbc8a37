import Mathlib.Data.Nat.Digits.Defs
import OnePage.Proofs.Arguments
import OnePage.Proofs.Cutting

/-! # Numbers in arguments

A number is written with digits, and with at most one `+` before them (`Numeral.Denotes`). Reading
goes on while the value of the digits so far is within the limit, so what is refused as too large is
a text whose first digits make too large a number, whatever comes after them (`Numeral.reason`). The
port is read when all arguments have been, from whichever source says it, and a timeout where it
stands. -/

namespace OnePage

namespace Text.Numeral

/-- The number that digits stand for, the last of them for the units. -/
def value (digits : List Char) : Nat := Nat.ofDigits 10 (digits.reverse.map digitValue)

/-- A numeral, and the number that it denotes. -/
inductive Denotes : List Char → Nat → Prop
  | plain {digits : List Char} (hne : digits ≠ []) (h : ∀ c ∈ digits, c.isDigit) :
    Denotes digits (value digits)
  | plus {digits : List Char} (hne : digits ≠ []) (h : ∀ c ∈ digits, c.isDigit) :
    Denotes ('+' :: digits) (value digits)

/-- A text without the `+` that it may begin with. -/
def unsigned : List Char → List Char
  | '+' :: cs => cs
  | cs => cs

/-- The digits that a text begins with, after a `+` if there is one. -/
def leading (cs : List Char) : List Char := (unsigned cs).takeWhile Char.isDigit

/-- Why a text that is not empty is refused. -/
def reason (limit : Nat) (cs : List Char) : NumeralError :=
  if limit < value (leading cs) then .tooLarge else .invalidDigit

/-- A text, and the same with zeros put before the digits that it begins with. -/
inductive Padded : List Char → List Char → Prop
  | mk {sign digits : List Char} (hsign : sign = [] ∨ sign = ['+']) (hne : digits ≠ [])
    (hdigits : ∀ c ∈ digits, c.isDigit) (zeros : Nat) (rest : List Char) :
    Padded (sign ++ (digits ++ rest)) (sign ++ (List.replicate zeros '0' ++ digits ++ rest))

variable {limit acc n : Nat} {cs cs' sign digits rest : List Char}

@[simp] theorem value_nil : value [] = 0 := rfl

theorem value_cons (c : Char) (digits : List Char) :
    value (c :: digits) = digitValue c * 10 ^ digits.length + value digits := by
  rw [value, List.reverse_cons, List.map_append, Nat.ofDigits_append, List.map_singleton,
    Nat.ofDigits_singleton, List.length_map, List.length_reverse, value]
  ring

theorem value_replicate_append (zeros : Nat) (digits : List Char) :
    value (List.replicate zeros '0' ++ digits) = value digits := by
  induction zeros with
  | zero => rfl
  | succ zeros ih =>
    rw [List.replicate_succ, List.cons_append, value_cons, ih]
    simp [digitValue]

/-! ## Reading digits -/

/-- Digits are taken as long as their value is within the limit, and it never decreases. -/
theorem readDigits_append (hdigits : ∀ c ∈ digits, c.isDigit) (hacc : acc ≤ limit)
    (rest : List Char) : readDigits limit acc (digits ++ rest) =
      if limit < acc * 10 ^ digits.length + value digits then .error .tooLarge
      else readDigits limit (acc * 10 ^ digits.length + value digits) rest := by
  induction digits generalizing acc with
  | nil => simp [Nat.not_lt.2 hacc]
  | cons c digits ih =>
    obtain ⟨hc, hdigits⟩ := List.forall_mem_cons.1 hdigits
    have hvalue : acc * 10 ^ (c :: digits).length + value (c :: digits) =
        (acc * 10 + digitValue c) * 10 ^ digits.length + value digits := by
      rw [value_cons, List.length_cons]
      ring
    rw [hvalue, List.cons_append, readDigits, if_pos hc]
    by_cases hlt : limit < acc * 10 + digitValue c
    · have hle : acc * 10 + digitValue c ≤
          (acc * 10 + digitValue c) * 10 ^ digits.length + value digits :=
        Nat.le_add_right_of_le (Nat.le_mul_of_pos_right _ (by positivity))
      simp only [if_pos hlt, if_pos (Nat.lt_of_lt_of_le hlt hle)]
    · simp only [if_neg hlt, ih hdigits (Nat.le_of_not_lt hlt)]

theorem readDigits_of_cut (H : Cut Char.isDigit cs digits rest) (limit : Nat) :
    readDigits limit 0 cs = if limit < value digits then .error .tooLarge
      else if rest = [] then .ok (value digits) else .error .invalidDigit := by
  rw [H.append, readDigits_append H.front (Nat.zero_le limit), Nat.zero_mul, Nat.zero_add]
  congr 1
  cases rest with
  | nil => rfl
  | cons c rest => simp [readDigits, H.rest c rfl]

theorem unsigned_eq_self (h : ∀ c ∈ cs.head?, c.isDigit) : unsigned cs = cs := by
  unfold unsigned
  split
  · exact absurd (h '+' rfl) (by decide)
  · rfl

theorem unsigned_append (hsign : sign = [] ∨ sign = ['+']) (hne : digits ≠ [])
    (hdigits : ∀ c ∈ digits, c.isDigit) (rest : List Char) :
    unsigned (sign ++ (digits ++ rest)) = digits ++ rest := by
  rcases hsign with rfl | rfl
  · apply unsigned_eq_self
    intro c hc
    rw [List.nil_append, List.head?_append_of_ne_nil _ hne] at hc
    exact hdigits c (List.mem_of_mem_head? hc)
  · rfl

theorem eq_unsigned_or (cs : List Char) : cs = unsigned cs ∨ cs = '+' :: unsigned cs := by
  unfold unsigned
  split
  · exact .inr rfl
  · exact .inl rfl

theorem denotes_iff : Denotes cs n ↔
    unsigned cs ≠ [] ∧ (∀ c ∈ unsigned cs, c.isDigit) ∧ value (unsigned cs) = n := by
  constructor
  · rintro (⟨hne, h⟩ | ⟨hne, h⟩)
    · rw [unsigned_eq_self fun c hc => h c (List.mem_of_mem_head? hc)]
      exact ⟨hne, h, rfl⟩
    · exact ⟨hne, h, rfl⟩
  · rintro ⟨hne, h, rfl⟩
    have hcs := eq_unsigned_or cs
    generalize unsigned cs = digits at hne h hcs
    rcases hcs with rfl | rfl
    · exact .plain hne h
    · exact .plus hne h

theorem Denotes.unique {n' : Nat} (H : Denotes cs n) (H' : Denotes cs n') : n = n' :=
  (denotes_iff.1 H).2.2.symm.trans (denotes_iff.1 H').2.2

theorem read_eq_readDigits (h : unsigned cs ≠ []) (limit : Nat) :
    read limit cs = readDigits limit 0 (unsigned cs) := by
  fun_cases read limit cs with
  | case1 => exact absurd rfl h
  | case2 => exact absurd rfl h
  | case3 cs => rfl
  | case4 _ _ _ hplus => rw [← (eq_unsigned_or cs).resolve_right (hplus _)]

/-- What is read of a text that is not empty. -/
theorem read_eq (hne : cs ≠ []) (limit : Nat) : read limit cs =
    if limit < value (leading cs) then .error .tooLarge
    else if unsigned cs ≠ [] ∧ (unsigned cs).all Char.isDigit then .ok (value (leading cs))
    else .error .invalidDigit := by
  by_cases h : unsigned cs = []
  · have hcs : cs = ['+'] := by
      have hcs := eq_unsigned_or cs
      rw [h] at hcs
      exact hcs.resolve_left hne
    rw [hcs]
    simp [read, leading, unsigned]
  · rw [read_eq_readDigits h, readDigits_of_cut (cut Char.isDigit (unsigned cs)), leading]
    simp only [List.dropWhile_eq_nil_iff, List.all_eq_true, h, ne_eq, not_false_eq_true, true_and]

theorem leading_eq_unsigned (h : ∀ c ∈ unsigned cs, c.isDigit) : leading cs = unsigned cs :=
  List.takeWhile_eq_self_iff.2 h

theorem read_eq_ok_iff : read limit cs = .ok n ↔ Denotes cs n ∧ n ≤ limit := by
  by_cases hne : cs = []
  · subst hne
    simp [read, denotes_iff, unsigned]
  rw [read_eq hne, denotes_iff]
  constructor
  · intro h
    split at h
    · cases h
    · rename_i hle
      split at h
      · rename_i hall
        have hdigits := List.all_eq_true.1 hall.2
        cases h
        exact ⟨⟨hall.1, hdigits, by rw [leading_eq_unsigned hdigits]⟩, Nat.le_of_not_lt hle⟩
      · cases h
  · rintro ⟨⟨hsign, hdigits, rfl⟩, hle⟩
    rw [leading_eq_unsigned hdigits, if_neg (Nat.not_lt.2 hle),
      if_pos ⟨hsign, List.all_eq_true.2 hdigits⟩]

theorem read_eq_error (hne : cs ≠ []) (h : ∀ n ≤ limit, ¬ Denotes cs n) :
    read limit cs = .error (reason limit cs) := by
  rw [read_eq hne, reason]
  split
  · rfl
  · rename_i hle
    split
    · rename_i hall
      have hdigits := List.all_eq_true.1 hall.2
      refine absurd (denotes_iff.2 ⟨hall.1, hdigits, ?_⟩) (h _ (Nat.le_of_not_lt hle))
      rw [leading_eq_unsigned hdigits]
    · rfl

theorem not_denotes_of_read {cause : NumeralError} (h : read limit cs = .error cause) :
    ∀ n ≤ limit, ¬ Denotes cs n := by
  intro n hle hn
  cases h.symm.trans (read_eq_ok_iff.2 ⟨hn, hle⟩)

/-! ## Zeros in front -/

theorem read_append (hsign : sign = [] ∨ sign = ['+']) (hne : digits ≠ [])
    (hdigits : ∀ c ∈ digits, c.isDigit) (rest : List Char) (limit : Nat) :
    read limit (sign ++ (digits ++ rest)) = readDigits limit 0 (digits ++ rest) := by
  have hunsigned := unsigned_append hsign hne hdigits rest
  rw [read_eq_readDigits, hunsigned]
  rw [hunsigned]
  exact List.append_ne_nil_of_left_ne_nil hne rest

/-- Zeros take the value of what has been read, which is zero, nowhere. -/
theorem Padded.read_eq (H : Padded cs cs') (limit : Nat) : read limit cs' = read limit cs := by
  obtain @⟨sign, digits, hsign, hne, hdigits, zeros, rest⟩ := H
  have hzeros : ∀ c ∈ List.replicate zeros '0', c.isDigit := by
    intro c hc
    rw [List.eq_of_mem_replicate hc]
    rfl
  have hpadded : ∀ c ∈ List.replicate zeros '0' ++ digits, c.isDigit :=
    List.forall_mem_append.2 ⟨hzeros, hdigits⟩
  have hvalue : value (List.replicate zeros '0') = 0 := by
    simpa using value_replicate_append zeros []
  rw [read_append hsign hne hdigits,
    read_append hsign (List.append_ne_nil_of_right_ne_nil _ hne) hpadded, List.append_assoc,
    readDigits_append hzeros (Nat.zero_le limit), hvalue]
  simp

end Text.Numeral

namespace CommandLine
open Text Text.Numeral

variable {files files' : Files} {arguments words more : List String} {groups : List Group}
variable {flags flags' : Flags} {file file' : Config.Settings} {spelling text text' : String}

/-! ## The port -/

/-- The text that says the port is all that can keep groups from making a configuration. -/
theorem Written.read_port (H : Written groups arguments)
    (hfile : ReadsFile files (lastText .configFile groups) (.ok file))
    (htext : chosen groups file .port = some text) :
    (∃ c, Numeral.read maxPort text.toList = .ok c.port ∧
      CommandLine.read files arguments = .ok (.run c)) ∨
    ∃ cause, Numeral.read maxPort text.toList = .error cause ∧
      CommandLine.read files arguments = .error (.port text cause) := by
  obtain ⟨text', cause, htext', hread, -⟩ | ⟨c, Hc, -⟩ := configure_cases H.sound file
  · cases htext.symm.trans htext'
    exact .inr ⟨cause, hread, (Means.read H (.port hfile htext hread)).read_eq⟩
  · exact .inl ⟨c, Hc.port text htext, (Means.read H (.run hfile Hc)).read_eq⟩

/-! ## Timeouts -/

theorem Written.read_timeout {cause : NumeralError} (H : Written groups words)
    (hspelling : spelling ∈ (Flag.value .timeout).spellings)
    (hread : Numeral.read maxSeconds text.toList = .error cause) (files : Files)
    (more : List String) :
    CommandLine.read files (words ++ spelling :: text :: more) = .error (.timeout text cause) :=
  (Means.decided H (.timeout hspelling hread)).read_eq

/-- A timeout is complained about only if it cannot be read. -/
theorem numeral_of_read_eq {cause : NumeralError}
    (h : CommandLine.read files arguments = .error (.timeout text cause)) :
    Numeral.read maxSeconds text.toList = .error cause := by
  cases read_eq_iff.1 h with
  | decided _ Hd =>
    cases Hd with
    | timeout _ hread => exact hread
  | read _ hcomes =>
    cases hcomes with
    | file hfile =>
      generalize lastText .configFile _ = path? at hfile
      cases hfile

/-- The timeout is the one that was said last. -/
theorem Written.timeout_eq {c : Config} (H : Written groups arguments)
    (htext : lastText .timeout groups = some text)
    (h : CommandLine.read files arguments = .ok (.run c)) :
    ∃ seconds, Numeral.read maxSeconds text.toList = .ok seconds ∧
      c.timeout = if seconds = 0 then none else some (.ofSeconds seconds) := by
  obtain ⟨outcome, hcomes⟩ := exists_comes H.sound files
  rw [(Means.read H hcomes).read_eq] at h
  subst h
  cases hcomes with
  | run _ Hc => exact Hc.timeout text htext

/-! ## Zeros in front -/

/-- An error without the number that it quotes. -/
def withoutText : ArgumentError → ArgumentError
  | .timeout _ cause => .timeout "" cause
  | .port _ cause => .port "" cause
  | e => e

/-- The same flags, but for the text that says the port. -/
inductive Respelled (text text' : String) (flags : Flags) : Flags → Prop
  | same : Respelled text text' flags flags
  | port (h : flags.settings.port = some text) :
    Respelled text text' flags
      { flags with settings := { flags.settings with port := some text' } }

theorem Respelled.setPort (text text' : String) (flags : Flags) :
    Respelled text text' ((Group.value (.setting .port) text).apply flags)
      ((Group.value (.setting .port) text').apply flags) :=
  @Respelled.port text text' ((Group.value (.setting .port) text).apply flags) rfl

theorem Respelled.apply (H : Respelled text text' flags flags') (g : Group) :
    Respelled text text' (g.apply flags) (g.apply flags') := by
  cases H with
  | same => exact .same
  | port h =>
    rcases g with _ | _ | ⟨⟨_ | _ | _⟩ | _ | _ | _, value⟩
    -- another port takes the place of either
    case value.setting.port => exact .same
    all_goals exact .port h

theorem Respelled.foldl (H : Respelled text text' flags flags') (groups : List Group) :
    Respelled text text' (groups.foldl Group.apply flags) (groups.foldl Group.apply flags') := by
  induction groups generalizing flags flags' with
  | nil => exact H
  | cons g groups ih => exact ih (H.apply g)

theorem Respelled.configFile (H : Respelled text text' flags flags') :
    flags'.configFile = flags.configFile := by
  cases H <;> rfl

/-- A port that is read alike makes for the same configuration. -/
theorem configure_respelled
    (hread : Numeral.read maxPort text'.toList = Numeral.read maxPort text.toList)
    (hport : (flags.settings.orElse file).port = some text)
    (hport' : (flags'.settings.orElse file').port = some text')
    (hrest : withPort flags' file' = withPort flags file) :
    (configure flags' file').mapError withoutText =
      (configure flags file).mapError withoutText := by
  rw [configure_eq, configure_eq, hport, hport', hrest]
  simp only [Option.elim_some, readPort, hread]
  cases Numeral.read maxPort text.toList <;> rfl

theorem Respelled.configure
    (hread : Numeral.read maxPort text'.toList = Numeral.read maxPort text.toList)
    (H : Respelled text text' flags flags') (file : Config.Settings) :
    (configure flags' file).mapError withoutText =
      (configure flags file).mapError withoutText := by
  cases H with
  | same => rfl
  | port h =>
    refine configure_respelled hread ?_ ?_ rfl
    · simp [Config.Settings.orElse, h]
    · simp [Config.Settings.orElse]

theorem finish_mapError {result : Except ArgumentError Config.Settings}
    (hfile : ReadsFile files flags.configFile result) :
    (finish files (.flags flags)).mapError withoutText =
      result.mapError withoutText >>= fun file =>
        ((configure flags file).mapError withoutText).map .run := by
  rw [hfile.finish_eq]
  cases result with
  | error e => rfl
  | ok file =>
    change (configure flags file >>= _).mapError _ = ((configure flags file).mapError _).map _
    cases configure flags file <;> rfl

theorem Respelled.finish
    (hread : Numeral.read maxPort text'.toList = Numeral.read maxPort text.toList)
    (H : Respelled text text' flags flags') (files : Files) :
    (finish files (.flags flags')).mapError withoutText =
      (finish files (.flags flags)).mapError withoutText := by
  obtain ⟨result, hfile⟩ := exists_readsFile files flags.configFile
  have hfile' : ReadsFile files flags'.configFile result := H.configFile ▸ hfile
  rw [finish_mapError hfile, finish_mapError hfile']
  simp only [H.configure hread]

theorem Respelled.readFrom
    (hread : Numeral.read maxPort text'.toList = Numeral.read maxPort text.toList)
    (H : Respelled text text' flags flags') (files : Files) (arguments : List String) :
    (readFrom flags' arguments >>= CommandLine.finish files).mapError withoutText =
      (readFrom flags arguments >>= CommandLine.finish files).mapError withoutText := by
  obtain ⟨groups, rest, ⟨words, Hw, rfl⟩, hrest⟩ := exists_cuts flags arguments
  rw [Hw.readFrom_append, Hw.readFrom_append]
  rcases hrest with rfl | ⟨outcome, Hd⟩
  · exact (H.foldl groups).finish hread files
  · rw [Hd.bind_finish, Hd.bind_finish]

theorem Written.readFrom_cons {g : Group} (H : Written groups words)
    (hspelling : spelling ∈ g.flag.spellings) (hsound : g.Sound) (more : List String) :
    readFrom {} (words ++ spelling :: (g.text?.toList ++ more)) =
      readFrom (g.apply (groups.foldl Group.apply {})) more := by
  have hg := (Written.cons hspelling hsound .nil).readFrom_append (groups.foldl Group.apply {}) more
  rw [List.append_nil] at hg
  rw [H.readFrom_append, ← List.cons_append, hg]
  rfl

/-- The outcome of reading arguments with a number in them is the same for each text that is read
alike. -/
theorem Written.read_respelled {flag : ValueFlag} (H : Written groups words)
    (hspelling : spelling ∈ (Flag.value flag).spellings)
    (hflag : flag = .setting .port ∨ flag = .timeout)
    (hread : ∀ limit, Numeral.read limit text'.toList = Numeral.read limit text.toList)
    (files : Files) (more : List String) :
    (CommandLine.read files (words ++ spelling :: text' :: more)).mapError withoutText =
      (CommandLine.read files (words ++ spelling :: text :: more)).mapError withoutText := by
  have hcons {text : String} (hsound : (Group.value flag text).Sound) :
      CommandLine.read files (words ++ spelling :: text :: more) =
        readFrom ((Group.value flag text).apply (groups.foldl Group.apply {})) more >>=
          CommandLine.finish files := by
    rw [read_eq_bind, ← H.readFrom_cons hspelling hsound]
    rfl
  rcases hflag with rfl | rfl
  · have hsound (text : String) : (Group.value (.setting .port) text).Sound := nofun
    rw [hcons (hsound text), hcons (hsound text')]
    exact (Respelled.setPort text text' _).readFrom (hread maxPort) files more
  · cases htext : Numeral.read maxSeconds text.toList with
    | error cause =>
      rw [H.read_timeout hspelling htext, H.read_timeout hspelling ((hread _).trans htext)]
      rfl
    | ok seconds =>
      have hsound {text : String} (h : Numeral.read maxSeconds text.toList = .ok seconds) :
          (Group.value .timeout text).Sound := by
        rintro _ ⟨⟩
        exact ⟨seconds, h⟩
      have htext' := (hread maxSeconds).trans htext
      rw [hcons (hsound htext), hcons (hsound htext'), Group.apply, Group.apply,
        readTimeout_eq htext, readTimeout_eq htext']

/-- A port in the configuration file counts where no flag says another. -/
theorem configure_file_respelled
    (hread : Numeral.read maxPort text'.toList = Numeral.read maxPort text.toList)
    (hport : file.port = some text) (flags : Flags) :
    (configure flags { file with port := some text' }).mapError withoutText =
      (configure flags file).mapError withoutText := by
  cases hflags : flags.settings.port with
  | none =>
    refine configure_respelled hread ?_ ?_ rfl
    · simp [Config.Settings.orElse, hflags, hport]
    · simp [Config.Settings.orElse, hflags]
  | some given =>
    have hsame : (flags.settings.orElse { file with port := some text' }).port =
        (flags.settings.orElse file).port := by simp [Config.Settings.orElse, hflags]
    rw [configure_eq, configure_eq, hsame]
    rfl

theorem Written.readsFile_respelled (H : Written groups arguments)
    (hread : Numeral.read maxPort text'.toList = Numeral.read maxPort text.toList)
    (hport : file.port = some text)
    (hfile : ReadsFile files (lastText .configFile groups) (.ok file))
    (hfile' : ReadsFile files' (lastText .configFile groups)
      (.ok { file with port := some text' })) :
    (CommandLine.read files' arguments).mapError withoutText =
      (CommandLine.read files arguments).mapError withoutText := by
  have hflags := H.readFrom_append {} []
  rw [List.append_nil] at hflags
  rw [← configFile_foldl] at hfile hfile'
  have hconfigure := configure_file_respelled hread hport (groups.foldl Group.apply {})
  rw [read_eq_bind, read_eq_bind, hflags]
  exact (finish_mapError hfile').trans
    ((congrArg (Except.map Command.run) hconfigure).trans (finish_mapError hfile).symm)

/-- What becomes of the text that says the port. -/
structure TakesPort (text : String) (outcome : Except ArgumentError Command) : Prop where
  taken : (∃ c, outcome = .ok (.run c)) ↔ ∃ n ≤ 65535, Denotes text.toList n
  value {n : Nat} {c : Config} (h : outcome = .ok (.run c)) (hn : Denotes text.toList n) :
    c.port = n
  refused (hne : text ≠ "") (hno : ∀ n ≤ 65535, ¬ Denotes text.toList n) :
    outcome = .error (.port text (reason 65535 text.toList))

/-- What becomes of a text that is given for the timeout. -/
structure TakesTimeout (text : String) (outcome : Except ArgumentError Command) : Prop where
  taken : (∀ cause, outcome ≠ .error (.timeout text cause)) ↔ ∃ n < 2 ^ 64, Denotes text.toList n
  refused (hne : text ≠ "") (hno : ∀ n < 2 ^ 64, ¬ Denotes text.toList n) :
    outcome = .error (.timeout text (reason (2 ^ 64 - 1) text.toList))

theorem Written.takesPort (H : Written groups arguments)
    (hfile : ReadsFile files (lastText .configFile groups) (.ok file))
    (htext : chosen groups file .port = some text) :
    TakesPort text (CommandLine.read files arguments) := by
  obtain ⟨c, hread, h⟩ | ⟨cause, hread, h⟩ := H.read_port hfile htext
  · obtain ⟨hdenotes, hle⟩ := read_eq_ok_iff.1 hread
    refine ⟨⟨fun _ => ⟨_, hle, hdenotes⟩, fun _ => ⟨c, h⟩⟩, ?_, fun _ hno => ?_⟩
    · intro n c' hc' hn
      cases h.symm.trans hc'
      exact hdenotes.unique hn
    · exact absurd hdenotes (hno _ hle)
  · have hno := not_denotes_of_read hread
    refine ⟨⟨?_, ?_⟩, ?_, fun hne _ => ?_⟩
    · rintro ⟨c, hc⟩
      cases h.symm.trans hc
    · rintro ⟨n, hle, hn⟩
      exact absurd hn (hno n hle)
    · intro n c hc
      cases h.symm.trans hc
    · cases hread.symm.trans (read_eq_error (mt String.toList_eq_nil_iff.1 hne) hno)
      exact h

theorem Written.takesTimeout (H : Written groups words)
    (hspelling : spelling ∈ (Flag.value .timeout).spellings) (files : Files) (text : String)
    (more : List String) :
    TakesTimeout text (CommandLine.read files (words ++ spelling :: text :: more)) := by
  cases hread : Numeral.read maxSeconds text.toList with
  | error cause =>
    have hno : ∀ n < 2 ^ 64, ¬ Denotes text.toList n :=
      fun n hlt => not_denotes_of_read hread n (Nat.le_of_lt_succ hlt)
    have h := H.read_timeout hspelling hread files more
    refine ⟨⟨fun hnot => absurd h (hnot cause), ?_⟩, fun hne _ => ?_⟩
    · rintro ⟨n, hlt, hn⟩
      exact absurd hn (hno n hlt)
    · cases hread.symm.trans
        (read_eq_error (mt String.toList_eq_nil_iff.1 hne) (not_denotes_of_read hread))
      exact h
  | ok n =>
    obtain ⟨hdenotes, hle⟩ := read_eq_ok_iff.1 hread
    have hlt : n < 2 ^ 64 := Nat.lt_succ_of_le hle
    refine ⟨⟨fun _ => ⟨n, hlt, hdenotes⟩, fun _ cause h => ?_⟩, fun _ hno => ?_⟩
    · cases hread.symm.trans (numeral_of_read_eq h)
    · exact absurd hdenotes (hno n hlt)

/-- Whether arguments are taken in the same way with another text for a number in them, but for the
texts that errors quote. -/
structure ReadAlike (text text' : String) : Prop where
  flag {words : List String} {groups : List Group} {flag : ValueFlag} {spelling : String}
    (H : Written groups words) (hflag : flag = .setting .port ∨ flag = .timeout)
    (hspelling : spelling ∈ (Flag.value flag).spellings) (files : Files) (more : List String) :
    (CommandLine.read files (words ++ spelling :: text' :: more)).mapError withoutText =
      (CommandLine.read files (words ++ spelling :: text :: more)).mapError withoutText
  file {files files' : Files} {arguments : List String} {groups : List Group}
    {file : Config.Settings} (H : Written groups arguments) (hport : file.port = some text)
    (hfile : ReadsFile files (lastText .configFile groups) (.ok file))
    (hfile' : ReadsFile files' (lastText .configFile groups)
      (.ok { file with port := some text' })) :
    (CommandLine.read files' arguments).mapError withoutText =
      (CommandLine.read files arguments).mapError withoutText

/-- What becomes of the texts for numbers in arguments, and of the port in a file. -/
structure ReadsNumbers : Prop where
  port {files : Files} {arguments : List String} {groups : List Group} {file : Config.Settings}
    {text : String} (H : Written groups arguments)
    (hfile : ReadsFile files (lastText .configFile groups) (.ok file))
    (htext : chosen groups file .port = some text) :
    TakesPort text (CommandLine.read files arguments)
  timeout {words : List String} {groups : List Group} {spelling : String} (H : Written groups words)
    (hspelling : spelling ∈ (Flag.value .timeout).spellings) (files : Files) (text : String)
    (more : List String) :
    TakesTimeout text (CommandLine.read files (words ++ spelling :: text :: more))
  /-- The last timeout counts. -/
  last {arguments : List String} {groups : List Group} {text : String}
    (H : Written groups arguments) (htext : lastText .timeout groups = some text) :
    ∃ n < 2 ^ 64, Denotes text.toList n ∧
      ∀ files c, CommandLine.read files arguments = .ok (.run c) →
        c.timeout = if n = 0 then none else some (.ofSeconds n)
  padded {text text' : String} (h : Padded text.toList text'.toList) : ReadAlike text text'

/-- **Numbers in arguments.** The text that says the port makes a configuration if and only if it is
a numeral for a number of at most 65535, and then that is the port. A timeout is taken if and only
if it is a numeral for a number below 2⁶⁴; the last one is that of the configuration, in seconds,
and zero stands for none. Of any other text that is not empty the reason against it is told by the
digits that it begins with. Zeros in front of these change nothing, but for the text that an error
quotes. -/
theorem numbers_in_arguments : ReadsNumbers where
  port := Written.takesPort
  timeout := Written.takesTimeout
  last := by
    intro arguments groups text H htext
    obtain ⟨n, hread, -⟩ := timeout_foldl_of_lastText H.sound htext
    obtain ⟨hdenotes, hle⟩ := read_eq_ok_iff.1 hread
    refine ⟨n, Nat.lt_succ_of_le hle, hdenotes, fun files c h => ?_⟩
    obtain ⟨seconds, hread', hc⟩ := H.timeout_eq htext h
    cases hread.symm.trans hread'
    exact hc
  padded hpadded := {
    flag := fun H hflag hspelling => H.read_respelled hspelling hflag hpadded.read_eq
    file := fun H => H.readsFile_respelled (hpadded.read_eq maxPort) }

/-- A sign and zeros in front do no harm, and a port can be too large whatever comes after its first
digits. -/
theorem numbers_in_arguments_padded :
    (∃ c, CommandLine.read Files.initial ["-t", "007", "-p", "+080"] = .ok (.run c) ∧
      c.port = 80 ∧ c.timeout = some (.ofSeconds 7)) ∧
    CommandLine.read Files.initial ["-t", "007", "-p", "65536x"] =
      .error (.port "65536x" .tooLarge) := by
  have H := numbers_in_arguments
  have Hwritten (text : String) : Written
      [.value .timeout "007", .value (.setting .port) text] ["-t", "007", "-p", text] := by
    refine .cons (g := .value .timeout "007") List.mem_cons_self ?_
      (.cons (g := .value (.setting .port) text) List.mem_cons_self nofun .nil)
    rintro _ ⟨⟩
    exact ⟨7, by decide⟩
  constructor
  · have h80 : Denotes "+080".toList 80 := denotes_iff.2 ⟨nofun, List.all_eq_true.1 rfl, rfl⟩
    have h7 : Denotes "007".toList 7 := denotes_iff.2 ⟨nofun, List.all_eq_true.1 rfl, rfl⟩
    have Hport : TakesPort "+080" (CommandLine.read Files.initial ["-t", "007", "-p", "+080"]) :=
      H.port (Hwritten _) .unnamed rfl
    obtain ⟨c, hc⟩ := Hport.taken.2 ⟨80, by decide, h80⟩
    obtain ⟨n, -, hn, hseconds⟩ := H.last (Hwritten "+080") rfl
    obtain rfl : 7 = n := h7.unique hn
    exact ⟨c, hc, Hport.value hc h80, hseconds Files.initial c hc⟩
  · have hno (n : Nat) : ¬ Denotes "65536x".toList n := fun hn =>
      nomatch List.all_eq_true.2 (denotes_iff.1 hn).2.1
    have Hport : TakesPort "65536x"
        (CommandLine.read Files.initial ["-t", "007", "-p", "65536x"]) :=
      H.port (Hwritten _) .unnamed rfl
    exact Hport.refused (by decide) fun n _ => hno n

end CommandLine

end OnePage
