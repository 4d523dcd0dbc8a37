import OnePage.Config.File
import OnePage.Proofs.Cutting

/-! # The grammar of a configuration file

What a line says (`Says`) is told by its parts, and `readLine` finds it. A file is understood if all
of its lines are. Then each option has the value of the last line that sets it, and otherwise the
first line that is not understood is reported, whatever comes after it. -/

namespace OnePage.Config
open Text

/-! ## Lines -/

/-- What is left of a line without its comment and the white space around the rest. -/
inductive Content (content line : List Char) : Prop
  | intro {text comment : List Char} (hcut : Cut (· ≠ '#') line text comment)
    (htrims : Trims content text)

/-- What a line says: nothing, the value of an option, or what is wrong with it. -/
inductive Says (line : List Char) : Except LineProblem (Option (Key × String)) → Prop
  | nothing (hline : Content [] line) : Says line (.ok none)
  | setting {key : Key} {option rest value : List Char}
    (hline : Content (option ++ '=' :: rest) line)
    (hoption : '=' ∉ option) (hkey : Trims key.name.toList option) (hvalue : Trims value rest)
    (hne : value ≠ []) : Says line (.ok (some (key, String.ofList value)))
  | noEqualsSign {content : List Char} (hline : Content content line) (hne : content ≠ [])
    (hcontent : '=' ∉ content) : Says line (.error (.noValue (String.ofList content)))
  | emptyValue {option rest name : List Char} (hline : Content (option ++ '=' :: rest) line)
    (hoption : '=' ∉ option) (hname : Trims name option) (hvalue : Trims [] rest) :
    Says line (.error (.noValue (String.ofList name)))
  | unknownOption {option rest name value : List Char}
    (hline : Content (option ++ '=' :: rest) line) (hoption : '=' ∉ option)
    (hname : Trims name option) (hvalue : Trims value rest) (hne : value ≠ [])
    (hunknown : ∀ key : Key, key.name.toList ≠ name) :
    Says line (.error (.unknownOption (String.ofList name)))

/-- A line that can be understood. -/
def Understood (line : List Char) : Prop := ∃ setting?, Says line (.ok setting?)

section
variable {line content option rest : List Char}

theorem strip_eq_iff : strip line = content ↔ Content content line := by
  constructor
  · rintro rfl
    exact ⟨cut _ line, trims_trim _⟩
  · rintro ⟨hcut, htrims⟩
    rw [strip, hcut.takeWhile_eq, trim_eq_of_trims htrims]

theorem Content.strip_eq (H : Content content line) : strip line = content := strip_eq_iff.2 H

/-- What has been trimmed stays as it is. -/
theorem Content.trim_eq (H : Content content line) : trim content = content := by
  obtain ⟨-, ⟨-, -, hhead, hlast⟩⟩ := H
  have H : Trims content ([] ++ (content ++ [])) := .intro (by simp) (by simp) hhead hlast
  rw [List.nil_append, List.append_nil] at H
  exact trim_eq_of_trims H

theorem divide_append (h : '=' ∉ option) :
    divide (option ++ '=' :: rest) = (trim option, trim rest) := by
  have H : Cut (· ≠ '=') (option ++ '=' :: rest) option ('=' :: rest) :=
    ⟨rfl, fun c hc => decide_eq_true (ne_of_mem_of_not_mem hc h), by simp⟩
  rw [divide, H.takeWhile_eq, H.dropWhile_eq]
  rfl

theorem divide_of_not_mem (h : '=' ∉ content) : divide content = (trim content, []) := by
  have H : Cut (· ≠ '=') content content [] :=
    ⟨by simp, fun c hc => decide_eq_true (ne_of_mem_of_not_mem hc h), by simp⟩
  rw [divide, H.takeWhile_eq, H.dropWhile_eq]
  rfl

theorem Key.ofName?_eq_some {name : List Char} {key : Key} :
    Key.ofName? name = some key ↔ key.name.toList = name := by
  constructor
  · intro h
    simpa using List.find?_some h
  · rintro rfl
    cases key <;> rfl

theorem Key.ofName?_eq_none {name : List Char} :
    Key.ofName? name = none ↔ ∀ key : Key, key.name.toList ≠ name := by
  rw [Option.eq_none_iff_forall_ne_some]
  exact forall_congr' fun key => not_congr Key.ofName?_eq_some

theorem Says.readLine_eq {result : Except LineProblem (Option (Key × String))}
    (H : Says line result) : readLine line = result := by
  cases H with
  | nothing hline => simp [readLine, hline.strip_eq]
  | setting hline hoption hkey hvalue hne =>
    rw [readLine, hline.strip_eq, divide_append hoption, trim_eq_of_trims hkey,
      trim_eq_of_trims hvalue]
    simp [hne, Key.ofName?_eq_some.2 rfl]
  | noEqualsSign hline hne hcontent =>
    rw [readLine, hline.strip_eq, divide_of_not_mem hcontent, hline.trim_eq]
    simp [hne]
  | emptyValue hline hoption hname hvalue =>
    rw [readLine, hline.strip_eq, divide_append hoption, trim_eq_of_trims hname,
      trim_eq_of_trims hvalue]
    simp
  | unknownOption hline hoption hname hvalue hne hunknown =>
    rw [readLine, hline.strip_eq, divide_append hoption, trim_eq_of_trims hname,
      trim_eq_of_trims hvalue]
    simp [hne, Key.ofName?_eq_none.2 hunknown]

/-- Every line says something. -/
theorem exists_says (line : List Char) : ∃ result, Says line result := by
  obtain ⟨content, hline⟩ : ∃ content, Content content line := ⟨_, strip_eq_iff.1 rfl⟩
  by_cases hne : content = []
  · exact ⟨_, .nothing (hne ▸ hline)⟩
  by_cases hmem : '=' ∈ content
  · obtain ⟨option, rest, rfl, hoption⟩ := List.eq_append_cons_of_mem hmem
    by_cases hvalue : trim rest = []
    · exact ⟨_, .emptyValue hline hoption (trims_trim option) (trim_eq_iff.1 hvalue)⟩
    · by_cases hknown : ∃ key : Key, key.name.toList = trim option
      · obtain ⟨key, hkey⟩ := hknown
        exact ⟨_, .setting hline hoption (hkey ▸ trims_trim option) (trims_trim rest) hvalue⟩
      · exact ⟨_, .unknownOption hline hoption (trims_trim option) (trims_trim rest) hvalue
          (not_exists.1 hknown)⟩
  · exact ⟨_, .noEqualsSign hline hne hmem⟩

theorem readLine_eq_iff {result : Except LineProblem (Option (Key × String))} :
    readLine line = result ↔ Says line result := by
  refine ⟨?_, Says.readLine_eq⟩
  rintro rfl
  obtain ⟨result, H⟩ := exists_says line
  rwa [H.readLine_eq]

theorem understood_iff : Understood line ↔ ∃ setting?, readLine line = .ok setting? :=
  exists_congr fun _ => readLine_eq_iff.symm

end

/-! ## Files -/

/-- The value that an option has if the last line that sets it counts. -/
inductive LastValue (key : Key) : List (List Char) → Option String → Prop
  | set {before after : List (List Char)} {line : List Char} {value : String}
    (hline : Says line (.ok (some (key, value))))
    (hafter : ∀ later ∈ after, ∀ other, ¬ Says later (.ok (some (key, other)))) :
    LastValue key (before ++ line :: after) (some value)
  | unset {lines : List (List Char)}
    (hlines : ∀ line ∈ lines, ∀ value, ¬ Says line (.ok (some (key, value)))) :
    LastValue key lines none

/-- The value that a line gives to an option. -/
def valueOn (key : Key) (line : List Char) : Option String :=
  match readLine line with
  | .ok (some (k, value)) => if k = key then some value else none
  | _ => none

section
variable {key : Key} {line : List Char} {lines : List (List Char)} {settings o : Settings} {n : Nat}

theorem valueOn_eq_some_iff {value : String} :
    valueOn key line = some value ↔ Says line (.ok (some (key, value))) := by
  rw [← readLine_eq_iff, valueOn]
  split <;> simp_all

theorem valueOn_eq_none_iff :
    valueOn key line = none ↔ ∀ value, ¬ Says line (.ok (some (key, value))) := by
  rw [Option.eq_none_iff_forall_ne_some]
  exact forall_congr' fun value => not_congr valueOn_eq_some_iff

theorem lastValue_iff {value? : Option String} :
    LastValue key lines value? ↔ (lines.filterMap (valueOn key)).getLast? = value? := by
  have hnil {later : List (List Char)} : later.filterMap (valueOn key) = [] ↔
      ∀ line ∈ later, ∀ value, ¬ Says line (.ok (some (key, value))) := by
    simp only [List.filterMap_eq_nil_iff, valueOn_eq_none_iff]
  constructor
  · rintro (⟨hline, hafter⟩ | hlines)
    · rw [List.filterMap_append, List.filterMap_cons_some (valueOn_eq_some_iff.2 hline),
        hnil.2 hafter, List.getLast?_append_of_ne_nil _ (List.cons_ne_nil _ _)]
      rfl
    · rw [hnil.2 hlines]
      rfl
  · rintro rfl
    cases hvalues : (lines.filterMap (valueOn key)).getLast? with
    | none => exact .unset (hnil.1 (List.getLast?_eq_none_iff.1 hvalues))
    | some value =>
      obtain ⟨values, hvalues⟩ := List.getLast?_eq_some_iff.1 hvalues
      obtain ⟨before, rest, rfl, -, hrest⟩ := List.filterMap_eq_append_iff.1 hvalues
      obtain ⟨between, line, after, rfl, -, hline, hafter⟩ := List.filterMap_eq_cons_iff.1 hrest
      rw [← List.append_assoc]
      exact .set (valueOn_eq_some_iff.1 hline) (hnil.1 hafter)

/-- Lines that are understood set each option to the last value that they give it. -/
theorem readLines_eq_ok (h : ∀ line ∈ lines, Understood line) :
    ∃ o, readLines settings n lines = .ok o ∧
      ∀ key, o.get key = ((lines.filterMap (valueOn key)).getLast?).or (settings.get key) := by
  induction lines generalizing settings n with
  | nil => exact ⟨settings, rfl, fun key => rfl⟩
  | cons line lines ih =>
    obtain ⟨hline, h⟩ := List.forall_mem_cons.1 h
    obtain ⟨setting?, hline⟩ := understood_iff.1 hline
    match setting? with
    | none =>
      obtain ⟨o, ho, hget⟩ := ih h
      refine ⟨o, by rw [readLines, hline]; exact ho, fun key => ?_⟩
      rw [List.filterMap_cons_none (by rw [valueOn, hline])]
      exact hget key
    | some (k, value) =>
      obtain ⟨o, ho, hget⟩ := ih h
      refine ⟨o, by rw [readLines, hline]; exact ho, fun key => ?_⟩
      rw [hget, Settings.get_set, List.filterMap_cons, valueOn, hline]
      by_cases hk : key = k
      · subst hk
        cases hlast : (lines.filterMap (valueOn key)).getLast? <;>
          simp [List.getLast?_cons, hlast]
      · simp [hk, Ne.symm hk]

theorem understood_of_readLines (h : readLines settings n lines = .ok o) :
    ∀ line ∈ lines, Understood line := by
  induction lines generalizing settings n with
  | nil => simp
  | cons line lines ih =>
    rw [readLines] at h
    cases hread : readLine line with
    | error problem =>
      rw [hread] at h
      cases h
    | ok setting? =>
      rw [hread] at h
      refine List.forall_mem_cons.2 ⟨understood_iff.2 ⟨setting?, hread⟩, ?_⟩
      match setting?, h with
      | none, h => exact ih h
      | some (k, value), h => exact ih h

/-- The first line that is not understood is reported. -/
theorem readLines_eq_error_iff {e : LineError} : readLines settings n lines = .error e ↔
    ∃ before line after, lines = before ++ line :: after ∧
      (∀ earlier ∈ before, Understood earlier) ∧ Says line (.error e.problem) ∧
      e.line = n + before.length := by
  induction lines generalizing settings n with
  | nil => simp [readLines]
  | cons line lines ih =>
    have hcons (s : Settings) {setting? : Option (Key × String)}
        (hline : Says line (.ok setting?)) :
        readLines s (n + 1) lines = .error e ↔
          ∃ before line' after, line :: lines = before ++ line' :: after ∧
            (∀ earlier ∈ before, Understood earlier) ∧ Says line' (.error e.problem) ∧
            e.line = n + before.length := by
      rw [ih]
      constructor
      · rintro ⟨before, line', after, rfl, hbefore, hline', hnumber⟩
        refine ⟨line :: before, line', after, rfl, List.forall_mem_cons.2 ⟨⟨_, hline⟩, hbefore⟩,
          hline', ?_⟩
        simp only [List.length_cons]
        omega
      · rintro ⟨before, line', after, hlines, hbefore, hline', hnumber⟩
        cases before with
        | nil =>
          cases hlines
          cases hline.readLine_eq.symm.trans hline'.readLine_eq
        | cons first before =>
          cases hlines
          refine ⟨before, line', after, rfl, (List.forall_mem_cons.1 hbefore).2, hline', ?_⟩
          simp only [List.length_cons] at hnumber
          omega
    rw [readLines]
    cases hread : readLine line with
    | ok setting? =>
      have hline := readLine_eq_iff.1 hread
      match setting? with
      | none => exact hcons settings hline
      | some (k, value) => exact hcons (settings.set value k) hline
    | error problem =>
      have hline := readLine_eq_iff.1 hread
      constructor
      · intro h
        cases h
        exact ⟨[], line, lines, rfl, by simp, hline, rfl⟩
      · rintro ⟨before, line', after, hlines, hbefore, hline', hnumber⟩
        cases before with
        | nil =>
          cases hlines
          cases hread.symm.trans hline'.readLine_eq
          exact congrArg Except.error (by cases e; cases hnumber; rfl)
        | cons first before =>
          cases hlines
          obtain ⟨setting?, hfirst⟩ := understood_iff.1 (hbefore line (by simp))
          cases hread.symm.trans hfirst

end

variable {text text' : List Char} {o : Settings} {e : LineError}

theorem readText_eq_ok_iff : readText text = .ok o ↔
    (∀ line ∈ lines text, Understood line) ∧ ∀ key, LastValue key (lines text) (o.get key) := by
  have hnone (key : Key) : Settings.get {} key = none := by cases key <;> rfl
  have hok (hlines : ∀ line ∈ lines text, Understood line) : ∃ o, readText text = .ok o ∧
      ∀ key, LastValue key (lines text) (o.get key) := by
    obtain ⟨o, ho, hget⟩ := readLines_eq_ok hlines
    refine ⟨o, ho, fun key => lastValue_iff.2 ?_⟩
    rw [hget, hnone, Option.or_none]
  constructor
  · intro h
    have hlines := understood_of_readLines h
    obtain ⟨o', ho', hlast⟩ := hok hlines
    cases h.symm.trans ho'
    exact ⟨hlines, hlast⟩
  · rintro ⟨hlines, hlast⟩
    obtain ⟨o', ho', hlast'⟩ := hok hlines
    rw [ho', Settings.ext_get fun key =>
      (lastValue_iff.1 (hlast' key)).symm.trans (lastValue_iff.1 (hlast key))]

theorem readText_eq_error_iff : readText text = .error e ↔
    ∃ before line after, lines text = before ++ line :: after ∧
      (∀ earlier ∈ before, Understood earlier) ∧ Says line (.error e.problem) ∧
      e.line = before.length + 1 := by
  rw [readText, readLines_eq_error_iff]
  simp only [Nat.add_comm]

/-- How the text of a configuration file is understood. -/
structure Grammar (text : List Char) : Prop where
  /-- Lines are what is between the line feeds. -/
  lines_eq_iff (ls : List (List Char)) : lines text = ls ↔
    ls ≠ [] ∧ (∀ line ∈ ls, '\n' ∉ line) ∧ text = ['\n'].intercalate ls
  says_one_thing (line : List Char) : ∃! result, Says line result
  understood (o : Settings) : readText text = .ok o ↔ (∀ line ∈ lines text, Understood line) ∧
    ∀ key, LastValue key (lines text) (o.get key)
  refused (e : LineError) : readText text = .error e ↔
    ∃ before line after, lines text = before ++ line :: after ∧
      (∀ earlier ∈ before, Understood earlier) ∧ Says line (.error e.problem) ∧
      e.line = before.length + 1
  later_lines {e : LineError} (h : readText text = .error e) {text' : List Char}
    (h' : (lines text').take e.line = (lines text).take e.line) : readText text' = .error e
  no_value_message (file : String) (number : Nat) (option : String) :
    LineError.message file ⟨number, .noValue option⟩ =
      file ++ ":" ++ toString number ++ ": " ++ "option `" ++ option ++ "' has no value"
  unknown_option_message (file : String) (number : Nat) (option : String) :
    LineError.message file ⟨number, .unknownOption option⟩ =
      file ++ ":" ++ toString number ++ ": " ++ "unknown option `" ++ option ++ "'"

/-- **The grammar of a configuration file.** Its lines are what is between the line feeds. It is
understood exactly if each of them is, and then each option has the value of the last line that sets
it, or none if there is no such line. Otherwise the error tells the number of the first line that is
not understood, counting from 1, and what is wrong with that line, and nothing after it makes a
difference. A line says one thing only: it is empty without its comment and the white space around,
or there is a known option before its first equals sign and a value after it. If there is no equals
sign or no value, then that is what is wrong with the line, whatever the option is. -/
theorem config_file_grammar (text : List Char) : Grammar text where
  lines_eq_iff _ := split_eq_iff
  says_one_thing line := ⟨readLine line, readLine_eq_iff.1 rfl, fun _ H => H.readLine_eq.symm⟩
  understood _ := readText_eq_ok_iff
  refused _ := readText_eq_error_iff
  later_lines {e} he {text'} htake := by
    obtain ⟨before, line, after, hlines, hbefore, hline, hnumber⟩ := readText_eq_error_iff.1 he
    have hbeginning : (lines text).take e.line = before ++ [line] := by
      rw [hlines, hnumber]
      simp [List.take_append]
    refine readText_eq_error_iff.2 ⟨before, line, (lines text').drop e.line, ?_, hbefore, hline,
      hnumber⟩
    calc
      lines text' = (lines text').take e.line ++ (lines text').drop e.line :=
        (List.take_append_drop ..).symm
      _ = before ++ line :: (lines text').drop e.line := by
        rw [htake, hbeginning, List.append_assoc]
        rfl
  no_value_message _ _ _ := rfl
  unknown_option_message _ _ _ := rfl

/-- The last value counts, a comment can hold anything, and so can a value. -/
example : readText "#port\nport = 80\r\n\n docroot=a=b #=c\nport=81".toList =
    .ok { port := some "81", docroot := some "a=b" } := by
  decide +kernel

end OnePage.Config
