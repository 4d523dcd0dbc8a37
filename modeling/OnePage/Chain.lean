/-! # Chains of causes

Why something failed, told as texts: what failed, then what made it fail, and so on. -/

namespace OnePage

abbrev Chain := List String

namespace Chain

/-- All on one line. -/
def oneLine (chain : Chain) : String := ": ".intercalate chain

/-- Causes on lines of their own, numbered where there is more than one. -/
def causeLines : Chain → String
  | [] => ""
  | [cause] => "    " ++ cause ++ "\n"
  | causes =>
    String.join (causes.mapIdx fun i cause => "    " ++ toString i ++ ": " ++ cause ++ "\n")

/-- The text that tells a user why a program failed. -/
def report : Chain → String
  | [] => "Error: \n"
  | [problem] => "Error: " ++ problem ++ "\n"
  | problem :: causes => "Error: " ++ problem ++ "\n\nCaused by:\n" ++ causeLines causes

end Chain

end OnePage
