import OnePage.Text.Split
import OnePage.Text.Utf8

/-! # Paths

A path is a text of names with slashes between them, one or more. -/

namespace OnePage.Path

def names (path : String) : List String :=
  (Text.tokens (· == '/') path.toList).map String.ofList

def isAbsolute (path : String) : Bool := path.toList.head? == some '/'

/-- Whether a path ends in a slash, so that it can only name a directory. -/
def endsInSlash (path : String) : Bool := path.toList.getLast? == some '/'

/-- The path of `name` in a directory. The empty path is the directory one is in. -/
def join (directory name : String) : String :=
  if directory = "" ∨ endsInSlash directory then directory ++ name else directory ++ "/" ++ name

/-- Longest name that a directory can hold, in bytes. -/
def maxName : Nat := 255

/-- Longest path that can be looked up, in bytes. -/
def maxPath : Nat := 4095

def length (path : String) : Nat := (Text.bytes path).length

example : names "a//b/./c/" = ["a", "b", ".", "c"] := by decide
example : join "www" "index.html" = "www/index.html" := by decide
example : join "" "index.html" = "index.html" := by decide

end OnePage.Path
