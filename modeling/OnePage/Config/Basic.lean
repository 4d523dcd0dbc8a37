import OnePage.Files.Path
import OnePage.Time

/-! # Configuration

What a server is told before it starts. -/

namespace OnePage

inductive LogTarget where
  | stdout
  | syslog
  | file (path : String)
  deriving DecidableEq, Repr

structure Config where
  /-- Without a name the server binds to every interface. -/
  hostname : Option String := none
  port : Nat := 8080
  docroot : String := "."
  /-- How long a connection may stay idle. -/
  timeout : Option Nanoseconds := none
  daemon : Bool := false
  log : LogTarget := .stdout
  deriving DecidableEq, Repr

namespace Config

/-- The name of the page in the document root. -/
def indexName : String := "index.html"

/-- The hostname that stands for every interface. -/
def wildcard : String := "*"

/-- The one file that is ever sent. -/
def indexPath (c : Config) : String := Path.join c.docroot indexName

end Config

end OnePage
