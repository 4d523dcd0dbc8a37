import OnePage.Connection
import OnePage.Log.Stamp

/-! # The access log

A line for each request that was answered: the peer, the time, the request line, the status and
how much of the page was sent. -/

namespace OnePage.Log

/-- The line for a connection that is closed `seconds` after the start of 1970, if it has one. -/
def accessLine (c : Connection) (seconds zone : Int) : Option String :=
  match c.status, c.requestLine with
  | some status, some requestLine =>
    some (c.peer.ip.text ++ " - - " ++ String.ofList (stamp seconds zone) ++ " \"" ++ requestLine ++
      "\" " ++ toString status.code ++ " " ++ toString c.bytesSent)
  | _, _ => none

end OnePage.Log
