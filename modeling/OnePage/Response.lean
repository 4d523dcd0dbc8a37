import OnePage.Exchange

/-! # Replies

A reply is the same header for every request and then the page, as long as the page was when it
was opened. A request that cannot be understood gets one fixed text instead. -/

namespace OnePage

/-- Sent ahead of the page. -/
def responseHeader : String :=
  "HTTP/1.1 200 OK\r\nConnection: close\r\nContent-Type: text/html\r\n\r\n"

/-- Sent in reply to a request line that is not understood. -/
def badRequest : String :=
  "HTTP/1.1 400 Bad Request\r\nConnection: close\r\nContent-Type: text/html\r\n\r\n" ++
  "<html><head><title>400 Bad Request</title></head><body>\n" ++
  "<h1>Bad Request</h1>\n" ++
  "You sent a request that the server couldn't understand.\n" ++
  "</body></html>\n"

inductive OpenError where
  | path (path : String) (cause : PathError)
  | notRegular (path : String)
  deriving DecidableEq, Repr

def OpenError.chain : OpenError → Chain
  | path file cause => ["failed to open " ++ file, cause.message]
  | notRegular file => [file ++ " is not a regular file"]

inductive SendError where
  | headerClosed
  | header (e : Errno)
  /-- The file ended after `sent` of the `length` bytes that it had at first. -/
  | shrank (sent length : Nat)
  | sendfile (e : Errno)
  /-- The position in the file does not fit in the type that the system has for it. -/
  | tooLarge
  deriving DecidableEq, Repr

def SendError.chain : SendError → Chain
  | headerClosed => ["connection closed while sending header"]
  | header e => ["failed to send header", e.labelled]
  | shrank sent length =>
    ["file shrank to " ++ toString sent ++ " bytes while sending " ++ toString length]
  | sendfile e => ["sendfile() failed", e.labelled]
  | tooLarge => ["file too large", "out of range integral type conversion attempted"]

inductive Progress where
  | complete
  /-- The socket takes no more until it is writable again. -/
  | blocked
  deriving DecidableEq, Repr

structure Response where
  file : FileId
  headerSent : Nat
  /-- The size of the file when it was opened. -/
  length : Nat
  /-- Bytes of the file that have been sent. -/
  sent : Nat
  deriving DecidableEq, Repr

namespace Response

def header : List UInt8 := Text.bytes responseHeader

/-- The most that one call is asked to send of a file. -/
def chunk : Nat := 0x100000

/-- Positions in a file are below this. -/
def offsetLimit : Nat := 0x8000000000000000

def ofPath (files : Files) (path : String) : Except OpenError Response :=
  match files.find path with
  | .error e => .error (.path path e)
  | .ok id =>
    match files.content? id with
    | none => .error (.notRegular path)
    | some content => .ok { file := id, headerSent := 0, length := content.size, sent := 0 }

/-- Sends what is left of the header, in at most `steps` calls. Each call that goes on has sent a
byte, so as many calls as there are bytes are enough. -/
def sendHeader (r : Response) : Nat → Talk (Except SendError Progress × Response)
  | 0 => return (.ok .complete, r)
  | steps + 1 => do
    if r.headerSent < header.length then
      match ← Talk.send (header.drop r.headerSent) with
      | .ok 0 => return (.error .headerClosed, r)
      | .error .EAGAIN => return (.ok .blocked, r)
      | .error e => return (.error (.header e), r)
      | .ok n =>
        Talk.count (·.addSent n)
        sendHeader { r with headerSent := r.headerSent + n } steps
    else return (.ok .complete, r)

/-- Sends what is left of the file, in at most `steps` calls, as many as there are bytes left. -/
def sendBody (content : Content) (r : Response) : Nat → Talk (Except SendError Progress × Response)
  | 0 => return (.ok .complete, r)
  | steps + 1 => do
    if r.sent < r.length then
      if offsetLimit ≤ r.sent then return (.error .tooLarge, r)
      match ← Talk.sendfile content r.sent (min (r.length - r.sent) chunk) with
      | .ok 0 => return (.error (.shrank r.sent r.length), r)
      | .error .EAGAIN => return (.ok .blocked, r)
      | .error e => return (.error (.sendfile e), r)
      | .ok n =>
        Talk.count (·.addSent n)
        sendBody content { r with sent := r.sent + n } steps
    else return (.ok .complete, r)

/-- Sends as much of the reply as the socket takes. -/
def send (files : Files) (r : Response) : Talk (Except SendError Progress × Response) := do
  match ← r.sendHeader (header.length - r.headerSent) with
  | (.ok .complete, r) =>
    r.sendBody ((files.content? r.file).getD .empty) (r.length - r.sent)
  | stopped => return stopped

/-- Replies to a request that is not understood. What the socket does not take at once is not
sent. -/
def sendBadRequest : Talk Unit := do
  match ← Talk.send (Text.bytes badRequest) with
  | .ok n => Talk.count (·.addSent n)
  | .error _ => return ()

end Response

end OnePage
