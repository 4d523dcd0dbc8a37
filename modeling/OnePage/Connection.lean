import OnePage.Log.Encoding
import OnePage.Net.Address
import OnePage.Readiness
import OnePage.Request
import OnePage.Response
import OnePage.Text.Blank
import OnePage.Time

/-! # Connections

A connection waits for a request line, then has a reply under way, and is closed once the reply is
out or something has failed. What it does on an event depends on its own record, its own socket
and the page. -/

namespace OnePage

inductive Status where
  | ok
  | badRequest
  deriving DecidableEq, Repr

def Status.code : Status → Nat
  | ok => 200
  | badRequest => 400

inductive Stage where
  /-- Waiting for the request line. -/
  | accepted
  /-- A reply is under way. -/
  | requestReceived
  | responseSent
  | failed
  deriving DecidableEq, Repr

structure Connection where
  socket : Fd
  peer : Net.Endpoint
  interest : Interest
  stage : Stage
  lastActive : Nanoseconds
  /-- What has come of the request line, while it is waited for. -/
  request : List UInt8
  /-- The request line as the access log shows it. -/
  requestLine : Option String
  status : Option Status
  response : Option Response
  deriving DecidableEq, Repr

inductive ConnectionError where
  | socket (cause : Option Errno)
  | closedEarly
  | recv (e : Errno)
  | opening (cause : OpenError)
  | noResponse
  | sending (cause : SendError)
  deriving DecidableEq, Repr

def ConnectionError.chain : ConnectionError → Chain
  | socket none => ["socket error"]
  | socket (some e) => ["socket error", e.numbered]
  | closedEarly => ["connection closed before response was sent"]
  | recv e => ["recv() failed", e.labelled]
  | opening cause => cause.chain
  | noResponse => ["no response to send"]
  | sending cause => cause.chain

/-- What is to be done with a connection after an event. -/
inductive Verdict where
  | wait
  /-- It waits for something else from now on. -/
  | rearm
  | close
  | fail (cause : ConnectionError)
  deriving DecidableEq, Repr

namespace Connection

/-- A request line must arrive within this many bytes. -/
def requestSize : Nat := 1024

def new (now : Nanoseconds) (socket : Fd) (peer : Net.Endpoint) : Connection where
  socket := socket
  peer := peer
  interest := .read
  stage := .accepted
  lastActive := now
  request := []
  requestLine := none
  status := none
  response := none

/-- Gives the connection up. -/
def fail (c : Connection) : Connection := { c with stage := .failed }

/-- Bytes of the page that have been sent. -/
def bytesSent (c : Connection) : Nat :=
  match c.response with
  | some response => response.sent
  | none => 0

/-- The request line of an understood request in the access log. -/
def logRequest (line : RequestLine) : String :=
  String.ofList (Log.encode line.method ++ [' '] ++ Log.encode line.uri ++ [' '] ++
    Log.encode line.version)

/-- What the access log shows of a request that is not understood, provided it is text. -/
def logRejected (received : List UInt8) : Option String :=
  (Text.Utf8.decode received).map fun cs =>
    String.ofList (Log.encode (Text.Utf8.encode (Text.trimEnd cs)))

/-- Replies that the request is not understood. -/
def reject (c : Connection) : Talk (Verdict × Connection) := do
  let c := match logRejected c.request with
    | some line => { c with requestLine := some line }
    | none => c
  Response.sendBadRequest
  return (.close, { c with status := some .badRequest, stage := .failed })

/-- Sends on, and waits for room where the socket takes no more. -/
def sendResponse (c : Connection) (files : Files) : Talk (Verdict × Connection) := do
  match c.response with
  | none => return (.fail .noResponse, c)
  | some response =>
    match ← response.send files with
    | (.ok .complete, response) =>
      return (.close, { c with response := some response, stage := .responseSent })
    | (.ok .blocked, response) =>
      let c := { c with response := some response }
      if c.interest = .write then return (.wait, c)
      else return (.rearm, { c with interest := .write })
    | (.error e, response) => return (.fail (.sending e), { c with response := some response })

/-- Keeps a request line that is understood. -/
def understand (c : Connection) (line : RequestLine) : Connection :=
  { c with requestLine := some (logRequest line), request := [], stage := .requestReceived }

/-- Opens the page and starts to reply. -/
def beginResponse (c : Connection) (files : Files) (page : String) : Talk (Verdict × Connection) :=
  match Response.ofPath files page with
  | .error e => do
    Talk.record (.openPage page false)
    return (.fail (.opening e), c)
  | .ok response => do
    Talk.record (.openPage page true)
    -- there may be room to send at once
    sendResponse { c with response := some response, status := some .ok } files

/-- Looks at what has come of the request, the last of it on an event with the conditions `ready`,
and starts to reply once there is a whole line. -/
def takeRequest (c : Connection) (ready : Conditions) (files : Files) (page : String) :
    Talk (Verdict × Connection) := do
  if Request.hasLine c.request then
    Talk.count (·.addRequest)
    match Request.parse c.request with
    | .error _ => c.reject
    | .ok line => (c.understand line).beginResponse files page
  else if c.request.length < requestSize && !ready.isHangup then return (.wait, c)
  -- the line will not be completed, and the hangup will not be reported again
  else c.reject

/-- Keeps part of a request line that has come. -/
def gather (c : Connection) (now : Nanoseconds) (data : List UInt8) : Connection :=
  { c with lastActive := now, request := c.request ++ data }

/-- Receives part of the request. -/
def receive (c : Connection) (ready : Conditions) (files : Files) (page : String)
    (now : Nanoseconds) : Talk (Verdict × Connection) := do
  match ← Talk.recv (requestSize - c.request.length) with
  | .ok [] =>
    if c.request = [] then return (.close, c.fail) else c.reject
  | .error .EAGAIN =>
    if !ready.isHangup then return (.wait, c)
    else if c.request = [] then return (.close, c.fail)
    else c.reject
  | .error e => return (.fail (.recv e), c)
  | .ok data =>
    Talk.count (·.addReceived data.length)
    (c.gather now data).takeRequest ready files page

/-- What a connection does on an event. -/
def handle (c : Connection) (ready : Conditions) (files : Files) (page : String)
    (now : Nanoseconds) : Talk (Verdict × Connection) := do
  if ready.error then
    return (.fail (.socket (← Talk.takeError)), c)
  match c.stage with
  | .accepted => c.receive ready files page now
  | .requestReceived =>
    if ready.hangup then return (.fail .closedEarly, c)
    else if ready.output then sendResponse { c with lastActive := now } files
    else return (.wait, c)
  | .responseSent => return (.close, c)
  | .failed => return (.close, c)

end Connection

end OnePage
