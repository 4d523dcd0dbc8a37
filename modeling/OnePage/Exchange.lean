import OnePage.Chain
import OnePage.Errno
import OnePage.Files.Basic
import OnePage.Stats

/-! # Exchanges

What is done on one connection's socket, and what comes back. The results that the socket has yet
to give are a list for each kind of operation; once a list is used up, nothing is there to receive
and everything is taken that is sent. An exchange depends on nothing but these lists and what it
is given, so connections cannot reach into each other. -/

namespace OnePage

/-- Something done on a connection's socket, or on the page for it, with its result. -/
inductive Operation where
  /-- Opens the page. -/
  | openPage (path : String) (opened : Bool)
  | recv (room : Nat) (result : Except Errno (List UInt8))
  | send (asked : Nat) (result : Except Errno (List UInt8))
  | sendfile (offset asked : Nat) (result : Except Errno (List UInt8))
  /-- Asks for the error that an error event announced. -/
  | takeError (result : Outcome)

/-- Results that a socket has yet to give. -/
structure Pending where
  recv : List (Except Errno (List UInt8)) := []
  /-- How many bytes each call takes at most. -/
  send : List (Except Errno Nat) := []
  sendfile : List (Except Errno Nat) := []
  error : List (Option Errno) := []
  /-- Failures to ask for the error. -/
  takeError : List Errno := []

/-- More results behind those of each kind. -/
def Pending.append (p more : Pending) : Pending where
  recv := p.recv ++ more.recv
  send := p.send ++ more.send
  sendfile := p.sendfile ++ more.sendfile
  error := p.error ++ more.error
  takeError := p.takeError ++ more.takeError

structure Exchange where
  pending : Pending
  /-- What has been done, in order. -/
  done : Array Operation
  stats : Stats

/-- A part of a conversation with a peer. -/
abbrev Talk := StateM Exchange

namespace Talk

def record (op : Operation) : Talk Unit := modify fun x => { x with done := x.done.push op }

def count (change : Stats → Stats) : Talk Unit := modify fun x => { x with stats := change x.stats }

/-- Receives at most `room` bytes. No bytes at all mean that the peer will send no more. -/
def recv (room : Nat) : Talk (Except Errno (List UInt8)) := do
  let x ← get
  let result := match x.pending.recv.head? with
    | none => .error .EAGAIN
    | some (.error e) => .error e
    | some (.ok data) => .ok (data.take room)
  set { x with pending := { x.pending with recv := x.pending.recv.tail } }
  record (.recv room result)
  return result

/-- How many of `asked` bytes a call takes. -/
def taken (asked : Nat) : Option (Except Errno Nat) → Except Errno Nat
  | none => .ok asked
  | some (.error e) => .error e
  | some (.ok n) => .ok (min n asked)

/-- Sends as many of the bytes as the socket takes, and tells how many. -/
def send (data : List UInt8) : Talk (Except Errno Nat) := do
  let x ← get
  let result := taken data.length x.pending.send.head?
  set { x with pending := { x.pending with send := x.pending.send.tail } }
  record (.send data.length (result.map data.take))
  return result

/-- Sends part of a file. Nothing is sent from past its end. -/
def sendfile (content : Content) (offset asked : Nat) : Talk (Except Errno Nat) := do
  let x ← get
  let result := (taken asked x.pending.sendfile.head?).map (content.read offset)
  set { x with pending := { x.pending with sendfile := x.pending.sendfile.tail } }
  record (.sendfile offset asked result)
  return result.map List.length

/-- The error that an error event announced, if it can be had. -/
def takeError : Talk (Option Errno) := do
  let x ← get
  match x.pending.takeError with
  | e :: rest =>
    set { x with pending := { x.pending with takeError := rest } }
    record (.takeError (.error e))
    return none
  | [] =>
    set { x with pending := { x.pending with error := x.pending.error.tail } }
    record (.takeError (.ok ()))
    return x.pending.error.head?.join

end Talk

end OnePage
