import OnePage.Kernel.Basic

/-! # Writing

A call to write takes as much as it likes of what it is given, so writing goes on until all is taken
or a call fails. The standard streams are written to at once. A file is written to by way of a
buffer: what it does not take is kept, and is written ahead of what comes later. -/

namespace OnePage

/-- What comes of writing some bytes: how many are taken, why the others are not, and the results
that are left. -/
structure Delivery where
  taken : Nat
  result : Except WriteError Unit
  replies : List (Option Reply)

namespace Delivery

/-- Writes `n` bytes. A call without a result of its own does as `otherwise` says, and one that is
interrupted is made again. -/
def run (otherwise : Outcome) (stuck : WriteError) : List (Option Reply) → Nat → Delivery
  | replies, 0 => ⟨0, .ok (), replies⟩
  | [], n + 1 => last [] (n + 1)
  | some (.fails e) :: replies, n + 1 =>
    if e = .EINTR then run otherwise stuck replies (n + 1) else ⟨0, .error (.os e), replies⟩
  | some (.value m) :: replies, n + 1 =>
    if m = 0 then ⟨0, .error stuck, replies⟩
    else
      let more := run otherwise stuck replies (n + 1 - m)
      { more with taken := min m (n + 1) + more.taken }
  | _ :: replies, n + 1 => last replies (n + 1)
where
  last (replies : List (Option Reply)) (n : Nat) : Delivery :=
    match otherwise with
    | .ok () => ⟨n, .ok (), replies⟩
    | .error e => ⟨0, .error (.os e), replies⟩

end Delivery

/-! ## Streams -/

def Stream.call : Stream → SystemCall
  | stdout => .writeOut
  | stderr => .writeError

/-- Writes to a standard stream. One that is closed takes all, and nobody hears of it. -/
def Sys.deliver (stream : Stream) (bytes : List UInt8) : Sys Output := do
  let k ← get
  let delivery := Delivery.run (.ok ()) .untaken (k.forced stream.call) bytes.length
  set { k with forced := k.forced.set stream.call delivery.replies }
  let taken := bytes.take delivery.taken
  match delivery.result with
  | .error e => return if e = .os .EBADF then .print stream taken else .broken stream taken e
  | .ok () => return .print stream taken

/-! ## Files -/

/-- A buffer in front of a file, and what the file has taken so far. -/
structure Buffer where
  kept : List UInt8
  taken : List UInt8 := []
  replies : List (Option Reply)

namespace Buffer

/-- How many bytes are kept at most. -/
def capacity : Nat := 8192

abbrev Step := ExceptT WriteError (StateM Buffer)

variable (otherwise : Outcome)

/-- Writes what is kept. -/
def flush : Step Unit := ExceptT.mk do
  let b ← get
  let delivery := Delivery.run otherwise .keptUntaken b.replies b.kept.length
  set {
    kept := b.kept.drop delivery.taken
    taken := b.taken ++ b.kept.take delivery.taken
    replies := delivery.replies : Buffer }
  return delivery.result

/-- Writes bytes past what is kept. -/
def write (bytes : List UInt8) : Step Unit := ExceptT.mk do
  let b ← get
  let delivery := Delivery.run otherwise .untaken b.replies bytes.length
  set { b with taken := b.taken ++ bytes.take delivery.taken, replies := delivery.replies }
  return delivery.result

/-- Keeps bytes, after writing what is kept if there is no room for them. Where they could never be
kept they are written at once. -/
def put (bytes : List UInt8) : Step Unit := do
  if capacity - (← get).kept.length < bytes.length then flush otherwise
  if capacity ≤ bytes.length then write otherwise bytes
  else modify fun b => { b with kept := b.kept ++ bytes }

/-- Writes a line. -/
def putLine (text : String) : Step Unit := do
  put otherwise (Text.bytes text)
  put otherwise (Text.bytes "\n")
  flush otherwise

end Buffer

/-- Writes a line at the end of the log's file: what the file takes, and whether that is all. -/
def Sys.appendLine (id : FileId) (text : String) : Sys (List UInt8 × Except WriteError Unit) := do
  let k ← get
  let (result, b) := (Buffer.putLine (k.files.takes id) text).run.run
    { kept := k.unwritten, replies := k.forced .append }
  set { k with
    files := k.files.append id b.taken
    unwritten := b.kept
    forced := k.forced.set .append b.replies }
  return (b.taken, result)

/-- Writes what is kept for the log's file; what the file takes of it. -/
def Sys.flush (id : FileId) : Sys (List UInt8) := do
  let k ← get
  let (_, b) := (Buffer.flush (k.files.takes id)).run.run
    { kept := k.unwritten, replies := k.forced .append }
  set { k with
    files := k.files.append id b.taken
    unwritten := b.kept
    forced := k.forced.set .append b.replies }
  return b.taken

end OnePage
