import OnePage.Chain
import OnePage.Errno
import OnePage.Table
import OnePage.Files.Content
import OnePage.Files.Path

/-! # Files

A tree of directories, and the files that names in it lead to. An open file is known by its
number, and stays the same file when its name goes away or its content changes. -/

namespace OnePage

abbrev FileId := Nat

inductive Node where
  | directory
  | regular (content : Content)
  | fifo
  /-- A device on which nothing more can be written. -/
  | full
  /-- A device that takes all that is written and holds nothing. -/
  | null
  /-- A device that holds zeros without end. -/
  | zero

/-- Why a path does not lead to a file. -/
inductive PathError where
  | nul
  | os (e : Errno)
  deriving DecidableEq, Repr

def PathError.message : PathError → String
  | nul => "file name contained an unexpected NUL byte"
  | os e => e.numbered

/-- A place in the tree: the names on the way from the top, without `.` and `..`. -/
abbrev Place := List String

structure Files where
  nodes : Table Node
  places : List (Place × FileId)

namespace Files

/-- The directory that relative paths start from. -/
def workingDirectory : Place := ["work"]

def idOf? (files : Files) (place : Place) : Option FileId :=
  (files.places.find? fun entry => entry.1 == place).map (·.2)

def nodeAt? (files : Files) (place : Place) : Option Node :=
  (files.idOf? place).bind files.nodes.get?

def isDirectory (files : Files) (place : Place) : Bool :=
  match files.nodeAt? place with
  | some .directory => true
  | _ => false

def addNode (files : Files) (place : Place) (node : Node) : Files :=
  let id := files.nodes.firstFree 0
  { nodes := files.nodes.insert id node, places := (place, id) :: files.places }

/-- The devices, the top of the tree and the working directory. -/
def initial : Files :=
  ([([], .directory), (workingDirectory, .directory), (["dev"], .directory),
    (["dev", "full"], .full), (["dev", "null"], .null), (["dev", "zero"], .zero)] :
      List (Place × Node)).foldl (fun files entry => files.addNode entry.1 entry.2) ⟨∅, []⟩

instance : Inhabited Files := ⟨initial⟩

/-! ## Looking up -/

/-- Goes from a directory to the place that a name has in it. -/
def step (files : Files) (place : Place) (name : String) : Except Errno Place :=
  if !files.isDirectory place then .error .ENOTDIR
  else if name = "." then .ok place
  else if name = ".." then .ok place.dropLast
  else if Path.maxName < Path.length name then .error .ENAMETOOLONG
  else if (files.idOf? (place ++ [name])).isSome then .ok (place ++ [name])
  else .error .ENOENT

def walk (files : Files) (place : Place) (names : List String) : Except Errno Place :=
  names.foldlM files.step place

/-- What is wrong with a path whatever the files are. -/
def checkPath (path : String) : Except PathError Unit :=
  if path.toList.contains (Char.ofNat 0) then .error .nul
  else if path = "" then .error (.os .ENOENT)
  else if Path.maxPath < Path.length path then .error (.os .ENAMETOOLONG)
  else .ok ()

def start (path : String) : Place := if Path.isAbsolute path then [] else workingDirectory

/-- The file that a path leads to. -/
def find (files : Files) (path : String) : Except PathError FileId := do
  checkPath path
  let place ← (files.walk (start path) (Path.names path)).mapError .os
  if Path.endsInSlash path && !files.isDirectory place then throw (.os .ENOTDIR)
  match files.idOf? place with
  | some id => return id
  | none => throw (.os .ENOENT)

/-- Opens a file for writing at its end, and makes it first if there is none. -/
def openForAppend (files : Files) (path : String) : Except PathError (FileId × Files) := do
  checkPath path
  match (Path.names path).getLast? with
  | none => throw (.os .EISDIR)
  | some name =>
    let parent ← (files.walk (start path) (Path.names path).dropLast).mapError .os
    if !files.isDirectory parent then throw (.os .ENOTDIR)
    if Path.endsInSlash path || name == "." || name == ".." then throw (.os .EISDIR)
    if Path.maxName < Path.length name then throw (.os .ENAMETOOLONG)
    let place := parent ++ [name]
    match files.idOf? place with
    | some id => if files.isDirectory place then throw (.os .EISDIR) else return (id, files)
    | none => return (files.nodes.firstFree 0, files.addNode place (.regular .empty))

/-! ## Reading and writing -/

def content? (files : Files) (id : FileId) : Option Content :=
  match files.nodes.get? id with
  | some (.regular content) => some content
  | _ => none

/-- All bytes of the file that a path leads to. -/
def readAll (files : Files) (path : String) : Except PathError (List UInt8) := do
  let id ← files.find path
  match files.nodes.get? id with
  | some (.regular content) => return content.bytes
  | some .directory => throw (.os .EISDIR)
  | some .full => throw (.os .ENOMEM)
  | some .zero => throw (.os .ENOMEM)
  | _ => return []

/-- Whether an open file takes what is written to it. -/
def takes (files : Files) (id : FileId) : Outcome :=
  match files.nodes.get? id with
  | some .full => .error .ENOSPC
  | _ => .ok ()

/-- What an open file has taken stands at its end. -/
def append (files : Files) (id : FileId) (bytes : List UInt8) : Files :=
  match files.nodes.get? id with
  | some (.regular content) =>
    { files with nodes := files.nodes.insert id (.regular (content.append bytes)) }
  | _ => files

end Files

end OnePage
