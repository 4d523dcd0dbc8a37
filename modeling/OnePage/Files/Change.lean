import OnePage.Files.Basic

/-! # Changes to files

What others do to the files that a process uses. A file that is open stays the same file: its
content is replaced in place, and a name that is gone does not take the file with it. -/

namespace OnePage

inductive FileChange where
  /-- Replaces a file's content, or makes a new file and the directories it needs. -/
  | write (path : String) (bytes : List UInt8)
  | makeDirectory (path : String)
  | makeFifo (path : String)
  | remove (path : String)
  | resize (path : String) (size : Nat)

namespace Files

/-- Makes the directory at a place unless something is there already. -/
def ensureDirectory (files : Files) (place : Place) : Files :=
  if (files.idOf? place).isSome then files else files.addNode place .directory

/-- Makes a directory and all that lead to it. -/
def ensureDirectories (files : Files) (place : Place) : Files :=
  (List.range (place.length + 1)).foldl (fun files n => files.ensureDirectory (place.take n)) files

/-- The place a path names, whatever is there. -/
def placeOf (path : String) : Place :=
  (Path.names path).foldl
    (fun place name =>
      if name = "." then place else if name = ".." then place.dropLast else place ++ [name])
    (start path)

/-- Puts a node at a place, in place of a file that is there. -/
def put (files : Files) (place : Place) (node : Node) : Files :=
  let files := files.ensureDirectories place.dropLast
  match files.idOf? place with
  | some id => { files with nodes := files.nodes.insert id node }
  | none => files.addNode place node

def change (files : Files) : FileChange → Files
  | .write path bytes => files.put (placeOf path) (.regular (.ofBytes bytes))
  | .makeDirectory path => files.ensureDirectories (placeOf path)
  | .makeFifo path => files.put (placeOf path) .fifo
  | .remove path =>
    { files with places := files.places.filter fun entry => entry.1 != placeOf path }
  | .resize path size =>
    match files.idOf? (placeOf path) with
    | none => files
    | some id =>
      match files.content? id with
      | none => files
      | some content =>
        { files with nodes := files.nodes.insert id (.regular (content.truncate size)) }

def changes (files : Files) (list : List FileChange) : Files := list.foldl change files

end Files

end OnePage
