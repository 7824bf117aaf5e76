import CellMachine.Sink.Basic

/-!
# Folders

A tree of files held in memory, with the errors that a file system gives for paths
that lead nowhere. A path is walked name by name from the folder, or from the root
if it starts with a slash. Only a directory can be walked on from, also where the
next name is a dot, and where a slash ends the path.

Places above the folder are told by names `..` at the front, and places below the
root by the name `/`.
-/

namespace CellMachine

/-- Why a file cannot be had. -/
inductive FileCause where
  | absent
  | isDirectory
  | notDirectory
  | noSpace
  | nameTooLong
  /-- A path that no file can have. -/
  | invalid
  /-- Another reason, in the system's words. -/
  | other (text : String)
deriving DecidableEq, Inhabited

/-- The wording of a cause. -/
def FileCause.message : FileCause → String
  | absent => "no such file or directory"
  | isDirectory => "is a directory"
  | notDirectory => "not a directory"
  | noSpace => "no space left on device"
  | nameTooLong => "file name too long"
  | invalid => "invalid argument"
  | other text => text

/-- An operation on a file that failed. -/
structure FileError where
  action : String
  path : String
  cause : FileCause
deriving DecidableEq, Inhabited

/-- The wording of a file error. -/
def FileError.message (e : FileError) : String :=
  e.action ++ " " ++ e.path ++ ": " ++ e.cause.message

/-- What a path can lead to. -/
inductive FileNode where
  | file (content : ByteArray)
  | directory
  /-- A device that takes no bytes. -/
  | fullDevice
deriving Inhabited

/-- Whether a node is not a directory. -/
def FileNode.isFile : FileNode → Bool
  | directory => false
  | file _ | fullDevice => true

/-- A tree of files. Places are lists of names, and the directories that lead to
an entry need no entries of their own. -/
structure Folder where
  entries : List (List String × FileNode)
deriving Inhabited

/-! ## Paths -/

/-- The place of a name below a place, after stepping back where it says so. -/
def stepTo (place : List String) (name : String) : List String :=
  if name = "" ∨ name = "." then place
  else if name = ".." then
    match place.getLast? with
    | none | some ".." => place ++ [".."]
    | some "/" => place
    | some _ => place.dropLast
  else place ++ [name]

/-- Where a path starts, and its names. Empty names stand between slashes. -/
def pathNames (path : String) : List String × List String :=
  match path.splitOn "/" with
  | "" :: rest@(_ :: _) => (["/"], rest)
  | names => ([], names)

/-- The place of a path in a tree where every name on it is a directory. -/
def placeOf (path : String) : List String :=
  let (start, names) := pathNames path
  names.foldl stepTo start

/-- The place of the directory of a path, which is what stands before its last slash,
in a tree where every name on it is a directory. -/
def parentOf (path : String) : List String :=
  let (start, names) := pathNames path
  names.dropLast.foldl stepTo start

/-- The path that leads to a place. -/
def pathOf (place : List String) : String :=
  match place with
  | [] => "."
  | "/" :: rest => "/" ++ "/".intercalate rest
  | place => "/".intercalate place

/-- The greatest number of bytes in a name. -/
def greatestName : Nat := 255

/-- The number of bytes that every path is shorter than. -/
def pathBound : Nat := 4096

/-- Refuses a path that no file can have. -/
def checkPath (path : String) : Except FileCause Unit :=
  if path.any (· == Char.ofNat 0) then .error .invalid
  else if path.isEmpty then .error .absent
  else if pathBound ≤ path.utf8ByteSize then .error .nameTooLong
  else .ok ()

/-! ## Finding -/

namespace Folder

/-- What a place holds. -/
def node? (f : Folder) (place : List String) : Option FileNode :=
  if place.all (· == "..") || place == ["/"] then some .directory
  else
    match f.entries.find? (·.1 == place) with
    | some (_, node) => some node
    | none => if f.entries.any fun e => place.isPrefixOf e.1 then some .directory else none

/-- Refuses a place that is not a directory. -/
def checkDirectory (f : Folder) (place : List String) : Except FileCause Unit :=
  match f.node? place with
  | some .directory => .ok ()
  | some _ => .error .notDirectory
  | none => .error .absent

/-- The place that names lead to from a place. The last one may hold nothing. -/
def walk (f : Folder) (place : List String) : List String → Except FileCause (List String)
  | [] => .ok place
  | name :: rest => do
    f.checkDirectory place
    if greatestName < name.utf8ByteSize then throw .nameTooLong
    f.walk (stepTo place name) rest

/-- The place that a path leads to, which may hold nothing. -/
def place (f : Folder) (path : String) : Except FileCause (List String) := do
  checkPath path
  let (start, names) := pathNames path
  f.walk start names

/-- What a path leads to, or why it leads nowhere. -/
def find (f : Folder) (path : String) : Except FileCause FileNode := do
  match f.node? (← f.place path) with
  | some node => return node
  | none => throw .absent

/-- The content of a file. -/
def read (f : Folder) (path : String) : Except FileError ByteArray :=
  match f.find path with
  | .error cause => .error ⟨"open", path, cause⟩
  | .ok (.file content) => .ok content
  | .ok .directory => .error ⟨"read", path, .isDirectory⟩
  | .ok .fullDevice => .ok .empty

/-! ## Changing -/

/-- The folder with an entry added or replaced. -/
def put (f : Folder) (place : List String) (node : FileNode) : Folder :=
  ⟨(place, node) :: f.entries.filter (·.1 != place)⟩

/-- The folder without what is at a place and below it. -/
def remove (f : Folder) (place : List String) : Folder :=
  ⟨f.entries.filter fun e => !place.isPrefixOf e.1⟩

/-- Whether a path ends with a name, and not with a slash or dots. -/
def endsWithName (path : String) : Bool :=
  let last := (path.splitOn "/").getLastD ""
  last != "" && last != "." && last != ".."

/-- The place of a file that is to be written anew. A path that ends with a slash is
taken for one of a directory, whatever it leads to. -/
def placeToCreate (f : Folder) (path : String) : Except FileCause (List String) := do
  checkPath path
  let (start, names) := pathNames path
  let names := (names.reverse.dropWhile (· == "")).reverse
  let parent ← f.walk start names.dropLast
  f.checkDirectory parent
  let name := names.getLastD ""
  if !endsWithName path then throw .isDirectory
  if greatestName < name.utf8ByteSize then throw .nameTooLong
  let place := parent ++ [name]
  match f.node? place with
  | some .directory => throw .isDirectory
  | _ => return place

/-- The place and the destination for a file that is to be written anew. -/
def create (f : Folder) (path : String) : Except FileError (List String × Sink) :=
  match f.placeToCreate path with
  | .error cause => .error ⟨"open", path, cause⟩
  | .ok place =>
    match f.node? place with
    | some .fullDevice =>
      .ok (place, Sink.new (some 0) (FileError.message ⟨"write", path, .noSpace⟩))
    | _ => .ok (place, .unbounded)

/-- Makes the directories on the way to a place and the place itself. -/
def makeDirectories (f : Folder) (place : List String) : Except FileError Folder :=
  let way := (List.range (place.length + 1)).map place.take
  match way.find? fun p => (f.node? p).any FileNode.isFile with
  | some p => .error ⟨"mkdir", pathOf p, .notDirectory⟩
  | none => .ok (if (f.node? place).isSome then f else f.put place .directory)

end Folder

end CellMachine
