import TaskRunner.Files.Path
import TaskRunner.Text.Utf8

/-!
# File trees

A directory and all that lies below it. Places in it are lists of names; what lies beside or above the
directory exists as directories and holds nothing. Operations fail with the causes that an operating
system gives.
-/

namespace TaskRunner.Files

/-- Why a file operation fails. -/
inductive FileError where
  | notFound
  | permissionDenied
  | alreadyExists
  | notDirectory
  | isDirectory
  | nameTooLong
  | notEmpty
  | nulInName
  | invalidText
deriving DecidableEq, Repr

/-- The wording of a cause. -/
def FileError.message : FileError → String
  | notFound => "No such file or directory (os error 2)"
  | permissionDenied => "Permission denied (os error 13)"
  | alreadyExists => "File exists (os error 17)"
  | notDirectory => "Not a directory (os error 20)"
  | isDirectory => "Is a directory (os error 21)"
  | nameTooLong => "File name too long (os error 36)"
  | notEmpty => "Directory not empty (os error 39)"
  | nulInName => "file name contained an unexpected NUL byte"
  | invalidText => "stream did not contain valid UTF-8"

/-- What lies at a place. -/
inductive Node where
  | file (bytes : List UInt8)
  | directory
deriving DecidableEq, Repr

/-- A place: the names that lead to it from the directory of the tree, or somewhere outside. -/
inductive Location where
  | inside (names : List String)
  | outside
deriving DecidableEq, Repr

/-- A tree: the nodes below its directory, each with the names that lead to it. -/
structure Tree where
  nodes : List (List String × Node)
deriving DecidableEq, Repr

namespace Tree

/-- A tree with nothing in it. -/
def empty : Tree := ⟨[]⟩

/-- What lies at a place. -/
def node? (t : Tree) : Location → Option Node
  | .outside => some .directory
  | .inside [] => some .directory
  | .inside names => t.nodes.lookup names

/-- Puts a node at a place, in place of what is there. -/
def put (t : Tree) (names : List String) (node : Node) : Tree :=
  ⟨t.nodes.filter (fun entry => entry.1 != names) ++ [(names, node)]⟩

/-- Takes away what lies at a place and below it. -/
def erase (t : Tree) (names : List String) : Tree :=
  ⟨t.nodes.filter fun entry => !names.isPrefixOf entry.1⟩

/-- The names of what lies directly in a directory, ascending. -/
def children (t : Tree) (dir : List String) : List String :=
  let below := t.nodes.filterMap fun entry =>
    if entry.1.length = dir.length + 1 && dir.isPrefixOf entry.1 then entry.1.getLast? else none
  below.mergeSort fun a b => a ≤ b

/-- Puts a file below directories, which are made where they are missing. -/
def putDeep (t : Tree) (names : List String) (node : Node) : Tree :=
  let dirs := (List.range names.length).map fun n => names.take n
  let t := dirs.foldl (fun t dir =>
    if dir.isEmpty || (t.node? (.inside dir)).isSome then t else t.put dir .directory) t
  t.put names node

/-- The regular files with their paths, ascending. -/
def files (t : Tree) : List (String × List UInt8) :=
  let found := t.nodes.filterMap fun entry =>
    match entry.2 with
    | .file bytes => some ("/".intercalate entry.1, bytes)
    | .directory => none
  found.mergeSort fun a b => a.1 ≤ b.1

/-! ## Finding places -/

/-- One name further from a directory. -/
def down (loc : Location) (name : String) : Location :=
  match loc with
  | .outside => .outside
  | .inside names =>
    if name == ".." then (if names.isEmpty then .outside else .inside names.dropLast)
    else .inside (names ++ [name])

/-- Follows names; every place on the way must be a directory. -/
def follow (t : Tree) : Location → List String → Except FileError Location
  | loc, [] => .ok loc
  | loc, name :: rest =>
    match t.node? loc with
    | none => .error .notFound
    | some (.file _) => .error .notDirectory
    | some .directory =>
      if 255 < name.utf8ByteSize then .error .nameTooLong
      else if loc == .outside && name != ".." then .error .notFound
      else follow t (down loc name) rest

/-- The place of a path as seen from a directory; it need not exist, but what leads to it must. -/
def locate (t : Tree) (cwd : Location) (path : String) : Except FileError Location :=
  if path.contains '\x00' then .error .nulInName
  else if path.isEmpty then .error .notFound
  else if 4095 < path.utf8ByteSize then .error .nameTooLong
  else t.follow (if isAbsolute path then .outside else cwd) (names path)

/-- Whether a path can only mean a directory. -/
def endsAsDirectory (path : String) : Bool :=
  path.endsWith "/" || path.endsWith "/." || path.endsWith "/.." || path == "." || path == ".."

/-- What lies at a path. -/
def get (t : Tree) (cwd : Location) (path : String) : Except FileError Node := do
  let loc ← t.locate cwd path
  match t.node? loc with
  | none => .error .notFound
  | some (.file bytes) => if endsAsDirectory path then .error .notDirectory else .ok (.file bytes)
  | some .directory => .ok .directory

/-- Whether a directory lies at a path. -/
def isDirectory (t : Tree) (cwd : Location) (path : String) : Bool :=
  match t.get cwd path with
  | .ok .directory => true
  | _ => false

/-- Whether a file lies at a path. -/
def isFile (t : Tree) (cwd : Location) (path : String) : Bool :=
  match t.get cwd path with
  | .ok (.file _) => true
  | _ => false

/-! ## Reading and writing -/

/-- The bytes of a file. -/
def read (t : Tree) (cwd : Location) (path : String) : Except FileError (List UInt8) := do
  match ← t.get cwd path with
  | .file bytes => .ok bytes
  | .directory => .error .isDirectory

/-- The text of a file. -/
def readText (t : Tree) (cwd : Location) (path : String) : Except FileError String := do
  match Text.strict? (← t.read cwd path) with
  | some text => .ok text
  | none => .error .invalidText

/-- Writes a file, or adds to it. -/
def write (t : Tree) (cwd : Location) (path : String) (append : Bool) (bytes : List UInt8) :
    Except FileError Tree := do
  let loc ← t.locate cwd path
  match t.node? loc, loc with
  | some .directory, _ => .error .isDirectory
  | some (.file old), .inside names =>
    if endsAsDirectory path then .error .notDirectory
    else .ok (t.put names (.file (if append then old ++ bytes else bytes)))
  | none, .inside names =>
    if endsAsDirectory path then .error .isDirectory else .ok (t.put names (.file bytes))
  | _, .outside => .error .permissionDenied

/-- Makes one directory. -/
def makeDirectory (t : Tree) (cwd : Location) (path : String) : Except FileError Tree := do
  let loc ← t.locate cwd path
  match t.node? loc, loc with
  | some _, _ => .error .alreadyExists
  | none, .inside names => .ok (t.put names .directory)
  | none, .outside => .error .permissionDenied

/-- Makes a directory and those above it, `fuel` levels at most. What was made before a failure stays. -/
def makeDirectoriesWithin (t : Tree) (cwd : Location) : Nat → String → Tree × Option FileError
  | 0, _ => (t, some .notFound)
  | fuel + 1, path =>
    if path.isEmpty then (t, none)
    else
      let present := fun (t : Tree) (e : FileError) =>
        if t.isDirectory cwd path then (t, none) else (t, some e)
      match t.makeDirectory cwd path, parent? path with
      | .ok t, _ => (t, none)
      | .error .notFound, some above =>
        match t.makeDirectoriesWithin cwd fuel above with
        | (t, some e) => (t, some e)
        | (t, none) =>
          match t.makeDirectory cwd path with
          | .ok t => (t, none)
          | .error e => present t e
      | .error e, _ => present t e

/-- Makes a directory and those above it, and says why it failed. -/
def makeDirectories (t : Tree) (cwd : Location) (path : String) : Tree × Option FileError :=
  t.makeDirectoriesWithin cwd (path.length + 1) path

end Tree

end TaskRunner.Files
