import TaskRunner.Files.Tree
import TaskRunner.Report.Diagnostic

/-!
# Finding script files

The root file of a project, and the files beside it whose names carry a namespace.
-/

namespace TaskRunner.Project

open Files (FileError Location)

/-- The name of a root file. -/
def rootFileName : String := "Bunoshfile.js"

/-- Why the files of a project cannot be had. -/
inductive DiscoveryError where
  | notFound (dir : String)
  | unreadable (path : String) (cause : FileError)
  | malformed (path source : String) (error : Source.SyntaxError)
deriving Repr

/-- The error in words. -/
def DiscoveryError.message : DiscoveryError → String
  | notFound dir => rootFileName ++ " not found in " ++ dir
  | unreadable path cause => "Failed to read " ++ path ++ ": " ++ cause.message
  | malformed path _ error => "Cannot build commands from " ++ path ++ ": " ++ error.display

/-- The error as shown to the user. -/
def DiscoveryError.diagnostic (colors : Bool) (e : DiscoveryError) : String :=
  match e with
  | notFound dir =>
    let cyan := (Report.Style.of .cyan).paint colors
    (Report.Style.of .yellow).paint colors "⚠" ++ " " ++ rootFileName ++ " not found in " ++ dir ++
      "\n\n  Run " ++ cyan "bunosh init" ++ " to create one,\n  or point to an existing file with " ++
      cyan "--bunoshfile <path>" ++ "."
  | unreadable _ _ => (Report.Style.of .red).paint colors "✗" ++ " " ++ e.message
  | malformed path source error => Report.syntaxDiagnostic colors path error (some source)

/-- A script file of a project. -/
structure LoadedFile where
  path : String
  /-- Empty for the root file. -/
  «namespace» : String
  file : Source.File
deriving Repr

/-- The script files of a project and the directory that they live in. -/
structure Discovery where
  dir : String
  files : List LoadedFile
deriving Repr

/-- The directory and the root file that a start path means. The path may name the file or its
directory. -/
def locate (tree : Files.Tree) (cwd : Location) (start : Option String) (dir : String) :
    String × String :=
  let path := match start with
    | some path => Files.join dir path
    | none => dir
  if tree.isDirectory cwd path then (path, Files.join path rootFileName)
  else ((Files.parent? path).getD dir, path)

/-- The characters of a namespace. -/
def isNamespaceChar (c : Char) : Bool :=
  c.isAlphanum || c == '_' || c == '-'

/-- The namespace in the name of a file beside the root file. -/
def namespaceOf? (name : String) : Option String :=
  let chars := name.toList
  let front := "Bunoshfile.".toList
  let back := ".js".toList
  if front.isPrefixOf chars && back.isSuffixOf chars && front.length + back.length < chars.length then
    let middle := (chars.drop front.length).take (chars.length - front.length - back.length)
    if middle.all isNamespaceChar then some (String.ofList middle) else none
  else none

/-- Reads one script file. -/
def load (tree : Files.Tree) (cwd : Location) (path name : String) :
    Except DiscoveryError LoadedFile :=
  match tree.readText cwd path with
  | .error cause => .error (.unreadable path cause)
  | .ok text =>
    match Source.File.ofText text with
    | .error error => .error (.malformed path text error)
    | .ok file => .ok ⟨path, name, file⟩

/-- The namespaces of the files in a directory with their paths, ascending. -/
def namespacedFiles (tree : Files.Tree) (cwd : Location) (dir : String) :
    Except DiscoveryError (List (String × String)) :=
  match tree.locate cwd dir with
  | .error cause => .error (.unreadable dir cause)
  | .ok .outside => .ok []
  | .ok (.inside names) =>
    let found := (tree.children names).filterMap fun name =>
      (namespaceOf? name).map fun ns => (ns, Files.join dir name)
    .ok (found.mergeSort fun a b => a.1 ≤ b.1)

/-- Reads the root file and those beside it. -/
def discover (tree : Files.Tree) (cwd : Location) (start : Option String) (dir : String) :
    Except DiscoveryError Discovery := do
  let (dir, root) := locate tree cwd start dir
  if tree.isFile cwd root then
    let first ← load tree cwd root ""
    let others ← namespacedFiles tree cwd dir
    let more ← others.mapM fun entry => load tree cwd entry.2 entry.1
    .ok ⟨dir, first :: more⟩
  else .error (.notFound dir)

/-- The commands of all script files. -/
def Discovery.commands (d : Discovery) : List Command :=
  d.files.flatMap fun f => f.file.commands f.namespace

end TaskRunner.Project
