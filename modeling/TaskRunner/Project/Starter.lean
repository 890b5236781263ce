import TaskRunner.Project.Discovery

/-!
# The starter file

The script file that a new project begins with.
-/

namespace TaskRunner.Project

open Files (FileError Location)

/-- The lines of the starter file. -/
def starterLines : List String :=
  ["import \x7b exec, fetch, writeToFile, task, say \x7d from 'bunosh';",
    "",
    "/**",
    " * Says hello",
    " */",
    "export async function hello(name = 'World') \x7b",
    "  say(\x60Hello, $\x7bname\x7d!\x60);",
    "\x7d",
    "",
    "/**",
    " * Builds the project",
    " * @param env target environment",
    " */",
    "export async function build(env = 'development', opts = \x7b verbose: false \x7d) \x7b",
    "  await task('Install dependencies', () => exec\x60npm install\x60);",
    "  await exec\x60npm run build\x60.env(\x7b NODE_ENV: env \x7d);",
    "  if (opts.verbose) say(\x60Built for $\x7benv\x7d\x60);",
    "\x7d",
    "",
    "/**",
    " * Writes a release note",
    " */",
    "export async function notes(version) \x7b",
    "  await writeToFile('RELEASE.md', line => \x7b",
    "    line\x60# Release $\x7bversion\x7d\x60;",
    "    line\x60\x60;",
    "  \x7d);",
    "\x7d"]

/-- The text of the starter file. -/
def starterText : String :=
  String.join (starterLines.map (· ++ "\n"))

/-- Why there is no starter file. -/
inductive StarterError where
  | present (path : String)
  | unwritable (path : String) (cause : FileError)
deriving DecidableEq, Repr

/-- The error in words. -/
def StarterError.message : StarterError → String
  | present path => path ++ " already exists"
  | unwritable path cause => "Failed to write " ++ path ++ ": " ++ cause.message

/-- Writes the starter file into a directory where none is, and gives its path. -/
def writeStarter (tree : Files.Tree) (cwd : Location) (dir : String) :
    Except StarterError (String × Files.Tree) :=
  let path := Files.join dir rootFileName
  match tree.get cwd path with
  | .ok _ => .error (.present path)
  | .error _ =>
    match tree.write cwd path false (Text.utf8 starterText) with
    | .ok tree => .ok (path, tree)
    | .error cause => .error (.unwritable path cause)

end TaskRunner.Project
