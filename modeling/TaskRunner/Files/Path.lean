/-!
# Paths

Paths as texts. Joining keeps both texts as they are; the parent of a path is what stands before its
last name, without slashes and dots that mean nothing.
-/

namespace TaskRunner.Files

/-- Without slashes and lone dots at the end that do not change what a path means. The characters are
given in reverse. -/
def trimEndReversed : List Char → List Char
  | '/' :: [] => ['/']
  | '/' :: rest => trimEndReversed rest
  | '.' :: '/' :: [] => ['/']
  | '.' :: '/' :: rest => trimEndReversed rest
  | other => other

/-- The text before the last name of a path; nothing for a path without a name. -/
def parent? (path : String) : Option String :=
  let reversed := trimEndReversed path.toList.reverse
  if reversed.isEmpty || reversed == ['/'] then none
  else
    let before := reversed.dropWhile (· != '/')
    some (String.ofList (trimEndReversed before).reverse)

/-- Whether a path starts at the root. -/
def isAbsolute (path : String) : Bool :=
  path.startsWith "/"

/-- A path seen from a directory. -/
def join (dir path : String) : String :=
  if isAbsolute path then path
  else if dir.isEmpty || dir.endsWith "/" then dir ++ path
  else dir ++ "/" ++ path

/-- The names of a path between its slashes, with lone dots left out. -/
def names (path : String) : List String :=
  (path.splitOn "/").filter fun name => name != "" && name != "."

/-- The last name of a path, unless it leads upwards. -/
def fileName? (path : String) : Option String :=
  (names path).getLast?.filter (· != "..")

/-- A file's name without its ending. -/
def stemOf (name : String) : String :=
  match name.toList.reverse.dropWhile (· != '.') with
  | [] => name
  | '.' :: [] => name
  | _ :: stem => String.ofList stem.reverse

/-- The name of a path's file without its ending. -/
def stem? (path : String) : Option String :=
  (fileName? path).map fun name => if name.startsWith ".." then name else stemOf name

end TaskRunner.Files
