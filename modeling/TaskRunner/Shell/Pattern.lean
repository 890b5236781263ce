import TaskRunner.Shell.State

/-!
# File patterns

Unquoted stars, question marks and brackets in a word stand for the names of files that match.
-/

namespace TaskRunner.Shell

/-- A character of an expanded word, and whether it is quoted. -/
abbrev Mark := Char × Bool

/-- Whether a character is in the brackets of a pattern. -/
def inBrackets (c : Char) : List Char → Bool
  | a :: '-' :: b :: rest => (a ≤ c && c ≤ b) || inBrackets c rest
  | a :: rest => a == c || inBrackets c rest
  | [] => false

/-- Whether a text matches a pattern, in `fuel` steps at most. -/
def fits : Nat → List Mark → List Char → Bool
  | 0, _, _ => false
  | _, [], text => text.isEmpty
  | fuel + 1, ('*', false) :: rest, text =>
    (List.range (text.length + 1)).any fun n => fits fuel rest (text.drop n)
  | fuel + 1, ('?', false) :: rest, text =>
    match text with
    | _ :: more => fits fuel rest more
    | [] => false
  | fuel + 1, ('[', false) :: rest, text =>
    let inner := rest.takeWhile fun m => m.1 != ']' || m.2
    match text with
    | c :: more =>
      if inner.length == rest.length then c == '[' && fits fuel rest more
      else
        let chars := inner.map Prod.fst
        let (negated, chars) := match chars with
          | '!' :: chars => (true, chars)
          | chars => (false, chars)
        (inBrackets c chars != negated) && fits fuel (rest.drop (inner.length + 1)) more
    | [] => false
  | fuel + 1, (c, _) :: rest, text =>
    match text with
    | d :: more => c == d && fits fuel rest more
    | [] => false

/-- Whether a text matches a pattern. -/
def matchesPattern (pattern : List Mark) (text : List Char) : Bool :=
  fits (pattern.length + 1) pattern text

/-- Whether a word holds a pattern. -/
def isPattern (word : List Mark) : Bool :=
  word.any fun m => !m.2 && (m.1 == '*' || m.1 == '?' || m.1 == '[')

/-- A word's pieces between slashes. -/
def splitPath (word : List Mark) : List (List Mark) :=
  word.splitOnP fun m => m.1 == '/'

/-- The names in a directory that match a piece; those with a dot in front match only a dot. -/
def namesMatching (s : State) (dir : List String) (piece : List Mark) : List String :=
  (s.tree.children dir).filter fun name =>
    (!name.startsWith "." || piece.head?.any fun m => m.1 == '.') && matchesPattern piece name.toList

/-- The paths that match pieces, below paths that were matched before. -/
def pathsMatching (s : State) (base : List String) : List String → List (List Mark) → List String
  | found, [] => found
  | found, piece :: rest =>
    let text := String.ofList (piece.map Prod.fst)
    let step := fun (path : String) (name : String) => if path.isEmpty then name else path ++ "/" ++ name
    let next := found.flatMap fun path =>
      if isPattern piece then
        (namesMatching s (base ++ Files.names path) piece).map (step path)
      else if rest.isEmpty && !(s.tree.node? (.inside (base ++ Files.names (step path text)))).isSome then []
      else [step path text]
    pathsMatching s base next rest

/-- The files that a word means: those that match it, or its own text. -/
def expandPattern (s : State) (word : List Mark) : List String :=
  let text := String.ofList (word.map Prod.fst)
  match s.cwd, isPattern word && word.head?.map Prod.fst != some '/' with
  | .inside base, true =>
    let found := pathsMatching s base [""] (splitPath word)
    if found.isEmpty then [text] else found
  | _, _ => [text]

end TaskRunner.Shell
