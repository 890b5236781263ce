import TaskRunner.Text.Property

/-!
# Lines and blanks

Cutting texts into lines and words, and removing blanks at their ends.
-/

namespace TaskRunner.Text

/-- The pieces between line feeds; one more piece than there are line feeds. -/
def pieces : List Char → List (List Char)
  | [] => [[]]
  | c :: rest =>
    if c == '\n' then [] :: pieces rest
    else match pieces rest with
      | [] => [[c]]
      | piece :: more => (c :: piece) :: more

/-- A line without one carriage return at its end. -/
def dropReturn (line : List Char) : List Char :=
  if line.getLast? == some '\r' then line.dropLast else line

/-- The pieces as lines: each one that a line feed ends loses a carriage return before it, and an
empty last piece is no line. -/
def linesOfPieces : List (List Char) → List (List Char)
  | [] => []
  | [last] => if last.isEmpty then [] else [last]
  | piece :: rest => dropReturn piece :: linesOfPieces rest

/-- The lines of a text, ended by line feeds or by a carriage return and a line feed. -/
def lines (s : String) : List String :=
  (linesOfPieces (pieces s.toList)).map String.ofList

/-- Without the characters of a kind at the front. -/
def trimStartWith (p : Char → Bool) (s : String) : String :=
  String.ofList (s.toList.dropWhile p)

/-- Without the characters of a kind at the end. -/
def trimEndWith (p : Char → Bool) (s : String) : String :=
  String.ofList (s.toList.reverse.dropWhile p).reverse

/-- Without blanks at both ends. -/
def trim (s : String) : String :=
  trimEndWith isBlank (trimStartWith isBlank s)

/-- Whether the text has no character but blanks. -/
def isAllBlank (s : String) : Bool :=
  s.toList.all isBlank

/-- The words between blanks; the first argument is the word being read, last character first. -/
def wordsFrom : List Char → List Char → List (List Char)
  | word, [] => if word.isEmpty then [] else [word.reverse]
  | word, c :: rest =>
    if isBlank c then
      if word.isEmpty then wordsFrom [] rest else word.reverse :: wordsFrom [] rest
    else wordsFrom (c :: word) rest

/-- The words of a text. -/
def words (s : String) : List String :=
  (wordsFrom [] s.toList).map String.ofList

end TaskRunner.Text
