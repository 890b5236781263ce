import TaskRunner.Report.Style
import TaskRunner.Source.File

/-!
# Diagnostics for malformed files

A message for a malformed script file, with the line at fault and a caret under the column.
-/

namespace TaskRunner.Report

/-- Advice for a kind of fault. -/
def hints : Source.Fault.Category → List String
  | .duplicateDeclaration =>
    ["Two top-level declarations share a name.",
      "Rename one of them, or import a helper under an alias (`import \x7b a as b \x7d`)."]
  | .unexpectedToken =>
    ["Check for a missing bracket, parenthesis or comma near this location.",
      "Template literals must close with a backtick."]
  | .generic => ["Fix the syntax at this location and run the command again."]

/-- A number right-aligned in a width. -/
def rightAligned (width n : Nat) : String :=
  let digits := toString n
  String.ofList (List.replicate (width - digits.length) ' ') ++ digits

/-- Spaces. -/
def spaces (n : Nat) : String :=
  String.ofList (List.replicate n ' ')

/-- The line at fault and the caret below it; nothing when the file has no such line. -/
def excerpt (colors : Bool) (source : String) (place : Source.Place) : List String :=
  match (Text.lines source)[place.line - 1]? with
  | none => []
  | some line =>
    ["", "  " ++ rightAligned 4 place.line ++ " | " ++ line,
      "       | " ++ spaces (place.column - 1) ++ (Style.of .red).paint colors "^"]

/-- The message for a malformed file. -/
def syntaxDiagnostic (colors : Bool) (path : String) (e : Source.SyntaxError)
    (source : Option String) : String :=
  let headline := (Style.of .red).paint colors "✗" ++ " " ++
    (Style.strong .red).paint colors "Cannot build commands"
  let location := "  " ++ path ++ ":" ++ toString e.place.line ++ ":" ++
    toString e.place.column ++ " " ++ e.fault.message ++ " [" ++ e.fault.code ++ "]"
  let shown := match source with
    | some text => excerpt colors text e.place
    | none => []
  let advice := (hints e.fault.category).map fun hint =>
    "  " ++ (Style.of .blue).paint colors "ℹ" ++ " " ++ hint
  "\n".intercalate ([headline, location] ++ shown ++ [""] ++ advice)

end TaskRunner.Report
