import TaskRunner.Text.Casing
import TaskRunner.Text.Property

/-!
# Names on the command line

A function called `helloWorld` is the command `hello-world`: a dash goes before a capital that follows
a small letter or a digit, and capitals become small.
-/

namespace TaskRunner

/-- The dash-separated form of the characters behind `previous`. -/
def kebabFrom : Option Char → List Char → List Char
  | _, [] => []
  | previous, c :: rest =>
    if Text.isUppercase c then
      let dash := match previous with
        | some p => Text.isLowercase p || p.isDigit
        | none => false
      (if dash then ['-'] else []) ++ Text.lowerChar c ++ kebabFrom (some c) rest
    else c :: kebabFrom (some c) rest

/-- The dash-separated form of a name. -/
def kebab (name : String) : String :=
  String.ofList (kebabFrom none name.toList)

end TaskRunner
