import TaskRunner.Config.Settings

/-!
# Log directives

A directive is a list of parts between commas. A part is a level, or the name of a target or of a span in
brackets, with a level behind an equals sign if there is one.
-/

namespace TaskRunner.Config

/-- The words and digits for levels. -/
def levelWords : List String :=
  ["off", "error", "warn", "info", "debug", "trace", "0", "1", "2", "3", "4", "5"]

/-- A level in any case. -/
def isLevelWord (word : String) : Bool :=
  levelWords.contains (String.ofList (word.toList.map Char.toLower))

/-- A character of a target's name. -/
def isTargetChar (c : Char) : Bool :=
  Text.isAlphanumeric c || c == '_' || c == ':' || c == '-'

/-- The trail of a part behind its names: nothing, or a level. -/
def isLevelTrail : List Char → Bool
  | [] => true
  | '=' :: level => level.isEmpty || isLevelWord (String.ofList level)
  | _ => false

/-- What is behind a span in brackets. -/
def pastSpan? : List Char → Option (List Char)
  | '[' :: rest =>
    match rest.dropWhile (· != ']') with
    | _ :: behind => some behind
    | [] => none
  | _ => none

/-- Whether a part of a directive is well-formed. -/
def isDirectivePart (part : String) : Bool :=
  let chars := part.toList
  let behind := chars.dropWhile isTargetChar
  match pastSpan? behind with
  | some trail => isLevelTrail trail || isLevelTrail (trail.dropWhile isTargetChar)
  | none => behind.length < chars.length && isLevelTrail behind

/-- Whether a directive is well-formed. Empty parts count for nothing. -/
def isDirective (directive : String) : Bool :=
  (directive.splitOn ",").all fun part => part.isEmpty || isDirectivePart part

end TaskRunner.Config
