import TaskRunner.Source.Token

/-!
# Script text from module text

Exports and imports are erased from a file, or replaced by reads from globals, by edits of its text.
An edit keeps the number of lines, and on its line it fills up with spaces to the width that it
replaces, so that places in the script are places in the file.
-/

namespace TaskRunner.Source

/-- A replacement of a span of the text. -/
structure Edit where
  span : Span
  replacement : String
deriving DecidableEq, Repr

/-- A name that an import declaration binds. -/
inductive ImportBinding where
  | whole (name : String)
  | member (imported name : String)
deriving DecidableEq, Repr

/-- The local name of a binding. -/
def ImportBinding.name : ImportBinding → String
  | whole name => name
  | member _ name => name

/-- A character inside a quoted text of a script. -/
def quotedChar (c : Char) : List Char :=
  match c with
  | '"' => ['\\', '"']
  | '\\' => ['\\', '\\']
  | '\n' => ['\\', 'n']
  | '\r' => ['\\', 'r']
  | c => [c]

/-- A text as a script writes it. -/
def quoted (s : String) : String :=
  String.ofList ('"' :: (s.toList.flatMap quotedChar ++ ['"']))

/-- The expression that gives an imported module: the program's own one is a global, any other comes
from the module loader. -/
def moduleExpression (source : String) : String :=
  if source == "bunosh" || source.startsWith "bunosh/" then "globalThis.bunosh"
  else "globalThis.__bunosh_module(" ++ quoted source ++ ")"

/-- The declaration of a name for a whole module. -/
def wholeDeclaration (target : String) : ImportBinding → Option String
  | .whole name => some ("const " ++ name ++ " = " ++ target ++ ";")
  | .member _ _ => none

/-- The pattern element of a member. -/
def memberElement : ImportBinding → Option String
  | .whole _ => none
  | .member imported name =>
    some (if imported == name then name else quoted imported ++ ": " ++ name)

/-- The declarations that stand for an import. -/
def importReplacement (source : String) (bindings : List ImportBinding) : String :=
  let target := moduleExpression source
  let members := bindings.filterMap memberElement
  let pattern :=
    if members.isEmpty then []
    else ["const \x7b " ++ ", ".intercalate members ++ " \x7d = " ++ target ++ ";"]
  " ".intercalate (bindings.filterMap (wholeDeclaration target) ++ pattern)

/-! ## Applying edits -/

/-- The characters in the first `bytes` bytes and those behind them. -/
def splitBytes : Nat → List Char → List Char × List Char
  | _, [] => ([], [])
  | bytes, c :: rest =>
    if bytes = 0 then ([], c :: rest)
    else
      let (before, behind) := splitBytes (bytes - c.utf8Size) rest
      (c :: before, behind)

/-- What fills up a replacement: the line feeds of the text replaced, or spaces up to its width. -/
def filling (original : List Char) (replacement : String) : List Char :=
  let feeds := original.count '\n'
  if 0 < feeds then List.replicate feeds '\n'
  else List.replicate (original.length - replacement.length) ' '

/-- The text ahead with edits made, from the byte `cursor` on. Edits come in order of their starts; one
that starts before the cursor is left out. -/
def applyFrom : Nat → List Char → List Edit → List Char
  | _, text, [] => text
  | cursor, text, e :: rest =>
    if e.span.start < cursor then applyFrom cursor text rest
    else
      let (kept, text) := splitBytes (e.span.start - cursor) text
      let (original, text) := splitBytes (e.span.stop - e.span.start) text
      kept ++ e.replacement.toList ++ filling original e.replacement ++
        applyFrom e.span.stop text rest

/-- The text with edits made, in the order of their starts. -/
def applyEdits (text : String) (edits : List Edit) : String :=
  let sorted := edits.mergeSort fun a b => a.span.start ≤ b.span.start
  String.ofList (applyFrom 0 text.toList sorted)

end TaskRunner.Source
