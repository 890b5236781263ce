import TaskRunner.Source.Lexer
import TaskRunner.Text.Units

/-!
# Texts and templates of a script

What the characters between quotes or backticks stand for. A template is cut into chunks of text and the
sources of the holes between them; a hole ends at the brace that closes it, whatever its tokens hold.
-/

namespace TaskRunner.Script

open Source (Cursor)

/-- The units that an escape stands for, and how many characters it takes behind its backslash. Two
escapes may make up one character, so a Unicode escape gives its number as it is. -/
def escapedUnits (chars : List Char) : List Nat × Nat :=
  match chars with
  | 'u' :: '\x7b' :: _ | 'x' :: _ => let (value, count) := Source.textEscape chars
    (Text.units value, count)
  | 'u' :: rest =>
    let digits := rest.take 4
    ((Number.natOfDigits 16 digits).toList, 1 + digits.length)
  | '\u2028' :: _ | '\u2029' :: _ => ([], 1)
  | _ => let (value, count) := Source.textEscape chars
    (Text.units value, count)

/-- The units of characters with escapes. -/
def unescapedUnits : Nat → List Char → List Nat
  | 0, _ => []
  | fuel + 1, chars =>
    match chars with
    | [] => []
    | '\\' :: rest =>
      let (value, count) := escapedUnits rest
      value ++ unescapedUnits fuel (rest.drop count)
    | c :: rest => Text.unitsOfChar c ++ unescapedUnits fuel rest

/-- The text of characters with escapes. -/
def unescaped (chars : List Char) : String :=
  String.ofList (Text.ofUnits (unescapedUnits chars.length chars))

/-- Characters with each line break written as one line feed. -/
def withLineFeeds : List Char → List Char
  | [] => []
  | '\r' :: '\n' :: rest => '\n' :: withLineFeeds rest
  | '\r' :: rest => '\n' :: withLineFeeds rest
  | c :: rest => c :: withLineFeeds rest

/-- The cursor at the brace that closes a hole, with `depth` braces open in it. -/
def holeEnd : Nat → Nat → Bool → Cursor → Option Cursor
  | 0, _, _, _ => none
  | fuel + 1, depth, regexMayStart, cur =>
    match Source.gapAt cur with
    | .error _ => none
    | .ok (_, cur) =>
      match cur.rest with
      | [] => none
      | '\x60' :: _ =>
        match Source.templateText cur.place (2 * cur.rest.length) (cur.advance 1) with
        | .error _ => none
        | .ok after => holeEnd fuel depth false after
      | _ =>
        match Source.lexemeAt regexMayStart cur with
        | .error _ => none
        | .ok (kind, after) =>
          if kind == .punct "\x7b" then holeEnd fuel (depth + 1) kind.regexMayFollow after
          else if kind == .punct "\x7d" then
            if depth = 0 then some cur else holeEnd fuel (depth - 1) kind.regexMayFollow after
          else holeEnd fuel depth kind.regexMayFollow after

/-- A template: one chunk more than there are holes. -/
structure TemplateParts where
  chunks : List (List Char)
  holes : List (List Char)
deriving DecidableEq, Repr

/-- Puts a character in front of the first chunk. -/
def TemplateParts.push (p : TemplateParts) (cs : List Char) : TemplateParts :=
  match p.chunks with
  | [] => { p with chunks := [cs] }
  | first :: more => { p with chunks := (cs ++ first) :: more }

/-- The parts of a template's text up to its closing backtick. -/
def templateParts : Nat → List Char → Option TemplateParts
  | 0, _ => none
  | fuel + 1, chars =>
    match chars with
    | [] => none
    | '\x60' :: _ => some ⟨[[]], []⟩
    | '\\' :: c :: rest => (templateParts fuel rest).map (·.push ['\\', c])
    | '$' :: '\x7b' :: rest =>
      match holeEnd (2 * rest.length + 1) 0 true (Cursor.start rest) with
      | none => none
      | some closing =>
        let hole := rest.take (rest.length - closing.rest.length)
        (templateParts fuel (closing.rest.drop 1)).map fun p => ⟨[] :: p.chunks, hole :: p.holes⟩
    | c :: rest => (templateParts fuel rest).map (·.push [c])

/-- The parts of a template token. -/
def partsOfTemplate (token : List Char) : Option TemplateParts :=
  templateParts (token.length + 1) (withLineFeeds (token.drop 1))

end TaskRunner.Script
