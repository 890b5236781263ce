/-!
# Characters with places

The text of a document as characters that know their line and column. Every spelling of a line break
becomes a line feed, and a NUL, which no document may hold, stands at the end.
-/

namespace TaskRunner.Yaml

/-- A character and where it stands. -/
structure Glyph where
  char : Char
  line : Nat
  column : Nat
  index : Nat
deriving DecidableEq, Repr

/-- The characters that a document may hold. -/
def isPrintable (c : Char) : Bool :=
  let n := c.toNat
  c == '\t' || c == '\n' || c == '\r' || (0x20 ≤ n && n ≤ 0x7E) || n == 0x85 ||
    (0xA0 ≤ n && n ≤ 0xFFFD) || 0x10000 ≤ n

/-- A space or a tab. -/
def isBlank (c : Char) : Bool :=
  c == ' ' || c == '\t'

/-- A line break. -/
def isBreak (c : Char) : Bool :=
  c == '\n' || c == '\u2028' || c == '\u2029'

/-- A space, a tab, a line break or the end. -/
def isGap (c : Char) : Bool :=
  isBlank c || isBreak c || c == '\x00'

/-- The characters of a text from a place on. -/
def glyphsFrom (line column index : Nat) : List Char → List Glyph
  | [] => [⟨'\x00', line, column, index⟩]
  | '\r' :: '\n' :: rest => ⟨'\n', line, column, index⟩ :: glyphsFrom (line + 1) 0 (index + 2) rest
  | c :: rest =>
    let c := if c == '\r' || c == '\u0085' then '\n' else c
    let (nextLine, nextColumn) := if isBreak c then (line + 1, 0) else (line, column + 1)
    ⟨c, line, column, index⟩ :: glyphsFrom nextLine nextColumn (index + 1) rest

/-- The characters of a document without its byte order mark, or nothing when it holds a character that
it may not hold. -/
def glyphs? (text : String) : Option (List Glyph) :=
  let chars := match text.toList with
    | '\uFEFF' :: rest => rest
    | chars => chars
  if chars.all isPrintable then some (glyphsFrom 0 0 0 chars) else none

/-- The character so many places ahead. -/
def charAt (gs : List Glyph) (n : Nat) : Char :=
  (gs[n]?.map Glyph.char).getD '\x00'

/-- The column of the next character. -/
def columnOf (gs : List Glyph) : Nat :=
  (gs.head?.map Glyph.column).getD 0

/-- Whether three equal marks and a gap come next, at the start of a line. -/
def isMarkLine (mark : Char) (gs : List Glyph) : Bool :=
  columnOf gs == 0 && (List.range 3).all (fun n => charAt gs n == mark) && isGap (charAt gs 3)

/-- Whether a mark between documents comes next. -/
def isDocumentMark (gs : List Glyph) : Bool :=
  isMarkLine '-' gs || isMarkLine '.' gs

/-- Leaves out blanks. -/
def skipBlanks : List Glyph → List Glyph
  | [] => []
  | g :: rest => if isBlank g.char then skipBlanks rest else g :: rest

/-- Leaves out what is left of a line. -/
def skipToBreak : List Glyph → List Glyph
  | [] => []
  | g :: rest => if isBreak g.char || g.char == '\x00' then g :: rest else skipToBreak rest

/-- Leaves out blanks and a comment. -/
def skipComment (gs : List Glyph) : List Glyph :=
  let gs := skipBlanks gs
  if charAt gs 0 == '#' then skipToBreak gs else gs

end TaskRunner.Yaml
