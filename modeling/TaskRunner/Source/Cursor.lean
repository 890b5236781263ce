import TaskRunner.Source.Token

/-!
# A place in the text being read

A cursor is the text ahead together with the count of bytes, lines and columns behind it. Everything
that moves it goes through `advance`, so spans and places agree.
-/

namespace TaskRunner.Source

/-- The characters ahead, the bytes behind, and the place. -/
structure Cursor where
  rest : List Char
  offset : Nat
  place : Place
deriving DecidableEq, Repr

/-- The place behind a character: only a line feed starts a line. -/
def Place.past (p : Place) (c : Char) : Place :=
  if c = '\n' then ⟨p.line + 1, 1⟩ else ⟨p.line, p.column + 1⟩

namespace Cursor

/-- The start of a text. -/
def start (text : List Char) : Cursor :=
  ⟨text, 0, ⟨1, 1⟩⟩

/-- Moves over the given number of characters, as far as there are any. -/
def advance (c : Cursor) : Nat → Cursor
  | 0 => c
  | n + 1 =>
    match c.rest with
    | [] => c
    | ch :: rest => advance ⟨rest, c.offset + ch.utf8Size, c.place.past ch⟩ n

/-- A fault at the cursor. -/
def fault (c : Cursor) (f : Fault) : SyntaxError :=
  ⟨f, c.place⟩

end Cursor

end TaskRunner.Source
