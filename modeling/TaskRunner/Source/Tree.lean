import TaskRunner.Source.Lexer

/-!
# Nested tokens

The tokens of a file nested by brackets. A statement is a sequence of trees: what stands inside
brackets is one tree, so a scan for a separator never looks into a group. Nesting succeeds exactly on
balanced brackets.
-/

namespace TaskRunner.Source

/-- A token, or a bracketed group. -/
inductive Tree where
  | leaf (token : Token)
  | group (opener : Token) (inside : List Tree) (closer : Token)
deriving Repr

namespace Tree

/-- The first token of a tree. -/
def first : Tree → Token
  | leaf t => t
  | group opener _ _ => opener

/-- The last token of a tree. -/
def last : Tree → Token
  | leaf t => t
  | group _ _ closer => closer

mutual

/-- The tokens of a tree in order. -/
def tokens : Tree → List Token
  | leaf t => [t]
  | group opener inside closer => opener :: (tokensOfAll inside ++ [closer])

/-- The tokens of several trees in order. -/
def tokensOfAll : List Tree → List Token
  | [] => []
  | t :: rest => tokens t ++ tokensOfAll rest

end

/-- Whether the tree is the given punctuation mark. -/
def isPunct (t : Tree) (mark : String) : Bool :=
  match t with
  | leaf token => token.isPunct mark
  | group _ _ _ => false

/-- Whether the tree is the given word. -/
def isWord (t : Tree) (word : String) : Bool :=
  match t with
  | leaf token => token.isWord word
  | group _ _ _ => false

/-- The name of an identifier. -/
def name? (t : Tree) : Option String :=
  match t with
  | leaf token => token.name?
  | group _ _ _ => none

/-- Whether the tree is a group of the given opening bracket. -/
def isGroup (t : Tree) (opener : String) : Bool :=
  match t with
  | leaf _ => false
  | group o _ _ => o.isPunct opener

/-- What stands inside a group of the given opening bracket, and its closing bracket. -/
def inside? (t : Tree) (opener : String) : Option (List Tree × Token) :=
  match t with
  | leaf _ => none
  | group o inside closer => if o.isPunct opener then some (inside, closer) else none

end Tree

/-- The opening bracket that a closing one belongs to. -/
def openerOf : String → Option String
  | ")" => some "("
  | "]" => some "["
  | "\x7d" => some "\x7b"
  | _ => none

/-- Whether a mark is an opening bracket. -/
def isOpener (mark : String) : Bool :=
  mark == "(" || mark == "[" || mark == "\x7b"

/-- The complaint about a token in a wrong place. -/
def unexpected (t : Token) : SyntaxError :=
  match t.kind with
  | .endOfFile => ⟨.unexpectedEnd, t.place⟩
  | _ => ⟨.unexpectedToken t.describe, t.place⟩

/-- A file's trees and the token of its end. -/
structure Nested where
  trees : List Tree
  ending : Token
deriving Repr

/-- Nests tokens. `level` holds the trees of the innermost open group, last one first, and `outer` the
open brackets around it with the trees before them. The first closing bracket that does not fit is an
error, and so is the end of the file in an open group. -/
def nestFrom : List (Token × List Tree) → List Tree → List Token → Except SyntaxError Nested
  | _, level, [] => .ok ⟨level.reverse, ⟨.endOfFile, ⟨0, 0⟩, ⟨1, 1⟩, false, []⟩⟩
  | outer, level, t :: rest =>
    match t.kind with
    | .endOfFile =>
      match outer with
      | [] => .ok ⟨level.reverse, t⟩
      | _ => .error (unexpected t)
    | .punct mark =>
      if isOpener mark then nestFrom ((t, level) :: outer) [] rest
      else
        match openerOf mark with
        | none => nestFrom outer (.leaf t :: level) rest
        | some expected =>
          match outer with
          | [] => .error (unexpected t)
          | (opener, before) :: further =>
            if opener.isPunct expected then
              nestFrom further (.group opener level.reverse t :: before) rest
            else .error (unexpected t)
    | _ => nestFrom outer (.leaf t :: level) rest

/-- The nested form of a file's tokens. -/
def nest (tokens : List Token) : Except SyntaxError Nested :=
  nestFrom [] [] tokens

/-! ## Looking at what comes next -/

/-- The token ahead: the first of the trees, or the one behind them. -/
def ahead (after : Token) : List Tree → Token
  | [] => after
  | t :: _ => t.first

/-- Whether a punctuation mark comes next. -/
def startsWithPunct (trees : List Tree) (mark : String) : Bool :=
  trees.head?.any (·.isPunct mark)

/-- Whether a word comes next. -/
def startsWithWord (trees : List Tree) (word : String) : Bool :=
  trees.head?.any (·.isWord word)

/-- Whether an identifier comes next. -/
def startsWithName (trees : List Tree) : Bool :=
  trees.head?.any (·.name?.isSome)

/-- Whether a group of the given bracket comes next. -/
def startsWithGroup (trees : List Tree) (opener : String) : Bool :=
  trees.head?.any (·.isGroup opener)

/-! ## Cutting at separators -/

/-- The trees before the first occurrence of a mark, and those behind it. -/
def cutAt (mark : String) : List Tree → Option (List Tree × List Tree)
  | [] => none
  | t :: rest =>
    if t.isPunct mark then some ([], rest)
    else (cutAt mark rest).map fun (before, behind) => (t :: before, behind)

/-- The parts between commas; nothing behind a last comma is no part. -/
def splitAtCommas : List Tree → List (List Tree)
  | [] => []
  | t :: rest =>
    if t.isPunct "," then [] :: splitAtCommas rest
    else
      match rest, splitAtCommas rest with
      | next :: _, part :: more =>
        if next.isPunct "," then [t] :: more else (t :: part) :: more
      | _, parts => [t] :: parts

/-- The span from the first tree's start to the last one's end. -/
def spanOf : List Tree → Span
  | [] => ⟨0, 0⟩
  | t :: rest => ⟨t.first.span.start, (rest.getLastD t).last.span.stop⟩

end TaskRunner.Source
