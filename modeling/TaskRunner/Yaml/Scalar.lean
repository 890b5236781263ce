import TaskRunner.Number.Reading
import TaskRunner.Yaml.Glyph

/-!
# Scalars

The texts that the written forms of a scalar stand for: in quotes, plain, and in a block. Lines of a
quoted or plain scalar are folded: one line break reads as a space, more of them as one less.
-/

namespace TaskRunner.Yaml

/-- How a scalar is written. -/
inductive Style where
  | plain
  | single
  | double
  | literal
  | folded
deriving DecidableEq, Repr

/-! ## Folding -/

/-- Blanks and line breaks between two words of a scalar. -/
structure Gap where
  spaces : List Char
  firstBreak : List Char
  moreBreaks : List Char
  broken : Bool
  /-- The columns of tabs after a line break. -/
  tabs : List Nat
deriving DecidableEq, Repr

namespace Gap

/-- No gap. -/
def empty : Gap := ⟨[], [], [], false, []⟩

/-- The gap with one more blank. -/
def addBlank (gap : Gap) (g : Glyph) : Gap :=
  if gap.broken then
    if g.char == '\t' then { gap with tabs := g.column :: gap.tabs } else gap
  else { gap with spaces := gap.spaces ++ [g.char] }

/-- The gap with one more line break. -/
def addBreak (gap : Gap) (g : Glyph) : Gap :=
  if gap.broken then { gap with moreBreaks := gap.moreBreaks ++ [g.char] }
  else { gap with firstBreak := [g.char], broken := true }

/-- What a gap reads as. -/
def fold (gap : Gap) : List Char :=
  if !gap.broken then gap.spaces
  else if gap.firstBreak == ['\n'] then
    if gap.moreBreaks.isEmpty then [' '] else gap.moreBreaks
  else gap.firstBreak ++ gap.moreBreaks

/-- Reads on as long as blanks and line breaks come. -/
def read (gap : Gap) : List Glyph → Gap × List Glyph
  | [] => (gap, [])
  | g :: rest =>
    if isBlank g.char then read (gap.addBlank g) rest
    else if isBreak g.char then read (gap.addBreak g) rest
    else (gap, g :: rest)

end Gap

/-! ## Quoted scalars -/

/-- The characters that single letters after a backslash stand for. -/
def escapes : List (Char × Char) :=
  [('0', '\x00'), ('a', '\x07'), ('b', '\x08'), ('t', '\t'), ('\t', '\t'), ('n', '\n'), ('v', '\x0b'),
    ('f', '\x0c'), ('r', '\r'), ('e', '\x1b'), (' ', ' '), ('"', '"'), ('/', '/'), ('\\', '\\'),
    ('N', '\u0085'), ('_', '\u00a0'), ('L', '\u2028'), ('P', '\u2029')]

/-- How many hexadecimal digits follow a letter after a backslash. -/
def hexLength : Char → Option Nat
  | 'x' => some 2
  | 'u' => some 4
  | 'U' => some 8
  | _ => none

/-- The character of a code point. -/
def charOfCode? (n : Nat) : Option Char :=
  if n.isValidChar then some (Char.ofNat n) else none

/-- The character after a backslash that has been read, and what follows it. -/
def readEscape? : List Glyph → Option (Char × List Glyph)
  | [] => none
  | g :: rest =>
    match hexLength g.char with
    | some n => do
      let code ← Number.natOfDigits 16 ((rest.take n).map Glyph.char)
      if rest.length < n then none else return (← charOfCode? code, rest.drop n)
    | none => (escapes.lookup g.char).map (·, rest)

/-- Reads a quoted scalar up to its closing quote, in `fuel` steps at most. -/
def readQuoted? (quote : Char) : Nat → List Glyph → Option (List Char × List Glyph)
  | 0, _ => none
  | _, [] => none
  | fuel + 1, g :: rest =>
    let more := fun (chars : List Char) (rest : List Glyph) =>
      (readQuoted? quote fuel rest).map fun (text, rest) => (chars ++ text, rest)
    if g.char == '\x00' || isDocumentMark (g :: rest) then none
    else if isGap g.char then
      let (gap, rest) := Gap.empty.read (g :: rest)
      more gap.fold rest
    else if g.char == quote then
      if quote == '\'' && charAt rest 0 == '\'' then more ['\''] (rest.drop 1) else some ([], rest)
    else if quote == '"' && g.char == '\\' then
      if isBreak (charAt rest 0) then
        let (gap, rest) := { Gap.empty with broken := true }.read (rest.drop 1)
        more gap.fold rest
      else (readEscape? rest).bind fun (c, rest) => more [c] rest
    else more [g.char] rest

/-! ## Plain scalars -/

/-- Whether a plain scalar ends before the next character, which is no gap. -/
def endsPlain (inFlow : Bool) (gs : List Glyph) : Bool :=
  let c := charAt gs 0
  (c == ':' && isGap (charAt gs 1)) || (inFlow && ",[]\x7b\x7d".contains c)

/-- Reads a word of a plain scalar. -/
def readPlainWord? (inFlow : Bool) : List Glyph → Option (List Char × List Glyph)
  | [] => some ([], [])
  | g :: rest =>
    if isGap g.char then some ([], g :: rest)
    else if inFlow && g.char == ':' && ",?[]\x7b\x7d".contains (charAt rest 0) then none
    else if endsPlain inFlow (g :: rest) then some ([], g :: rest)
    else (readPlainWord? inFlow rest).map fun (word, rest) => (g.char :: word, rest)

/-- A plain scalar that was read. -/
structure Plain where
  chars : List Char
  rest : List Glyph
  /-- Whether a line break stands after its last word. -/
  endsLine : Bool
deriving Repr

/-- Reads a plain scalar whose lines must be indented so far, in `fuel` steps at most. -/
def readPlain? (inFlow : Bool) (indent : Nat) : Nat → List Glyph → Option Plain
  | 0, _ => none
  | fuel + 1, gs =>
    if isDocumentMark gs || charAt gs 0 == '#' then some ⟨[], gs, false⟩
    else do
      let (word, rest) ← readPlainWord? inFlow gs
      let (gap, after) := Gap.empty.read rest
      if word.isEmpty || (!gap.broken && gap.spaces.isEmpty) then some ⟨word, rest, false⟩
      else if gap.tabs.any (· < indent) then none
      else if !inFlow && columnOf after < indent then some ⟨word, after, gap.broken⟩
      else
        let more ← readPlain? inFlow indent fuel after
        if more.chars.isEmpty then some ⟨word, more.rest, gap.broken⟩
        else some { more with chars := word ++ gap.fold ++ more.chars }

/-! ## Block scalars -/

/-- What happens to the line breaks at the end of a block. -/
inductive Chomping where
  | strip
  | clip
  | keep
deriving DecidableEq, Repr

/-- The chomping that a mark means. -/
def chomping? : Char → Option Chomping
  | '+' => some .keep
  | '-' => some .strip
  | _ => none

/-- A digit that gives an indentation. -/
def indentDigit? (c : Char) : Option Nat :=
  if '1' ≤ c && c ≤ '9' then some (c.toNat - 48) else none

/-- The chomping and the indentation in the head of a block, and what follows the head's line. -/
def readBlockHead? (gs : List Glyph) : Option (Chomping × Option Nat × List Glyph) :=
  let a := charAt gs 0
  let b := charAt gs 1
  let (chomping, indent, gs) := match chomping? a, indentDigit? a with
    | some c, _ => ((c, indentDigit? b, gs.drop (if (indentDigit? b).isSome then 2 else 1)))
    | none, some n =>
      ((chomping? b).getD .clip, some n, gs.drop (if (chomping? b).isSome then 2 else 1))
    | none, none => (.clip, none, gs)
  match skipComment gs with
  | g :: rest =>
    if isBreak g.char then some (chomping, indent, rest)
    else if g.char == '\x00' then some (chomping, indent, g :: rest)
    else none
  | [] => none

/-- Reads line breaks and the indentation after them; an indentation of zero is yet to be found. Gives
the breaks, the widest indentation, and what follows. -/
def readBlockBreaks? (indent : Nat) : Nat → List Glyph → Option (List Char × Nat × List Glyph)
  | widest, [] => some ([], widest, [])
  | widest, g :: rest =>
    let early := indent == 0 || g.column < indent
    if early && g.char == ' ' then readBlockBreaks? indent widest rest
    else
      let widest := max widest g.column
      if early && g.char == '\t' then none
      else if isBreak g.char then
        (readBlockBreaks? indent widest rest).map fun (breaks, widest, rest) =>
          (g.char :: breaks, widest, rest)
      else some ([], widest, g :: rest)

/-- The rest of a line. -/
def readLine : List Glyph → List Char × List Glyph
  | [] => ([], [])
  | g :: rest =>
    if isBreak g.char || g.char == '\x00' then ([], g :: rest)
    else
      let (line, rest) := readLine rest
      (g.char :: line, rest)

/-- What stands before a line of a block. -/
structure BlockState where
  /-- The break that ended the line before. -/
  lastBreak : List Char
  /-- The breaks of empty lines after it. -/
  breaks : List Char
  /-- Whether the line before began with a blank. -/
  indented : Bool
deriving Repr

/-- What the breaks before a line read as. -/
def BlockState.joint (s : BlockState) (isLiteral startsBlank : Bool) : List Char :=
  if !isLiteral && s.lastBreak == ['\n'] && !s.indented && !startsBlank then
    (if s.breaks.isEmpty then [' '] else []) ++ s.breaks
  else s.lastBreak ++ s.breaks

/-- What the breaks after the last line read as. -/
def BlockState.ending (s : BlockState) : Chomping → List Char
  | .strip => []
  | .clip => s.lastBreak
  | .keep => s.lastBreak ++ s.breaks

/-- Reads the lines of a block, in `fuel` steps at most. -/
def readBlockLines? (isLiteral : Bool) (chomping : Chomping) (indent : Nat) :
    Nat → BlockState → List Glyph → Option (List Char × List Glyph)
  | 0, _, _ => none
  | fuel + 1, s, gs =>
    if columnOf gs == indent && charAt gs 0 != '\x00' then do
      let startsBlank := isBlank (charAt gs 0)
      let (line, rest) := readLine gs
      let lastBreak := if isBreak (charAt rest 0) then [charAt rest 0] else []
      let (breaks, _, rest) ← readBlockBreaks? indent 0 (rest.drop lastBreak.length)
      let (text, rest) ←
        readBlockLines? isLiteral chomping indent fuel ⟨lastBreak, breaks, startsBlank⟩ rest
      return (s.joint isLiteral startsBlank ++ line ++ text, rest)
    else some (s.ending chomping, gs)

/-- Reads a block scalar after its mark, inside a collection that is indented by `outer`. -/
def readBlock? (isLiteral : Bool) (outer : Int) (gs : List Glyph) :
    Option (List Char × List Glyph) := do
  let (chomping, extra, gs) ← readBlockHead? gs
  let fixed := match extra with
    | some n => outer.toNat + n
    | none => 0
  let (breaks, widest, gs) ← readBlockBreaks? fixed 0 gs
  let indent := if fixed == 0 then max (max widest (outer + 1).toNat) 1 else fixed
  readBlockLines? isLiteral chomping indent (gs.length + 1) ⟨[], breaks, false⟩ gs

end TaskRunner.Yaml
