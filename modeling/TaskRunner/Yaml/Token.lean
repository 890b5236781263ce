import TaskRunner.Yaml.Scalar

/-!
# Tokens of a document

Indentation becomes tokens that open and close collections. A key is known as such only when its colon
comes, so the tokens in front of it are put in then, at the place that was kept for them.
-/

namespace TaskRunner.Yaml

/-- A token. -/
inductive Token where
  | directive (name : String) (args : List String)
  | documentStart
  | documentEnd
  | blockSequence
  | blockMapping
  | blockEnd
  | flowSequence
  | flowSequenceEnd
  | flowMapping
  | flowMappingEnd
  | entry
  | flowEntry
  | key
  | value
  | alias (name : String)
  | anchor (name : String)
  /-- The short form of a tag's name space, and its name in there. -/
  | tag (handle suffix : String)
  | scalar (text : String) (style : Style)
  | theEnd
deriving DecidableEq, Repr

/-- A place where a key may have begun. -/
structure KeyPlace where
  /-- Whether nothing but a key can stand here. -/
  required : Bool
  /-- How many tokens come before it. -/
  position : Nat
  line : Nat
  column : Nat
  index : Nat
deriving DecidableEq, Repr

/-- The state of the reading of tokens. -/
structure Layout where
  /-- The tokens so far. -/
  tokens : List Token
  /-- The columns of the open block collections, the innermost first. -/
  columns : List Nat
  /-- The places where a key may have begun: in this collection, and in those around it that are in
  brackets. -/
  keyPlace : Option KeyPlace
  outer : List (Option KeyPlace)
  /-- Whether a key may begin here. -/
  keyAllowed : Bool
deriving Repr

namespace Layout

/-- The state at the start. -/
def start : Layout := ⟨[], [], none, [], true⟩

/-- Whether the place is inside brackets. -/
def inFlow (s : Layout) : Bool :=
  !s.outer.isEmpty

/-- The column of the innermost block collection, or one to the left of the page. -/
def indent (s : Layout) : Int :=
  match s.columns with
  | column :: _ => column
  | [] => -1

/-- One more token. -/
def push (s : Layout) (t : Token) : Layout :=
  { s with tokens := s.tokens ++ [t] }

/-- Puts tokens in after the first `n`. -/
def insertAt (s : Layout) (n : Nat) (ts : List Token) : Layout :=
  { s with tokens := s.tokens.take n ++ ts ++ s.tokens.drop n }

/-- Opens a block collection at a column that is further to the right than the one around it. -/
def open? (s : Layout) (column : Nat) : Option Layout :=
  if !s.inFlow && s.indent < column then some { s with columns := column :: s.columns } else none

/-- Closes the first columns that are to the right of a column. -/
def closeColumns (column : Int) : List Nat → Nat × List Nat
  | [] => (0, [])
  | c :: rest =>
    if column < c then
      let (n, rest) := closeColumns column rest
      (n + 1, rest)
    else (0, c :: rest)

/-- Closes the block collections to the right of a column. -/
def close (s : Layout) (column : Int) : Layout :=
  if s.inFlow then s
  else
    let (n, columns) := closeColumns column s.columns
    { s with tokens := s.tokens ++ List.replicate n .blockEnd, columns }

/-- Forgets a place for a key, unless only a key can stand there. -/
def forgetKey? (s : Layout) : Option Layout :=
  match s.keyPlace with
  | some place => if place.required then none else some { s with keyPlace := none }
  | none => some s

/-- Keeps the place where a key may begin. -/
def keepKey? (s : Layout) (g : Glyph) : Option Layout :=
  if s.keyAllowed then do
    let s ← s.forgetKey?
    let required := !s.inFlow && s.indent == g.column
    return { s with keyPlace := some ⟨required, s.tokens.length, g.line, g.column, g.index⟩ }
  else some s

/-- How far a key may reach. -/
def keyLength : Nat := 1024

/-- Forgets the places for keys that lie too far back: a key stands on one line. -/
def dropStale? (s : Layout) (g : Glyph) : Option Layout := do
  let stale := fun (place : KeyPlace) =>
    decide (place.line < g.line) || decide (place.index + keyLength < g.index)
  let all := s.keyPlace :: s.outer
  if all.any fun place => place.any fun p => stale p && p.required then none
  else
    let fresh := fun (place : Option KeyPlace) => place.filter fun p => !stale p
    return { s with keyPlace := fresh s.keyPlace, outer := s.outer.map fresh }

/-- Reads a mark of a block collection, whose item begins here. -/
def blockMark? (s : Layout) (g : Glyph) (opening mark : Token) : Option Layout := do
  let s ← if s.inFlow then some s
    else if !s.keyAllowed then none
    else
      match s.open? g.column with
      | some s => some (s.push opening)
      | none => some s
  let s ← s.forgetKey?
  return { s with keyAllowed := !s.inFlow || mark == Token.entry }.push mark

/-- Reads the mark in front of a value. -/
def valueMark? (s : Layout) (g : Glyph) : Option Layout :=
  match s.keyPlace with
  | some place =>
    let (s, opening) : Layout × List Token := match s.open? place.column with
      | some s => (s, [.blockMapping])
      | none => (s, [])
    let s := s.insertAt place.position (opening ++ [.key])
    some ({ s with keyPlace := none, keyAllowed := false }.push .value)
  | none =>
    if s.inFlow then some ({ s with keyAllowed := false }.push .value)
    else if !s.keyAllowed then none
    else
      let s := match s.open? g.column with
        | some s => s.push .blockMapping
        | none => s
      some ({ s with keyAllowed := true }.push .value)

/-- Reads an opening bracket. -/
def openFlow? (s : Layout) (g : Glyph) (t : Token) : Option Layout := do
  let s ← s.keepKey? g
  return { s with keyPlace := none, outer := s.keyPlace :: s.outer, keyAllowed := true }.push t

/-- Reads a closing bracket. -/
def closeFlow? (s : Layout) (t : Token) : Option Layout := do
  let s ← s.forgetKey?
  match s.outer with
  | place :: outer => return { s with keyPlace := place, outer, keyAllowed := false }.push t
  | [] => return { s with keyAllowed := false }.push t

/-- Ends what is open before a mark that stands between documents. -/
def endDocument? (s : Layout) : Option Layout := do
  let s ← (s.close (-1)).forgetKey?
  return { s with keyAllowed := false }

end Layout

/-! ## Names and tags -/

/-- The characters of a name. -/
def isNameChar (c : Char) : Bool :=
  c.isAlphanum || c == '_' || c == '-'

/-- Splits off the characters that satisfy a test. -/
def spanChars (p : Char → Bool) : List Glyph → List Char × List Glyph
  | [] => ([], [])
  | g :: rest =>
    if p g.char then
      let (chars, rest) := spanChars p rest
      (g.char :: chars, rest)
    else ([], g :: rest)

/-- Reads the name of an anchor. -/
def readName? (gs : List Glyph) : Option (String × List Glyph) :=
  let (name, rest) := spanChars isNameChar gs
  let c := charAt rest 0
  if name.isEmpty || !(isGap c || "?:,]\x7d%@\x60".contains c) then none
  else some (String.ofList name, rest)

/-- The characters of a tag. -/
def isTagChar (c : Char) : Bool :=
  isNameChar c || ";/?:@&=+$.!~*'()%".contains c

/-- The characters of a tag that is written out. -/
def isFullTagChar (c : Char) : Bool :=
  isTagChar c || ",[]".contains c

/-- The characters that percent signs and digits in a tag stand for. -/
def decodeTag? : List Char → Option (List Char)
  | [] => some []
  | '%' :: a :: b :: rest => do
    let code ← Number.natOfDigits 16 [a, b]
    let more ← decodeTag? rest
    if code < 128 then return Char.ofNat code :: more else none
  | '%' :: _ => none
  | c :: rest => (decodeTag? rest).map (c :: ·)

/-- Reads a tag after its exclamation mark. -/
def readTag? (inFlow : Bool) (gs : List Glyph) : Option (Token × List Glyph) := do
  let (tag, rest) ←
    if charAt gs 0 == '<' then
      let (uri, rest) := spanChars isFullTagChar (gs.drop 1)
      let uri ← decodeTag? uri
      if uri.isEmpty || charAt rest 0 != '>' then none
      else pure (Token.tag "" (String.ofList uri), rest.drop 1)
    else
      let (name, rest) := spanChars isNameChar gs
      if charAt rest 0 == '!' then
        let (suffix, rest) := spanChars isTagChar (rest.drop 1)
        let suffix ← decodeTag? suffix
        if suffix.isEmpty then none
        else pure (.tag (String.ofList ('!' :: name ++ ['!'])) (String.ofList suffix), rest)
      else
        let (suffix, rest) := spanChars isTagChar gs
        let suffix ← decodeTag? suffix
        if suffix.isEmpty then pure (.tag "" "!", rest)
        else pure (.tag "!" (String.ofList suffix), rest)
  let c := charAt rest 0
  if isGap c || (inFlow && c == ',') then return (tag, rest) else none

/-! ## Directives -/

/-- The words of a directive's line. -/
def readDirectiveWords : Nat → List Glyph → List String × List Glyph
  | 0, gs => ([], gs)
  | fuel + 1, gs =>
    let gs := skipBlanks gs
    if isGap (charAt gs 0) || charAt gs 0 == '#' then ([], gs)
    else
      let (word, rest) := spanChars (fun c => !isGap c) gs
      let (words, rest) := readDirectiveWords fuel rest
      (String.ofList word :: words, rest)

/-- Reads a directive after its percent sign. -/
def readDirective? (gs : List Glyph) : Option (Token × List Glyph) :=
  let (words, rest) := readDirectiveWords gs.length gs
  let rest := skipComment rest
  if !(isBreak (charAt rest 0) || charAt rest 0 == '\x00') then none
  else
    match words with
    | ["YAML", version] =>
      if version == "1.1" || version == "1.2" then some (.directive "YAML" [version], rest) else none
    | ["TAG", handle, start] =>
      if handle.startsWith "!" && handle.endsWith "!" then some (.directive "TAG" [handle, start], rest)
      else none
    | _ => none

/-! ## Tokens -/

/-- Leaves out blanks, comments and line breaks in front of a token. A line break outside brackets makes
way for a key; before a key that must not be, tabs do not count as blanks. -/
def skipToToken (s : Layout) : Nat → List Glyph → Layout × List Glyph
  | 0, gs => (s, gs)
  | fuel + 1, gs =>
    match gs with
    | [] => (s, [])
    | g :: rest =>
      if g.char == ' ' || (g.char == '\t' && (s.inFlow || !s.keyAllowed)) then skipToToken s fuel rest
      else if g.char == '#' then skipToToken s fuel (skipToBreak gs)
      else if isBreak g.char then
        skipToToken (if s.inFlow then s else { s with keyAllowed := true }) fuel rest
      else (s, gs)

/-- The brackets that open a collection. -/
def opening? : Char → Option Token
  | '[' => some .flowSequence
  | '\x7b' => some .flowMapping
  | _ => none

/-- The brackets that close a collection. -/
def closing? : Char → Option Token
  | ']' => some .flowSequenceEnd
  | '\x7d' => some .flowMappingEnd
  | _ => none

/-- The characters that begin no plain scalar by themselves. -/
def isIndicator (c : Char) : Bool :=
  "-?:,[]\x7b\x7d#&*!|>'\"%@\x60".contains c

/-- Whether a plain scalar begins here. -/
def beginsPlain (inFlow : Bool) (gs : List Glyph) : Bool :=
  let c := charAt gs 0
  let next := charAt gs 1
  !(isGap c || isIndicator c) || (c == '-' && !isBlank next) ||
    (!inFlow && (c == '?' || c == ':') && !isGap next)

/-- Reads a scalar or a property of a node. -/
def readContent? (s : Layout) (g : Glyph) (rest : List Glyph) : Option (Layout × List Glyph) := do
  let fuel := rest.length + 2
  if (g.char == '|' || g.char == '>') && !s.inFlow then
    let s ← s.forgetKey?
    let isLiteral := g.char == '|'
    let (text, rest) ← readBlock? isLiteral s.indent rest
    let t := Token.scalar (String.ofList text) (if isLiteral then .literal else .folded)
    return ({ s with keyAllowed := true }.push t, rest)
  else
    let s ← s.keepKey? g
    let s := { s with keyAllowed := false }
    match g.char with
    | '*' =>
      let (name, rest) ← readName? rest
      return (s.push (.alias name), rest)
    | '&' =>
      let (name, rest) ← readName? rest
      return (s.push (.anchor name), rest)
    | '!' =>
      let (t, rest) ← readTag? s.inFlow rest
      return (s.push t, rest)
    | '\'' =>
      let (text, rest) ← readQuoted? '\'' fuel rest
      return (s.push (.scalar (String.ofList text) .single), rest)
    | '"' =>
      let (text, rest) ← readQuoted? '"' fuel rest
      return (s.push (.scalar (String.ofList text) .double), rest)
    | _ =>
      if beginsPlain s.inFlow (g :: rest) then
        let plain ← readPlain? s.inFlow (s.indent + 1).toNat fuel (g :: rest)
        let s := s.push (.scalar (String.ofList plain.chars) .plain)
        return ({ s with keyAllowed := plain.endsLine }, plain.rest)
      else none

/-- Reads one token that starts with the next character, which is not the end. -/
def readToken? (s : Layout) (g : Glyph) (rest : List Glyph) : Option (Layout × List Glyph) := do
  let gs := g :: rest
  let next := charAt rest 0
  if g.column == 0 && g.char == '%' then
    let s ← s.endDocument?
    let (t, rest) ← readDirective? rest
    return (s.push t, rest)
  else if isDocumentMark gs then
    let s ← s.endDocument?
    return (s.push (if g.char == '-' then .documentStart else .documentEnd), gs.drop 3)
  else if let some t := opening? g.char then return (← s.openFlow? g t, rest)
  else if let some t := closing? g.char then return (← s.closeFlow? t, rest)
  else if g.char == ',' then
    let s ← s.forgetKey?
    return ({ s with keyAllowed := true }.push .flowEntry, rest)
  else if g.char == '-' && isGap next then
    return (← s.blockMark? g .blockSequence .entry, rest)
  else if g.char == '?' && (s.inFlow || isGap next) then
    return (← s.blockMark? g .blockMapping .key, rest)
  else if g.char == ':' && (s.inFlow || isGap next) then return (← s.valueMark? g, rest)
  else readContent? s g rest

/-- Reads all tokens, in `fuel` steps at most. -/
def readTokens? : Nat → Layout → List Glyph → Option (List Token)
  | 0, _, _ => none
  | fuel + 1, s, gs =>
    let (s, gs) := skipToToken s (gs.length + 1) gs
    match gs with
    | [] => none
    | g :: rest => do
      let s := (← s.dropStale? g).close g.column
      if g.char == '\x00' then
        let s ← s.endDocument?
        return s.tokens ++ [.theEnd]
      else
        let (s, rest) ← readToken? s g rest
        readTokens? fuel s rest

/-- The tokens of a document. -/
def tokens? (text : String) : Option (List Token) := do
  let gs ← glyphs? text
  readTokens? (gs.length + 1) .start gs

end TaskRunner.Yaml
