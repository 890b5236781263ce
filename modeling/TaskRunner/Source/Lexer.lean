import TaskRunner.Source.Cursor

/-!
# Cutting a file into tokens

Scanners look at the characters ahead and answer what stands there and how many characters it takes;
the cursor moves by that count. A slash starts a regular expression only where an expression may
start, which the token before decides. A template is followed through its substitutions, whose tokens
are read and dropped, up to its own closing backtick.
-/

namespace TaskRunner.Source

/-! ## Characters -/

/-- A character that starts an identifier. -/
def isNameStart (c : Char) : Bool :=
  c == '$' || c == '_' || Text.isAlphabetic c

/-- A character that continues an identifier. -/
def isNamePart (c : Char) : Bool :=
  isNameStart c || Text.isAlphanumeric c || c == '\u200c' || c == '\u200d'

/-- A character that ends a line. -/
def isLineTerminator (c : Char) : Bool :=
  c == '\n' || c == '\r' || c == '\u2028' || c == '\u2029'

/-! ## Blanks and comments -/

/-- The body of a line comment. -/
def lineCommentBody (chars : List Char) : List Char :=
  chars.takeWhile fun c => c != '\n' && c != '\r'

/-- The body of a block comment; none when it is not closed. -/
def blockCommentBody : List Char → Option (List Char)
  | [] => none
  | '*' :: '/' :: _ => some []
  | c :: rest => (blockCommentBody rest).map (c :: ·)

/-- What stands before a token: comments, last one first, and whether a line ended. -/
structure Gap where
  comments : List Comment
  newline : Bool

/-- Reads blanks and comments, at most `fuel` of them. -/
def skipGap : Nat → Gap → Cursor → Except SyntaxError (Gap × Cursor)
  | 0, gap, cur => .ok (gap, cur)
  | fuel + 1, gap, cur =>
    match cur.rest with
    | '/' :: '/' :: rest =>
      let body := lineCommentBody rest
      let after := cur.advance (2 + body.length)
      let comment : Comment := ⟨String.ofList body, false, ⟨cur.offset, after.offset⟩⟩
      skipGap fuel ⟨comment :: gap.comments, gap.newline⟩ after
    | '/' :: '*' :: rest =>
      match blockCommentBody rest with
      | none => .error (cur.fault .unterminatedComment)
      | some body =>
        let after := cur.advance (4 + body.length)
        let comment : Comment := ⟨String.ofList body, true, ⟨cur.offset, after.offset⟩⟩
        skipGap fuel ⟨comment :: gap.comments, gap.newline || body.contains '\n'⟩ after
    | c :: _ =>
      if isLineTerminator c then skipGap fuel ⟨gap.comments, true⟩ (cur.advance 1)
      else if Text.isBlank c then skipGap fuel gap (cur.advance 1)
      else .ok (gap, cur)
    | [] => .ok (gap, cur)

/-- All blanks and comments ahead. -/
def gapAt (cur : Cursor) : Except SyntaxError (Gap × Cursor) :=
  skipGap (cur.rest.length + 1) ⟨[], false⟩ cur

/-! ## Escapes and names -/

/-- The character of a code point in hexadecimal digits. A number that is no character gives the
replacement character; a text that is no number gives nothing. -/
def charOfHex (digits : List Char) : Option Char :=
  (Number.unsignedOfText 16 UInt32.size digits).map fun n =>
    if n.isValidChar then Char.ofNat n else '\ufffd'

/-- The character of a Unicode escape behind its `u`, and how many characters the escape takes. -/
def unicodeEscape : List Char → Option Char × Nat
  | '\x7b' :: rest =>
    let digits := rest.takeWhile (· != '\x7d')
    let closing := if digits.length < rest.length then 1 else 0
    (charOfHex digits, 1 + digits.length + closing)
  | chars =>
    let digits := chars.take 4
    (if digits.length < 4 then none else charOfHex digits, digits.length)

/-- An identifier: its characters with escapes decoded, and how many characters it takes. -/
def scanName : Nat → List Char → List Char × Nat
  | 0, _ => ([], 0)
  | fuel + 1, chars =>
    match chars with
    | [] => ([], 0)
    | '\\' :: 'u' :: rest =>
      match unicodeEscape rest with
      | (some c, count) =>
        let (name, more) := scanName fuel (rest.drop count)
        (c :: name, 2 + count + more)
      | (none, count) => ([], 2 + count)
    | c :: rest =>
      if isNamePart c then
        let (name, more) := scanName fuel rest
        (c :: name, 1 + more)
      else ([], 0)

/-- The identifier at the front. -/
def nameAt (chars : List Char) : String × Nat :=
  let (name, count) := scanName chars.length chars
  (String.ofList name, count)

/-! ## Numbers -/

/-- How many characters of a kind stand at the front. -/
def countWhile (p : Char → Bool) (chars : List Char) : Nat :=
  (chars.takeWhile p).length

/-- A decimal digit or a separator. -/
def isDigitOrSeparator (c : Char) : Bool :=
  c.isDigit || c == '_'

/-- One if the character stands at the front. -/
def countOptional (mark : Char) (chars : List Char) : Nat :=
  match chars with
  | c :: _ => if c == mark then 1 else 0
  | [] => 0

/-- The characters that an exponent takes; zero when no digit follows its letter. -/
def exponentLength : List Char → Nat
  | [] => 0
  | e :: rest =>
    if e == 'e' || e == 'E' then
      let sign := match rest with
        | c :: _ => if c == '+' || c == '-' then 1 else 0
        | [] => 0
      let digits := countWhile Char.isDigit (rest.drop sign)
      if digits = 0 then 0 else 1 + sign + digits
    else 0

/-- The characters that a decimal number takes, before an `n`. -/
def decimalTextLength (chars : List Char) : Nat :=
  let whole := countWhile isDigitOrSeparator chars
  let point := countOptional '.' (chars.drop whole)
  let fraction := if point = 0 then 0 else countWhile isDigitOrSeparator (chars.drop (whole + 1))
  let mantissa := whole + point + fraction
  mantissa + exponentLength (chars.drop mantissa)

/-- The base that a prefix names. -/
def baseOfPrefix : List Char → Option Nat
  | '0' :: 'x' :: _ | '0' :: 'X' :: _ => some 16
  | '0' :: 'o' :: _ | '0' :: 'O' :: _ => some 8
  | '0' :: 'b' :: _ | '0' :: 'B' :: _ => some 2
  | _ => none

/-- Whether a number may end before these characters. -/
def numberMayEnd : List Char → Bool
  | [] => true
  | c :: _ => !(isNameStart c || c.isDigit)

/-- A number and how many characters it takes. Separators are ignored and a final `n` is dropped;
an integer with a base prefix must fit sixty-four bits. -/
def numberAt (chars : List Char) : Except Fault (Float × Nat) :=
  match baseOfPrefix chars with
  | some base =>
    let length := countWhile (fun c => Number.isDigitOf base c || c == '_') (chars.drop 2)
    let digits := ((chars.drop 2).take length).filter (· != '_')
    let count := 2 + length + countOptional 'n' (chars.drop (2 + length))
    match (Number.natOfDigits base digits).filter (· < UInt64.size) with
    | none => .error .invalidNumber
    | some value =>
      if numberMayEnd (chars.drop count) then .ok (Number.ofNat value, count)
      else .error .identifierAfterNumber
  | none =>
    let length := decimalTextLength chars
    let text := (chars.take length).filter (· != '_')
    let count := length + countOptional 'n' (chars.drop length)
    if numberMayEnd (chars.drop count) then
      match Number.unsignedDecimal text with
      | some value => .ok (value, count)
      | none => .error .invalidNumber
    else .error .identifierAfterNumber

/-! ## Texts -/

/-- What an escape in a text stands for, and how many characters it takes behind the backslash. -/
def textEscape : List Char → List Char × Nat
  | [] => ([], 0)
  | 'n' :: _ => (['\n'], 1)
  | 't' :: _ => (['\t'], 1)
  | 'r' :: _ => (['\r'], 1)
  | 'b' :: _ => (['\x08'], 1)
  | 'f' :: _ => (['\x0c'], 1)
  | 'v' :: _ => (['\x0b'], 1)
  | '0' :: _ => (['\x00'], 1)
  | 'x' :: rest =>
    let digits := rest.take 2
    ((charOfHex digits).toList, 1 + digits.length)
  | 'u' :: rest =>
    let (c, count) := unicodeEscape rest
    (c.toList, 1 + count)
  | '\r' :: '\n' :: _ => ([], 2)
  | '\r' :: _ | '\n' :: _ => ([], 1)
  | c :: _ => ([c], 1)

/-- A text up to its closing quote: the decoded characters and how many characters it takes, the
quote included. None when the line or the file ends first. -/
def scanText (quote : Char) : Nat → List Char → Option (List Char × Nat)
  | 0, _ => none
  | fuel + 1, chars =>
    match chars with
    | [] => none
    | c :: rest =>
      if c == '\n' || c == '\r' then none
      else if c == quote then some ([], 1)
      else if c == '\\' then
        let (value, count) := textEscape rest
        (scanText quote fuel (rest.drop count)).map fun (more, n) =>
          (value ++ more, 1 + count + n)
      else (scanText quote fuel rest).map fun (more, n) => (c :: more, 1 + n)

/-! ## Regular expressions -/

/-- The characters that a regular expression takes behind its first slash, flags excluded; none when
it is not closed on its line. -/
def scanRegex : Bool → List Char → Option Nat
  | _, [] => none
  | inClass, c :: rest =>
    if c == '\n' || c == '\r' then none
    else if c == '\\' then
      match rest with
      | [] => none
      | e :: more => if e == '\n' then none else (scanRegex inClass more).map (2 + ·)
    else if c == '/' && !inClass then some 1
    else if c == '[' then (scanRegex true rest).map (1 + ·)
    else if c == ']' then (scanRegex false rest).map (1 + ·)
    else (scanRegex inClass rest).map (1 + ·)

/-! ## Tokens -/

/-- The punctuation marks; of two that fit the earlier one is taken. -/
def marks : List String :=
  [">>>=", "...", "===", "!==", "**=", "<<=", ">>=", ">>>", "&&=", "||=", "??=", "=>", "==",
    "!=", "<=", ">=", "&&", "||", "??", "?.", "++", "--", "+=", "-=", "*=", "/=", "%=", "&=",
    "|=", "^=", "**", "<<", ">>", "\x7b", "\x7d", "(", ")", "[", "]", ";", ",", "<", ">", "+", "-",
    "*", "/", "%", "&", "|", "^", "!", "~", "?", ":", "=", ".", "@"]

/-- The punctuation mark at the front. A question mark before a decimal fraction stands alone. -/
def markAt (chars : List Char) : Option String :=
  (marks.find? fun mark => mark.toList.isPrefixOf chars).map fun mark =>
    if mark == "?." && ((chars.drop 2).head?.any Char.isDigit) then "?" else mark

/-- Words behind which a slash starts a regular expression. -/
def operandWords : List String :=
  ["return", "typeof", "instanceof", "in", "of", "new", "delete", "void", "throw", "case", "do",
    "else", "yield", "await"]

/-- Whether a slash behind the token starts a regular expression. -/
def Kind.regexMayFollow : Kind → Bool
  | .ident name => operandWords.contains name
  | .punct mark => !([")", "]", "\x7d", "++", "--"].contains mark)
  | .endOfFile => true
  | _ => false

/-- The token at the front other than a template, and how many characters it takes. -/
def lexeme (regexMayStart : Bool) (chars : List Char) : Except Fault (Kind × Nat) :=
  match chars with
  | [] => .ok (.endOfFile, 0)
  | c :: rest =>
    let second := rest.head?
    if isNameStart c || (c == '\\' && second == some 'u') then
      let (name, count) := nameAt chars
      .ok (.ident name, count)
    else if c == '#' && second.any isNameStart then
      let (name, count) := nameAt rest
      .ok (.privateName name, 1 + count)
    else if c.isDigit || (c == '.' && second.any Char.isDigit) then do
      let (value, count) ← numberAt chars
      .ok (.number value, count)
    else if c == '"' || c == '\'' then
      match scanText c (rest.length + 1) rest with
      | some (value, count) => .ok (.text (String.ofList value), 1 + count)
      | none => .error .unterminatedString
    else if c == '/' && regexMayStart then
      match scanRegex false rest with
      | some count => .ok (.regex, 1 + count + countWhile isNamePart (rest.drop count))
      | none => .error .unterminatedRegex
    else
      match markAt chars with
      | some mark => .ok (.punct mark, mark.length)
      | none => .error (.invalidCharacter c)

/-- The lexeme at the cursor, and the cursor behind it. -/
def lexemeAt (regexMayStart : Bool) (cur : Cursor) : Except SyntaxError (Kind × Cursor) :=
  match lexeme regexMayStart cur.rest with
  | .ok (kind, count) => .ok (kind, cur.advance count)
  | .error fault => .error (cur.fault fault)

mutual

/-- Reads the text of a template that was opened at `opened`, up to behind its closing backtick. -/
def templateText (opened : Place) : Nat → Cursor → Except SyntaxError Cursor
  | 0, _ => .error ⟨.unterminatedTemplate, opened⟩
  | fuel + 1, cur =>
    match cur.rest with
    | [] => .error ⟨.unterminatedTemplate, opened⟩
    | '\x60' :: _ => .ok (cur.advance 1)
    | '\\' :: _ => templateText opened fuel (cur.advance 2)
    | '$' :: '\x7b' :: _ => templateHole opened fuel 0 true (cur.advance 2)
    | _ => templateText opened fuel (cur.advance 1)

/-- Reads the tokens of a substitution, with `depth` braces open in it, and the template's text
behind it. -/
def templateHole (opened : Place) :
    Nat → Nat → Bool → Cursor → Except SyntaxError Cursor
  | 0, _, _, _ => .error ⟨.unterminatedTemplate, opened⟩
  | fuel + 1, depth, regexMayStart, cur => do
    let (_, cur) ← gapAt cur
    match cur.rest with
    | [] => .error ⟨.unterminatedTemplate, opened⟩
    | '\x60' :: _ => do
      let after ← templateText cur.place fuel (cur.advance 1)
      templateHole opened fuel depth false after
    | _ => do
      let (kind, after) ← lexemeAt regexMayStart cur
      if kind == .punct "\x7b" then templateHole opened fuel (depth + 1) kind.regexMayFollow after
      else if kind == .punct "\x7d" then
        if depth = 0 then templateText opened fuel after
        else templateHole opened fuel (depth - 1) kind.regexMayFollow after
      else templateHole opened fuel depth kind.regexMayFollow after

end

/-- The token at the cursor, behind its gap, and the cursor behind it. -/
def tokenAt (regexMayStart : Bool) (cur : Cursor) : Except SyntaxError (Token × Cursor) := do
  let (gap, cur) ← gapAt cur
  let (kind, after) ← match cur.rest with
    | '\x60' :: _ => (templateText cur.place (2 * cur.rest.length) (cur.advance 1)).map (Kind.template, ·)
    | _ => lexemeAt regexMayStart cur
  .ok (⟨kind, ⟨cur.offset, after.offset⟩, cur.place, gap.newline, gap.comments.reverse⟩, after)

/-- The tokens from the cursor on, at most `fuel` of them before the end. -/
def tokensFrom : Nat → Bool → Cursor → Except SyntaxError (List Token)
  | 0, _, _ => .ok []
  | fuel + 1, regexMayStart, cur => do
    let (token, after) ← tokenAt regexMayStart cur
    if token.kind == .endOfFile then .ok [token]
    else do
      let more ← tokensFrom fuel token.kind.regexMayFollow after
      .ok (token :: more)

/-- Where the first token is looked for: behind a byte order mark, which has no column, and behind a
line that starts with `#!`. -/
def firstCursor (chars : List Char) : Cursor :=
  let cur : Cursor := match chars with
    | '\ufeff' :: rest => ⟨rest, 3, ⟨1, 1⟩⟩
    | _ => Cursor.start chars
  match cur.rest with
  | '#' :: '!' :: _ => cur.advance (countWhile (· != '\n') cur.rest)
  | _ => cur

/-- The tokens of a file; the last one is its end. -/
def tokenize (source : String) : Except SyntaxError (List Token) :=
  let cur := firstCursor source.toList
  tokensFrom (cur.rest.length + 1) true cur

end TaskRunner.Source
