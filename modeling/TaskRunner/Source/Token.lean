import TaskRunner.Number.Reading
import TaskRunner.Text.Property

/-!
# Tokens of a script file

A token carries its span in the file, its place, and the comments before it. A template literal, with
everything in its substitutions, is one token, and so is a regular expression.
-/

namespace TaskRunner.Source

/-- A range of bytes of the file, `stop` excluded. -/
structure Span where
  start : Nat
  stop : Nat
deriving DecidableEq, Repr

/-- A line and a column, both counted from one. Columns count characters. -/
structure Place where
  line : Nat
  column : Nat
deriving DecidableEq, Repr

/-- A comment; `text` is what stands between its delimiters. -/
structure Comment where
  text : String
  isBlock : Bool
  span : Span
deriving DecidableEq, Repr

/-- What a token is. Keywords are identifiers. -/
inductive Kind where
  | ident (name : String)
  | privateName (name : String)
  | punct (mark : String)
  | text (value : String)
  | number (value : Float)
  | template
  | regex
  | endOfFile
deriving DecidableEq, Repr

/-- A token of a file. -/
structure Token where
  kind : Kind
  span : Span
  place : Place
  /-- Whether a line ends between the token before and this one. -/
  newlineBefore : Bool
  /-- The comments between the token before and this one. -/
  comments : List Comment
deriving DecidableEq, Repr

namespace Token

/-- Whether the token is the given punctuation mark. -/
def isPunct (t : Token) (mark : String) : Bool :=
  t.kind == .punct mark

/-- Whether the token is the given word. -/
def isWord (t : Token) (word : String) : Bool :=
  t.kind == .ident word

/-- The name of an identifier. -/
def name? (t : Token) : Option String :=
  match t.kind with
  | .ident name => some name
  | _ => none

/-- The name of an identifier or the value of a text. -/
def nameOrText? (t : Token) : Option String :=
  match t.kind with
  | .ident name => some name
  | .text value => some value
  | _ => none

/-- The value of a text token. -/
def text? (t : Token) : Option String :=
  match t.kind with
  | .text value => some value
  | _ => none

/-- The token in an error message. -/
def describe (t : Token) : String :=
  match t.kind with
  | .ident name => name
  | .privateName name => "#" ++ name
  | .punct mark => mark
  | .text _ => "string"
  | .number _ => "number"
  | .template => "template"
  | .regex => "regular expression"
  | .endOfFile => "end of input"

end Token

/-- What is wrong with a file. -/
inductive Fault where
  | duplicateDeclaration (name : String)
  | unexpectedToken (description : String)
  | unexpectedEnd
  | unterminatedString
  | unterminatedTemplate
  | unterminatedComment
  | unterminatedRegex
  | invalidCharacter (c : Char)
  | invalidNumber
  | identifierAfterNumber
deriving DecidableEq, Repr

/-- A character as an error message shows it: printable ASCII as it is, anything else as an escape. -/
def shownChar (c : Char) : String :=
  match c with
  | '\t' => "\\t"
  | '\r' => "\\r"
  | '\n' => "\\n"
  | '\'' => "\\'"
  | '"' => "\\\""
  | '\\' => "\\\\"
  | c =>
    if 0x20 ≤ c.toNat && c.toNat ≤ 0x7e then c.toString
    else "\\u\x7b" ++ String.ofList (Nat.toDigits 16 c.toNat) ++ "\x7d"

namespace Fault

/-- The fault in words. -/
def message : Fault → String
  | duplicateDeclaration name => "Identifier '" ++ name ++ "' has already been declared"
  | unexpectedToken description => "Unexpected token '" ++ description ++ "'"
  | unexpectedEnd => "Unexpected end of input"
  | unterminatedString => "Unterminated string constant"
  | unterminatedTemplate => "Unterminated template"
  | unterminatedComment => "Unterminated comment"
  | unterminatedRegex => "Unterminated regular expression"
  | invalidCharacter c => "Invalid or unexpected character '" ++ shownChar c ++ "'"
  | invalidNumber => "Invalid number literal"
  | identifierAfterNumber => "Identifier directly after number"

/-- The short code of a fault. -/
def code : Fault → String
  | duplicateDeclaration _ => "duplicate-declaration"
  | unexpectedToken _ => "unexpected-token"
  | unexpectedEnd => "unexpected-eof"
  | unterminatedString => "unterminated-string"
  | unterminatedTemplate => "unterminated-template"
  | unterminatedComment => "unterminated-comment"
  | unterminatedRegex => "unterminated-regexp"
  | invalidCharacter _ | invalidNumber | identifierAfterNumber => "invalid-character"

end Fault

/-- The coarse kinds of faults. -/
inductive Fault.Category where
  | duplicateDeclaration
  | unexpectedToken
  | generic
deriving DecidableEq, Repr

/-- The coarse kind of a fault. -/
def Fault.category : Fault → Fault.Category
  | duplicateDeclaration _ => .duplicateDeclaration
  | unexpectedToken _ | unexpectedEnd => .unexpectedToken
  | _ => .generic

/-- A fault and where it is. -/
structure SyntaxError where
  fault : Fault
  place : Place
deriving DecidableEq, Repr

/-- The error in one line. -/
def SyntaxError.display (e : SyntaxError) : String :=
  e.fault.message ++ " (" ++ toString e.place.line ++ ":" ++ toString e.place.column ++ ")"

end TaskRunner.Source
