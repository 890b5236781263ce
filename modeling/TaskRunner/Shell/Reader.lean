import TaskRunner.Shell.Command

/-!
# Reading scripts

The commands that a script's text stands for. A line is read as a whole before the next one, so that the
lines before an error still run.
-/

namespace TaskRunner.Shell

/-- Blanks inside a line, among them line ends that a backslash takes away. -/
def skipSpaces : List Char → List Char
  | '\\' :: '\n' :: rest => skipSpaces rest
  | c :: rest => if c == ' ' || c == '\t' then skipSpaces rest else c :: rest
  | [] => []

/-- Leaves out a comment. -/
def skipComment (cs : List Char) : List Char :=
  match skipSpaces cs with
  | '#' :: rest => rest.dropWhile (· != '\n')
  | rest => rest

/-- Leaves out blanks, comments and line ends, in `fuel` steps at most. -/
def skipLines : Nat → List Char → List Char
  | 0, cs => cs
  | fuel + 1, cs =>
    match skipComment cs with
    | '\n' :: rest => skipLines fuel rest
    | rest => rest

/-- The characters that end a word. -/
def endsWord (c : Char) : Bool :=
  " \t\n;&|<>()".contains c

/-- The characters of names. -/
def isNameChar (c : Char) : Bool :=
  c.isAlphanum || c == '_'

/-- Whether a text is a name. -/
def isName (cs : List Char) : Bool :=
  match cs with
  | c :: _ => !c.isDigit && cs.all isNameChar
  | [] => false

/-- The words that open, part and close compound commands. -/
def reservedWords : List String :=
  ["if", "then", "else", "elif", "fi", "while", "until", "do", "done", "for", "in", "\x7b", "\x7d", "!"]

/-- A reserved word in front, and what follows it. -/
def takeReserved? (cs : List Char) : Option (String × List Char) :=
  let cs := skipSpaces cs
  let word := cs.takeWhile fun c => !endsWord c
  if reservedWords.contains (String.ofList word) then
    some (String.ofList word, cs.drop word.length)
  else none

/-- The name of a parameter after a dollar sign: a name, a digit or a mark. -/
def takeParameter? (cs : List Char) : Option (String × List Char) :=
  match cs with
  | [] => none
  | c :: rest =>
    if c.isAlpha || c == '_' then
      let name := cs.takeWhile isNameChar
      some (String.ofList name, cs.drop name.length)
    else if c.isDigit || "?$!#@*-".contains c then some (c.toString, rest)
    else none

/-- The operators of a parameter in braces. -/
def takeOperator (cs : List Char) : String × List Char :=
  let operators := [":-", ":=", ":?", ":+", "##", "%%", "-", "=", "?", "+", "#", "%"]
  match operators.find? fun op => op.toList.isPrefixOf cs with
  | some op => (op, cs.drop op.length)
  | none => ("", cs)

/-- Puts a character in front of a word. -/
def addChar (c : Char) (isQuoted : Bool) : Word → Word
  | .text cs q :: rest => if q == isQuoted then .text (c :: cs) q :: rest
      else .text [c] isQuoted :: .text cs q :: rest
  | rest => .text [c] isQuoted :: rest

/-- What is wrong with a script that ends in quotes. -/
def unterminated : String := "Syntax error: Unterminated quoted string"

/-- What is wrong with a script at a place. -/
def unexpected (cs : List Char) : String :=
  let thing := match skipSpaces cs with
    | [] => "end of file"
    | '\n' :: _ => "newline"
    | c :: rest =>
      if ";&|".contains c && rest.head? == some c then "\"" ++ String.ofList [c, c] ++ "\""
      else if endsWord c then "\"" ++ c.toString ++ "\""
      else "\"" ++ String.ofList ((c :: rest).takeWhile fun c => !endsWord c) ++ "\""
  "Syntax error: " ++ thing ++ " unexpected"

/-- The end of the commands that are being read. -/
inductive Stop where
  /-- The end of the line or of the text. -/
  | line
  | parenthesis
  | words (options : List String)
deriving DecidableEq, Repr

/-- Whether commands end here. -/
def Stop.isHere (stop : Stop) (cs : List Char) : Bool :=
  match stop with
  | line => (skipSpaces cs).isEmpty
  | parenthesis => (skipSpaces cs).head? == some ')'
  | words options => (takeReserved? cs).any fun w => options.contains w.1

/-- What ends a part of a word. -/
inductive Close where
  /-- The end of the word. -/
  | blank
  | quote
  | brace
  /-- Two closing parentheses. -/
  | parentheses
deriving DecidableEq, Repr

/-- Marks of redirections with their descriptors and kinds, longer ones first. -/
def redirectMarks : List (String × Nat × RedirectKind) :=
  [(">>", 1, .append), (">&", 1, .same), (">|", 1, .output), ("<&", 0, .same), (">", 1, .output),
    ("<", 0, .input)]

/-- A redirection's descriptor and kind, when one begins here. -/
def takeRedirect? (cs : List Char) : Option (Nat × RedirectKind × List Char) :=
  let (digit, rest) := match cs with
    | c :: d :: rest =>
      if c.isDigit && (d == '>' || d == '<') then (some (c.toNat - '0'.toNat), d :: rest)
      else (none, cs)
    | _ => (none, cs)
  (redirectMarks.find? fun m => m.1.toList.isPrefixOf rest).map fun (mark, fd, kind) =>
    (digit.getD fd, kind, rest.drop mark.length)

/-- Writes the parenthesis that closes the first open one twice, so that it ends a part. -/
def closeOne (cs : List Char) : List Char :=
  let rec go : Nat → List Char → List Char
    | _, [] => []
    | 0, ')' :: rest => ')' :: ')' :: rest
    | n + 1, ')' :: rest => ')' :: go n rest
    | n, '(' :: rest => '(' :: go (n + 1) rest
    | n, c :: rest => c :: go n rest
  go 0 cs

mutual

/-- Reads the parts of a word up to where it closes, in `fuel` steps at most. -/
def readParts (close : Close) : Nat → List Char → Except String (Word × List Char)
  | 0, _ => .error unterminated
  | fuel + 1, cs =>
    let isQuoted := close == .quote
    let more := fun (part : Part) (rest : List Char) => do
      let (parts, rest) ← readParts close fuel rest
      return (part :: parts, rest)
    let keep := fun (c : Char) (quoted : Bool) (rest : List Char) => do
      let (parts, rest) ← readParts close fuel rest
      return (addChar c quoted parts, rest)
    match cs with
    | [] => if close == .blank then .ok ([], []) else .error unterminated
    | '\\' :: '\n' :: rest => readParts close fuel rest
    | '\\' :: c :: rest =>
      if isQuoted && !"$\x60\"\\".contains c then do
        let (parts, rest) ← readParts close fuel (c :: rest)
        return (addChar '\\' true parts, rest)
      else keep c true rest
    | '$' :: '(' :: '(' :: rest => do
      let (expression, rest) ← readParts .parentheses fuel rest
      more (.arithmetic expression) rest
    | '$' :: '(' :: rest => do
      let (body, rest) ← readBlock .parenthesis fuel rest
      more (.output body isQuoted) ((skipSpaces rest).drop 1)
    | '$' :: '{' :: '#' :: c :: rest =>
      if c == '\x7d' then more (.parameter "#" "" [] isQuoted) rest
      else
        match takeParameter? (c :: rest) with
        | some (name, '\x7d' :: rest) => more (.length name) rest
        | _ => .error "Bad substitution"
    | '$' :: '{' :: rest =>
      match takeParameter? rest with
      | some (name, rest) => do
        let (operator, rest) := takeOperator rest
        let (word, rest) ← readParts .brace fuel rest
        if operator.isEmpty && !word.isEmpty then .error "Bad substitution"
        more (.parameter name operator word isQuoted) rest
      | none => .error "Bad substitution"
    | '$' :: rest =>
      match takeParameter? rest with
      | some (name, rest) => more (.parameter name "" [] isQuoted) rest
      | none => keep '$' isQuoted rest
    | '\x60' :: rest => do
      let inner := rest.takeWhile (· != '\x60')
      let (body, _) ← readBlock .line fuel inner
      if inner.length == rest.length then .error "Syntax error: EOF in backquote substitution"
      more (.output body isQuoted) (rest.drop (inner.length + 1))
    | '\'' :: rest =>
      if isQuoted || close == .parentheses then keep '\'' isQuoted rest
      else
        let inner := rest.takeWhile (· != '\'')
        if inner.length == rest.length then .error unterminated
        else more (.text inner true) (rest.drop (inner.length + 1))
    | '"' :: rest =>
      if isQuoted then .ok ([], rest)
      else do
        let (inner, rest) ← readParts .quote fuel rest
        let (parts, rest) ← readParts close fuel rest
        return ((if inner.isEmpty then [.text [] true] else inner) ++ parts, rest)
    | ')' :: ')' :: rest =>
      if close == .parentheses then .ok ([], rest)
      else if close == .blank then .ok ([], cs)
      else keep ')' isQuoted (')' :: rest)
    | '(' :: rest =>
      if close == .parentheses then do
        let (inner, rest) ← readParts .parentheses fuel (closeOne rest)
        let (parts, rest) ← readParts close fuel rest
        return ([.text ['('] false] ++ inner ++ [.text [')'] false] ++ parts, rest)
      else if close == .blank then .ok ([], cs)
      else keep '(' isQuoted rest
    | c :: rest =>
      if close == .blank && endsWord c then .ok ([], cs)
      else if close == .brace && c == '\x7d' then .ok ([], rest)
      else keep c isQuoted rest

/-- Reads commands up to where they stop. -/
def readBlock (stop : Stop) : Nat → List Char → Except String (List Command × List Char)
  | 0, cs => .error (unexpected cs)
  | fuel + 1, cs =>
    let cs := skipLines cs.length cs
    if stop.isHere cs then .ok ([], cs)
    else do
      let (commands, cs) ← readLine stop fuel cs
      let (more, cs) ← readBlock stop fuel cs
      return (commands ++ more, cs)

/-- Reads the commands of a line. -/
def readLine (stop : Stop) : Nat → List Char → Except String (List Command × List Char)
  | 0, cs => .error (unexpected cs)
  | fuel + 1, cs => do
    let (command, cs) ← readChain fuel cs
    let cs := skipComment cs
    match cs with
    | ';' :: ';' :: _ => .error (unexpected cs)
    | ';' :: rest | '&' :: rest =>
      let rest := skipComment rest
      if rest.isEmpty || rest.head? == some '\n' || stop.isHere rest then
        return ([command], if rest.head? == some '\n' then rest.drop 1 else rest)
      else
        let (more, cs) ← readLine stop fuel rest
        return (command :: more, cs)
    | '\n' :: rest => return ([command], rest)
    | [] => return ([command], [])
    | _ => if stop.isHere cs then return ([command], cs) else .error (unexpected cs)

/-- Reads commands that run depending on those before them. -/
def readChain : Nat → List Char → Except String (Command × List Char)
  | 0, cs => .error (unexpected cs)
  | fuel + 1, cs => do
    let (first, cs) ← readPipeline fuel cs
    readChainEnd fuel first cs

/-- Reads what follows a command in a chain. -/
def readChainEnd : Nat → Command → List Char → Except String (Command × List Char)
  | 0, _, cs => .error (unexpected cs)
  | fuel + 1, first, cs =>
    match skipSpaces cs with
    | '&' :: '&' :: rest => do
      let (second, rest) ← readPipeline fuel (skipLines rest.length rest)
      readChainEnd fuel (.both first second) rest
    | '|' :: '|' :: rest => do
      let (second, rest) ← readPipeline fuel (skipLines rest.length rest)
      readChainEnd fuel (.either first second) rest
    | rest => .ok (first, rest)

/-- Reads commands joined by pipes. -/
def readPipeline : Nat → List Char → Except String (Command × List Char)
  | 0, cs => .error (unexpected cs)
  | fuel + 1, cs => do
    let (isNegated, cs) := match takeReserved? cs with
      | some ("!", rest) => (true, rest)
      | _ => (false, cs)
    let (stages, cs) ← readStages fuel cs
    match isNegated, stages with
    | false, [stage] => return (stage, cs)
    | _, _ => return (.pipeline isNegated stages, cs)

/-- Reads the commands of a pipeline. -/
def readStages : Nat → List Char → Except String (List Command × List Char)
  | 0, cs => .error (unexpected cs)
  | fuel + 1, cs => do
    let (stage, cs) ← readCommand fuel cs
    match skipSpaces cs with
    | '|' :: '|' :: rest => return ([stage], '|' :: '|' :: rest)
    | '|' :: rest =>
      let (stages, rest) ← readStages fuel (skipLines rest.length rest)
      return (stage :: stages, rest)
    | rest => return ([stage], rest)

/-- Reads a command. -/
def readCommand : Nat → List Char → Except String (Command × List Char)
  | 0, cs => .error (unexpected cs)
  | fuel + 1, cs =>
    let cs := skipSpaces cs
    match cs, takeReserved? cs with
    | '(' :: rest, _ => do
      let (body, rest) ← readBlock .parenthesis fuel rest
      let (redirects, rest) ← readRedirects fuel ((skipSpaces rest).drop 1)
      return (.group body true redirects, rest)
    | _, some ("\x7b", rest) => do
      let (body, rest) ← readUntil ["\x7d"] fuel rest
      let (redirects, rest) ← readRedirects fuel rest
      return (.group body false redirects, rest)
    | _, some ("if", rest) => do
      let (arms, otherwise, rest) ← readArms fuel rest
      return (.branch arms otherwise, rest)
    | _, some ("for", rest) => do
      let rest := skipSpaces rest
      let name := rest.takeWhile isNameChar
      if !isName name then .error "Syntax error: Bad for loop variable"
      let rest := rest.drop name.length
      match takeReserved? rest with
      | some ("in", rest) =>
        let (words, _, _, rest) ← readWords fuel false rest
        let (body, rest) ← readBody fuel rest
        return (.forEach (String.ofList name) words body, rest)
      | _ => .error (unexpected rest)
    | _, some ("while", rest) => do
      let (condition, rest) ← readBlock (.words ["do"]) fuel rest
      let (body, rest) ← readBody fuel rest
      return (.loop false condition body, rest)
    | _, some ("until", rest) => do
      let (condition, rest) ← readBlock (.words ["do"]) fuel rest
      let (body, rest) ← readBody fuel rest
      return (.loop true condition body, rest)
    | _, some _ => .error (unexpected cs)
    | _, none => do
      let (words, assignments, redirects, rest) ← readWords fuel true cs
      if words.isEmpty && assignments.isEmpty && redirects.isEmpty then .error (unexpected rest)
      return (.simple cs.length assignments words redirects, rest)

/-- Reads commands up to one of some reserved words, and goes past it. -/
def readUntil (options : List String) : Nat → List Char → Except String (List Command × List Char)
  | 0, cs => .error (unexpected cs)
  | fuel + 1, cs => do
    let (body, rest) ← readBlock (.words options) fuel cs
    match takeReserved? rest with
    | some (_, rest) => return (body, rest)
    | none => .error (unexpected rest)

/-- Reads the body of a loop. -/
def readBody : Nat → List Char → Except String (List Command × List Char)
  | 0, cs => .error (unexpected cs)
  | fuel + 1, cs =>
    let cs := match skipSpaces cs with
      | ';' :: rest => rest
      | rest => rest
    match takeReserved? (skipLines cs.length cs) with
    | some ("do", rest) => readUntil ["done"] fuel rest
    | _ => .error (unexpected cs)

/-- Reads the arms of a conditional after its first word. -/
def readArms : Nat → List Char →
    Except String (List (List Command × List Command) × List Command × List Char)
  | 0, cs => .error (unexpected cs)
  | fuel + 1, cs => do
    let (condition, rest) ← readUntil ["then"] fuel cs
    let (body, rest) ← readBlock (.words ["elif", "else", "fi"]) fuel rest
    match takeReserved? rest with
    | some ("elif", rest) =>
      let (arms, otherwise, rest) ← readArms fuel rest
      return ((condition, body) :: arms, otherwise, rest)
    | some ("else", rest) =>
      let (otherwise, rest) ← readUntil ["fi"] fuel rest
      return ([(condition, body)], otherwise, rest)
    | some (_, rest) => return ([(condition, body)], [], rest)
    | none => .error (unexpected rest)

/-- Reads redirections. -/
def readRedirects : Nat → List Char → Except String (List Redirect × List Char)
  | 0, cs => .error (unexpected cs)
  | fuel + 1, cs =>
    match takeRedirect? (skipSpaces cs) with
    | some (fd, kind, rest) => do
      let (target, rest) ← readParts .blank fuel (skipSpaces rest)
      if target.isEmpty then .error (unexpected rest)
      let (more, rest) ← readRedirects fuel rest
      return (.mk fd kind target :: more, rest)
    | none => .ok ([], cs)

/-- Reads the words of a command with the assignments in front and the redirections between them. -/
def readWords : Nat → Bool → List Char →
    Except String (List Word × List (String × Word) × List Redirect × List Char)
  | 0, _, cs => .error (unexpected cs)
  | fuel + 1, mayAssign, cs => do
    let cs := skipSpaces cs
    match takeRedirect? cs with
    | some _ =>
      let (redirects, rest) ← readRedirects fuel cs
      let (words, assignments, more, rest) ← readWords fuel mayAssign rest
      return (words, assignments, redirects ++ more, rest)
    | none =>
      let name := cs.takeWhile isNameChar
      if cs.isEmpty || cs.head?.any endsWord || cs.head? == some '#' then return ([], [], [], cs)
      else if mayAssign && isName name && (cs.drop name.length).head? == some '=' then
        let (value, rest) ← readParts .blank fuel (cs.drop (name.length + 1))
        let (words, assignments, redirects, rest) ← readWords fuel true rest
        return (words, (String.ofList name, value) :: assignments, redirects, rest)
      else
        let (word, rest) ← readParts .blank fuel cs
        let (words, assignments, redirects, rest) ← readWords fuel false rest
        return (word :: words, assignments, redirects, rest)

end

end TaskRunner.Shell
