import TaskRunner.Number.Reading
import TaskRunner.Shell.State

/-!
# Utilities

The programs that scripts call: they get their arguments and the state, and give the new state and a
status.
-/

namespace TaskRunner.Shell

open Files (FileError Node)

/-- A utility. -/
abbrev Utility := List String → State → State × Nat

/-! ## Writing -/

/-- A control character after a backslash. -/
def controlEscape? : Char → Option UInt8
  | 'a' => some 7
  | 'b' => some 8
  | 'f' => some 12
  | 'n' => some 10
  | 'r' => some 13
  | 't' => some 9
  | 'v' => some 11
  | '\\' => some 92
  | _ => none

/-- Up to `n` octal digits in front, as a byte, and what follows. -/
def octalByte? (n : Nat) (cs : List Char) : Option (UInt8 × List Char) :=
  let digits := (cs.take n).takeWhile fun c => '0' ≤ c && c ≤ '7'
  (Number.natOfDigits 8 digits).map fun value => (UInt8.ofNat value, cs.drop digits.length)

/-- What the characters of an argument with escapes stand for, and whether the output ends there. An
octal escape starts with a zero. -/
def unescape : Nat → List Char → List UInt8 × Bool
  | 0, _ => ([], false)
  | _, [] => ([], false)
  | fuel + 1, '\\' :: c :: rest =>
    let more := fun (bytes : List UInt8) (rest : List Char) =>
      let (tail, stops) := unescape fuel rest
      (bytes ++ tail, stops)
    match controlEscape? c with
    | some b => more [b] rest
    | none =>
      if c == 'c' then ([], true)
      else if c == '0' then
        match octalByte? 3 rest with
        | some (b, rest) => more [b] rest
        | none => more [0] rest
      else more (Text.utf8 (String.ofList ['\\', c])) rest
  | fuel + 1, c :: rest =>
    let (tail, stops) := unescape fuel rest
    (Text.utf8 c.toString ++ tail, stops)

/-- Writes its arguments. -/
def echo : Utility := fun args s =>
  let (isBare, args) := match args with
    | "-n" :: rest => (true, rest)
    | rest => (false, rest)
  let text := " ".intercalate args
  let (bytes, stops) := unescape (text.length + 1) text.toList
  (s.say (if isBare || stops then bytes else bytes ++ [10]), 0)

/-- A conversion of a format. -/
structure Conversion where
  flags : List Char
  width : Nat
  precision : Option Nat
  kind : Char
deriving DecidableEq, Repr

/-- Reads a conversion after its percent sign. -/
def readConversion? (cs : List Char) : Option (Conversion × List Char) :=
  let flags := cs.takeWhile fun c => "-+ 0#".contains c
  let cs := cs.drop flags.length
  let width := cs.takeWhile Char.isDigit
  let cs := cs.drop width.length
  let (precision, cs) := match cs with
    | '.' :: rest =>
      let digits := rest.takeWhile Char.isDigit
      (some ((Number.natOfDigits 10 digits).getD 0), rest.drop digits.length)
    | rest => (none, rest)
  match cs with
  | kind :: rest => some (⟨flags, (Number.natOfDigits 10 width).getD 0, precision, kind⟩, rest)
  | [] => none

/-- Fills bytes up to the width. -/
def Conversion.pad (c : Conversion) (bytes : List UInt8) (isNumber : Bool) : List UInt8 :=
  let missing := c.width - bytes.length
  if c.flags.contains '-' then bytes ++ List.replicate missing 32
  else if c.flags.contains '0' && isNumber && c.precision.isNone then
    match bytes with
    | 45 :: digits => 45 :: (List.replicate missing 48 ++ digits)
    | digits => List.replicate missing 48 ++ digits
  else List.replicate missing 32 ++ bytes

/-- The integer that an argument denotes; a quote stands in front of a character. -/
def integerOfArgument? (arg : String) : Option Int :=
  match arg.toList with
  | [] => some 0
  | '\'' :: c :: _ | '"' :: c :: _ => some c.toNat
  | '-' :: digits => (Number.natOfDigits 10 digits).map fun n => -(n : Int)
  | '0' :: 'x' :: digits => (Number.natOfDigits 16 digits).map fun n => (n : Int)
  | '0' :: d :: digits => (Number.natOfDigits 8 (d :: digits)).map fun n => (n : Int)
  | digits => (Number.natOfDigits 10 digits).map fun n => (n : Int)

/-- What a conversion makes of its argument, and whether it ends the output. -/
def Conversion.apply (c : Conversion) (arg : String) : List UInt8 × Bool :=
  let cut := fun (bytes : List UInt8) => match c.precision with
    | some n => bytes.take n
    | none => bytes
  let number := (integerOfArgument? arg).getD 0
  let natural := (number % UInt64.size).toNat
  let digits := fun (base : Nat) => String.ofList (Nat.toDigits base natural)
  match c.kind with
  | 's' => (c.pad (cut (Text.utf8 arg)) false, false)
  | 'b' =>
    let (bytes, stops) := unescape (arg.length + 1) arg.toList
    (c.pad (cut bytes) false, stops)
  | 'c' => (c.pad ((Text.utf8 arg).take 1) false, false)
  | 'd' | 'i' =>
    let sign := if 0 ≤ number && c.flags.contains '+' then "+" else ""
    (c.pad (Text.utf8 (sign ++ toString number)) true, false)
  | 'u' => (c.pad (Text.utf8 (digits 10)) true, false)
  | 'o' => (c.pad (Text.utf8 (digits 8)) true, false)
  | 'x' => (c.pad (Text.utf8 (digits 16)) true, false)
  | 'X' => (c.pad (Text.utf8 (digits 16).toUpper) true, false)
  | _ => ([], false)

/-- One pass over a format: the bytes, the arguments left, and whether the output ends there. -/
def formatOnce : Nat → List Char → List String → List UInt8 × List String × Bool
  | 0, _, args => ([], args, false)
  | _, [], args => ([], args, false)
  | fuel + 1, cs, args =>
    let more := fun (bytes : List UInt8) (rest : List Char) (args : List String) =>
      let (tail, args, stops) := formatOnce fuel rest args
      (bytes ++ tail, args, stops)
    match cs with
    | '%' :: '%' :: rest => more [37] rest args
    | '%' :: rest =>
      match readConversion? rest with
      | some (c, rest) =>
        let (bytes, stops) := c.apply (args.headD "")
        if stops then (bytes, args.drop 1, true) else more bytes rest (args.drop 1)
      | none => ([37], args, false)
    | '\\' :: c :: rest =>
      match controlEscape? c, octalByte? 3 (c :: rest) with
      | some b, _ => more [b] rest args
      | none, some (b, rest) => more [b] rest args
      | none, none =>
        if c == 'c' then ([], args, true)
        else if c == '"' || c == '\'' then more (Text.utf8 c.toString) rest args
        else more (Text.utf8 (String.ofList ['\\', c])) rest args
    | c :: rest => more (Text.utf8 c.toString) rest args
    | [] => ([], args, false)

/-- Goes over a format as long as arguments are left. -/
def formatAll (format : List Char) : Nat → List String → List UInt8
  | 0, _ => []
  | fuel + 1, args =>
    let (bytes, rest, stops) := formatOnce (format.length + 1) format args
    if stops || rest.isEmpty || rest.length == args.length then bytes
    else bytes ++ formatAll format fuel rest

/-- Writes its arguments in a format. -/
def printf : Utility := fun args s =>
  match args with
  | [] => (s.complain "printf: usage: printf format [arg ...]", 2)
  | format :: args =>
    let bad := args.any fun arg => (integerOfArgument? arg).isNone && format.contains '%' &&
      !format.contains 's' && !format.contains 'b' && !format.contains 'c'
    (s.say (formatAll format.toList (args.length + 1) args), if bad then 1 else 0)

/-! ## Reading -/

/-- Options in front of operands, as letters. -/
def splitOptions (args : List String) : List Char × List String :=
  let options := args.takeWhile fun a => a.startsWith "-" && a != "-" && a != "--"
  let rest := args.drop options.length
  (options.flatMap fun o => o.toList.drop 1, if rest.head? == some "--" then rest.drop 1 else rest)

/-- Goes over files, or over the input when there are none; the status tells whether all went well. -/
def overFiles (name : String) (paths : List String) (s : State)
    (act : State → List UInt8 → String → State) : State × Nat :=
  let paths := if paths.isEmpty then ["-"] else paths
  paths.foldl (fun (s, status) path =>
    if path == "-" then (act s s.input path, status)
    else
      match s.tree.read s.cwd path with
      | .ok bytes => (act s bytes path, status)
      | .error e => (s.complain (name ++ ": " ++ path ++ ": " ++ reason e), 1)) (s, 0)

/-- Writes files one after the other. -/
def cat : Utility := fun args s =>
  overFiles "cat" (splitOptions args).2 s fun s bytes _ => s.say bytes

/-- The lines of bytes, each with its line feed. -/
def byteLines : List UInt8 → List (List UInt8)
  | [] => []
  | b :: rest =>
    if b == 10 then [b] :: byteLines rest
    else match byteLines rest with
      | [] => [[b]]
      | line :: more => (b :: line) :: more

/-- The count in the arguments of a utility that takes some lines, and its files. -/
def lineCount (args : List String) : Nat × List String :=
  match args with
  | "-n" :: n :: rest => ((Number.natOfDigits 10 n.toList).getD 10, rest)
  | first :: rest =>
    match first.toList with
    | '-' :: 'n' :: digits => ((Number.natOfDigits 10 digits).getD 10, rest)
    | '-' :: digits =>
      match Number.natOfDigits 10 digits with
      | some n => (n, rest)
      | none => (10, args)
    | _ => (10, args)
  | [] => (10, [])

/-- Writes the first lines. -/
def head : Utility := fun args s =>
  let (n, paths) := lineCount args
  overFiles "head" paths s fun s bytes _ => s.say ((byteLines bytes).take n).flatten

/-- Writes the last lines. -/
def tail : Utility := fun args s =>
  let (n, paths) := lineCount args
  overFiles "tail" paths s fun s bytes _ =>
    let lines := byteLines bytes
    s.say (lines.drop (lines.length - n)).flatten

/-- Bytes with a line feed at the end. -/
def endLine (bytes : List UInt8) : List UInt8 :=
  if bytes.getLast? == some 10 then bytes else bytes ++ [10]

/-- Writes the lines in order. -/
def sort : Utility := fun args s =>
  let (options, paths) := splitOptions args
  let kept := s.buffer
  let (s, status) := overFiles "sort" paths { s with buffer := [] } fun s bytes _ =>
    { s with buffer := s.buffer ++ (byteLines bytes).flatMap endLine }
  let lines := (byteLines s.buffer).mergeSort fun a b => Text.lossy a ≤ Text.lossy b
  let s := { s with buffer := kept }
  let lines := if options.contains 'u' then lines.eraseDups else lines
  (s.say (if options.contains 'r' then lines.reverse else lines).flatten, status)

/-- How many words bytes hold. -/
def countWords (bytes : List UInt8) : Nat :=
  (Text.words (Text.lossy bytes)).length

/-- Counts lines, words and bytes of its input. -/
def wc : Utility := fun args s =>
  let (options, paths) := splitOptions args
  overFiles "wc" paths s fun s bytes path =>
    let counts := [('l', bytes.count 10), ('w', countWords bytes), ('c', bytes.length)]
    let wanted := counts.filter fun c => options.isEmpty || options.contains c.1
    let width := if wanted.length == 1 then 0 else 7
    let column := fun (n : Nat) =>
      let digits := toString n
      String.ofList (List.replicate (width - digits.length) ' ') ++ digits
    let name := if path == "-" then "" else " " ++ path
    s.say (Text.utf8 (" ".intercalate (wanted.map fun c => column c.2) ++ name ++ "\n"))

/-! ## Files -/

/-- Lists what lies in directories. -/
def ls : Utility := fun args s =>
  let (options, paths) := splitOptions args
  let named := if paths.isEmpty then ["."] else paths
  let lineOf := fun (name : String) => Text.utf8 (name ++ "\n")
  let (s, status) := named.zipIdx.foldl (fun (s, status) (path, i) =>
    match s.tree.locate s.cwd path, s.get path with
    | .ok (.inside names), .ok .directory =>
      let found := (s.tree.children names).filter fun n =>
        options.contains 'a' || options.contains 'A' || !n.startsWith "."
      let found := if options.contains 'a' then "." :: ".." :: found else found
      let gap := if 0 < i then lineOf "" else []
      let title := if 1 < named.length then gap ++ lineOf (path ++ ":") else []
      (s.say (title ++ found.flatMap lineOf), status)
    | _, .ok (.file _) => (s.say (lineOf path), status)
    | _, .ok .directory => (s, status)
    | _, .error e =>
      (s.complain ("ls: cannot access '" ++ path ++ "': " ++ reason e), 2)) (s, 0)
  (s, status)

/-- Goes over paths and changes the tree; what fails is reported. -/
def changeFiles (paths : List String) (s : State) (complaint : String → String)
    (change : State → String → Except FileError Files.Tree) : State × Nat :=
  paths.foldl (fun (s, status) path =>
    match change s path with
    | .ok tree => ({ s with tree }, status)
    | .error e => (s.complain (complaint path ++ ": " ++ reason e), 1)) (s, 0)

/-- Makes directories. -/
def mkdir : Utility := fun args s =>
  let (options, paths) := splitOptions args
  changeFiles paths s (fun p => "mkdir: cannot create directory '" ++ p ++ "'") fun s path =>
    if options.contains 'p' then
      match s.tree.makeDirectories s.cwd path with
      | (tree, none) => .ok tree
      | (_, some e) => .error e
    else s.tree.makeDirectory s.cwd path

/-- Removes files, and directories when told so. -/
def rm : Utility := fun args s =>
  let (options, paths) := splitOptions args
  changeFiles paths s (fun p => "rm: cannot remove '" ++ p ++ "'") fun s path =>
    match s.tree.locate s.cwd path, s.get path with
    | .ok (.inside names), .ok (.file _) => .ok (s.tree.erase names)
    | .ok (.inside names), .ok .directory =>
      if options.contains 'r' || options.contains 'R' then .ok (s.tree.erase names)
      else .error .isDirectory
    | _, .error .notFound => if options.contains 'f' then .ok s.tree else .error .notFound
    | _, .error e => .error e
    | _, _ => .error .permissionDenied

/-- Removes empty directories. -/
def rmdir : Utility := fun args s =>
  changeFiles args s (fun p => "rmdir: failed to remove '" ++ p ++ "'") fun s path =>
    match s.tree.locate s.cwd path, s.get path with
    | .ok (.inside names), .ok .directory =>
      if (s.tree.children names).isEmpty then .ok (s.tree.erase names) else .error .notEmpty
    | _, .ok (.file _) => .error .notDirectory
    | _, .error e => .error e
    | _, _ => .error .permissionDenied

/-- Makes files that are missing. -/
def touch : Utility := fun args s =>
  changeFiles args s (fun p => "touch: cannot touch '" ++ p ++ "'") fun s path =>
    match s.get path with
    | .ok _ => .ok s.tree
    | .error .notFound => s.tree.write s.cwd path false []
    | .error e => .error e

/-- The place of a copy: inside a directory it keeps its name. -/
def destination (s : State) (source path : String) : String :=
  if s.tree.isDirectory s.cwd path then
    Files.join path ((Files.fileName? source).getD source)
  else path

/-- Copies a file. -/
def cp : Utility := fun args s =>
  match (splitOptions args).2 with
  | [source, path] =>
    changeFiles [source] s (fun p => "cp: cannot stat '" ++ p ++ "'") fun s source => do
      s.tree.write s.cwd (destination s source path) false (← s.tree.read s.cwd source)
  | _ => (s.complain "cp: missing file operand", 1)

/-- Moves a file. -/
def mv : Utility := fun args s =>
  match (splitOptions args).2 with
  | [source, path] =>
    changeFiles [source] s (fun p => "mv: cannot stat '" ++ p ++ "'") fun s source => do
      let bytes ← s.tree.read s.cwd source
      let tree ← s.tree.write s.cwd (destination s source path) false bytes
      match ← s.tree.locate s.cwd source with
      | .inside names => return tree.erase names
      | .outside => .error .permissionDenied
  | _ => (s.complain "mv: missing file operand", 1)

/-! ## Tests -/

/-- Whether a primary about a file or a text holds. -/
def testUnary (s : State) (op arg : String) : Bool :=
  match op with
  | "-z" => arg.isEmpty
  | "-n" => !arg.isEmpty
  | "-e" | "-r" | "-w" => (s.get arg).isOk
  | "-f" => s.tree.isFile s.cwd arg
  | "-d" | "-x" => s.tree.isDirectory s.cwd arg
  | "-s" =>
    match s.get arg with
    | .ok (.file bytes) => !bytes.isEmpty
    | .ok .directory => true
    | .error _ => false
  | _ => false

/-- Whether a comparison holds; nothing when it compares what is no number. -/
def testBinary (a op b : String) : Option Bool :=
  let compare := fun (holds : Int → Int → Bool) => do
    return holds (← integerOfArgument? a) (← integerOfArgument? b)
  match op with
  | "=" | "==" => some (a == b)
  | "!=" => some (a != b)
  | "-eq" => compare (· == ·)
  | "-ne" => compare (· != ·)
  | "-lt" => compare fun x y => decide (x < y)
  | "-le" => compare fun x y => decide (x ≤ y)
  | "-gt" => compare fun x y => decide (y < x)
  | "-ge" => compare fun x y => decide (y ≤ x)
  | _ => none

/-- The truth of a test; nothing for a malformed one. -/
def testWords (s : State) : List String → Option Bool
  | [] => some false
  | [a] => some (!a.isEmpty)
  | ["!", a] => some a.isEmpty
  | [op, a] => some (testUnary s op a)
  | [a, op, b] =>
    if op == "-a" then some (!a.isEmpty && !b.isEmpty)
    else if op == "-o" then some (!a.isEmpty || !b.isEmpty)
    else if a == "!" then some (!testUnary s op b)
    else testBinary a op b
  | "!" :: rest => (testWords s rest).map not
  | [op, a, joint, op2, b] =>
    if joint == "-a" then some (testUnary s op a && testUnary s op2 b)
    else if joint == "-o" then some (testUnary s op a || testUnary s op2 b)
    else none
  | [a, op, b, joint, c, op2, d] => do
    let x ← testBinary a op b
    let y ← testBinary c op2 d
    if joint == "-a" then return x && y else if joint == "-o" then return x || y else none
  | _ => none

/-- Succeeds when a test is true. -/
def test : Utility := fun args s =>
  match testWords s args with
  | some truth => (s, if truth then 0 else 1)
  | none => (s.complain (s.name ++ ": 1: test: unexpected operator"), 2)

/-- The same in brackets. -/
def bracket : Utility := fun args s =>
  if args.getLast? == some "]" then test args.dropLast s
  else (s.complain (s.name ++ ": 1: [: missing ]"), 2)

/-! ## Others -/

/-- Counts. -/
def seq : Utility := fun args s =>
  let numbers := args.filterMap integerOfArgument?
  let (first, step, last) : Int × Int × Int := match numbers with
    | [a] => (1, 1, a)
    | [a, b] => (a, 1, b)
    | [a, step, b] => (a, step, b)
    | _ => (1, 1, 0)
  let count := if step == 0 then 0 else ((last - first).fdiv step + 1).toNat
  let lines := (List.range count).map fun (i : Nat) => toString (first + step * i) ++ "\n"
  (s.say (Text.utf8 (String.join lines)), 0)

/-- Writes the last name of a path. -/
def basename : Utility := fun args s =>
  let path := args.headD ""
  let name := (Files.names path).getLast?.getD (if path.isEmpty then "" else "/")
  let suffix := (args.drop 1).headD ""
  let name := if !suffix.isEmpty && name != suffix && name.endsWith suffix then
    String.ofList (name.toList.take (name.length - suffix.length)) else name
  (s.say (Text.utf8 (name ++ "\n")), 0)

/-- Writes the path above a path. -/
def dirname : Utility := fun args s =>
  let above := (Files.parent? (args.headD "")).getD "/"
  (s.say (Text.utf8 ((if above.isEmpty then "." else above) ++ "\n")), 0)

/-- Writes the environment. -/
def env : Utility := fun _ s =>
  (s.say (Text.utf8 (String.join (s.bindings.map fun v => v.1 ++ "=" ++ v.2 ++ "\n"))), 0)

/-- The utilities by name. -/
def utilities : List (String × Utility) :=
  [("echo", echo), ("printf", printf), ("true", fun _ s => (s, 0)), ("false", fun _ s => (s, 1)),
    (":", fun _ s => (s, 0)), ("cat", cat), ("head", head), ("tail", tail), ("sort", sort), ("wc", wc),
    ("ls", ls), ("mkdir", mkdir), ("rm", rm), ("rmdir", rmdir), ("touch", touch), ("cp", cp),
    ("mv", mv), ("test", test), ("[", bracket), ("seq", seq), ("basename", basename),
    ("dirname", dirname), ("env", env), ("sleep", fun _ s => (s, 0)), ("sync", fun _ s => (s, 0))]

end TaskRunner.Shell
