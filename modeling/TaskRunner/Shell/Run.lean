import TaskRunner.Shell.Arithmetic
import TaskRunner.Shell.Pattern
import TaskRunner.Shell.Reader
import TaskRunner.Shell.Utility

/-!
# Running scripts

Commands change the state of a shell one after the other. Loops need not end, so a run has a limit to
its steps, at which it counts as killed.
-/

namespace TaskRunner.Shell

open Files (FileError Location)

/-! ## Fields -/

/-- Words that are being built: the finished ones, and the last one, if it has begun. -/
structure Fields where
  done : List (List Mark)
  last : Option (List Mark)

namespace Fields

/-- No words. -/
def empty : Fields := ⟨[], none⟩

/-- More characters for the last word. -/
def add (f : Fields) (chars : List Char) (isQuoted : Bool) : Fields :=
  { f with last := some (f.last.getD [] ++ chars.map (·, isQuoted)) }

/-- Ends the last word. -/
def cut (f : Fields) : Fields :=
  match f.last with
  | some word => ⟨f.done ++ [word], none⟩
  | none => f

/-- More characters, which blanks split into words. -/
def addSplit (f : Fields) : List Char → Fields
  | [] => f
  | c :: rest =>
    if c == ' ' || c == '\t' || c == '\n' then addSplit f.cut rest
    else addSplit (f.add [c] false) rest

/-- All words. -/
def words (f : Fields) : List (List Mark) :=
  f.cut.done

/-- Everything as one text. -/
def joined (f : Fields) : String :=
  String.ofList ((f.words.intersperse [(' ', true)]).flatten.map Prod.fst)

end Fields

/-- A part as it stands in quotes, where nothing is split. -/
def Part.quoted : Part → Part
  | .text chars _ => .text chars true
  | .parameter name op word _ => .parameter name op word true
  | .output body _ => .output body true
  | other => other

/-- Whether a text is left of a longer one, or right of it, by a pattern; gives what stays. -/
def stripPattern (op : String) (pattern : List Mark) (text : List Char) : List Char :=
  let lengths := List.range (text.length + 1)
  let cutFront := fun n => if matchesPattern pattern (text.take n) then some (text.drop n) else none
  let cutBack := fun n =>
    if matchesPattern pattern (text.drop (text.length - n)) then some (text.take (text.length - n))
    else none
  let found := match op with
    | "#" => lengths.findSome? cutFront
    | "##" => lengths.reverse.findSome? cutFront
    | "%" => lengths.findSome? cutBack
    | _ => lengths.reverse.findSome? cutBack
  found.getD text

/-! ## Redirections -/

/-- The place of a file that is written to. -/
def openForWriting (s : State) (line : Nat) (path : String) (append : Bool) :
    State × Option Target :=
  if path == "/dev/null" then (s, some .nowhere)
  else if path == "/dev/stdout" then (s, some s.out)
  else if path == "/dev/stderr" then (s, some s.err)
  else
    match s.tree.write s.cwd path append [], s.tree.locate s.cwd path with
    | .ok tree, .ok (.inside names) => ({ s with tree }, some (.file names))
    | .error .notFound, _ =>
      (s.fault line ("cannot create " ++ path ++ ": Directory nonexistent"), none)
    | .error e, _ => (s.fault line ("cannot create " ++ path ++ ": " ++ reason e), none)
    | _, _ => (s.fault line ("cannot create " ++ path ++ ": Permission denied"), none)

/-- Follows one redirection, whose target is expanded. An error is the state after a complaint. -/
def redirect (s : State) (line fd : Nat) (kind : RedirectKind) (path : String) : Except State State :=
  let leadTo := fun (s : State) (t : Target) =>
    if fd == 2 then { s with err := t } else { s with out := t }
  match kind with
  | .same =>
    match path with
    | "1" => .ok (leadTo s s.out)
    | "2" => .ok (leadTo s s.err)
    | "-" => .ok (leadTo s .nowhere)
    | _ => .error (s.fault line "Bad file descriptor")
  | .input =>
    if path == "/dev/null" then .ok { s with input := [] }
    else
      match s.tree.read s.cwd path with
      | .ok bytes => .ok { s with input := bytes }
      | .error .notFound => .error (s.fault line ("cannot open " ++ path ++ ": No such file"))
      | .error e => .error (s.fault line ("cannot open " ++ path ++ ": " ++ reason e))
  | .output | .append =>
    match openForWriting s line path (kind == .append) with
    | (s, some target) => .ok (leadTo s target)
    | (s, none) => .error s

/-! ## Special commands -/

/-- The signals by name. -/
def signalNames : List (String × Nat) :=
  [("HUP", 1), ("INT", 2), ("QUIT", 3), ("KILL", 9), ("USR1", 10), ("USR2", 12), ("PIPE", 13),
    ("ALRM", 14), ("TERM", 15), ("CHLD", 17), ("CONT", 18), ("STOP", 19), ("WINCH", 28)]

/-- The signals that end nothing. -/
def harmlessSignals : List Nat := [0, 17, 18, 23, 28]

/-- The number of a signal. -/
def signalOf? (text : String) : Option Nat :=
  let name := if text.startsWith "SIG" then String.ofList (text.toList.drop 3) else text
  Number.natOfDigits 10 text.toList <|> signalNames.lookup name

/-- The number under which the shell knows itself. -/
def ownId : String := "4242"

/-- Sends a signal; the shell may send one to itself. -/
def kill (s : State) (line : Nat) (args : List String) : State × Flow :=
  let (signal, targets) := match args with
    | "-s" :: name :: rest => (signalOf? name, rest)
    | first :: rest =>
      if first.startsWith "-" then (signalOf? (String.ofList (first.toList.drop 1)), rest)
      else (some 15, args)
    | [] => (none, [])
  match signal with
  | some n =>
    if targets.contains ownId then
      if harmlessSignals.contains n then ({ s with status := 0 }, .next) else (s, .killed)
    else ({ s.fault line "kill: No such process" with status := 1 }, .next)
  | none => ({ s.fault line "kill: bad signal" with status := 2 }, .next)

/-- The names of the commands that only the shell itself can carry out. -/
def specialNames : List String :=
  ["exit", "cd", "export", "unset", "break", "continue", "kill", "read", "set", "return", "exec",
    "wait", "readonly", "local", "pwd"]

/-- Sets the variables among arguments. -/
def assignAll (s : State) (args : List String) : State :=
  args.foldl (fun s arg =>
    let name := arg.toList.takeWhile (· != '=')
    if name.length < arg.length then
      s.assign (String.ofList name) (String.ofList (arg.toList.drop (name.length + 1)))
    else s) s

/-- Reads a line of the input into variables; the last one gets the rest. -/
def readVariables (s : State) (names : List String) : State :=
  let line := s.input.takeWhile (· != 10)
  let complete := line.length < s.input.length
  let words := Text.words (Text.lossy line)
  let s := { s with input := s.input.drop (line.length + 1), status := if complete then 0 else 1 }
  names.zipIdx.foldl (fun s (name, i) =>
    s.assign name (if i + 1 == names.length then " ".intercalate (words.drop i)
      else (words[i]?).getD "")) s

/-- Carries out a command of the shell itself. -/
def special (s : State) (line : Nat) (name : String) (args : List String) : State × Flow :=
  let number := (args.head?.bind fun a => Number.natOfDigits 10 a.toList)
  match name with
  | "exit" | "return" =>
    match args, number with
    | [], _ => (s, .exit)
    | _, some n => ({ s with status := n % 256 }, .exit)
    | arg :: _, none =>
      ({ s.fault line (name ++ ": Illegal number: " ++ arg) with status := 2 }, .exit)
  | "break" => ({ s with status := 0 }, .leave (number.getD 1))
  | "continue" => ({ s with status := 0 }, .again (number.getD 1))
  | "kill" => kill s line args
  | "cd" =>
    let path := args.headD ""
    match s.tree.locate s.cwd path, s.tree.isDirectory s.cwd path with
    | .ok loc, true => ({ s with cwd := loc, status := 0 }, .next)
    | _, _ => ({ s.fault line ("cd: can't cd to " ++ path) with status := 2 }, .next)
  | "read" => (readVariables s (args.filter fun a => !a.startsWith "-"), .next)
  | "unset" =>
    let kept := s.bindings.filter fun v => !args.contains v.1
    ({ s with bindings := kept, status := 0 }, .next)
  | "export" | "readonly" | "local" => ({ assignAll s args with status := 0 }, .next)
  | _ => ({ s with status := 0 }, .next)

/-- Leaves one loop. -/
def Flow.outward : Flow → Flow
  | .leave n => if n ≤ 1 then .next else .leave (n - 1)
  | .again n => if n ≤ 1 then .next else .again (n - 1)
  | other => other

/-- Whether a loop goes on after its body. -/
def Flow.goesOn : Flow → Bool
  | .next => true
  | .again n => n ≤ 1
  | _ => false

/-- The name of a program without its directory, when programs are there. -/
def programName (name : String) : String :=
  if name.startsWith "/bin/" || name.startsWith "/usr/bin/" then
    (Files.fileName? name).getD name
  else name

/-- Runs a program by its name. -/
def runProgram (s : State) (line : Nat) (name : String) (args : List String) : State × Flow :=
  if specialNames.contains name then special s line name args
  else
    match utilities.lookup (programName name) with
    | some utility =>
      let (s, status) := utility args s
      ({ s with status }, .next)
    | none =>
      if !name.contains '/' then ({ s.fault line (name ++ ": not found") with status := 127 }, .next)
      else
        match s.get name with
        | .error .notFound | .error .notDirectory =>
          ({ s.fault line (name ++ ": not found") with status := 127 }, .next)
        | _ => ({ s.fault line (name ++ ": Permission denied") with status := 126 }, .next)

/-! ## Commands -/

mutual

/-- Expands the parts of a word, in `fuel` steps at most. -/
def expandParts : Nat → List Part → State → Fields → State × Fields
  | 0, _, s, f => (s, f)
  | _, [], s, f => (s, f)
  | fuel + 1, part :: rest, s, f =>
    let (s, f) := expandPart fuel part s f
    expandParts fuel rest s f

/-- Expands one part of a word. -/
def expandPart : Nat → Part → State → Fields → State × Fields
  | 0, _, s, f => (s, f)
  | fuel + 1, part, s, f =>
    let put := fun (s : State) (text : List Char) (isQuoted : Bool) =>
      (s, if isQuoted then f.add text true else f.addSplit text)
    match part with
    | .text chars isQuoted => (s, f.add chars isQuoted)
    | .length name => put s (toString ((s.valueOf? name).getD "").length).toList false
    | .arithmetic parts =>
      let (s, text) := expandText fuel parts s
      match evaluate (fun name => (s.valueOf? name).getD "") text.toList with
      | .ok n => put s (toString n).toList false
      | .error e =>
        let what := match e with
          | .divisionByZero => "division by zero"
          | .malformed => "expecting primary"
        ({ s.fault 1 ("arithmetic expression: " ++ what ++ ": \"" ++ text ++ "\"") with
          isBroken := true }, f)
    | .output body isQuoted =>
      let inner := { s with out := .buffer, buffer := [], input := [] }
      let (after, _) := runAll fuel body inner
      let text := Text.trimEndWith (· == '\n') (Text.lossy (after.buffer.filter (· != 0)))
      let s := { s with tree := after.tree, written := after.written, status := after.status }
      put s text.toList isQuoted
    | .parameter name op word isQuoted =>
      let value := if name == "$" then some ownId else s.valueOf? name
      let isUnset := value.isNone || (op.startsWith ":" && value == some "")
      let kept := (value.getD "").toList
      match op with
      | "" => put s kept isQuoted
      | ":-" | "-" => if isUnset then expandParts fuel word s f else put s kept isQuoted
      | ":=" | "=" =>
        if isUnset then
          let (s, text) := expandText fuel word s
          put (s.assign name text) text.toList isQuoted
        else put s kept isQuoted
      | ":+" | "+" => if isUnset then (s, f) else expandParts fuel word s f
      | ":?" | "?" => put s kept isQuoted
      | _ =>
        let (s, fields) := expandParts fuel word s .empty
        put s (stripPattern op (fields.words.flatten) kept) isQuoted

/-- Expands a word to one text. -/
def expandText : Nat → List Part → State → State × String
  | 0, _, s => (s, "")
  | fuel + 1, parts, s =>
    let (s, fields) := expandParts fuel (parts.map Part.quoted) s .empty
    (s, fields.joined)

/-- Expands words to the arguments that they stand for. -/
def expandWords : Nat → List (List Part) → State → State × List String
  | 0, _, s => (s, [])
  | _, [], s => (s, [])
  | fuel + 1, word :: rest, s =>
    let (s, fields) := expandParts fuel word s .empty
    let args := fields.words.flatMap (expandPattern s)
    let (s, more) := expandWords fuel rest s
    (s, args ++ more)

/-- Follows redirections until one of them fails. -/
def followAll : Nat → Nat → List Redirect → State → Except State State
  | 0, _, _, s => .ok s
  | _, _, [], s => .ok s
  | fuel + 1, line, .mk fd kind target :: rest, s =>
    let (s, path) := expandText fuel target s
    match redirect s line fd kind path with
    | .ok s => followAll fuel line rest s
    | .error s => .error s

/-- Runs a command with redirections, which end with it. -/
def runWithin : Nat → Nat → List Redirect → State → (State → State × Flow) → State × Flow
  | 0, _, _, s, _ => (s, .killed)
  | fuel + 1, line, redirects, s, act =>
    match followAll fuel line redirects s with
    | .ok inner =>
      let (after, flow) := act inner
      let input := if redirects.isEmpty then after.input else s.input
      ({ after with out := s.out, err := s.err, input }, flow)
    | .error after => ({ after with out := s.out, err := s.err, input := s.input, status := 2 }, .next)

/-- Sets variables to the values of words. -/
def assignWords : Nat → List (String × List Part) → State → State
  | 0, _, s => s
  | _, [], s => s
  | fuel + 1, (name, word) :: rest, s =>
    let (s, text) := expandText fuel word s
    assignWords fuel rest (s.assign name text)

/-- Runs one command. -/
def runOne : Nat → Command → State → State × Flow
  | 0, _, s => (s, .killed)
  | fuel + 1, command, s =>
    match command with
    | .simple remaining assignments words redirects =>
      let line := s.lineOf remaining
      let (s, args) := expandWords fuel words s
      let kept := s.bindings
      let s := assignWords fuel assignments { s with status := if args.isEmpty then 0 else s.status }
      if s.isBroken then ({ s with status := 2 }, .exit)
      else runWithin fuel line redirects s fun s =>
        match args with
        | [] => (s, .next)
        | name :: args =>
          let (s, flow) := runProgram s line name args
          (if assignments.isEmpty then s else { s with bindings := kept }, flow)
    | .group body isApart redirects =>
      runWithin fuel 1 redirects s fun inner =>
        let (after, flow) := runAll fuel body inner
        if isApart then
          ({ after with bindings := inner.bindings, cwd := inner.cwd },
            if flow == .exit then .next else flow)
        else (after, flow)
    | .branch arms otherwise => runArms fuel arms otherwise s
    | .loop untilSuccess condition body => runLoop fuel untilSuccess condition body s 0
    | .forEach name words body =>
      let (s, args) := expandWords fuel words s
      runEach fuel name args body { s with status := 0 }
    | .pipeline isNegated stages =>
      let (s, flow) := runStages fuel stages s
      (if isNegated then { s with status := if s.status == 0 then 1 else 0 } else s, flow)
    | .both first second =>
      let (s, flow) := runOne fuel first s
      if flow == .next && s.status == 0 then runOne fuel second s else (s, flow)
    | .either first second =>
      let (s, flow) := runOne fuel first s
      if flow == .next && s.status != 0 then runOne fuel second s else (s, flow)

/-- Runs commands until one of them changes the flow. -/
def runAll : Nat → List Command → State → State × Flow
  | 0, _, s => (s, .killed)
  | _, [], s => (s, .next)
  | fuel + 1, command :: rest, s =>
    let (s, flow) := runOne fuel command s
    if flow == .next then runAll fuel rest s else (s, flow)

/-- Runs the first arm whose condition succeeds. -/
def runArms : Nat → List (List Command × List Command) → List Command → State → State × Flow
  | 0, _, _, s => (s, .killed)
  | fuel + 1, [], otherwise, s => runAll fuel otherwise { s with status := 0 }
  | fuel + 1, (condition, body) :: rest, otherwise, s =>
    let (s, flow) := runAll fuel condition s
    if flow != .next then (s, flow)
    else if s.status == 0 then runAll fuel body s
    else runArms fuel rest otherwise s

/-- Runs a loop; `status` is that of its body so far. -/
def runLoop : Nat → Bool → List Command → List Command → State → Nat → State × Flow
  | 0, _, _, _, s, _ => (s, .killed)
  | fuel + 1, untilSuccess, condition, body, s, status =>
    let (s, flow) := runAll fuel condition s
    if flow != .next then (s, flow.outward)
    else if (s.status == 0) == untilSuccess then ({ s with status }, .next)
    else
      let (s, flow) := runAll fuel body s
      if flow.goesOn then runLoop fuel untilSuccess condition body s s.status else (s, flow.outward)

/-- Runs a body once for every argument. -/
def runEach : Nat → String → List String → List Command → State → State × Flow
  | 0, _, _, _, s => (s, .killed)
  | _, _, [], _, s => (s, .next)
  | fuel + 1, name, arg :: rest, body, s =>
    let (s, flow) := runAll fuel body (s.assign name arg)
    if flow.goesOn then runEach fuel name rest body s else (s, flow.outward)

/-- Runs the stages of a pipeline: what one writes, the next one reads. -/
def runStages : Nat → List Command → State → State × Flow
  | 0, _, s => (s, .killed)
  | _, [], s => (s, .next)
  | fuel + 1, [stage], s =>
    let (after, flow) := runOne fuel stage s
    ({ after with bindings := s.bindings, cwd := s.cwd, input := s.input },
      if flow == .exit then .next else flow)
  | fuel + 1, stage :: rest, s =>
    let (after, _) := runOne fuel stage { s with out := .buffer, buffer := [] }
    let next := { s with
      tree := after.tree, written := after.written, input := after.buffer, buffer := s.buffer }
    let (done, flow) := runStages fuel rest next
    ({ done with input := s.input }, flow)

end

/-- Reads and runs a script line by line, in `fuel` steps at most. -/
def runScript : Nat → List Char → State → State × Flow
  | 0, _, s => (s, .killed)
  | fuel + 1, cs, s =>
    let cs := skipLines cs.length cs
    if cs.isEmpty then (s, .exit)
    else
      match readLine .line (8 * cs.length + 16) cs with
      | .error message => ({ s.fault (s.lineOf cs.length) message with status := 2 }, .exit)
      | .ok (commands, rest) =>
        let (s, flow) := runAll fuel commands s
        match flow with
        | .exit | .killed => (s, flow)
        | _ => runScript fuel rest s

/-- The limit to the steps of a run. -/
def stepLimit : Nat := 100000

end TaskRunner.Shell
