import TaskRunner.Number.Layout
import TaskRunner.Script.Expr
import TaskRunner.Script.Quoted
import TaskRunner.Source.Lowering
import TaskRunner.Source.Tree

/-!
# Reading scripts

The statements of a script from its nested tokens. A reader takes trees from the front and gives what is
left; it gives nothing when the trees are no such form. Brackets are groups already, so the parts of a
list are cut at its commas.
-/

namespace TaskRunner.Script

open Source (Tree Token splitAtCommas cutAt startsWithPunct startsWithWord)

/-- What the place of a form decides. -/
structure Place where
  /-- The characters of the script. -/
  source : List Char
  inFunction : Bool
  inAsync : Bool
  inLoop : Bool

/-- The place in the body of a function. -/
def Place.inside (p : Place) (isAsync : Bool) : Place :=
  { p with inFunction := true, inAsync := isAsync, inLoop := false }

/-- Words that are no names. -/
def reservedWords : List String :=
  ["break", "case", "catch", "class", "const", "continue", "debugger", "default", "delete", "do",
    "else", "enum", "export", "extends", "false", "finally", "for", "function", "if", "import", "in",
    "instanceof", "new", "null", "return", "super", "switch", "this", "throw", "true", "try", "typeof",
    "var", "void", "while", "with"]

/-- The name in front, unless it is reserved. -/
def nameOf? (p : Place) (t : Tree) : Option String :=
  t.name?.filter fun n => !(reservedWords.contains n || (p.inAsync && n == "await"))

/-- The characters of a token. -/
def charsOf (p : Place) (t : Token) : List Char :=
  let (_, ahead) := Source.splitBytes t.span.start p.source
  (Source.splitBytes (t.span.stop - t.span.start) ahead).1

/-- The text between a token's quotes. -/
def textOf (p : Place) (t : Token) : String :=
  let inner := (charsOf p t).drop 1
  unescaped (inner.take (inner.length - 1))

/-- The binary operators and how tightly they bind. -/
def binaryOperators : List (String × Nat × BinaryOp) :=
  [("|", 3, .bitOr), ("^", 4, .bitXor), ("&", 5, .bitAnd), ("==", 6, .similar), ("!=", 6, .dissimilar),
    ("===", 6, .same), ("!==", 6, .different), ("<", 7, .less), (">", 7, .greater), ("<=", 7, .atMost),
    (">=", 7, .atLeast), ("instanceof", 7, .instanceOf), ("in", 7, .keyIn), ("<<", 8, .shiftLeft),
    (">>", 8, .shiftRight), (">>>", 8, .shiftRightZero), ("+", 9, .add), ("-", 9, .subtract),
    ("*", 10, .multiply), ("/", 10, .divide), ("%", 10, .remainder), ("**", 11, .power)]

/-- The operators that may leave their right side alone, and how tightly they bind. -/
def logicOperators : List (String × Nat × LogicOp) :=
  [("??", 1, .otherwise), ("||", 1, .or), ("&&", 2, .and)]

/-- The operators that change what they assign to. -/
def updateOperators : List (String × BinaryOp) :=
  [("+=", .add), ("-=", .subtract), ("*=", .multiply), ("/=", .divide), ("%=", .remainder),
    ("**=", .power), ("<<=", .shiftLeft), (">>=", .shiftRight), (">>>=", .shiftRightZero),
    ("&=", .bitAnd), ("|=", .bitOr), ("^=", .bitXor)]

/-- The assignments that may leave their target alone. -/
def logicUpdates : List (String × LogicOp) :=
  [("&&=", .and), ("||=", .or), ("??=", .otherwise)]

/-- The operators in front of a value. -/
def unaryOperators : List (String × UnaryOp) :=
  [("!", .not), ("-", .negate), ("+", .toNumber), ("~", .invert), ("typeof", .typeName),
    ("void", .discard)]

/-- A mark or a word as text. -/
def markOf? (t : Tree) : Option String :=
  match t with
  | .leaf token =>
    match token.kind with
    | .punct mark => some mark
    | .ident name => some name
    | _ => none
  | .group _ _ _ => none

/-- What an operator of two sides makes of them. -/
inductive Infix where
  | plain (op : BinaryOp)
  | lazy (op : LogicOp)

/-- The operator of two sides at the front, and how tightly it binds. -/
def infixOf? (t : Tree) : Option (Nat × Infix) :=
  (markOf? t).bind fun mark =>
    match binaryOperators.lookup mark, logicOperators.lookup mark with
    | some (level, op), _ => some (level, .plain op)
    | none, some (level, op) => some (level, .lazy op)
    | none, none => none

/-- The expression of an operator and its sides. -/
def Infix.join (op : Infix) (a b : Expr) : Expr :=
  match op with
  | .plain op => .binary op a b
  | .lazy op => .logic op a b

/-- What an expression can be assigned to as. -/
def Target.ofExpr? : Expr → Option Target
  | .name n => some (.pattern (.name n))
  | .member e key false => some (.member e key)
  | .index e key false => some (.index e key)
  | _ => none

/-- What a target is before it is assigned to. -/
def Target.toExpr : Target → Option Expr
  | .pattern (.name n) => some (.name n)
  | .member e key => some (.member e key false)
  | .index e key => some (.index e key false)
  | _ => none

/-- The value of a target's assignment, under the target's name. -/
def Target.value (t : Target) (e : Expr) : Expr :=
  match t with
  | .pattern (.name n) => e.named n
  | _ => e

/-- What is behind the end of a statement: the end takes a semicolon, or a line that ends, or the end of
the trees. -/
def statementEnd? : List Tree → Option (List Tree)
  | [] => some []
  | t :: rest =>
    if t.isPunct ";" then some rest
    else if t.first.newlineBefore then some (t :: rest)
    else none

/-- The key of a property that is written as a name, a text or a number. -/
def keyOf? (p : Place) (t : Tree) : Option String :=
  match t with
  | .leaf token =>
    match token.kind with
    | .ident name => some name
    | .text _ => some (textOf p token)
    | .number x => some (Number.scripting.format x)
    | _ => none
  | .group _ _ _ => none

/-- Whether a statement of a single form may stand where one is wanted: declarations may not. -/
def isPlain : Stmt → Bool
  | .declare _ _ => false
  | _ => true

mutual

/-- Statements up to the end of the trees. -/
def statements (p : Place) : Nat → List Tree → Option (List Stmt)
  | 0, _ => none
  | _, [] => some []
  | fuel + 1, trees => do
    let (s, rest) ← statement p fuel trees
    let more ← statements p fuel rest
    some (s :: more)

/-- A statement. -/
def statement (p : Place) : Nat → List Tree → Option (Stmt × List Tree)
  | 0, _ => none
  | _, [] => none
  | fuel + 1, t :: rest =>
    match t with
    | .group o inside _ =>
      if o.isPunct "\x7b" then (statements p fuel inside).map fun body => (.block body, rest)
      else exprStatement p fuel (t :: rest)
    | .leaf token =>
      match token.kind with
      | .punct ";" => some (.empty, rest)
      | .ident "const" => declaration p fuel .constant rest
      | .ident "var" => declaration p fuel .changeable rest
      | .ident "let" =>
        match rest with
        | next :: _ =>
          if (nameOf? p next).isSome || next.isGroup "[" || next.isGroup "\x7b" then
            declaration p fuel .changeable rest
          else exprStatement p fuel (t :: rest)
        | [] => exprStatement p fuel (t :: rest)
      | .ident "function" =>
        match function p fuel false rest with
        | some (f, rest) => if f.name.isEmpty then none else some (.function f, rest)
        | none => none
      | .ident "async" =>
        match rest with
        | next :: more =>
          if next.isWord "function" && !next.first.newlineBefore then
            match function p fuel true more with
            | some (f, rest) => if f.name.isEmpty then none else some (.function f, rest)
            | none => none
          else exprStatement p fuel (t :: rest)
        | [] => exprStatement p fuel (t :: rest)
      | .ident "if" => ifStatement p fuel rest
      | .ident "for" => forStatement p fuel rest
      | .ident "while" =>
        match rest with
        | head :: rest => do
          let (inside, _) ← head.inside? "("
          let test ← whole p fuel inside
          let (body, rest) ← statement { p with inLoop := true } fuel rest
          if isPlain body then some (.loop none (some test) none body, rest) else none
        | [] => none
      | .ident "return" =>
        if !p.inFunction then none
        else
          match statementEnd? rest with
          | some rest => some (.give none, rest)
          | none => do
            let (e, rest) ← sequence p fuel rest
            let rest ← statementEnd? rest
            some (.give (some e), rest)
      | .ident "throw" =>
        match rest with
        | next :: _ => do
          if next.first.newlineBefore then none
          else do
            let (e, rest) ← sequence p fuel rest
            let rest ← statementEnd? rest
            some (.throw e, rest)
        | [] => none
      | .ident "break" =>
        if p.inLoop then (statementEnd? rest).map fun rest => (.leave, rest) else none
      | .ident "continue" =>
        if p.inLoop then (statementEnd? rest).map fun rest => (.next, rest) else none
      | .ident "try" => tryStatement p fuel rest
      | _ => exprStatement p fuel (t :: rest)

/-- An expression as a statement. -/
def exprStatement (p : Place) : Nat → List Tree → Option (Stmt × List Tree)
  | 0, _ => none
  | fuel + 1, trees => do
    let (e, rest) ← sequence p fuel trees
    let rest ← statementEnd? rest
    some (.expr e, rest)

/-- The parts of a declaration behind its word. -/
def declaration (p : Place) (fuel : Nat) (how : Declaration) (trees : List Tree) :
    Option (Stmt × List Tree) :=
  match fuel with
  | 0 => none
  | fuel + 1 => do
    let (parts, rest) ← declared p fuel how trees
    let rest ← statementEnd? rest
    some (.declare how parts, rest)

/-- Patterns with their first values, between commas. Only a plain name may go without a value, and a
constant may not. -/
def declared (p : Place) (fuel : Nat) (how : Declaration) (trees : List Tree) :
    Option (List (Pattern × Option Expr) × List Tree) :=
  match fuel, trees with
  | 0, _ => none
  | _, [] => none
  | fuel + 1, t :: rest => do
    let pattern ← pattern p fuel t
    let (part, rest) : (Pattern × Option Expr) × List Tree ←
      if startsWithPunct rest "=" then do
        let (e, rest) ← assignment p fuel (rest.drop 1)
        let e := match pattern with
          | .name n => e.named n
          | _ => e
        some ((pattern, some e), rest)
      else
        match pattern, how with
        | .name n, .changeable => some ((.name n, none), rest)
        | _, _ => none
    if startsWithPunct rest "," then do
      let (more, rest) ← declared p fuel how (rest.drop 1)
      some (part :: more, rest)
    else some ([part], rest)

/-- A condition and its branches. -/
def ifStatement (p : Place) : Nat → List Tree → Option (Stmt × List Tree)
  | 0, _ => none
  | _, [] => none
  | fuel + 1, head :: rest => do
    let (inside, _) ← head.inside? "("
    let test ← whole p fuel inside
    let (yes, rest) ← statement p fuel rest
    if !isPlain yes then none
    else if startsWithWord rest "else" then do
      let (no, rest) ← statement p fuel (rest.drop 1)
      if isPlain no then some (.choose test yes no, rest) else none
    else some (.choose test yes .empty, rest)

/-- A loop over numbers or over items. -/
def forStatement (p : Place) : Nat → List Tree → Option (Stmt × List Tree)
  | 0, _ => none
  | _, [] => none
  | fuel + 1, head :: rest => do
    let (inside, _) ← head.inside? "("
    let (body, rest) ← statement { p with inLoop := true } fuel rest
    if !isPlain body then none
    else
      match cutAt ";" inside with
      | some (start, more) => do
        let (test, update) ← cutAt ";" more
        let start ← loopStart p fuel start
        let test ← optional p fuel test
        let update ← optional p fuel update
        some (.loop start test update body, rest)
      | none =>
        match inside with
        | word :: target :: of :: items => do
          let how ← (if word.isWord "const" then some Declaration.constant
            else if word.isWord "let" || word.isWord "var" then some .changeable
            else none)
          let target ← pattern p fuel target
          let items ← whole p fuel items
          if of.isWord "of" then some (.forOf how target items body, rest) else none
        | _ => none

/-- What a loop does first. -/
def loopStart (p : Place) : Nat → List Tree → Option (Option Stmt)
  | 0, _ => none
  | _, [] => some none
  | fuel + 1, t :: rest =>
    if t.isWord "let" || t.isWord "var" then
      (declaration p fuel .changeable rest).bind fun (s, rest) => if rest.isEmpty then some (some s) else none
    else if t.isWord "const" then
      (declaration p fuel .constant rest).bind fun (s, rest) => if rest.isEmpty then some (some s) else none
    else (whole p fuel (t :: rest)).map fun e => some (.expr e)

/-- An expression, or nothing. -/
def optional (p : Place) : Nat → List Tree → Option (Option Expr)
  | 0, _ => none
  | _, [] => some none
  | fuel + 1, trees => (whole p fuel trees).map some

/-- Statements that are tried, and what follows them. -/
def tryStatement (p : Place) : Nat → List Tree → Option (Stmt × List Tree)
  | 0, _ => none
  | _, [] => none
  | fuel + 1, head :: rest => do
    let (inside, _) ← head.inside? "\x7b"
    let body ← statements p fuel inside
    let (handler, rest) : Option (Option Pattern × List Stmt) × List Tree ←
      match rest with
      | word :: block :: more =>
        if !word.isWord "catch" then some (none, rest)
        else
          match block.inside? "(" with
          | some ([target], _) =>
            match more with
            | block :: more => do
              let target ← pattern p fuel target
              let (inside, _) ← block.inside? "\x7b"
              let handler ← statements p fuel inside
              some (some (some target, handler), more)
            | [] => none
          | _ => do
            let (inside, _) ← block.inside? "\x7b"
            let handler ← statements p fuel inside
            some (some (none, handler), more)
      | _ => some (none, rest)
    let (finalizer, rest) : Option (List Stmt) × List Tree ←
      match rest with
      | word :: block :: more =>
        if !word.isWord "finally" then some (none, rest)
        else do
          let (inside, _) ← block.inside? "\x7b"
          let finalizer ← statements p fuel inside
          some (some finalizer, more)
      | _ => some (none, rest)
    if handler.isNone && finalizer.isNone then none
    else some (.attempt body handler finalizer, rest)

/-- A function behind its word: a name if there is one, parameters and a body. -/
def function (p : Place) (fuel : Nat) (isAsync : Bool) (trees : List Tree) :
    Option (Function × List Tree) :=
  match fuel with
  | 0 => none
  | fuel + 1 => do
    let (name, rest) : String × List Tree ←
      match trees with
      | t :: rest =>
        match nameOf? { p with inAsync := false } t with
        | some n => some (n, rest)
        | none => some ("", trees)
      | [] => none
    match rest with
    | params :: body :: rest => do
      let (params, _) ← params.inside? "("
      let (body, _) ← body.inside? "\x7b"
      let f ← functionOf p fuel name false isAsync params body
      some (f, rest)
    | _ => none

/-- A function of the trees of its parameters and of its body. -/
def functionOf (p : Place) (fuel : Nat) (name : String) (isArrow isAsync : Bool)
    (params body : List Tree) : Option Function :=
  match fuel with
  | 0 => none
  | fuel + 1 => do
    let p := p.inside isAsync
    let (params, rest) ← parameters p fuel (splitAtCommas params)
    let body ← statements p fuel body
    some (.mk name params rest body isArrow isAsync)

/-- Parameters, and a rest parameter at their end. -/
def parameters (p : Place) : Nat → List (List Tree) → Option (List Pattern × Option Pattern)
  | 0, _ => none
  | _, [] => some ([], none)
  | fuel + 1, part :: more =>
    match part with
    | dots :: target :: [] =>
      if dots.isPunct "..." && more.isEmpty then (pattern p fuel target).map fun r => ([], some r)
      else none
    | _ => do
      let first ← patternPart p fuel part
      let (params, rest) ← parameters p fuel more
      some (first :: params, rest)

/-- A pattern with its default value, if it has one. -/
def patternPart (p : Place) : Nat → List Tree → Option Pattern
  | 0, _ => none
  | _, [] => none
  | fuel + 1, t :: rest => do
    let target ← pattern p fuel t
    match rest with
    | [] => some target
    | mark :: value =>
      if mark.isPunct "=" then do
        let e ← single p fuel value
        let e := match target with
          | .name n => e.named n
          | _ => e
        some (.withDefault target e)
      else none

/-- A pattern. -/
def pattern (p : Place) : Nat → Tree → Option Pattern
  | 0, _ => none
  | fuel + 1, t =>
    match t with
    | .leaf _ => (nameOf? p t).map .name
    | .group o inside _ =>
      if o.isPunct "[" then listPattern p fuel (splitAtCommas inside)
      else if o.isPunct "\x7b" then recordPattern p fuel (splitAtCommas inside)
      else none

/-- A list pattern of its parts. -/
def listPattern (p : Place) : Nat → List (List Tree) → Option Pattern
  | 0, _ => none
  | _, [] => some (.list [] none)
  | fuel + 1, part :: more => do
    let (item, last) : Option Pattern × Option Pattern ← match part with
      | [] => some (none, none)
      | [dots, target] =>
        if dots.isPunct "..." then (pattern p fuel target).map fun r => (none, some r)
        else none
      | _ => (patternPart p fuel part).map fun q => (some q, none)
    if last.isSome then if more.isEmpty then some (.list [] last) else none
    else
      match ← listPattern p fuel more with
      | .list items rest => some (.list (item :: items) rest)
      | _ => none

/-- A record pattern of its parts. -/
def recordPattern (p : Place) : Nat → List (List Tree) → Option Pattern
  | 0, _ => none
  | _, [] => some (.record [] none)
  | fuel + 1, part :: more =>
    match part with
    | [dots, target] =>
      if dots.isPunct "..." && more.isEmpty then
        (nameOf? p target).map fun n => .record [] (some n)
      else none
    | key :: rest => do
      let name ← keyOf? p key
      let target ← match rest with
        | mark :: value =>
          if mark.isPunct ":" then patternPart p fuel value else patternPart p fuel part
        | [] => patternPart p fuel part
      match ← recordPattern p fuel more with
      | .record fields last => some (.record ((name, target) :: fields) last)
      | _ => none
    | [] => none

/-- One expression of all the trees, commas included. -/
def whole (p : Place) : Nat → List Tree → Option Expr
  | 0, _ => none
  | fuel + 1, trees => (sequence p fuel trees).bind fun (e, rest) => if rest.isEmpty then some e else none

/-- One expression of all the trees, without commas. -/
def single (p : Place) : Nat → List Tree → Option Expr
  | 0, _ => none
  | fuel + 1, trees =>
    (assignment p fuel trees).bind fun (e, rest) => if rest.isEmpty then some e else none

/-- Expressions between commas. -/
def sequence (p : Place) : Nat → List Tree → Option (Expr × List Tree)
  | 0, _ => none
  | fuel + 1, trees => do
    let (a, rest) ← assignment p fuel trees
    if startsWithPunct rest "," then do
      let (b, rest) ← sequence p fuel (rest.drop 1)
      some (.sequence a b, rest)
    else some (a, rest)

/-- An arrow function, an assignment, or an expression that is neither. -/
def assignment (p : Place) : Nat → List Tree → Option (Expr × List Tree)
  | 0, _ => none
  | _, [] => none
  | fuel + 1, t :: rest =>
    let isArrow := fun (rest : List Tree) =>
      rest.head?.any fun a => a.isPunct "=>" && !a.first.newlineBefore
    match rest with
    | next :: more =>
      if isArrow rest then arrow p fuel false t more
      else if t.isWord "async" && !next.first.newlineBefore && isArrow more then
        arrow p fuel true next (more.drop 1)
      else if (t.isGroup "[" || t.isGroup "\x7b") && next.isPunct "=" then do
        let target ← pattern p fuel t
        let (e, rest) ← assignment p fuel more
        some (.assign (.pattern target) e, rest)
      else assigned p fuel (t :: rest)
    | [] => assigned p fuel (t :: rest)

/-- An arrow function of its head and what is behind the arrow. -/
def arrow (p : Place) (fuel : Nat) (isAsync : Bool) (head : Tree) (trees : List Tree) :
    Option (Expr × List Tree) :=
  match fuel with
  | 0 => none
  | fuel + 1 => do
    let params ← match head with
      | .leaf _ => some [head]
      | .group o inside _ => if o.isPunct "(" then some inside else none
    match trees with
    | [] => none
    | t :: rest =>
      match t.inside? "\x7b" with
      | some (body, _) => do
        let f ← functionOf p fuel "" true isAsync params body
        some (.function f, rest)
      | none => do
        let inner := { p.inside isAsync with inFunction := p.inFunction }
        let (params, last) ← parameters inner fuel (splitAtCommas params)
        let (e, rest) ← assignment inner fuel (t :: rest)
        some (.function (.mk "" params last [.give (some e)] true isAsync), rest)

/-- A condition or what is assigned to a target. -/
def assigned (p : Place) : Nat → List Tree → Option (Expr × List Tree)
  | 0, _ => none
  | fuel + 1, trees => do
    let (left, rest) ← conditional p fuel trees
    match rest.head?.bind markOf? with
    | none => some (left, rest)
    | some mark =>
      if mark == "=" then do
        let target ← Target.ofExpr? left
        let (e, rest) ← assignment p fuel (rest.drop 1)
        some (.assign target (target.value e), rest)
      else
        match updateOperators.lookup mark, logicUpdates.lookup mark with
        | some op, _ => do
          let target ← Target.ofExpr? left
          let (e, rest) ← assignment p fuel (rest.drop 1)
          some (.update target op e, rest)
        | none, some op => do
          let target ← Target.ofExpr? left
          let (e, rest) ← assignment p fuel (rest.drop 1)
          some (.logic op left (.assign target (target.value e)), rest)
        | none, none => some (left, rest)

/-- A choice, or an expression without one. -/
def conditional (p : Place) : Nat → List Tree → Option (Expr × List Tree)
  | 0, _ => none
  | fuel + 1, trees => do
    let (test, rest) ← infixes p fuel 1 trees
    if startsWithPunct rest "?" then do
      let (a, rest) ← assignment p fuel (rest.drop 1)
      if startsWithPunct rest ":" then do
        let (b, rest) ← assignment p fuel (rest.drop 1)
        some (.choose test a b, rest)
      else none
    else some (test, rest)

/-- Operators of two sides that bind at least as tightly as `level`. -/
def infixes (p : Place) : Nat → Nat → List Tree → Option (Expr × List Tree)
  | 0, _, _ => none
  | fuel + 1, level, trees => do
    let (left, rest) ← unary p fuel trees
    infixTail p fuel level left rest

/-- The operators behind a left side. -/
def infixTail (p : Place) : Nat → Nat → Expr → List Tree → Option (Expr × List Tree)
  | 0, _, _, _ => none
  | _, _, left, [] => some (left, [])
  | fuel + 1, level, left, t :: rest =>
    match infixOf? t with
    | none => some (left, t :: rest)
    | some (own, op) =>
      if own < level then some (left, t :: rest)
      else do
        let (right, rest) ← infixes p fuel (if own == 11 then own else own + 1) rest
        infixTail p fuel level (op.join left right) rest

/-- Operators in front of a value. -/
def unary (p : Place) : Nat → List Tree → Option (Expr × List Tree)
  | 0, _ => none
  | _, [] => none
  | fuel + 1, t :: rest =>
    match markOf? t with
    | none => counted p fuel (t :: rest)
    | some mark =>
      match unaryOperators.lookup mark with
      | some op => do
        let (e, rest) ← unary p fuel rest
        if startsWithPunct rest "**" then none else some (.unary op e, rest)
      | none =>
        if mark == "await" && p.inAsync then do
          let (e, rest) ← unary p fuel rest
          some (.await e, rest)
        else if mark == "++" || mark == "--" then do
          let (e, rest) ← unary p fuel rest
          let target ← Target.ofExpr? e
          some (.count target (if mark == "++" then 1 else -1) false, rest)
        else counted p fuel (t :: rest)

/-- A value, with a step behind it if there is one. -/
def counted (p : Place) : Nat → List Tree → Option (Expr × List Tree)
  | 0, _ => none
  | fuel + 1, trees => do
    let (e, rest) ← reached p fuel trees
    match rest with
    | t :: more =>
      if (t.isPunct "++" || t.isPunct "--") && !t.first.newlineBefore then do
        let target ← Target.ofExpr? e
        some (.count target (if t.isPunct "++" then 1 else -1) true, more)
      else some (e, rest)
    | [] => some (e, rest)

/-- A value and the steps into it. -/
def reached (p : Place) : Nat → List Tree → Option (Expr × List Tree)
  | 0, _ => none
  | fuel + 1, trees => do
    let (e, rest) ← primary p fuel trees
    let (e, skips, rest) ← steps p fuel true e false rest
    some (if skips then .chain e else e, rest)

/-- Steps behind a value, with whether one of them is optional. -/
def steps (p : Place) (fuel : Nat) (mayCall : Bool) (e : Expr) (skips : Bool) (trees : List Tree) :
    Option (Expr × Bool × List Tree) :=
  match fuel, trees with
  | 0, _ => none
  | _, [] => some (e, skips, [])
  | fuel + 1, t :: rest =>
    match t with
    | .leaf token =>
      match token.kind with
      | .punct "." =>
        match rest with
        | key :: rest => do
          let key ← key.name?
          steps p fuel mayCall (.member e key false) skips rest
        | [] => none
      | .punct "?." =>
        match rest with
        | next :: rest =>
          match next with
          | .leaf _ => do
            let key ← next.name?
            steps p fuel mayCall (.member e key true) true rest
          | .group o inside _ =>
            if o.isPunct "[" then do
              let key ← whole p fuel inside
              steps p fuel mayCall (.index e key true) true rest
            else if o.isPunct "(" then do
              let args ← items p fuel (splitAtCommas inside)
              steps p fuel mayCall (.call e args true) true rest
            else none
        | [] => none
      | .template => do
        let (cooked, raw, holes) ← template p fuel token
        steps p fuel mayCall (.tagged e cooked raw holes) skips rest
      | _ => some (e, skips, t :: rest)
    | .group o inside _ =>
      if o.isPunct "[" then do
        let key ← whole p fuel inside
        steps p fuel mayCall (.index e key false) skips rest
      else if o.isPunct "(" && mayCall then do
        let args ← items p fuel (splitAtCommas inside)
        steps p fuel mayCall (.call e args false) skips rest
      else some (e, skips, t :: rest)

/-- The chunks of a template, decoded and as written, and its holes. -/
def template (p : Place) : Nat → Token → Option (List String × List String × List Expr)
  | 0, _ => none
  | fuel + 1, token => do
    let parts ← partsOfTemplate (charsOf p token)
    let holes ← holesOf p fuel parts.holes
    some (parts.chunks.map unescaped, parts.chunks.map String.ofList, holes)

/-- The expressions of holes. -/
def holesOf (p : Place) : Nat → List (List Char) → Option (List Expr)
  | 0, _ => none
  | _, [] => some []
  | fuel + 1, hole :: more => do
    let tokens ← (Source.tokenize (String.ofList hole)).toOption
    let nested ← (Source.nest tokens).toOption
    let e ← whole { p with source := hole } fuel nested.trees
    let es ← holesOf p fuel more
    some (e :: es)

/-- The items of a list, or the arguments of a call. -/
def items (p : Place) : Nat → List (List Tree) → Option (List Item)
  | 0, _ => none
  | _, [] => some []
  | fuel + 1, part :: more => do
    let item : Item ← match part with
      | [] => some .hole
      | t :: rest =>
        if t.isPunct "..." then (single p fuel rest).map .spread else (single p fuel part).map .one
    let rest ← items p fuel more
    some (item :: rest)

/-- The entries of a record. -/
def entries (p : Place) : Nat → List (List Tree) → Option (List Entry)
  | 0, _ => none
  | _, [] => some []
  | fuel + 1, part :: more => do
    let entry ← entry p fuel part
    let rest ← entries p fuel more
    some (entry :: rest)

/-- An entry of a record: a spread, a method, a field, or a name for its own value. -/
def entry (p : Place) : Nat → List Tree → Option Entry
  | 0, _ => none
  | fuel + 1, part =>
    match part with
    | [] => none
    | [t] => (nameOf? p t).map fun n => .field n (.name n)
    | t :: next :: rest =>
      if t.isPunct "..." then (single p fuel (next :: rest)).map .spread
      else if next.isPunct ":" then
        match t.inside? "[" with
        | some (key, _) => do
          let key ← whole p fuel key
          let value ← single p fuel rest
          some (.computed key value)
        | none => do
          let key ← keyOf? p t
          let value ← single p fuel rest
          some (.field key (value.named key))
      else
        let (isAsync, head) := if t.isWord "async" && !next.isGroup "(" then (true, next :: rest)
          else (false, part)
        match head with
        | [key, params, body] => do
          let key ← keyOf? p key
          let (params, _) ← params.inside? "("
          let (body, _) ← body.inside? "\x7b"
          let f ← functionOf p fuel key false isAsync params body
          some (.field key (.function f))
        | _ => none

/-- A value without steps into it. -/
def primary (p : Place) : Nat → List Tree → Option (Expr × List Tree)
  | 0, _ => none
  | _, [] => none
  | fuel + 1, t :: rest =>
    match t with
    | .group o inside _ =>
      if o.isPunct "(" then (whole p fuel inside).map fun e => (e, rest)
      else if o.isPunct "[" then
        (items p fuel (splitAtCommas inside)).map fun items => (.list items, rest)
      else (entries p fuel (splitAtCommas inside)).map fun entries => (.record entries, rest)
    | .leaf token =>
      match token.kind with
      | .number x => some (.number x, rest)
      | .text _ => some (.text (textOf p token), rest)
      | .template => do
        let (cooked, _, holes) ← template p fuel token
        some (.template cooked holes, rest)
      | .ident "null" => some (.null, rest)
      | .ident "true" => some (.bool true, rest)
      | .ident "false" => some (.bool false, rest)
      | .ident "this" => some (.this, rest)
      | .ident "function" => (function p fuel false rest).map fun (f, rest) => (.function f, rest)
      | .ident "new" => creation p fuel rest
      | .ident name =>
        if name == "async" && startsWithWord rest "function" then
          (function p fuel true (rest.drop 1)).map fun (f, rest) => (.function f, rest)
        else (nameOf? p t).map fun n => (.name n, rest)
      | _ => none

/-- What is made by `new`: a constructor and its arguments. -/
def creation (p : Place) : Nat → List Tree → Option (Expr × List Tree)
  | 0, _ => none
  | fuel + 1, trees => do
    let (callee, rest) ← primary p fuel trees
    let (callee, skips, rest) ← steps p fuel false callee false rest
    if skips then none
    else
      match rest with
      | t :: more =>
        match t.inside? "(" with
        | some (inside, _) => do
          let args ← items p fuel (splitAtCommas inside)
          some (.create callee args, more)
        | none => some (.create callee [], rest)
      | [] => some (.create callee [], rest)

end

/-- The trees of a text. -/
def treesOf? (source : String) : Option (List Tree) := do
  let tokens ← (Source.tokenize source).toOption
  let nested ← (Source.nest tokens).toOption
  some nested.trees

/-- Enough fuel to read a text: each reader of a form hands on to at most twenty others before one of them
takes a tree, and no form has more trees than the text has characters. -/
def readingFuel (source : String) : Nat := 40 * (source.utf8ByteSize + 10)

/-- The place at the top of a script. -/
def Place.top (source : String) : Place := ⟨source.toList, false, false, false⟩

/-- The statements of a script; nothing if it is malformed. -/
def program? (source : String) : Option (List Stmt) := do
  statements (.top source) (readingFuel source) (← treesOf? source)

/-- The expression of a text; nothing if it is malformed. -/
def expression? (source : String) : Option Expr := do
  whole (.top source) (readingFuel source) (← treesOf? source)

end TaskRunner.Script
