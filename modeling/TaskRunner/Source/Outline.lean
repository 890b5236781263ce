import TaskRunner.Source.Lowering
import TaskRunner.Source.Pattern

/-!
# The outline of a file

What stands at the top level of a file: its functions, its exports, and the edits that make a script
of it. Statements are told apart by declaration keywords, semicolons and line ends; inside brackets
nothing is read but the names of patterns and of import and export lists.
-/

namespace TaskRunner.Source

/-- A binding at the top level whose value is a function. -/
structure LocalFunction where
  name : String
  /-- The parameters, with their commas. -/
  params : List Tree
  /-- The block of statements; none when an arrow is followed by an expression. -/
  body : Option (List Tree × Token)
  /-- The comments before the declaration. -/
  leading : List Comment
deriving Repr

/-- An exported name and the local name behind it. -/
structure Export where
  exported : String
  name : String
deriving DecidableEq, Repr

/-- What has been found at the top level so far; functions, exports and edits in source order. -/
structure Outline where
  lexicalNames : List String
  varNames : List String
  functions : List LocalFunction
  exports : List Export
  edits : List Edit
deriving Repr

/-- How a name is declared: `var` may repeat itself. -/
inductive Declaration where
  | lexical
  | var
deriving DecidableEq, Repr

namespace Outline

/-- The outline of nothing. -/
def empty : Outline := ⟨[], [], [], [], []⟩

/-- Declares a name. A name may be declared twice only by `var`. -/
def declare (o : Outline) (kind : Declaration) (bound : BoundName) :
    Except SyntaxError Outline :=
  let clash := match kind with
    | .lexical => o.lexicalNames.contains bound.name || o.varNames.contains bound.name
    | .var => o.lexicalNames.contains bound.name
  if clash then .error ⟨.duplicateDeclaration bound.name, bound.token.place⟩
  else match kind with
    | .lexical => .ok { o with lexicalNames := bound.name :: o.lexicalNames }
    | .var => .ok { o with varNames := bound.name :: o.varNames }

/-- Declares names, one after the other. -/
def declareAll (o : Outline) (kind : Declaration) (names : List BoundName) :
    Except SyntaxError Outline :=
  names.foldlM (fun o bound => o.declare kind bound) o

/-- The outline with one more function. -/
def addFunction (o : Outline) (f : LocalFunction) : Outline :=
  { o with functions := o.functions ++ [f] }

/-- The outline with one more edit. -/
def addEdit (o : Outline) (span : Span) (replacement : String) : Outline :=
  { o with edits := o.edits ++ [⟨span, replacement⟩] }

/-- The outline with more exports. -/
def addExports (o : Outline) (entries : List Export) : Outline :=
  { o with exports := o.exports ++ entries }

/-- The outline with names exported as they are, if they are exported. -/
def exportNames (o : Outline) (exported : Bool) (names : List BoundName) : Outline :=
  if exported then o.addExports (names.map fun bound => ⟨bound.name, bound.name⟩) else o

end Outline

/-! ## Where statements end -/

/-- Words that start a declaration. -/
def declarationWords : List String :=
  ["import", "export", "function", "const", "let", "var", "class"]

/-- Whether a declaration starts here. `import` before a parenthesis or a point is an expression, and
`async` needs `function` on its line. -/
def startsDeclaration (after : Token) : List Tree → Bool
  | [] => false
  | t :: rest =>
    match t.name? with
    | none => false
    | some name =>
      let next := ahead after rest
      if name == "import" then !(next.isPunct "(") && !(next.isPunct ".")
      else if name == "async" then next.isWord "function" && !next.newlineBefore
      else declarationWords.contains name

/-- Words that leave an expression open. -/
def openWords : List String :=
  ["return", "typeof", "instanceof", "in", "of", "new", "delete", "void", "throw", "await",
    "yield", "extends"]

/-- Whether an expression goes on behind the token although the line ends. -/
def leavesOpen (t : Token) : Bool :=
  match t.kind with
  | .punct mark => !([")", "]", "\x7d", ";", "++", "--"].contains mark)
  | .ident name => openWords.contains name
  | _ => false

/-- Cuts an expression off: it ends before a semicolon, before a comma if those separate, and before a
declaration on a new line unless the token before leaves it open. -/
def cutExpression (after : Token) (commas : Bool) :
    Option Token → List Tree → List Tree × List Tree
  | _, [] => ([], [])
  | previous, t :: rest =>
    let newStatement := match previous with
      | none => false
      | some p => t.first.newlineBefore && startsDeclaration after (t :: rest) && !leavesOpen p
    if newStatement || t.isPunct ";" || (commas && t.isPunct ",") then ([], t :: rest)
    else
      let (taken, behind) := cutExpression after commas (some t.last) rest
      (t :: taken, behind)

/-- What is behind a semicolon, if one comes next. -/
def pastSemicolon : List Tree → List Tree
  | [] => []
  | t :: rest => if t.isPunct ";" then rest else t :: rest

/-- What is behind a statement of no interest. -/
def pastStatement (after : Token) (trees : List Tree) : List Tree :=
  let (taken, behind) := cutExpression after false none trees
  if startsWithPunct behind ";" then behind.tail
  else if taken.isEmpty then trees.tail
  else behind

/-- The trees in front of what is left. -/
def consumed (trees behind : List Tree) : List Tree :=
  trees.take (trees.length - behind.length)

/-! ## Functions and classes -/

/-- The parameters, the body and the rest of a function from its parameter list on. -/
def functionTail (after : Token) (trees : List Tree) :
    Except SyntaxError (List Tree × (List Tree × Token) × List Tree) :=
  match trees with
  | [] => .error (unexpected after)
  | t :: rest =>
    match t.inside? "(" with
    | none => .error (unexpected t.first)
    | some (params, _) =>
      match rest with
      | [] => .error (unexpected after)
      | b :: rest =>
        match b.inside? "\x7b" with
        | none => .error (unexpected b.first)
        | some body => .ok (params, body, rest)

/-- Without a leading punctuation mark. -/
def dropPunct (mark : String) (trees : List Tree) : List Tree :=
  if startsWithPunct trees mark then trees.tail else trees

/-- Without a leading word. -/
def dropWord (word : String) (trees : List Tree) : List Tree :=
  if startsWithWord trees word then trees.tail else trees

/-- Reads a function declaration. -/
def functionDeclaration (after : Token) (leading : List Comment) (exported : Bool) (o : Outline)
    (trees : List Tree) : Except SyntaxError (Outline × List Tree) := do
  let trees := dropWord "async" trees
  if startsWithWord trees "function" then
    let trees := dropPunct "*" trees.tail
    let bound ← nameOfToken (ahead after trees)
    let (params, body, rest) ← functionTail after trees.tail
    let o ← o.declare .lexical bound
    let o := (o.addFunction ⟨bound.name, params, some body, leading⟩).exportNames exported [bound]
    .ok (o, rest)
  else .error (unexpected (ahead after trees))

/-- What is behind a class body. -/
def pastClassBody (after : Token) : List Tree → Except SyntaxError (List Tree)
  | [] => .error (unexpected after)
  | t :: rest => if t.isGroup "\x7b" then .ok rest else pastClassBody after rest

/-- Reads a class declaration. -/
def classDeclaration (after : Token) (exported : Bool) (o : Outline) (trees : List Tree) :
    Except SyntaxError (Outline × List Tree) := do
  let bound ← nameOfToken (ahead after trees.tail)
  let rest ← pastClassBody after trees.tail.tail
  let o ← o.declare .lexical bound
  .ok (o.exportNames exported [bound], rest)

/-! ## Variables -/

/-- The parameters and the body of a function or an arrow that stands at the front; `width` is the
number of trees of the whole expression. -/
def functionValue (trees : List Tree) (width : Nat) :
    Option (List Tree × Option (List Tree × Token)) :=
  let isAsync := startsWithWord trees "async" && 1 < width
  let skipped := if isAsync then 1 else 0
  let trees := trees.drop skipped
  if startsWithWord trees "function" then
    let trees := dropPunct "*" trees.tail
    let trees := if startsWithName trees then trees.tail else trees
    match trees with
    | t :: b :: _ =>
      match t.inside? "(", b.inside? "\x7b" with
      | some (params, _), some body => some (params, some body)
      | _, _ => none
    | _ => none
  else
    match trees with
    | t :: arrow :: rest =>
      let params := match t.inside? "(" with
        | some (params, _) => some params
        | none => if t.name?.isSome then some [t] else none
      match params with
      | none => none
      | some params =>
        if arrow.isPunct "=>" && skipped + 1 < width then
          some (params, (rest.head?.bind (·.inside? "\x7b")))
        else none
    | _ => none

/-- The names that a declarator binds, and the rest. A lone identifier is told from a pattern. -/
def declaratorTarget (after : Token) :
    List Tree → Except SyntaxError (Option String × List BoundName × List Tree)
  | [] => .error (unexpected after)
  | t :: rest =>
    match t with
    | .leaf token => do
      let bound ← nameOfToken token
      .ok (some bound.name, [bound], rest)
    | .group _ _ _ => do
      let names ← namesOfTarget t
      .ok (none, names, rest)

/-- Reads the declarators of a variable declaration, at most `fuel` of them. -/
def declarators (after : Token) (kind : Declaration) (leading : List Comment) (exported : Bool) :
    Nat → Outline → List Tree → Except SyntaxError (Outline × List Tree)
  | 0, o, trees => .ok (o, trees)
  | fuel + 1, o, trees => do
    let (single, names, trees) ← declaratorTarget after trees
    let o ← o.declareAll kind names
    let o := o.exportNames exported names
    let (o, trees) :=
      if startsWithPunct trees "=" then
        let value := trees.tail
        let (taken, behind) := cutExpression after true none value
        let o := match single, functionValue value taken.length with
          | some name, some (params, body) => o.addFunction ⟨name, params, body, leading⟩
          | _, _ => o
        (o, behind)
      else (o, trees)
    if startsWithPunct trees "," then declarators after kind leading exported fuel o trees.tail
    else .ok (o, pastSemicolon trees)

/-- Reads a variable declaration. -/
def variableDeclaration (after : Token) (leading : List Comment) (exported : Bool) (o : Outline)
    (trees : List Tree) : Except SyntaxError (Outline × List Tree) :=
  let kind : Declaration := if startsWithWord trees "var" then .var else .lexical
  declarators after kind leading exported trees.length o trees.tail

/-! ## Imports -/

/-- The elements of an import list: for each one the imported name and what it is bound to. -/
def importElements (after : Token) :
    Nat → List Tree → Except SyntaxError (List (ImportBinding × BoundName))
  | 0, _ => .ok []
  | _, [] => .ok []
  | fuel + 1, t :: rest => do
    let imported ← match t.first.nameOrText? with
      | some name => .ok name
      | none => .error (unexpected t.first)
    let (bound, rest) ←
      if startsWithWord rest "as" then do
        let bound ← nameOfToken (ahead after rest.tail)
        .ok (bound, rest.tail.tail)
      else .ok (⟨imported, t.first⟩, rest)
    if startsWithPunct rest "," then do
      let more ← importElements after fuel rest.tail
      .ok ((.member imported bound.name, bound) :: more)
    else if rest.isEmpty then .ok [(.member imported bound.name, bound)]
    else .error (unexpected (ahead after rest))

/-- The name bound to the default export, if the clause starts with one, and the rest of the clause. -/
def defaultImport (clause : List Tree) : List (ImportBinding × BoundName) × List Tree :=
  match clause with
  | .leaf t :: rest =>
    match t.name? with
    | some name =>
      if name != "from" || startsWithWord rest "from" then
        ([(.whole name, ⟨name, t⟩)], dropPunct "," rest)
      else ([], clause)
    | none => ([], clause)
  | _ => ([], clause)

/-- The names bound by the clause before `from`, and what is behind `from`. -/
def importClause (after : Token) (clause : List Tree) :
    Except SyntaxError (List (ImportBinding × BoundName) × List Tree) := do
  let (defaults, trees) := defaultImport clause
  let (others, trees) ← match trees with
    | [] => .ok ([], [])
    | t :: rest =>
      if t.isPunct "*" then
        if startsWithWord rest "as" then do
          let bound ← nameOfToken (ahead after rest.tail)
          .ok ([(ImportBinding.whole bound.name, bound)], rest.tail.tail)
        else .error (unexpected (ahead after rest))
      else
        match t.inside? "\x7b" with
        | some (inside, closer) => do
          let elements ← importElements closer (inside.length + 1) inside
          .ok (elements, rest)
        | none => .ok ([], t :: rest)
  if trees.length = clause.length || !startsWithWord trees "from" then
    .error (unexpected (ahead after trees))
  else .ok (defaults ++ others, trees.tail)

/-- What is behind the attributes of an import. -/
def pastAttributes (trees : List Tree) : List Tree :=
  match trees with
  | t :: group :: rest =>
    if (t.isWord "with" || t.isWord "assert") && !t.first.newlineBefore && group.isGroup "\x7b" then
      rest
    else trees
  | _ => trees

/-- Reads an import declaration. -/
def importDeclaration (after : Token) (o : Outline) (trees : List Tree) :
    Except SyntaxError (Outline × List Tree) := do
  let clause := trees.tail
  let (bindings, rest) ←
    if (ahead after clause).text?.isSome then .ok ([], clause) else importClause after clause
  match (ahead after rest).text? with
  | none => .error (unexpected (ahead after rest))
  | some source => do
    let behind := pastSemicolon (pastAttributes rest.tail)
    let o ← o.declareAll .lexical (bindings.map (·.2))
    let replacement := importReplacement source (bindings.map (·.1))
    .ok (o.addEdit (spanOf (consumed trees behind)) replacement, behind)

/-! ## Exports -/

/-- The elements of an export list. -/
def exportElements (after : Token) : Nat → List Tree → Except SyntaxError (List Export)
  | 0, _ => .ok []
  | _, [] => .ok []
  | fuel + 1, t :: rest => do
    let name ← match t.first.nameOrText? with
      | some name => .ok name
      | none => .error (unexpected t.first)
    let (exported, rest) ←
      if startsWithWord rest "as" then
        let target := ahead after rest.tail
        match target.nameOrText? with
        | some exported => .ok (exported, rest.tail.tail)
        | none => .error (unexpected target)
      else .ok (name, rest)
    if startsWithPunct rest "," then do
      let more ← exportElements after fuel rest.tail
      .ok (⟨exported, name⟩ :: more)
    else if rest.isEmpty then .ok [⟨exported, name⟩]
    else .error (unexpected (ahead after rest))

/-- Whether a function declaration with a name starts here. -/
def startsNamedFunction (trees : List Tree) : Bool :=
  if startsWithWord trees "function" then
    startsWithName trees.tail ||
      (startsWithPunct trees.tail "*" && startsWithName trees.tail.tail)
  else
    startsWithWord trees "async" && startsWithWord trees.tail "function" &&
      startsWithName trees.tail.tail

/-- Reads an `export default`. A named function or class becomes a declaration; before anything else
the words are replaced by an operator, which makes a statement of an expression. -/
def exportDefault (after : Token) (leading : List Comment) (o : Outline) (trees : List Tree) :
    Except SyntaxError (Outline × List Tree) :=
  let rest := trees.drop 2
  let span := spanOf (trees.take 2)
  if startsNamedFunction rest then
    functionDeclaration after leading false (o.addEdit span "") rest
  else if startsWithWord rest "class" && startsWithName rest.tail &&
      !startsWithWord rest.tail "extends" then
    classDeclaration after false (o.addEdit span "") rest
  else .ok (o.addEdit span "void", pastStatement after rest)

/-- Reads an export list, or a re-export when `from` follows. -/
def exportList (after : Token) (o : Outline) (trees inside : List Tree) (closer : Token) :
    Except SyntaxError (Outline × List Tree) := do
  let entries ← exportElements closer (inside.length + 1) inside
  let rest := trees.drop 2
  let (o, rest) ←
    if startsWithWord rest "from" then
      let source := ahead after rest.tail
      if source.text?.isSome then .ok (o, rest.drop 2) else .error (unexpected source)
    else .ok (o.addExports entries, rest)
  let behind := pastSemicolon rest
  .ok (o.addEdit (spanOf (consumed trees behind)) "", behind)

/-- Reads an export declaration. -/
def exportDeclaration (after : Token) (o : Outline) (trees : List Tree) :
    Except SyntaxError (Outline × List Tree) :=
  match trees with
  | keyword :: t :: rest =>
    let leading := keyword.first.comments
    let blanked := o.addEdit keyword.first.span ""
    if t.isWord "default" then exportDefault after leading o trees
    else if t.isWord "function" || (t.isWord "async" && startsWithWord rest "function") then
      functionDeclaration after leading true blanked (t :: rest)
    else if t.isWord "const" || t.isWord "let" || t.isWord "var" then
      variableDeclaration after leading true blanked (t :: rest)
    else if t.isWord "class" then classDeclaration after true blanked (t :: rest)
    else if t.isPunct "*" then
      let behind := pastStatement after (t :: rest)
      .ok (o.addEdit (spanOf (consumed trees behind)) "", behind)
    else
      match t.inside? "\x7b" with
      | some (inside, closer) => exportList after o trees inside closer
      | none => .error (unexpected t.first)
  | _ => .error (unexpected after)

/-! ## Statements -/

/-- Whether a variable declaration starts here: a keyword before a name or a pattern. -/
def startsVariables (trees : List Tree) : Bool :=
  (startsWithWord trees "const" || startsWithWord trees "let" || startsWithWord trees "var") &&
    (startsWithName trees.tail || startsWithGroup trees.tail "\x7b" ||
      startsWithGroup trees.tail "[")

/-- Reads one statement. -/
def statement (after : Token) (o : Outline) (trees : List Tree) :
    Except SyntaxError (Outline × List Tree) :=
  let leading := (ahead after trees).comments
  if startsWithWord trees "import" && startsDeclaration after trees then
    importDeclaration after o trees
  else if startsWithWord trees "export" then exportDeclaration after o trees
  else if startsWithWord trees "function" ||
      (startsWithWord trees "async" && startsDeclaration after trees) then
    functionDeclaration after leading false o trees
  else if startsVariables trees then variableDeclaration after leading false o trees
  else if startsWithWord trees "class" then classDeclaration after false o trees
  else .ok (o, pastStatement after trees)

/-- Reads statements, at most `fuel` of them. -/
def statements (after : Token) : Nat → Outline → List Tree → Except SyntaxError Outline
  | 0, o, _ => .ok o
  | _, o, [] => .ok o
  | fuel + 1, o, t :: rest => do
    let (o, behind) ← statement after o (t :: rest)
    statements after fuel o behind

/-- The outline of nested tokens. -/
def outlineOf (nested : Nested) : Except SyntaxError Outline :=
  statements nested.ending nested.trees.length .empty nested.trees

end TaskRunner.Source
