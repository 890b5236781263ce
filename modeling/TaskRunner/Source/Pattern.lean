import TaskRunner.Source.Tree

/-!
# Names bound by patterns

The names that a destructuring pattern binds, in source order, each with the token where it stands.
In an object pattern an element that has a colon binds what stands behind its first colon; an element
without one binds its first token.
-/

namespace TaskRunner.Source

/-- A bound name and its token. -/
structure BoundName where
  name : String
  token : Token
deriving Repr

/-- The name at a token, or a complaint about the token. -/
def nameOfToken (t : Token) : Except SyntaxError BoundName :=
  match t.name? with
  | some name => .ok ⟨name, t⟩
  | none => .error (unexpected t)

/-- Whether a colon comes before the next comma. -/
def colonInElement : List Tree → Bool
  | [] => false
  | t :: rest =>
    if t.isPunct "," then false else if t.isPunct ":" then true else colonInElement rest

/-- How far the reading of a pattern's element has come. -/
inductive ElementState where
  /-- Before its first tree. -/
  | start
  /-- Before the colon. -/
  | key
  /-- Before what it binds. -/
  | target
  /-- Behind what it binds. -/
  | done
deriving DecidableEq, Repr

mutual

/-- The names bound by the elements of a pattern, from the given state of an element on. -/
def namesInElements (isObject : Bool) (after : Token) :
    ElementState → List Tree → Except SyntaxError (List BoundName)
  | .start, [] => .ok []
  | .key, [] => .ok []
  | .target, [] => .error (unexpected after)
  | .done, [] => .ok []
  | state, t :: rest =>
    match state with
    | .start =>
      if t.isPunct "," then namesInElements isObject after .start rest
      else if t.isPunct "..." then do
        let bound ← nameOfToken (ahead after rest)
        let more ← namesInElements isObject after .done rest
        .ok (bound :: more)
      else if isObject then
        if t.isPunct ":" then namesInElements isObject after .target rest
        else if colonInElement rest then namesInElements isObject after .key rest
        else do
          let bound ← nameOfToken t.first
          let more ← namesInElements isObject after .done rest
          .ok (bound :: more)
      else do
        let bound ← namesOfTarget t
        let more ← namesInElements isObject after .done rest
        .ok (bound ++ more)
    | .key =>
      namesInElements isObject after (if t.isPunct ":" then .target else .key) rest
    | .target => do
      let bound ← namesOfTarget t
      let more ← namesInElements isObject after .done rest
      .ok (bound ++ more)
    | .done =>
      namesInElements isObject after (if t.isPunct "," then .start else .done) rest

/-- The names bound by one target: an identifier or a nested pattern. -/
def namesOfTarget : Tree → Except SyntaxError (List BoundName)
  | .leaf t => (nameOfToken t).map ([·])
  | .group opener inside closer =>
    if opener.isPunct "\x7b" then namesInElements true closer .start inside
    else if opener.isPunct "[" then namesInElements false closer .start inside
    else .error (unexpected opener)

end

end TaskRunner.Source
