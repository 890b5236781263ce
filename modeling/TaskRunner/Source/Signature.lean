import TaskRunner.Command.Basic
import TaskRunner.Source.Outline

/-!
# Signatures

What the command line needs to know of a function: its parameters with literal defaults, the options
of a trailing parameter that defaults to an object literal, and its description, which is the comment
before the function or else the first comment in its body.
-/

namespace TaskRunner.Source

/-- A parameter of a function. -/
inductive Param where
  | positional (arg : ArgSpec)
  /-- A last parameter that defaults to an object literal, as options. -/
  | options (specs : List OptionSpec)
deriving DecidableEq, Repr

/-- A function's name, parameters and description. -/
structure Signature where
  name : String
  params : List Param
  description : Option String
deriving DecidableEq, Repr

namespace Signature

/-- The positional parameters in order. -/
def positional (s : Signature) : List ArgSpec :=
  s.params.filterMap fun
    | .positional arg => some arg
    | .options _ => none

/-- The options of the trailing options object, if there is one. -/
def options (s : Signature) : Option (List OptionSpec) :=
  s.params.findSome? fun
    | .options specs => some specs
    | .positional _ => none

/-- The first line of the description that is neither empty nor a tag. -/
def summary (s : Signature) : Option String :=
  s.description.bind summaryOf

/-- The command that calls the local function `target` of this signature. -/
def toCommand (s : Signature) («namespace» target : String) : Command :=
  { Command.ofFunction s.name with
    «namespace», args := s.positional, options := s.options, target }.withComment s.description

end Signature

/-! ## Parameters -/

/-- The literal that a single token denotes. -/
def literalOf : List Tree → Option Literal
  | [.leaf t] =>
    match t.kind with
    | .text value => some (.text value)
    | .number value => some (.number value)
    | .ident word =>
      if word == "true" then some (.bool true)
      else if word == "false" then some (.bool false)
      else if word == "null" then some .null
      else none
    | _ => none
  | _ => none

/-- The option that a property of an object literal stands for. A property whose value is no literal,
or a negated one, stands for none. -/
def optionOf : List Tree → Option OptionSpec
  | .leaf key :: colon :: value =>
    if colon.isPunct ":" then
      key.nameOrText?.bind fun name =>
        if startsWithPunct value "!" then
          (literalOf value.tail).map fun l => OptionSpec.ofKey name (.bool !l.isTruthy)
        else (literalOf value).map fun l => OptionSpec.ofKey name l
    else none
  | _ => none

/-- The options of a default that is an object literal. -/
def optionsOf : List Tree → Option (List OptionSpec)
  | [t] => (t.inside? "\x7b").map fun (inside, _) => (splitAtCommas inside).filterMap optionOf
  | _ => none

/-- The name that a parameter is declared with; none for a pattern. -/
def paramName : List Tree → Option String
  | [t] => t.name?
  | [dots, t] => if dots.isPunct "..." then t.name? else none
  | _ => none

/-- Whether a parameter takes one argument by its name, and not the rest or a pattern. -/
def isSimple : List Tree → Bool
  | [.leaf t] => !(t.isPunct "...")
  | _ => false

/-- A parameter at the given position, counted from zero. A default that is no literal counts as null,
and so does the lack of one for a pattern or a rest parameter. -/
def positionalOf (position : Nat) (target : List Tree) (default : Option (List Tree)) : ArgSpec :=
  let name := (paramName target).getD ("arg" ++ toString (position + 1))
  let value := match default with
    | some trees => some ((literalOf trees).getD .null)
    | none => if isSimple target then none else some .null
  ⟨name, value⟩

/-- The parameter that one part of a parameter list declares. -/
def paramOf (position : Nat) (isLast : Bool) (part : List Tree) : Param :=
  match cutAt "=" part with
  | none => .positional (positionalOf position part none)
  | some (target, default) =>
    match if isLast then optionsOf default else none with
    | some specs => .options specs
    | none => .positional (positionalOf position target (some default))

/-- The parameters of the parts from a position on. -/
def paramsFrom (position : Nat) : List (List Tree) → List Param
  | [] => []
  | part :: rest => paramOf position rest.isEmpty part :: paramsFrom (position + 1) rest

/-- The parameters of a parameter list. -/
def paramsOf (params : List Tree) : List Param :=
  paramsFrom 0 ((splitAtCommas params).filter fun part => !part.isEmpty)

/-! ## Descriptions -/

/-- A line of a comment without its decoration. -/
def plainLine (line : String) : String :=
  Text.trim (Text.trimStartWith (· == '*') (Text.trim line))

/-- The text of a comment without decoration and without empty lines at its ends; none if nothing is
left. -/
def plainComment (c : Comment) : Option String :=
  let lines := (Text.lines c.text).map plainLine
  let kept := ((lines.dropWhile String.isEmpty).reverse.dropWhile String.isEmpty).reverse
  if kept.isEmpty then none else some ("\n".intercalate kept)

/-- The description of a function. -/
def descriptionOf (f : LocalFunction) : Option String :=
  let before := (f.leading.getLast?.filter Comment.isBlock).bind plainComment
  match before with
  | some text => some text
  | none =>
    match f.body with
    | some (t :: _, _) => t.first.comments.head?.bind plainComment
    | _ => none

/-- The signature of a function under the name that it is exported by. -/
def signatureOf (exported : String) (f : LocalFunction) : Signature :=
  ⟨exported, paramsOf f.params, descriptionOf f⟩

end TaskRunner.Source
