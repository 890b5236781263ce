/-!
# Shell commands

The commands of a shell script: words with quoted and expanded parts, redirections, and the ways to put
commands together.
-/

namespace TaskRunner.Shell

/-- Where a redirection leads. -/
inductive RedirectKind where
  | input
  | output
  | append
  /-- To where another descriptor leads. -/
  | same
deriving DecidableEq, Repr

mutual

/-- A part of a word. What is quoted is neither split nor matched against files. -/
inductive Part where
  | text (chars : List Char) (isQuoted : Bool)
  /-- A parameter, with an operator and its word when there is one. -/
  | parameter (name : String) (operator : String) (word : List Part) (isQuoted : Bool)
  /-- The length of a parameter. -/
  | length (name : String)
  /-- The output of commands. -/
  | output (body : List Command) (isQuoted : Bool)
  /-- The value of an expression. -/
  | arithmetic (expression : List Part)

/-- A redirection of a descriptor. -/
inductive Redirect where
  | mk (descriptor : Nat) (kind : RedirectKind) (target : List Part)

/-- A command. -/
inductive Command where
  /-- A program with its arguments; `remaining` counts the characters of the script from here on. -/
  | simple (remaining : Nat) (assignments : List (String × List Part)) (words : List (List Part))
      (redirects : List Redirect)
  /-- Commands in braces, or in parentheses, which keep what they change to themselves. -/
  | group (body : List Command) (isApart : Bool) (redirects : List Redirect)
  | branch (arms : List (List Command × List Command)) (otherwise : List Command)
  /-- Goes on as long as the condition succeeds, or fails. -/
  | loop (untilSuccess : Bool) (condition body : List Command)
  | forEach (name : String) (words : List (List Part)) (body : List Command)
  | pipeline (isNegated : Bool) (stages : List Command)
  /-- The second one runs if the first one succeeds. -/
  | both (first second : Command)
  /-- The second one runs if the first one fails. -/
  | either (first second : Command)

end

/-- A word. -/
abbrev Word := List Part

end TaskRunner.Shell
