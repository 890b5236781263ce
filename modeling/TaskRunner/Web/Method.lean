import TaskRunner.Text.Casing

/-!
# Request methods

The methods that a request may have.
-/

namespace TaskRunner.Web

/-- A request method. -/
inductive Method where
  | get
  | post
  | put
  | delete
  | patch
  | head
  | options
deriving DecidableEq, Repr

namespace Method

/-- All methods. -/
def all : List Method := [get, post, put, delete, patch, head, options]

/-- The name of a method. -/
def name : Method → String
  | get => "GET"
  | post => "POST"
  | put => "PUT"
  | delete => "DELETE"
  | patch => "PATCH"
  | head => "HEAD"
  | options => "OPTIONS"

/-- Whether a request of the method carries a body. -/
def allowsBody : Method → Bool
  | get | head => false
  | _ => true

/-- Reads the name of a method in any case. -/
def ofText? (text : String) : Except String Method :=
  match all.find? fun m => Text.eqIgnoringCase m.name text with
  | some m => .ok m
  | none =>
    .error ("Unsupported method '" ++ text ++ "' (expected one of " ++
      ", ".intercalate (all.map name) ++ ")")

end Method

end TaskRunner.Web
