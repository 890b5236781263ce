import TaskRunner.Config.Settings
import TaskRunner.Yaml.Node

/-!
# Settings in a document

A document sets what it names; fields that are not known do not count. Switches and numbers are plain
scalars, and texts are scalars of any form.
-/

namespace TaskRunner.Config

open Yaml (Node)

/-- The fields of a section: the known ones stand once at most. An empty section has none. -/
def fields? (known : List String) : Node → Option (List (String × Node))
  | .mapping entries _ => do
    let fields ← entries.mapM fun (key, value) =>
      match key with
      | .scalar name _ _ => some (name, value)
      | _ => none
    if known.any fun name => 1 < fields.countP (·.1 == name) then none else some fields
  | .scalar "" .plain _ => some []
  | _ => none

/-- Reads a field that need not be there. -/
def fieldOr {α : Type} (fields : List (String × Node)) (name : String) (read? : Node → Option α)
    (default : α) : Option α :=
  match fields.lookup name with
  | some node => read? node
  | none => some default

/-- A text. -/
def text? : Node → Option String
  | .scalar text _ _ => some text
  | _ => none

/-- A switch. -/
def switch? : Node → Option Bool
  | .scalar text .plain _ =>
    if ["true", "True", "TRUE"].contains text then some true
    else if ["false", "False", "FALSE"].contains text then some false
    else none
  | _ => none

/-- Digits of a base behind its mark, without a sign of their own. -/
def markedNumber? (mark : String) (base : Nat) (text : List Char) : Option Nat :=
  if mark.toList.isPrefixOf text then Number.natOfDigits base (text.drop mark.length) else none

/-- A natural number below a limit. Decimal numbers of more than one digit do not start with a zero. -/
def number? (limit : Nat) : Node → Option Nat
  | .scalar text .plain _ =>
    let digits := match text.toList with
      | '+' :: rest => rest
      | rest => rest
    let decimal :=
      if 1 < digits.length && digits.head? == some '0' then none else Number.natOfDigits 10 digits
    let n := markedNumber? "0x" 16 digits <|> markedNumber? "0o" 8 digits <|>
      markedNumber? "0b" 2 digits <|> decimal
    n.filter (· < limit)
  | _ => none

/-- Whether a plain scalar means that nothing is set. -/
def isNothing (text : String) : Bool :=
  ["null", "Null", "NULL", "~"].contains text

/-- The tag of nothing. -/
def nothingTag : String := "tag:yaml.org,2002:null"

/-- Something that may be nothing. -/
def optional? {α : Type} (read? : Node → Option α) (node : Node) : Option (Option α) :=
  match node with
  | .scalar text .plain tag =>
    let nothing := match tag with
      | none => text.isEmpty || isNothing text
      | some tag => tag == nothingTag && isNothing text
    if nothing then some none else (read? node).map some
  | _ => (read? node).map some

/-- A choice by its name, which may also stand as the tag of nothing. -/
def choice? {α : Type} (names : List (String × α)) : Node → Option α
  | .scalar text _ none => names.lookup text
  | .scalar text _ (some tag) =>
    match tag.toList with
    | '!' :: name =>
      if name.isEmpty then names.lookup text
      else if text.isEmpty || isNothing text then names.lookup (String.ofList name)
      else none
    | _ => names.lookup text
  | _ => none

/-- The settings for tasks. -/
def Execution.ofNode? (base : Execution) (node : Node) : Option Execution := do
  let fields ← fields? ["stop_on_failure", "ignore_failures", "test_mode", "shell"] node
  return {
    stopOnFailure := ← fieldOr fields "stop_on_failure" switch? base.stopOnFailure
    ignoreFailures := ← fieldOr fields "ignore_failures" switch? base.ignoreFailures
    testMode := ← fieldOr fields "test_mode" switch? base.testMode
    shell := ← fieldOr fields "shell" text? base.shell }

/-- The settings for requests. -/
def Http.ofNode? (base : Http) (node : Node) : Option Http := do
  let fields ← fields? ["timeout", "max_redirects", "user_agent", "verify_ssl"] node
  return {
    timeout := ← fieldOr fields "timeout" (number? UInt64.size) base.timeout
    maxRedirects := ← fieldOr fields "max_redirects" (number? UInt32.size) base.maxRedirects
    userAgent := ← fieldOr fields "user_agent" text? base.userAgent
    verifySsl := ← fieldOr fields "verify_ssl" switch? base.verifySsl }

/-- The settings for the log. -/
def Logging.ofNode? (base : Logging) (node : Node) : Option Logging := do
  let fields ← fields? ["level", "format"] node
  return {
    level := ← fieldOr fields "level" (optional? (choice? LogLevel.names)) base.level
    format := ← fieldOr fields "format" (choice? LogFormat.names) base.format }

/-- The setting for output. -/
def OutputMode.ofNode? (base : OutputMode) (node : Node) : Option OutputMode := do
  let fields ← fields? ["mode"] node
  fieldOr fields "mode" (choice? OutputMode.names) base

/-- The settings for models. -/
def Ai.ofNode? (base : Ai) (node : Node) : Option Ai := do
  let fields ← fields? ["provider", "model", "base_url"] node
  return {
    provider := ← fieldOr fields "provider" (optional? text?) base.provider
    model := ← fieldOr fields "model" (optional? text?) base.model
    baseUrl := ← fieldOr fields "base_url" (optional? text?) base.baseUrl }

/-- The settings of a document over some others. -/
def Settings.ofNode? (base : Settings) (node : Node) : Option Settings := do
  let fields ← fields? ["execution", "http", "logging", "output", "ai"] node
  return {
    execution := ← fieldOr fields "execution" base.execution.ofNode? base.execution
    http := ← fieldOr fields "http" base.http.ofNode? base.http
    logging := ← fieldOr fields "logging" base.logging.ofNode? base.logging
    output := ← fieldOr fields "output" base.output.ofNode? base.output
    ai := ← fieldOr fields "ai" base.ai.ofNode? base.ai }

/-- The settings of a text over the defaults; a blank text sets nothing. -/
def Settings.ofText? (text : String) : Option Settings :=
  if Text.isAllBlank text then some .default
  else do Settings.default.ofNode? (← Node.read? text)

end TaskRunner.Config
