import TaskRunner.CommandLine.Globals

/-!
# Matching arguments

Arguments are matched on levels: the program's own, and below it the one of the command. A level knows
its flags and its positional arguments. The first word that names a command of the level leads one
level down; behind a lone `--` every word is positional. A flag that takes a value keeps waiting for it
until another flag or the end of the arguments shows that it is missing.
-/

namespace TaskRunner.CommandLine

/-- Where a matched value goes. -/
inductive Slot where
  | global (flag : GlobalFlag)
  | argument (name : String)
  | option (flag : String)
deriving DecidableEq, Repr

/-- What a flag does. -/
inductive FlagAction where
  | takesValue (slot : Slot)
  | switch (slot : Slot)
  | help
  | version
deriving DecidableEq, Repr

/-- What is known on a level. Of two flags of one name the first one counts. -/
structure Level where
  longFlags : List (String × FlagAction)
  shortFlags : List (Char × FlagAction)
  positionals : List Slot
  commands : List String
deriving Repr

/-- Why arguments are refused, or what is shown instead of running a command. -/
inductive UsageError where
  | unknownArgument
  | argumentConflict
  | invalidValue
  | tooManyValues
  | missingRequired
  | invalidSubcommand
  | displayHelp
  | displayVersion
deriving DecidableEq, Repr

/-- What has been matched: the slots given, with the value of those that take one. -/
abbrev Given := List (Slot × Option String)

/-- The value given for a slot. -/
def valueOf? (given : Given) (slot : Slot) : Option String :=
  (given.find? (·.1 == slot)).bind (·.2)

/-- Whether a slot was given. -/
def isGiven (given : Given) (slot : Slot) : Bool :=
  given.any (·.1 == slot)

/-- How far a level has been matched. -/
structure Progress where
  given : Given
  /-- A slot whose value has been read, or is still missing, but which is not yet entered. -/
  pending : Option (Slot × Option String)
  /-- Whether the next word is the value of the pending slot. -/
  awaiting : Bool
  positionals : List Slot
  /-- Whether a lone `--` has been seen. -/
  trailing : Bool
deriving Repr

namespace Progress

/-- Enters a slot; it may be entered once. -/
def enter (p : Progress) (slot : Slot) (value : Option String) : Except UsageError Progress :=
  if isGiven p.given slot then .error .argumentConflict
  else .ok { p with given := p.given ++ [(slot, value)] }

/-- Enters the pending slot. -/
def settle (p : Progress) : Except UsageError Progress :=
  match p.pending with
  | none => .ok p
  | some (_, none) => .error .invalidValue
  | some (slot, some value) => { p with pending := none, awaiting := false }.enter slot (some value)

/-- Takes a flag, with the value behind its equals sign if there is one. -/
def flag (p : Progress) (action : FlagAction) (inline : Option String) :
    Except UsageError Progress :=
  match action, inline with
  | .takesValue slot, some value => do
    let p ← p.settle
    p.enter slot (some value)
  | .takesValue slot, none => do
    let p ← p.settle
    .ok { p with pending := some (slot, none), awaiting := true }
  | _, some _ => .error .tooManyValues
  | .switch slot, none => do
    let p ← p.settle
    p.enter slot none
  | .help, none => do
    let _ ← p.settle
    .error .displayHelp
  | .version, none => do
    let _ ← p.settle
    .error .displayVersion

/-- Takes the letters of a short flag one after the other. -/
def shortFlag (level : Level) : List Char → Progress → Except UsageError Progress
  | [], p => .ok p
  | c :: rest, p =>
    match level.shortFlags.lookup c with
    | none => .error .unknownArgument
    | some action => do
      let p ← p.flag action none
      shortFlag level rest p

/-- Takes a positional argument. -/
def positional (p : Progress) (level : Level) (word : String) : Except UsageError Progress :=
  match p.positionals with
  | slot :: rest => do
    let p ← p.settle
    .ok { p with pending := some (slot, some word), positionals := rest }
  | [] =>
    if level.commands.isEmpty then .error .unknownArgument
    else if p.trailing && level.commands.contains word then .error .unknownArgument
    else .error .invalidSubcommand

/-- Takes a word before any lone `--` that names no command. -/
def word (p : Progress) (level : Level) (arg : String) : Except UsageError Progress :=
  match longForm? arg with
  | some (name, inline) =>
    if arg == "--" then .ok { p with trailing := true }
    else
      match level.longFlags.lookup name with
      | none => .error .unknownArgument
      | some action => p.flag action inline
  | none =>
    match arg.toList with
    | '-' :: c :: rest => p.shortFlag level (c :: rest)
    | _ =>
      match p.awaiting, p.pending with
      | true, some (slot, _) => .ok { p with pending := some (slot, some arg), awaiting := false }
      | _, _ => p.positional level arg

end Progress

/-- Matches a level. The answer holds the name of a command and the arguments behind it, if one was
named. -/
def scanLevel (level : Level) :
    Progress → List String → Except UsageError (Progress × Option (String × List String))
  | p, [] => .ok (p, none)
  | p, arg :: rest =>
    if p.trailing then do
      let p ← p.positional level arg
      scanLevel level p rest
    else if !p.awaiting && level.commands.contains arg then .ok (p, some (arg, rest))
    else do
      let p ← p.word level arg
      scanLevel level p rest

/-- A level before its first argument. -/
def Progress.atStart (level : Level) : Progress :=
  ⟨[], none, false, level.positionals, false⟩

end TaskRunner.CommandLine
