import TaskRunner.CommandLine.Help
import TaskRunner.CommandLine.Registry
import TaskRunner.Config.Loading
import TaskRunner.Config.LogFilter
import TaskRunner.Project.Package
import TaskRunner.Project.Starter
import TaskRunner.Report.Transcript
import TaskRunner.Script.Run

/-!
# The program

One run of the program: its settings are loaded, the commands of the project are found, and what the
arguments ask for is done. Everything that it prints is on the session's journal; the answer is the exit
code.
-/

namespace TaskRunner.CommandLine

open Report (Style)
open Script (Services World)

/-- What the program finds around it. -/
structure Surroundings where
  args : List String
  /-- The working directory as it is written. -/
  cwd : String
  /-- The working directory. -/
  home : Files.Location
  /-- The environment variables. -/
  environment : List (String × String)

/-- The name and version of the program. -/
def versionText : String := "bunosh 0.1.0"

/-- A usage error in words. -/
def UsageError.message : UsageError → String
  | unknownArgument => "unexpected argument"
  | argumentConflict => "argument given more than once"
  | invalidValue => "a value is missing"
  | tooManyValues => "unexpected value"
  | missingRequired => "a required argument is missing"
  | invalidSubcommand => "unknown command"
  | displayHelp => "help"
  | displayVersion => "version"

/-- The reporter that an output mode asks for. -/
def reporterFor : Config.OutputMode → Report.Reporter
  | .ci => .server
  | .silent => .none
  | _ => .console

/-- The switches that settings ask for. -/
def switchesFor (s : Config.Settings) (mode : Config.OutputMode) : Switches :=
  ⟨s.execution.stopOnFailure, s.execution.ignoreFailures, mode == .silent, s.execution.testMode⟩

/-- A run of the program that has its settings. -/
structure Run where
  around : Surroundings
  settings : Config.Settings
  world : World
  /-- Whether texts are in color. -/
  colors : Bool

namespace Run

/-- Prints a line. -/
def line (r : Run) (channel : Channel) (text : String) : Run :=
  { r with world := { r.world with session := r.world.session.print channel (text ++ "\n") } }

/-- Prints an error behind its mark. -/
def complain (r : Run) (text : String) : Run :=
  r.line .err ((Style.of .red).paint r.colors "✗" ++ " " ++ text)

/-- The flags that tell where the commands are. -/
def globals (r : Run) : Globals :=
  .ofArgs r.around.args

/-- Whether a run that finds no commands goes on all the same. -/
def isLenient (r : Run) : Bool :=
  requestedCommand r.around.args == some initCommand ||
    r.around.args.any fun a => ["-h", "--help", "-V", "--version"].contains a

/-- The services for scripts in a directory, unless there is no client for requests. -/
def services? (r : Run) (dir : String) : Except String Services :=
  match Web.Client.make? r.settings.http.userAgent with
  | .error e => .error ("Failed to create HTTP client: " ++ e)
  | .ok client =>
    .ok ⟨client, Ai.resolve Ai.services r.settings.ai r.around.environment, r.settings.execution.shell,
      dir, r.around.home, r.around.environment⟩

/-- Calls a command, and gives what it gives. -/
def perform (r : Run) (d : Project.Discovery) (s : Services) (c : Command) (values : List Json) :
    Run × Except CallError Json :=
  match c.origin with
  | .packageFile =>
    let request : ExecRequest :=
      ⟨Project.scriptCommandLine c.target s.shell, none, some d.dir, [], s.shell⟩
    let w := r.world
    let (session, tree, result) := request.run s.environment s.home w.tree w.session
    let value := Json.ofFields [("status", .text result.status.label), ("output", result.output)]
    ({ r with world := { w with session, tree } }, .ok value)
  | .scriptFile =>
    match d.files.find? (·.namespace == c.namespace) with
    | none => (r, .error (.unavailable c.target))
    | some file =>
      let (world, outcome) := Script.invoke s r.world file.file.script c.target values
      ({ r with world }, outcome.mapError fun e => .failed e.message)

/-- Calls a command as a task, and gives the exit code. -/
def call (r : Run) (d : Project.Discovery) (s : Services) (c : Command) (values : List Json) :
    Run × Int :=
  let (session, id) := r.world.session.startTask c.cliName (.ofKind .command)
  let (r, outcome) := { r with world := { r.world with session } }.perform d s c values
  let (session, _) := r.world.session.complete id (outcome.mapError CallError.message)
  ({ r with world := { r.world with session } }, session.exitCode)

/-- Writes the starter file, and gives the exit code. -/
def init (r : Run) (dir : String) : Run × Int :=
  let target := match r.globals.scriptFile with
    | some path => (Project.locate r.world.tree r.around.home (some path) r.around.cwd).1
    | none => dir
  match Project.writeStarter r.world.tree r.around.home target with
  | .ok (path, tree) =>
    let r := { r with world := { r.world with tree } }
    (r.line .out ((Style.of .green).paint r.colors "✓" ++ " Created " ++ path), 0)
  | .error e => (r.complain e.message, 1)

/-- The overview of all commands. -/
def help (r : Run) (registry : Registry) : String :=
  helpText r.colors registry.commands

/-- The help that arguments ask for: that of the command they name, or the overview. -/
def requestedHelp (r : Run) (registry : Registry) : String :=
  let level := registry.rootLevel
  match scanLevel level (.atStart level) r.around.args with
  | .ok (_, some (name, _)) =>
    match registry.find? name with
    | some c => "Usage: bunosh " ++ usage c
    | none => "Usage: bunosh " ++ name
  | _ => r.help registry

/-- Refuses arguments, or shows what they ask for. -/
def refuse (r : Run) (registry : Registry) (e : UsageError) : Run × Int :=
  match e with
  | .displayHelp => (r.line .out (r.requestedHelp registry), 0)
  | .displayVersion => (r.line .out versionText, 0)
  | .invalidSubcommand =>
    let name := (requestedCommand r.around.args).getD ""
    ((r.complain ("Unknown command '" ++ name ++ "'\n")).line .err (r.help registry ++ "\n"), 1)
  | e => (r.line .err ("error: " ++ e.message), 2)

/-- Does what the arguments ask for with the commands that there are. -/
def serve (r : Run) (d : Project.Discovery) (commands : List Command) (services : Option Services) :
    Run × Int :=
  let registry := Registry.ofCommands commands
  match registry.invocation r.around.args, services with
  | .error e, _ => r.refuse registry e
  | .ok .none, _ => (r.line .out (r.help registry ++ "\n"), 0)
  | .ok .init, _ => r.init d.dir
  | .ok (.call c values), some s => r.call d s c values
  | .ok (.call c _), none => (r.complain ("Unknown command '" ++ c.cliName ++ "'"), 1)

/-- Finds the commands and does what the arguments ask for. -/
def start (r : Run) : Run × Int :=
  let tree := r.world.tree
  match Project.discover tree r.around.home r.globals.scriptFile r.around.cwd with
  | .ok d =>
    match r.services? d.dir with
    | .error message => (r.complain message, 1)
    | .ok s =>
      let scripts := Project.packageScripts tree r.around.home d.dir
      r.serve d (d.commands ++ Project.packageCommands scripts) (some s)
  | .error e =>
    match e, r.isLenient with
    | .notFound dir, true => r.serve ⟨dir, []⟩ [] none
    | _, _ => (r.line .err (e.diagnostic r.colors), 1)

end Run

/-- Runs the program: the state of the world behind it, the reporter that the settings ask for, and the
exit code. -/
def runProgram (around : Surroundings) (world : World) (colors : Bool) :
    World × Report.Reporter × Int :=
  let globals := Globals.ofArgs around.args
  let path := globals.config.map (Files.join around.cwd)
  match Config.load? world.tree around.home path Config.programVariable around.environment with
  | .error e =>
    let session := world.session.print .err (e.diagnostic colors ++ "\n")
    ({ world with session }, .none, 1)
  | .ok settings =>
    let mode := settings.output.resolve (around.environment.lookup "CI")
    let session := { world.session with switches := switchesFor settings mode }
    let r : Run := ⟨around, settings, { world with session }, colors⟩
    let directive :=
      Config.logDirective globals.logLevel settings.logging (around.environment.lookup "RUST_LOG")
    let r := if Config.isDirective directive then r
      else r.line .err ("Invalid log level '" ++ directive ++ "', falling back to '" ++
        Config.defaultLogDirective ++ "'")
    let (r, code) := r.start
    (r.world, reporterFor mode, code)

end TaskRunner.CommandLine
