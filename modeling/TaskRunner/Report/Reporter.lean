import TaskRunner.Number.Layout
import TaskRunner.Report.Style
import TaskRunner.Task.Event
import TaskRunner.Text.Casing

/-!
# Reporters

How events are printed: in color for a terminal, or plainly with the group and error marks that a
build server reads.
-/

namespace TaskRunner.Report

/-- The word for a kind of task. -/
def kindWord : TaskKind → String
  | .task => "task"
  | .exec => "exec"
  | .fetch => "fetch"
  | .writeFile => "write"
  | .ai => "ai"
  | .command => "run"

/-- A span of time: in milliseconds, or from one second up in seconds with two places. -/
def durationText (d : Duration) : String :=
  if 1 ≤ d.seconds then
    Number.fixed 2 (Number.ofNat d.seconds + Number.ofNat d.nanos / 1.0e9) ++ "s"
  else toString (d.seconds * 1000 + d.nanos / 1000000) ++ "ms"

/-- The details of a task in parentheses, if there are any. -/
def detailsText (t : Snapshot) : String :=
  let parts := (t.duration.map durationText).toList ++
    (t.exitCode.map fun code => "exit " ++ toString code).toList ++
    (t.statusCode.map fun code => "HTTP " ++ toString code).toList
  if parts.isEmpty then "" else " (" ++ ", ".intercalate parts ++ ")"

/-- Text behind the marker of a task's place. -/
def tagged (tag text : String) : String :=
  if tag.isEmpty then text else tag ++ " " ++ text

/-- The lines that a terminal shows for an event. The message of a failed shell command is left out,
because its output has been shown already. -/
def consoleLines (colors : Bool) : Event → List String
  | .start t =>
    [tagged t.tag ((Style.of .cyan).paint colors "▶" ++ " " ++
      Style.faint.paint colors (kindWord t.kind) ++ " " ++ Style.heavy.paint colors t.name)]
  | .finish t =>
    [tagged t.tag ((Style.of .green).paint colors "✓" ++ " " ++ t.name ++
      Style.faint.paint colors (detailsText t))]
  | .error t message =>
    let headline := tagged t.tag ((Style.of .red).paint colors "✗" ++ " " ++
      (Style.of .red).paint colors t.name ++ Style.faint.paint colors (detailsText t))
    let rest :=
      if t.kind == .exec then []
      else (Text.lines message).map fun line =>
        tagged t.tag ("  " ++ (Style.of .red).paint colors line)
    headline :: rest
  | .output t line isError =>
    [tagged t.tag ("  " ++ if isError then (Style.of .yellow).paint colors line else line)]
  | .say message loud =>
    [if loud then (Style.strong .yellow).paint colors (Text.upper message) else message]

/-- A character in a mark for a build server. -/
def escapeMarkChar (c : Char) : List Char :=
  match c with
  | '%' => ['%', '2', '5']
  | '\r' => ['%', '0', 'D']
  | '\n' => ['%', '0', 'A']
  | c => [c]

/-- Text in a mark for a build server. -/
def escapeMark (s : String) : String :=
  String.ofList (s.toList.flatMap escapeMarkChar)

/-- The lines that a build server's log gets for an event. -/
def serverLines : Event → List String
  | .start t => ["::group::" ++ tagged t.tag (kindWord t.kind ++ " " ++ t.name)]
  | .finish t => ["::endgroup::", tagged t.tag ("✓ " ++ t.name ++ detailsText t)]
  | .error t message =>
    ["::endgroup::",
      "::error title=" ++ escapeMark t.name ++ "::" ++ escapeMark message,
      tagged t.tag ("✗ " ++ t.name ++ detailsText t)]
  | .output t line _ => [tagged t.tag line]
  | .say message _ => [message]

/-- The ways to report. -/
inductive Reporter where
  | console
  | server
  | none
deriving DecidableEq, Repr

/-- What a reporter prints for an event. -/
def Reporter.printed (r : Reporter) (colors : Bool) (e : Event) : String :=
  let lines := match r with
    | console => consoleLines colors e
    | server => serverLines e
    | none => []
  String.join (lines.map (· ++ "\n"))

end TaskRunner.Report
