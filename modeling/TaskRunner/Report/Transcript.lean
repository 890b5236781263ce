import TaskRunner.Report.Reporter
import TaskRunner.Task.Session

/-!
# Transcripts

What a run has printed: its own texts on either channel, with what a reporter prints for its events among
those on the first one.
-/

namespace TaskRunner.Report

/-- What is printed on a channel for one thing seen. -/
def printedFor (r : Reporter) (colors : Bool) (channel : Channel) : Trace → String
  | .print c text => if c == channel then text else ""
  | .event e => if channel == .out then r.printed colors e else ""
  | .unheard _ => ""
  | .exit _ => ""

/-- What is printed on a channel. -/
def transcript (r : Reporter) (colors : Bool) (channel : Channel) (journal : List Trace) : String :=
  String.join (journal.map (printedFor r colors channel))

end TaskRunner.Report
