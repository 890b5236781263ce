import Mathlib.Data.List.TakeWhile
import TaskRunner.Proofs.StreamedLines
import TaskRunner.Proofs.TaskHistory

/-!
# Merged output

While a command runs, the lines of its two outputs are taken turn by turn, from whichever output has one ready.
A turn takes the next line of one output, or sees its end, and leaves the other output alone. So at the end, in
whatever order the lines became ready, the lines that were taken are those of both outputs, each output's in its
own order, and as many reports were made, in the same order.
-/

namespace TaskRunner.Proofs
open Text

/-- The lines that an output still gives. -/
def linesLeft : Option (List UInt8) → List String
  | some bytes => bodyLines (lossy bytes)
  | none => []

/-- The session behind the reports of some lines, each with whether it is an error line. -/
def reportLines (id : TaskId) (s : Session) (lines : List (Bool × String)) : Session :=
  lines.foldl (fun s line => s.output id line.2 line.1) s

/-- Between two states of the loop these lines are forwarded, each with whether it comes from the second output. -/
structure Forwards (id : TaskId) (f : Forwarding) (lines : List (Bool × String)) (g : Forwarding) : Prop where
  taken : ∀ isError, linesLeft (f.stream isError) = streamOf isError lines ++ linesLeft (g.stream isError)
  reported : g.session = reportLines id f.session lines
  captured : g.captured = f.captured ++ lines.map Prod.snd

variable {id : TaskId} {f g last : Forwarding} {lines later : List (Bool × String)} {s : Session}
  {bytes segment rest : List UInt8} {own ready : Bool}

/-! ## Segments -/

lemma bodyLines_empty : bodyLines (lossy []) = [] := by
  rw [bodyLines_lossy]
  rfl

lemma dropWhile_lineFeed {line : List UInt8} (h : 10 ∉ line) (rest : List UInt8) :
    (line ++ 10 :: rest).takeWhile (· != 10) = line ∧ (line ++ 10 :: rest).dropWhile (· != 10) = 10 :: rest := by
  have hline : ∀ b ∈ line, (b != 10) = true := fun b hb => bne_iff_ne.mpr fun heq => h (heq ▸ hb)
  constructor
  · rw [List.takeWhile_append_of_pos hline]
    simp
  · rw [List.dropWhile_append_of_pos hline]
    simp

/-- A segment is the next line. -/
lemma bodyLines_segment (h : nextSegment bytes = some (segment, rest)) :
    bodyLines (lossy bytes) = decodeLine segment :: bodyLines (lossy rest) := by
  have hbytes : bytes ≠ [] := by
    rintro rfl
    cases h
  have hnext : nextSegment bytes = some (bytes.takeWhile (· != 10), (bytes.dropWhile (· != 10)).tail) := by
    cases bytes with
    | nil => exact absurd rfl hbytes
    | cons b bytes => rfl
  obtain ⟨rfl, rfl⟩ := Prod.mk.inj (Option.some.inj (hnext.symm.trans h))
  induction bytes using lines_induction with
  | last line noFeed =>
    have hline : ∀ b ∈ line, (b != 10) = true := fun b hb => bne_iff_ne.mpr fun heq => noFeed (heq ▸ hb)
    rw [List.takeWhile_eq_self_iff.mpr hline, List.dropWhile_eq_nil_iff.mpr hline, List.tail_nil, bodyLines_empty,
      bodyLines_lossy, cutLines_last noFeed, finish_toList, if_neg hbytes]
    rfl
  | lineFeed line rest noFeed =>
    obtain ⟨htaken, hdropped⟩ := dropWhile_lineFeed noFeed rest
    rw [htaken, hdropped, List.tail_cons, bodyLines_lossy, bodyLines_lossy, cutLines_lineFeed noFeed]
    rfl

/-! ## One turn -/

lemma Forwards.refl : Forwards id f [] f :=
  ⟨fun _ => rfl, rfl, (List.append_nil _).symm⟩

lemma Forwards.trans (h : Forwards id f lines g) (hlater : Forwards id g later last) :
    Forwards id f (lines ++ later) last where
  taken isError := by rw [h.taken, hlater.taken, streamOf_append, List.append_assoc]
  reported := by rw [hlater.reported, h.reported, reportLines, reportLines, reportLines, List.foldl_append]
  captured := by rw [hlater.captured, h.captured, List.map_append, List.append_assoc]

/-- In front of the end of an output its next line is forwarded. -/
lemma take_segment (hopen : f.stream own = some bytes) (hnext : nextSegment bytes = some (segment, rest)) :
    Forwards id f [(own, decodeLine segment)] (f.take id own bytes) where
  taken isError := by
    rw [Forwarding.stream_take, hnext]
    by_cases hown : isError = own
    · subst hown
      simp [hopen, linesLeft, bodyLines_segment hnext, streamOf]
    · simp [hown, Ne.symm hown, streamOf]
  reported := by
    rw [Forwarding.take, hnext]
    cases own <;> rfl
  captured := by
    rw [Forwarding.take, hnext]
    cases own <;> rfl

/-- At the end of an output nothing is forwarded. -/
lemma take_end (hopen : f.stream own = some bytes) (hnext : nextSegment bytes = none) :
    Forwards id f [] (f.take id own bytes) where
  taken isError := by
    have hbytes : bytes = [] := by
      cases bytes with
      | nil => rfl
      | cons b bytes => cases hnext
    rw [Forwarding.stream_take, hnext]
    by_cases hown : isError = own
    · subst hown
      simp [hopen, hbytes, linesLeft, bodyLines_empty, streamOf]
    · simp [hown, streamOf]
  reported := by
    rw [Forwarding.take, hnext]
    cases own <;> rfl
  captured := by
    rw [Forwarding.take, hnext]
    cases own <;> simp [Forwarding.setStream]

/-- An output that still gives a line is open, and the line is its next segment. -/
lemma exists_segment {text : String} {texts : List String} {stream : Option (List UInt8)}
    (h : linesLeft stream = text :: texts) :
    ∃ bytes segment rest, stream = some bytes ∧ nextSegment bytes = some (segment, rest) := by
  cases stream with
  | none => cases h
  | some bytes =>
    cases bytes with
    | nil => cases bodyLines_empty.symm.trans h
    | cons b bytes => exact ⟨_, _, _, rfl, rfl⟩

/-- A turn takes what comes next on one of the outputs that are open. -/
lemma turn?_cases (h : f.turn? id ready = some g) :
    ∃ own bytes, f.stream own = some bytes ∧ g = f.take id own bytes := by
  unfold Forwarding.turn? at h
  split at h
  · exact ⟨_, _, ‹_›, (Option.some.inj h).symm⟩
  · exact ⟨_, _, ‹_›, (Option.some.inj h).symm⟩
  · cases h

/-- The loop ends only when both outputs have ended. -/
lemma turn?_none (h : f.turn? id ready = none) (isError : Bool) : f.stream isError = none := by
  unfold Forwarding.turn? at h
  split at h
  · cases h
  · cases h
  · cases ready <;> cases isError <;> assumption

lemma turn?_ready (h : f.stream own = some bytes) : f.turn? id own = some (f.take id own bytes) := by
  unfold Forwarding.turn?
  rw [h]

/-- A turn forwards at most one line. -/
lemma turn_forwards (h : f.turn? id ready = some g) : ∃ lines, Forwards id f lines g := by
  obtain ⟨own, bytes, hopen, rfl⟩ := turn?_cases h
  cases hnext : nextSegment bytes with
  | none => exact ⟨_, take_end hopen hnext⟩
  | some next => exact ⟨_, take_segment hopen hnext⟩

/-! ## All turns -/

lemma run_turn {order : List Bool} (h : f.turn? id (order.headD false) = some g) :
    f.run id order = g.run id order.tail := by
  rw [Forwarding.run]
  split
  · rename_i next hnext
    rw [Option.some.inj (hnext.symm.trans h)]
  · rename_i hnext
    cases hnext.symm.trans h

lemma run_end {order : List Bool} (h : f.turn? id (order.headD false) = none) :
    f.run id order = (f.session, f.captured) := by
  rw [Forwarding.run]
  split
  · rename_i next hnext
    cases hnext.symm.trans h
  · rfl

/-- All turns together forward the lines of both outputs, up to their ends. -/
lemma run_forwards (id : TaskId) (order : List Bool) (f : Forwarding) :
    ∃ lines, (∀ isError, streamOf isError lines = linesLeft (f.stream isError)) ∧
      f.run id order = (reportLines id f.session lines, f.captured ++ lines.map Prod.snd) := by
  suffices hall : ∃ lines g, Forwards id f lines g ∧ (∀ isError, g.stream isError = none) ∧
      f.run id order = (g.session, g.captured) by
    obtain ⟨lines, g, hforwards, hended, hrun⟩ := hall
    refine ⟨lines, fun isError => ?_, by rw [hrun, hforwards.reported, hforwards.captured]⟩
    rw [hforwards.taken, hended, linesLeft, List.append_nil]
  induction hleft : f.left using Nat.strongRecOn generalizing f order with
  | ind left ih =>
    cases hturn : f.turn? id (order.headD false) with
    | none => exact ⟨[], f, .refl, turn?_none hturn, run_end hturn⟩
    | some next =>
      obtain ⟨found, hfound⟩ := turn_forwards hturn
      obtain ⟨lines, g, hlines, hended, hrun⟩ :=
        ih next.left (hleft ▸ Forwarding.turn?_left hturn) order.tail next rfl
      exact ⟨found ++ lines, g, hfound.trans hlines, hended, (run_turn hturn).trans hrun⟩

/-- Any way to merge the lines of both outputs is the one of some order. -/
lemma run_merged (h : ∀ isError, streamOf isError lines = linesLeft (f.stream isError)) :
    f.run id (lines.map Prod.fst) = (reportLines id f.session lines, f.captured ++ lines.map Prod.snd) := by
  induction lines generalizing f with
  | nil =>
    obtain ⟨found, hfound, hrun⟩ := run_forwards id [] f
    have hnothing : ∀ isError, streamOf isError found = [] := fun isError => (hfound isError).trans (h isError).symm
    have hnone : found = [] := by
      refine List.eq_nil_iff_forall_not_mem.mpr fun line hline => ?_
      have hmem : line.2 ∈ streamOf line.1 found :=
        List.mem_map_of_mem (List.mem_filter.mpr ⟨hline, beq_self_eq_true _⟩)
      rw [hnothing] at hmem
      cases hmem
    subst hnone
    exact hrun
  | cons line later ih =>
    obtain ⟨own, text⟩ := line
    have hsplit : ∀ isError, streamOf isError ((own, text) :: later) =
        streamOf isError [(own, text)] ++ streamOf isError later := fun isError => streamOf_append isError [_] later
    have hown : linesLeft (f.stream own) = text :: streamOf own later := by
      rw [← h own, hsplit]
      simp [streamOf]
    obtain ⟨bytes, segment, rest, hopen, hnext⟩ := exists_segment hown
    have hforwards : Forwards id f [(own, decodeLine segment)] (f.take id own bytes) := take_segment hopen hnext
    obtain rfl : decodeLine segment = text := by
      rw [hopen, linesLeft, bodyLines_segment hnext] at hown
      exact (List.cons.inj hown).1
    have hlater := ih fun isError => List.append_cancel_left
      ((hsplit isError).symm.trans ((h isError).trans (hforwards.taken isError)))
    have hturn : f.run id (((own, decodeLine segment) :: later).map Prod.fst) =
        (f.take id own bytes).run id (later.map Prod.fst) := run_turn (turn?_ready hopen)
    rw [hturn, hlater, hforwards.reported, hforwards.captured, List.append_assoc]
    rfl

/-! ## Reports -/

/-- A task that may report makes one report for each line, in the same order. -/
lemma reportLines_reports {t : Task} (ht : s.task? id = some t) (lines : List (Bool × String)) :
    (reportLines id s lines).reports = s.reports ++
      if t.silent then [] else lines.map fun line => .output (s.snapshot t .running) line.2 line.1 := by
  induction lines generalizing s with
  | nil => simp [reportLines]
  | cons line later ih =>
    have hrest : reportLines id s (line :: later) = reportLines id (s.output id line.2 line.1) later := rfl
    cases hsilent : t.silent with
    | true =>
      have hsame : s.output id line.2 line.1 = s := by simp [Session.output, ht, hsilent]
      simpa [hrest, hsame, hsilent] using ih ht
    | false =>
      have hreported : s.output id line.2 line.1 = s.report (.output (s.snapshot t .running) line.2 line.1) := by
        simp [Session.output, ht, hsilent]
      have hsnapshot : ∀ e, (s.report e).snapshot t .running = s.snapshot t .running := fun _ => rfl
      have hlater := ih (s := s.output id line.2 line.1) (by rw [hreported]; exact ht)
      rw [hrest, hlater, hreported, hsnapshot, hsilent, if_neg Bool.false_ne_true, if_neg Bool.false_ne_true]
      simp

/-! ## Commands -/

/-- The code that is recorded for a command. -/
def recordedCode : Shell.Exit → Int
  | .code n => n
  | .signal => signalExitCode

/-- The outcome of a command that printed some lines. -/
def commandOutcome (exit : Shell.Exit) (captured : List String) : Except String Json :=
  if exit = .code 0 then .ok (.text ("\n".intercalate captured))
  else .error (ExecRequest.failureMessage captured exit)

/-- The lines of a command are those that the loop forwards in some order. -/
lemma settle_eq_run (id : TaskId) (s : Session) (o : Shell.Outcome) :
    ∃ order, let forwarded := (Forwarding.start s (streamOf false o.written).flatten
        (streamOf true o.written).flatten).run id order
      ExecRequest.settle id s o =
        (forwarded.1.setExitCode id (recordedCode o.exit), commandOutcome o.exit forwarded.2) := by
  let lines := OutputBuffers.empty.lines o.written
  have hmerged : ∀ isError, streamOf isError lines = linesLeft ((Forwarding.start s
      (streamOf false o.written).flatten (streamOf true o.written).flatten).stream isError) := by
    intro isError
    rw [streamOf_lines]
    cases isError <;> exact linesOfChunks_eq _
  refine ⟨lines.map Prod.fst, ?_⟩
  rw [run_merged hmerged]
  unfold ExecRequest.settle
  cases hexit : o.exit with
  | signal => rfl
  | code n =>
    cases n <;> simp [commandOutcome, recordedCode, reportLines, Forwarding.start, lines]

/-- In whatever order the lines of two outputs become ready, the loop ends with the lines of both merged: those of
each output whole and in their own order, and no others. A task that is not silent makes one report for each of
them, in the same order, about an error line if and only if it comes from the second output. A silent task makes
none. The reports and the outcome of a command are those of the loop. -/
theorem outputs_are_merged (id : TaskId) (s : Session) (out err : List UInt8) (order : List Bool) :
    (∃ merged : List (Bool × String),
      streamOf false merged = bodyLines (lossy out) ∧ streamOf true merged = bodyLines (lossy err) ∧
      let forwarded := (Forwarding.start s out err).run id order
      forwarded.2 = merged.map Prod.snd ∧ forwarded.1 = reportLines id s merged ∧
      ∀ t, s.task? id = some t →
        forwarded.1.reports = s.reports ++
          if t.silent then [] else merged.map fun line => .output (s.snapshot t .running) line.2 line.1) ∧
    ∀ o : Shell.Outcome, ∃ order,
      let forwarded := (Forwarding.start s (streamOf false o.written).flatten
        (streamOf true o.written).flatten).run id order
      ExecRequest.settle id s o =
        (forwarded.1.setExitCode id (recordedCode o.exit), commandOutcome o.exit forwarded.2) := by
  refine ⟨?_, settle_eq_run id s⟩
  obtain ⟨merged, hstreams, hrun⟩ := run_forwards id order (Forwarding.start s out err)
  refine ⟨merged, hstreams false, hstreams true, ?_⟩
  rw [hrun]
  exact ⟨rfl, rfl, fun t ht => reportLines_reports ht merged⟩

/-- The second output becomes ready behind the first line and has no line end, and the first one goes on. -/
theorem outputs_are_merged_making :
    let s := ((sessionWith .off).startTask "make" (.ofKind .exec)).1
    ∃ t, s.task? ⟨1⟩ = some t ∧ t.silent = false ∧
      ∃ merged, streamOf false merged = ["one", "two"] ∧ streamOf true merged = ["oops"] ∧
        let forwarded := (Forwarding.start s (utf8 "one\r\ntwo\n") (utf8 "oops")).run ⟨1⟩ [false, true]
        forwarded.2 = merged.map Prod.snd ∧
        forwarded.1.reports = s.reports ++ merged.map fun line => .output (s.snapshot t .running) line.2 line.1 := by
  intro s
  have hout : bodyLines (lossy (utf8 "one\r\ntwo\n")) = ["one", "two"] := by decide +kernel
  have herr : bodyLines (lossy (utf8 "oops")) = ["oops"] := by decide +kernel
  obtain ⟨merged, hfirst, hsecond, hcaptured, -, hreports⟩ :=
    (outputs_are_merged ⟨1⟩ s (utf8 "one\r\ntwo\n") (utf8 "oops") [false, true]).1
  exact ⟨_, rfl, rfl, merged, hfirst.trans hout, hsecond.trans herr, hcaptured, hreports _ rfl⟩

/-- A line of a silent task is kept, but not reported. -/
theorem silent_line_goes_unreported :
    let s := ((sessionWith { Switches.off with silent := true }).startTask "echo one" (.ofKind .exec)).1
    let forwarded := (Forwarding.start s (utf8 "one\n") []).run ⟨1⟩ []
    forwarded.2 = ["one"] ∧ forwarded.1.reports = [] := by
  decide +kernel

end TaskRunner.Proofs
