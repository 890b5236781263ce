import TaskRunner.Text.Lines
import TaskRunner.Text.Utf8

/-!
# Lines of a stream

Bytes that arrive in chunks are given out line by line. How the bytes are cut into chunks does not
matter.
-/

namespace TaskRunner.Text

/-- The text of a line's bytes without one carriage return at its end. -/
def decodeLine (bytes : List UInt8) : String :=
  String.ofList (dropReturn (lossy bytes).toList)

/-- Cuts bytes at line feeds: the lines, and what follows the last line feed. -/
def cutLines : List UInt8 → List (List UInt8) × List UInt8
  | [] => ([], [])
  | b :: rest =>
    let (lines, last) := cutLines rest
    if b == 10 then ([] :: lines, last)
    else
      match lines with
      | [] => ([], b :: last)
      | line :: more => ((b :: line) :: more, last)

/-- The bytes of a line that is not complete. -/
structure LineBuffer where
  pending : List UInt8
deriving DecidableEq, Repr

namespace LineBuffer

/-- Before the first byte. -/
def empty : LineBuffer := ⟨[]⟩

/-- Takes a chunk, and gives the lines that it completes. -/
def push (b : LineBuffer) (chunk : List UInt8) : LineBuffer × List String :=
  let (lines, last) := cutLines (b.pending ++ chunk)
  (⟨last⟩, lines.map decodeLine)

/-- The line that the end of the stream completes. -/
def finish (b : LineBuffer) : Option String :=
  if b.pending.isEmpty then none else some (decodeLine b.pending)

end LineBuffer

/-- The lines of a stream that arrives in chunks, from what is pending on. -/
def linesOfChunks (b : LineBuffer) : List (List UInt8) → List String
  | [] => b.finish.toList
  | chunk :: rest =>
    let (b, lines) := b.push chunk
    lines ++ linesOfChunks b rest

/-- The bytes in front of the next line feed, or of the end of the stream, and what is left behind it. At the end
of the stream there is nothing to take. -/
def nextSegment : List UInt8 → Option (List UInt8 × List UInt8)
  | [] => none
  | b :: rest => some ((b :: rest).takeWhile (· != 10), ((b :: rest).dropWhile (· != 10)).tail)

theorem nextSegment_shorter {bytes segment rest : List UInt8}
    (h : nextSegment bytes = some (segment, rest)) : rest.length < bytes.length := by
  cases bytes with
  | nil => cases h
  | cons b bytes =>
    cases h
    have hdropped := ((b :: bytes).dropWhile_sublist (· != 10)).length_le
    rw [List.length_tail]
    simp only [List.length_cons] at hdropped ⊢
    omega

end TaskRunner.Text
