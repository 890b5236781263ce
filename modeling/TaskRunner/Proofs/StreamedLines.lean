import Mathlib.Algebra.Group.Nat.Defs
import TaskRunner.Text.LineBuffer
import TaskRunner.Work.Exec
import TaskRunner.Work.Fetch
import TaskRunner.Proofs.Identifiers

/-!
# Streamed lines

A line feed is never a part of another character, and no other bytes stand for one. So whatever the bytes are,
reading them and cutting the text at its line feeds gives the same as cutting the bytes and reading the parts:
what is left of a character in front of a line feed is read as it is read at the end of the bytes.

The lines that are reported while the chunks of a stream arrive are the lines of the text that all its bytes
are read as. No chunk matters by itself: it may end inside a character, between the two characters of a line
end, or be empty. The same holds of a stream whose chunks arrive between those of another one, as those of the
two outputs of a command do.
-/

namespace TaskRunner.Proofs
open Text

section Cuts

/-! ## One character -/

lemma isContinuation_lineFeed : isContinuation 10 = false := by
  decide

lemma continueChar_lineFeed (n code : Nat) (front behind : List UInt8) :
    continueChar n code (front ++ 10 :: behind) = continueChar n code front := by
  induction front generalizing n code with
  | nil =>
    cases n with
    | zero => rfl
    | succ n => simp [continueChar, isContinuation_lineFeed]
  | cons b rest ih =>
    cases n with
    | zero => rfl
    | succ n => simp only [List.cons_append, continueChar, ih]

lemma continueChar_taken (n code : Nat) (bytes : List UInt8) :
    (continueChar n code bytes).2 ≤ bytes.length := by
  induction bytes generalizing n code with
  | nil => cases n <;> simp [continueChar]
  | cons b rest ih =>
    cases n with
    | zero => simp [continueChar]
    | succ n =>
      rw [continueChar]
      split
      · exact Nat.succ_le_succ (ih n _)
      · exact Nat.zero_le _

/-- Every byte that carries a character on adds six bits to it. -/
lemma continueChar_code {n code result : Nat} {bytes : List UInt8}
    (h : (continueChar n code bytes).1 = some result) : code * 64 ^ n ≤ result := by
  induction bytes generalizing n code with
  | nil =>
    cases n with
    | zero => cases h; simp
    | succ n => cases h
  | cons b rest ih =>
    cases n with
    | zero => cases h; simp
    | succ n =>
      rw [continueChar] at h
      split at h
      · calc
          code * 64 ^ (n + 1) = code * 64 * 64 ^ n := by
            rw [Nat.pow_succ, Nat.mul_comm (64 ^ n), Nat.mul_assoc]
          _ ≤ (code * 64 + b.toNat % 64) * 64 ^ n := Nat.mul_le_mul_right _ (Nat.le_add_right _ _)
          _ ≤ result := ih h
      · cases h

/-- The second byte of a character is no line feed, and the first two make more than the characters of one
byte. -/
lemma sequenceShape_bounds {lead low high second : UInt8} {following : Nat}
    (h : sequenceShape lead = some (following, low, high)) (hlow : low ≤ second) (hhigh : second ≤ high) :
    10 < second.toNat ∧ ∃ n, following = n + 1 ∧
      128 ≤ (leadBits lead following * 64 + second.toNat % 64) * 64 ^ n := by
  -- The bounds of each shape leave out the longer forms of characters that fit into fewer bytes.
  simp only [sequenceShape, Bool.and_eq_true, decide_eq_true_eq, UInt8.le_iff_toNat_le, beq_iff_eq,
    ← UInt8.toNat_inj] at h hlow hhigh
  repeat' split at h
  all_goals cases h
  all_goals
    simp only [UInt8.reduceToNat] at *
    refine ⟨by omega, _, rfl, ?_⟩
    simp [leadBits]
    omega

/-- What several bytes are read as is beyond what one byte is read as. -/
lemma code_of_sequence {lead low high second : UInt8} {following code : Nat} {rest : List UInt8}
    (shape : sequenceShape lead = some (following, low, high)) (hlow : low ≤ second) (hhigh : second ≤ high)
    (h : (continueChar following (leadBits lead following) (second :: rest)).1 = some code) :
    128 ≤ code := by
  obtain ⟨-, n, rfl, large⟩ := sequenceShape_bounds shape hlow hhigh
  rw [continueChar] at h
  split at h
  · exact Nat.le_trans large (continueChar_code h)
  · cases h

/-- A character in front of a line feed is read as at the end of the bytes. -/
lemma decodeChar_lineFeed (lead : UInt8) (front behind : List UInt8) :
    decodeChar lead (front ++ 10 :: behind) = decodeChar lead front := by
  unfold decodeChar
  split
  · rfl
  · split
    · rfl
    · rename_i following low high shape
      cases front with
      | nil =>
        have refused : ¬(low ≤ 10 ∧ 10 ≤ high) := fun bounds =>
          absurd (sequenceShape_bounds shape bounds.1 bounds.2).1 (by decide)
        simp [refused]
      | cons second front =>
        simp only [List.cons_append]
        rw [← List.cons_append, continueChar_lineFeed]

lemma decodeChar_taken (lead : UInt8) (rest : List UInt8) : (decodeChar lead rest).2 ≤ rest.length := by
  unfold decodeChar
  split
  · exact Nat.zero_le _
  · split
    · exact Nat.zero_le _
    · cases rest with
      | nil => exact Nat.zero_le _
      | cons second rest =>
        dsimp only
        split
        · exact continueChar_taken _ _ _
        · exact Nat.zero_le _

lemma lead_of_decodeChar_lineFeed {lead : UInt8} {rest : List UInt8}
    (h : (decodeChar lead rest).1 = some '\n') : lead = 10 := by
  unfold decodeChar at h
  split at h
  · exact UInt8.toNat_inj.mp (eq_toNat_of_ofNat (Option.some.inj h) (by decide))
  · split at h
    · cases h
    · rename_i following low high shape
      cases rest with
      | nil => cases h
      | cons second rest =>
        dsimp only at h
        split at h
        · rename_i bounds
          simp only [Bool.and_eq_true, decide_eq_true_eq] at bounds
          obtain ⟨code, read, isFeed⟩ := Option.map_eq_some_iff.mp h
          have large := code_of_sequence shape bounds.1 bounds.2 read
          rw [eq_toNat_of_ofNat isFeed (by decide)] at large
          exact absurd large (by decide)
        · cases h

/-! ## All characters -/

/-- Reading on for longer than there are bytes changes nothing. -/
lemma decodeFrom_eq_decode {fuel : Nat} {bytes : List UInt8} (enough : bytes.length ≤ fuel) :
    decodeFrom fuel bytes = decode bytes := by
  suffices agree : ∀ n m (bytes : List UInt8), bytes.length ≤ n → bytes.length ≤ m →
      decodeFrom n bytes = decodeFrom m bytes from agree _ _ _ enough (Nat.le_refl _)
  intro n
  induction n with
  | zero =>
    intro m bytes none _
    cases List.length_eq_zero_iff.mp (Nat.le_zero.mp none)
    cases m <;> rfl
  | succ n ih =>
    intro m bytes hn hm
    cases bytes with
    | nil => cases m <;> rfl
    | cons lead rest =>
      cases m with
      | zero => cases hm
      | succ m =>
        have fewer : (rest.drop (decodeChar lead rest).2).length ≤ rest.length := by simp
        exact congrArg _ (ih m _ (Nat.le_trans fewer (Nat.le_of_succ_le_succ hn))
          (Nat.le_trans fewer (Nat.le_of_succ_le_succ hm)))

lemma decode_cons (lead : UInt8) (rest : List UInt8) :
    decode (lead :: rest) = (decodeChar lead rest).1 :: decode (rest.drop (decodeChar lead rest).2) := by
  have fewer : (rest.drop (decodeChar lead rest).2).length ≤ rest.length := by simp
  exact congrArg _ (decodeFrom_eq_decode fewer)

/-- What holds of no bytes, and of some bytes if it holds behind their first character, holds of all. -/
@[elab_as_elim]
lemma decode_induction {motive : List UInt8 → Prop} (bytes : List UInt8) (nil : motive [])
    (cons : ∀ lead rest, motive (rest.drop (decodeChar lead rest).2) → motive (lead :: rest)) :
    motive bytes := by
  induction len : bytes.length using Nat.strongRecOn generalizing bytes with
  | ind n ih =>
    cases bytes with
    | nil => exact nil
    | cons lead rest => exact cons lead rest (ih _ (by simp at *; omega) _ rfl)

/-- A line feed cuts the reading in two. -/
lemma decode_lineFeed (front behind : List UInt8) :
    decode (front ++ 10 :: behind) = decode front ++ some '\n' :: decode behind := by
  induction front using decode_induction with
  | nil => exact decode_cons 10 behind
  | cons lead rest ih =>
    rw [List.cons_append, decode_cons, decodeChar_lineFeed,
      List.drop_append_of_le_length (decodeChar_taken lead rest), ih, decode_cons, List.cons_append]

lemma lineFeed_notMem_decode {bytes : List UInt8} (h : 10 ∉ bytes) : some '\n' ∉ decode bytes := by
  induction bytes using decode_induction with
  | nil => exact List.not_mem_nil
  | cons lead rest ih =>
    rw [decode_cons, List.mem_cons, not_or]
    have behind : 10 ∉ rest.drop (decodeChar lead rest).2 := fun feed =>
      h (List.mem_cons_of_mem _ (List.mem_of_mem_drop feed))
    refine ⟨fun feed => h ?_, ih behind⟩
    exact List.mem_cons.mpr (.inl (lead_of_decodeChar_lineFeed feed.symm).symm)

/-! ## Text of bytes -/

lemma lossy_toList (bytes : List UInt8) :
    (lossy bytes).toList = (decode bytes).map fun c => c.getD '\ufffd' := by
  simp [lossy]

lemma lossy_lineFeed (front behind : List UInt8) :
    (lossy (front ++ 10 :: behind)).toList = (lossy front).toList ++ '\n' :: (lossy behind).toList := by
  simp [lossy_toList, decode_lineFeed]

lemma lineFeed_notMem_lossy {bytes : List UInt8} (h : 10 ∉ bytes) : '\n' ∉ (lossy bytes).toList := by
  rw [lossy_toList]
  intro feed
  obtain ⟨c, read, isFeed⟩ := List.mem_map.mp feed
  cases c with
  | none => exact absurd isFeed (by decide)
  | some c => exact lineFeed_notMem_decode h (isFeed ▸ read)

lemma lossy_eq_nil {bytes : List UInt8} : (lossy bytes).toList = [] ↔ bytes = [] := by
  rw [lossy_toList, List.map_eq_nil_iff]
  cases bytes with
  | nil => simp [decode, decodeFrom]
  | cons lead rest => simp [decode_cons]

/-! ## Cutting at line feeds -/

/-- Bytes are a last line, or a line and a line feed in front of other bytes. -/
@[elab_as_elim]
lemma lines_induction {motive : List UInt8 → Prop} (bytes : List UInt8)
    (last : ∀ line, 10 ∉ line → motive line)
    (lineFeed : ∀ line rest, 10 ∉ line → motive rest → motive (line ++ 10 :: rest)) : motive bytes := by
  induction len : bytes.length using Nat.strongRecOn generalizing bytes with
  | ind n ih =>
    by_cases feed : 10 ∈ bytes
    · obtain ⟨line, rest, rfl, noFeed⟩ := List.eq_append_cons_of_mem feed
      exact lineFeed line rest noFeed (ih _ (by simp at len; omega) _ rfl)
    · exact last bytes feed

lemma cutLines_last {line : List UInt8} (h : 10 ∉ line) : cutLines line = ([], line) := by
  induction line with
  | nil => rfl
  | cons b rest ih =>
    rw [List.mem_cons, not_or] at h
    simp [cutLines, ih h.2, Ne.symm h.1]

lemma cutLines_lineFeed {line : List UInt8} (h : 10 ∉ line) (rest : List UInt8) :
    cutLines (line ++ 10 :: rest) = (line :: (cutLines rest).1, (cutLines rest).2) := by
  induction line with
  | nil => rfl
  | cons b front ih =>
    rw [List.mem_cons, not_or] at h
    simp [cutLines, ih h.2, Ne.symm h.1]

lemma lineFeed_notMem_cutLines (bytes : List UInt8) : 10 ∉ (cutLines bytes).2 := by
  induction bytes using lines_induction with
  | last line noFeed => rwa [cutLines_last noFeed]
  | lineFeed line rest noFeed ih => rwa [cutLines_lineFeed noFeed]

/-- Cutting goes on behind the last line feed. -/
lemma cutLines_append (front behind : List UInt8) :
    cutLines (front ++ behind) =
      ((cutLines front).1 ++ (cutLines ((cutLines front).2 ++ behind)).1,
        (cutLines ((cutLines front).2 ++ behind)).2) := by
  induction front using lines_induction with
  | last line noFeed => rw [cutLines_last noFeed, List.nil_append]
  | lineFeed line rest noFeed ih =>
    rw [List.append_assoc, List.cons_append, cutLines_lineFeed noFeed, cutLines_lineFeed noFeed, ih]
    rfl

lemma pieces_last {line : List Char} (h : '\n' ∉ line) : pieces line = [line] := by
  induction line with
  | nil => rfl
  | cons c rest ih =>
    rw [List.mem_cons, not_or] at h
    simp [pieces, ih h.2, Ne.symm h.1]

lemma pieces_lineFeed {line : List Char} (h : '\n' ∉ line) (rest : List Char) :
    pieces (line ++ '\n' :: rest) = line :: pieces rest := by
  induction line with
  | nil => rfl
  | cons c front ih =>
    rw [List.mem_cons, not_or] at h
    simp [pieces, ih h.2, Ne.symm h.1]

/-- Cutting the text gives the texts of the cut bytes. -/
lemma pieces_lossy (bytes : List UInt8) :
    pieces (lossy bytes).toList =
      ((cutLines bytes).1 ++ [(cutLines bytes).2]).map fun line => (lossy line).toList := by
  induction bytes using lines_induction with
  | last line noFeed => simp [cutLines_last noFeed, pieces_last (lineFeed_notMem_lossy noFeed)]
  | lineFeed line rest noFeed ih =>
    rw [lossy_lineFeed, pieces_lineFeed (lineFeed_notMem_lossy noFeed), ih, cutLines_lineFeed noFeed]
    rfl

end Cuts

/-! ## Lines of streams -/

section Streams

/-- The lines of a text: what stands between its line feeds, without an empty last piece, and each one without
one carriage return at its end. -/
def bodyLines (body : String) : List String :=
  let all := pieces body.toList
  (if all.getLast? = some [] then all.dropLast else all).map fun piece => String.ofList (dropReturn piece)

/-- What belongs to one of two streams. -/
def streamOf {α : Type} (isError : Bool) (items : List (Bool × α)) : List α :=
  (items.filter (·.1 == isError)).map Prod.snd

/-! ## One stream -/

lemma finish_toList (pending : List UInt8) :
    (LineBuffer.finish ⟨pending⟩).toList = if pending = [] then [] else [decodeLine pending] := by
  cases pending <;> rfl

/-- Cutting the bytes and reading the parts gives the lines of the text. -/
lemma bodyLines_lossy (bytes : List UInt8) :
    bodyLines (lossy bytes) =
      (cutLines bytes).1.map decodeLine ++ (LineBuffer.finish ⟨(cutLines bytes).2⟩).toList := by
  rw [bodyLines, pieces_lossy, finish_toList]
  -- The last piece is empty only if nothing is pending: no bytes but none make an empty text.
  by_cases ended : (cutLines bytes).2 = []
  · have emptyText : (lossy []).toList = [] := lossy_eq_nil.mpr rfl
    simp [ended, emptyText, decodeLine]
  · have someText : (lossy (cutLines bytes).2).toList ≠ [] := mt lossy_eq_nil.mp ended
    simp [ended, someText, decodeLine]

/-- Chunks complete the lines of all bytes, from what is pending on. -/
lemma linesOfChunks_cut (b : LineBuffer) (chunks : List (List UInt8)) (pending : 10 ∉ b.pending) :
    linesOfChunks b chunks =
      (cutLines (b.pending ++ chunks.flatten)).1.map decodeLine ++
        (LineBuffer.finish ⟨(cutLines (b.pending ++ chunks.flatten)).2⟩).toList := by
  induction chunks generalizing b with
  | nil => simp [linesOfChunks, cutLines_last pending]
  | cons chunk rest ih =>
    have later := ih ⟨(cutLines (b.pending ++ chunk)).2⟩ (lineFeed_notMem_cutLines _)
    have all := cutLines_append (b.pending ++ chunk) rest.flatten
    rw [List.flatten_cons, ← List.append_assoc, all, List.map_append, List.append_assoc, ← later]
    rfl

lemma linesOfChunks_eq (chunks : List (List UInt8)) :
    linesOfChunks .empty chunks = bodyLines (lossy chunks.flatten) := by
  rw [bodyLines_lossy, linesOfChunks_cut .empty chunks List.not_mem_nil]
  rfl

/-! ## Two streams at once -/

/-- The buffer of one output. -/
def bufferOf (b : OutputBuffers) (isError : Bool) : LineBuffer :=
  if isError then b.err else b.out

lemma streamOf_append {α : Type} (isError : Bool) (front behind : List (Bool × α)) :
    streamOf isError (front ++ behind) = streamOf isError front ++ streamOf isError behind := by
  simp [streamOf]

lemma streamOf_mark {α : Type} (isError own : Bool) (items : List α) :
    streamOf isError (items.map (own, ·)) = if own = isError then items else [] := by
  by_cases same : own = isError <;> simp [streamOf, List.filter_map, Function.comp_def, same]

/-- A chunk completes lines of its own output only. -/
lemma streamOf_push (b : OutputBuffers) (isError own : Bool) (chunk : List UInt8) :
    streamOf isError (b.push own chunk).2 =
        (if own = isError then ((bufferOf b isError).push chunk).2 else []) ∧
      bufferOf (b.push own chunk).1 isError =
        if own = isError then ((bufferOf b isError).push chunk).1 else bufferOf b isError := by
  cases own <;> cases isError <;> simp [OutputBuffers.push, bufferOf, streamOf_mark]

lemma streamOf_finish (b : OutputBuffers) (isError : Bool) :
    streamOf isError b.finish = (bufferOf b isError).finish.toList := by
  cases isError <;> simp [OutputBuffers.finish, bufferOf, streamOf_append, streamOf_mark]

/-- The lines of one output are made of its own chunks, whatever arrives between them. -/
lemma streamOf_lines (b : OutputBuffers) (isError : Bool) (written : List (Bool × List UInt8)) :
    streamOf isError (b.lines written) = linesOfChunks (bufferOf b isError) (streamOf isError written) := by
  induction written generalizing b with
  | nil => exact streamOf_finish b isError
  | cons item rest ih =>
    obtain ⟨own, chunk⟩ := item
    obtain ⟨found, after⟩ := streamOf_push b isError own chunk
    have split : streamOf isError (b.lines ((own, chunk) :: rest)) =
        streamOf isError (b.push own chunk).2 ++ streamOf isError ((b.push own chunk).1.lines rest) := by
      rw [← streamOf_append]
      rfl
    rw [split, ih, found, after]
    by_cases same : own = isError
    · simp [same, streamOf, linesOfChunks]
    · simp [same, streamOf]

/-! ## What is reported -/

/-- The lines that chunks complete are the lines of the text of all their bytes. A request reports these lines
of the body that it returns, and a command reports them for each of its outputs. -/
theorem streamed_lines (chunks : List (List UInt8)) :
    linesOfChunks .empty chunks = bodyLines (lossy chunks.flatten) ∧
    (∀ (r : FetchRequest) (id : TaskId) (s : Session) (url : Web.Url) (response : Web.Response),
      let received := r.receive id s url response
      received.2.body = lossy (response.chunksFor r.method).flatten ∧
      received.1 = (bodyLines received.2.body).foldl (fun s line => s.output id line false)
        (s.setStatusCode id response.status)) ∧
    ∀ (written : List (Bool × List UInt8)) (isError : Bool),
      streamOf isError (OutputBuffers.empty.lines written) =
        bodyLines (lossy (streamOf isError written).flatten) := by
  refine ⟨linesOfChunks_eq chunks, fun r id s url response => ⟨rfl, ?_⟩, fun written isError => ?_⟩
  · exact congrArg (List.foldl _ _) (linesOfChunks_eq _)
  · rw [streamOf_lines, ← linesOfChunks_eq]
    cases isError <;> rfl

/-- Chunks that end inside a character and in front of a line feed, and a byte that is no character. -/
example : linesOfChunks .empty [[0xe2, 0x82], [0xac, 13], [], [10, 0xff]] = ["€", "\ufffd"] := by
  decide

end Streams

end TaskRunner.Proofs
