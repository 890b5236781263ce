import Mathlib.Data.List.Induction
import TaskRunner.Proofs.LoweredText
import TaskRunner.Proofs.TiledText

/-!
# Places behind edits

Edits that do not overlap are all made, in whatever order they are listed. What an edit writes has as many
line feeds as what it replaces, so every other character stays on its line; and it stays in its column where
the edits before it on the line are made within the line and write no more characters than they replace.
-/

namespace TaskRunner.Proofs
open Source

/-! ## Stretches of a text -/

/-- Each edit replaces some characters of the text by a text without line feeds, and no two of them
overlap. -/
structure CanBeMade (text : String) (edits : List Edit) : Prop where
  nonempty : ∀ e ∈ edits, e.span.start < e.span.stop
  boundaries : ∀ e ∈ edits, String.Pos.Raw.IsValid text ⟨e.span.start⟩ ∧
    String.Pos.Raw.IsValid text ⟨e.span.stop⟩
  apart : edits.Pairwise fun a b => a.span.stop ≤ b.span.start ∨ b.span.stop ≤ a.span.start
  inLine : ∀ e ∈ edits, '\n' ∉ e.replacement.toList

/-- A character that is kept, or the characters that an edit replaces. -/
inductive Stretch where
  | kept (c : Char)
  | replaced (e : Edit) (original : List Char)

/-- The characters of the text. -/
def Stretch.original : Stretch → List Char
  | kept c => [c]
  | replaced _ original => original

/-- The characters that are written. -/
def Stretch.result : Stretch → List Char
  | kept c => [c]
  | replaced e original => e.replacement.toList ++ filling original e.replacement

/-- The edit of a replaced stretch. -/
def Stretch.edit? : Stretch → Option Edit
  | kept _ => none
  | replaced e _ => some e

def originals (stretches : List Stretch) : List Char :=
  stretches.flatMap Stretch.original

def results (stretches : List Stretch) : List Char :=
  stretches.flatMap Stretch.result

/-- Each edit is made on its span, the stretches starting at a byte offset. -/
def OnSpans : Nat → List Stretch → Prop
  | _, [] => True
  | offset, .kept c :: more => OnSpans (offset + c.utf8Size) more
  | offset, .replaced e original :: more =>
    e.span = ⟨offset, offset + byteCount original⟩ ∧ OnSpans e.span.stop more

/-- The line of what stands behind the characters. -/
def lineBehind (before : List Char) : Nat :=
  1 + before.count '\n'

/-- The column of what stands behind the characters. -/
def columnBehind (before : List Char) : Nat :=
  1 + (before.reverse.takeWhile (· != '\n')).length

/-- An edit that replaces the characters, its last one on the given line, is made within that line and
writes no more characters than it replaces. -/
def StaysNarrow (line : Nat) (before : List Char) (e : Edit) (original : List Char) : Prop :=
  lineBehind (before ++ original.dropLast) = line →
    lineBehind before = line ∧ e.replacement.length ≤ original.length

/-- All edits are made, the other characters of the text are kept in order, on their lines and, behind
narrow edits, in their columns. -/
structure KeepsPlaces (text : List Char) (edits : List Edit) (out : List Char)
    (stretches : List Stretch) : Prop where
  original : text = originals stretches
  result : out = results stretches
  made : (stretches.filterMap Stretch.edit?).Perm edits
  spans : OnSpans 0 stretches
  outside : ∀ front c behind, text = front ++ c :: behind →
    (∀ e ∈ edits, byteCount front < e.span.start ∨ e.span.stop ≤ byteCount front) →
    ∃ before after, stretches = before ++ .kept c :: after ∧ originals before = front
  feeds : out.count '\n' = text.count '\n'
  line : ∀ before c after, stretches = before ++ .kept c :: after →
    lineBehind (results before) = lineBehind (originals before)
  column : ∀ before c after, stretches = before ++ .kept c :: after →
    (∀ front e original behind, before = front ++ .replaced e original :: behind →
      StaysNarrow (lineBehind (originals before)) (originals front) e original) →
    columnBehind (results before) = columnBehind (originals before)

@[simp] lemma originals_nil : originals [] = [] := rfl

@[simp] lemma originals_cons (s : Stretch) (more : List Stretch) :
    originals (s :: more) = s.original ++ originals more := rfl

@[simp] lemma originals_append (stretches more : List Stretch) :
    originals (stretches ++ more) = originals stretches ++ originals more :=
  List.flatMap_append

@[simp] lemma results_nil : results [] = [] := rfl

@[simp] lemma results_cons (s : Stretch) (more : List Stretch) :
    results (s :: more) = s.result ++ results more := rfl

@[simp] lemma results_append (stretches more : List Stretch) :
    results (stretches ++ more) = results stretches ++ results more :=
  List.flatMap_append

lemma originals_kept (chars : List Char) : originals (chars.map .kept) = chars := by
  induction chars with
  | nil => rfl
  | cons c rest ih => simp [Stretch.original, ih]

lemma results_kept (chars : List Char) : results (chars.map .kept) = chars := by
  induction chars with
  | nil => rfl
  | cons c rest ih => simp [Stretch.result, ih]

lemma edits_kept (chars : List Char) : (chars.map Stretch.kept).filterMap Stretch.edit? = [] := by
  simp [List.filterMap_eq_nil_iff, Stretch.edit?]

lemma onSpans_kept {offset : Nat} {more : List Stretch} (chars : List Char)
    (h : OnSpans (offset + byteCount chars) more) : OnSpans offset (chars.map .kept ++ more) := by
  induction chars generalizing offset with
  | nil => exact h
  | cons c rest ih =>
    rw [byteCount_cons, ← Nat.add_assoc] at h
    exact ih h

/-! ## Making edits -/

/-- The edit replaces characters of a text that starts at a byte offset. -/
def Replaces (offset : Nat) (chars : List Char) (e : Edit) : Prop :=
  ∃ front original behind, chars = front ++ (original ++ behind) ∧
    e.span = ⟨offset + byteCount front, offset + byteCount front + byteCount original⟩

lemma Replaces.behind {offset : Nat} {front original behind : List Char} {e : Edit}
    (h : Replaces offset (front ++ (original ++ behind)) e)
    (hstart : offset + byteCount front + byteCount original ≤ e.span.start) :
    Replaces (offset + byteCount front + byteCount original) behind e := by
  obtain ⟨front', original', behind', hsplit, hspan⟩ := h
  rw [hspan] at hstart
  have hle : byteCount (front ++ original) ≤ byteCount front' := by
    rw [byteCount_append]
    dsimp only at hstart
    omega
  rw [← List.append_assoc] at hsplit
  obtain ⟨between, rfl, hbehind⟩ := front_of_byteCount_le hsplit hle
  refine ⟨between, original', behind', hbehind, ?_⟩
  rw [hspan]
  simp [Nat.add_assoc]

/-- Edits in order, each one behind the one before, are all made. -/
lemma applyFrom_stretches {offset : Nat} {chars : List Char} {edits : List Edit}
    (hreplaces : ∀ e ∈ edits, Replaces offset chars e)
    (horder : edits.Pairwise fun a b => a.span.stop ≤ b.span.start) :
    ∃ stretches, chars = originals stretches ∧ applyFrom offset chars edits = results stretches ∧
      stretches.filterMap Stretch.edit? = edits ∧ OnSpans offset stretches := by
  induction edits generalizing offset chars with
  | nil =>
    refine ⟨chars.map .kept, (originals_kept chars).symm, (results_kept chars).symm,
      edits_kept chars, ?_⟩
    have hspans : OnSpans (offset + byteCount chars) [] := trivial
    simpa using onSpans_kept chars hspans
  | cons e rest ih =>
    obtain ⟨hbehind, horder⟩ := List.pairwise_cons.mp horder
    obtain ⟨front, original, behind, rfl, hspan⟩ := hreplaces e List.mem_cons_self
    have hstop : e.span.stop = offset + byteCount front + byteCount original := by rw [hspan]
    have hmore : ∀ d ∈ rest, Replaces e.span.stop behind d := by
      intro d hd
      rw [hstop]
      exact (hreplaces d (List.mem_cons_of_mem _ hd)).behind (hstop ▸ hbehind d hd)
    obtain ⟨stretches, horiginal, hresult, hedits, hspans⟩ := ih hmore horder
    refine ⟨front.map .kept ++ .replaced e original :: stretches, ?_, ?_, ?_, ?_⟩
    · simp [originals_kept, Stretch.original, ← horiginal]
    · rw [applyFrom_edit hspan, hresult]
      simp [results_kept, Stretch.result]
    · rw [List.filterMap_append, edits_kept, List.nil_append, ← hedits]
      rfl
    · refine onSpans_kept front ⟨hspan, hspans⟩

lemma replaces_of_boundaries {text : String} {e : Edit} (hstart : e.span.start < e.span.stop)
    (h : String.Pos.Raw.IsValid text ⟨e.span.start⟩ ∧ String.Pos.Raw.IsValid text ⟨e.span.stop⟩) :
    Replaces 0 text.toList e := by
  -- A valid position stands behind the bytes of some characters.
  have hfront : ∀ {n : Nat}, String.Pos.Raw.IsValid text ⟨n⟩ →
      ∃ front more, text.toList = front ++ more ∧ byteCount front = n := by
    intro n hn
    obtain ⟨s, t, rfl, hbytes⟩ := String.Pos.Raw.isValid_iff_exists_append.mp hn
    refine ⟨s.toList, t.toList, String.toList_append, ?_⟩
    rw [← utf8ByteSize_ofList, String.ofList_toList]
    exact (congrArg String.Pos.Raw.byteIdx hbytes).symm
  obtain ⟨front, more, hsplit, hcount⟩ := hfront h.1
  obtain ⟨front', more', hsplit', hcount'⟩ := hfront h.2
  have hle : byteCount front ≤ byteCount front' := by omega
  obtain ⟨original, rfl, rfl⟩ := front_of_byteCount_le (hsplit.symm.trans hsplit') hle
  rw [byteCount_append] at hcount'
  refine ⟨front, original, more', hsplit, ?_⟩
  rw [Nat.zero_add, hcount', hcount]

/-- Sorted by their starts, edits that do not overlap stand one behind the other. -/
lemma CanBeMade.sorted {text : String} {edits : List Edit} (h : CanBeMade text edits) :
    (edits.mergeSort fun a b => a.span.start ≤ b.span.start).Pairwise
      fun a b => a.span.stop ≤ b.span.start := by
  have hperm := List.mergeSort_perm edits fun a b => a.span.start ≤ b.span.start
  have hsorted : (edits.mergeSort fun a b => a.span.start ≤ b.span.start).Pairwise
      fun a b => decide (a.span.start ≤ b.span.start) = true := by
    refine List.pairwise_mergeSort (fun a b c hab hbc => ?_) (fun a b => ?_) edits
    · simp only [decide_eq_true_eq] at *
      omega
    · simp only [Bool.or_eq_true, decide_eq_true_eq]
      omega
  have hapart := (hperm.pairwise_iff fun hab => hab.symm).mpr h.apart
  refine (hsorted.and hapart).imp_of_mem ?_
  rintro a b ha hb ⟨hstarts, hab⟩
  have hwide := h.nonempty b (hperm.mem_iff.mp hb)
  simp only [decide_eq_true_eq] at hstarts
  omega

/-! ## What is kept -/

lemma kept_of_outside {offset : Nat} {stretches : List Stretch} {front behind : List Char} {c : Char}
    (hspans : OnSpans offset stretches) (hsplit : originals stretches = front ++ c :: behind)
    (houtside : ∀ e ∈ stretches.filterMap Stretch.edit?,
      offset + byteCount front < e.span.start ∨ e.span.stop ≤ offset + byteCount front) :
    ∃ before after, stretches = before ++ .kept c :: after ∧ originals before = front := by
  induction stretches generalizing offset front with
  | nil => cases front <;> cases hsplit
  | cons s more ih =>
    cases s with
    | kept d =>
      cases front with
      | nil =>
        obtain ⟨rfl, -⟩ := List.cons.inj hsplit
        exact ⟨[], more, rfl, rfl⟩
      | cons f front =>
        obtain ⟨rfl, hmore⟩ := List.cons.inj hsplit
        rw [byteCount_cons, ← Nat.add_assoc] at houtside
        obtain ⟨before, after, rfl, rfl⟩ := ih hspans hmore houtside
        exact ⟨.kept d :: before, after, rfl, rfl⟩
    | replaced e original =>
      obtain ⟨hspan, hspans⟩ := hspans
      have he := houtside e (by simp [Stretch.edit?])
      rw [hspan] at he
      dsimp only at he
      -- The character does not stand within the replaced ones.
      have hle : byteCount original ≤ byteCount front := by omega
      have hsplit : original ++ originals more = front ++ c :: behind := hsplit
      obtain ⟨between, rfl, hmore⟩ := front_of_byteCount_le hsplit hle
      have hstop : e.span.stop = offset + byteCount original := by rw [hspan]
      rw [byteCount_append, ← Nat.add_assoc, ← hstop] at houtside
      obtain ⟨before, after, rfl, rfl⟩ := ih hspans hmore fun d hd =>
        houtside d (by simpa [Stretch.edit?] using Or.inr hd)
      exact ⟨.replaced e original :: before, after, rfl, rfl⟩

/-! ## Lines -/

/-- No edit writes a line feed. -/
def WritesInLine (stretches : List Stretch) : Prop :=
  ∀ e ∈ stretches.filterMap Stretch.edit?, '\n' ∉ e.replacement.toList

lemma WritesInLine.front {stretches more : List Stretch} (h : WritesInLine (stretches ++ more)) :
    WritesInLine stretches := by
  intro e he
  rw [WritesInLine, List.filterMap_append] at h
  exact h e (List.mem_append_left _ he)

lemma count_filling (original : List Char) (replacement : String) :
    (filling original replacement).count '\n' = original.count '\n' := by
  unfold filling
  by_cases hfeeds : 0 < original.count '\n'
  · simp [hfeeds]
  · simp [hfeeds, List.count_replicate]
    omega

lemma count_result {s : Stretch} (h : ∀ e ∈ s.edit?, '\n' ∉ e.replacement.toList) :
    s.result.count '\n' = s.original.count '\n' := by
  cases s with
  | kept c => rfl
  | replaced e original =>
    have hnone : e.replacement.toList.count '\n' = 0 := List.count_eq_zero.mpr (h e rfl)
    rw [Stretch.result, Stretch.original, List.count_append, hnone, count_filling, Nat.zero_add]

lemma WritesInLine.count {stretches : List Stretch} (h : WritesInLine stretches) :
    (results stretches).count '\n' = (originals stretches).count '\n' := by
  induction stretches with
  | nil => rfl
  | cons s more ih =>
    have hs : ∀ e ∈ s.edit?, '\n' ∉ e.replacement.toList := fun e he =>
      h e (List.mem_filterMap.mpr ⟨s, List.mem_cons_self, he⟩)
    have hmore : WritesInLine more := by
      intro e he
      obtain ⟨t, ht, hedit⟩ := List.mem_filterMap.mp he
      exact h e (List.mem_filterMap.mpr ⟨t, List.mem_cons_of_mem _ ht, hedit⟩)
    rw [results_cons, originals_cons, List.count_append, List.count_append, count_result hs, ih hmore]

/-! ## Columns -/

lemma columnBehind_feed (before : List Char) : columnBehind (before ++ ['\n']) = 1 := by
  simp [columnBehind]

lemma columnBehind_inLine {more : List Char} (h : '\n' ∉ more) (before : List Char) :
    columnBehind (before ++ more) = columnBehind before + more.length := by
  have hpass : ∀ c ∈ more.reverse, (c != '\n') = true := by
    intro c hc
    rw [bne_iff_ne]
    rintro rfl
    exact h (List.mem_reverse.mp hc)
  rw [columnBehind, columnBehind, List.reverse_append, List.takeWhile_append_of_pos hpass,
    List.length_append, List.length_reverse]
  omega

lemma lineBehind_append (before more : List Char) :
    lineBehind (before ++ more) = lineBehind before + more.count '\n' := by
  rw [lineBehind, lineBehind, List.count_append, Nat.add_assoc]

/-- What is written for characters of one line is as wide as they are, unless the replacement is wider. -/
lemma filling_inLine {original : List Char} {e : Edit} (hline : '\n' ∉ original)
    (hwidth : e.replacement.length ≤ original.length) (hreplacement : '\n' ∉ e.replacement.toList) :
    '\n' ∉ (Stretch.replaced e original).result ∧
      (Stretch.replaced e original).result.length = original.length := by
  have hfeeds : ¬ 0 < original.count '\n' := by simp [List.count_eq_zero.mpr hline]
  have hlength : e.replacement.toList.length = e.replacement.length := String.length_toList
  rw [Stretch.result, filling, if_neg hfeeds]
  refine ⟨?_, ?_⟩
  · intro hmem
    rcases List.mem_append.mp hmem with hmem | hmem
    · exact hreplacement hmem
    · cases List.eq_of_mem_replicate hmem
  · rw [List.length_append, List.length_replicate]
    omega

/-- What is written for characters that end with a line feed ends with one. -/
lemma filling_feed (e : Edit) (original : List Char) :
    ∃ front, (Stretch.replaced e (original ++ ['\n'])).result = front ++ ['\n'] := by
  have hfeeds : 0 < (original ++ ['\n']).count '\n' := by simp
  refine ⟨e.replacement.toList ++ List.replicate ((original ++ ['\n']).count '\n' - 1) '\n', ?_⟩
  rw [Stretch.result, filling, if_pos hfeeds, List.append_assoc, ← List.replicate_succ']
  congr 2
  omega

lemma column_kept {before : List Stretch} (hinLine : WritesInLine before)
    (hnarrow : ∀ front e original behind, before = front ++ .replaced e original :: behind →
      StaysNarrow (lineBehind (originals before)) (originals front) e original) :
    columnBehind (results before) = columnBehind (originals before) := by
  -- From the end of the stretches back to the last line feed.
  induction before using List.reverseRecOn with
  | nil => rfl
  | append_singleton front s ih =>
    have hfront : lineBehind (originals (front ++ [s])) = lineBehind (originals front) →
        columnBehind (results front) = columnBehind (originals front) := by
      intro hline
      refine ih hinLine.front fun before e original behind heq => ?_
      rw [← hline]
      exact hnarrow before e original (behind ++ [s]) (by rw [heq]; simp)
    cases s with
    | kept c =>
      have hresults : results (front ++ [.kept c]) = results front ++ [c] := by simp [Stretch.result]
      have horiginals : originals (front ++ [.kept c]) = originals front ++ [c] := by
        simp [Stretch.original]
      by_cases hfeed : c = '\n'
      · rw [hresults, horiginals, hfeed, columnBehind_feed, columnBehind_feed]
      · have hc : '\n' ∉ [c] := by simpa using Ne.symm hfeed
        rw [hresults, horiginals, columnBehind_inLine hc, columnBehind_inLine hc, hfront]
        rw [horiginals, lineBehind_append, List.count_eq_zero.mpr hc, Nat.add_zero]
    | replaced e original =>
      have hresults : results (front ++ [.replaced e original]) =
          results front ++ (Stretch.replaced e original).result := by simp
      have horiginals : originals (front ++ [.replaced e original]) = originals front ++ original := by
        simp [Stretch.original]
      have hreplacement : '\n' ∉ e.replacement.toList := hinLine e (by simp [Stretch.edit?])
      have hlast := hnarrow front e original [] rfl
      rw [hresults, horiginals]
      rcases List.eq_nil_or_concat original with rfl | ⟨chars, c, hchars⟩
      · have hempty : lineBehind (originals front ++ ([] : List Char).dropLast) =
            lineBehind (originals (front ++ [.replaced e []])) := by simp [Stretch.original]
        obtain ⟨-, hwidth⟩ := hlast hempty
        obtain ⟨hresult, hlength⟩ := filling_inLine List.not_mem_nil hwidth hreplacement
        rw [columnBehind_inLine hresult, columnBehind_inLine List.not_mem_nil, hlength, hfront]
        rw [horiginals, List.append_nil]
      · rw [List.concat_eq_append] at hchars
        subst hchars
        by_cases hfeed : c = '\n'
        · subst hfeed
          obtain ⟨written, hwritten⟩ := filling_feed e chars
          rw [hwritten, ← List.append_assoc, ← List.append_assoc, columnBehind_feed, columnBehind_feed]
        · have hc : '\n' ∉ [c] := by simpa using Ne.symm hfeed
          have hends : lineBehind (originals front ++ (chars ++ [c]).dropLast) =
              lineBehind (originals (front ++ [.replaced e (chars ++ [c])])) := by
            rw [horiginals, List.dropLast_concat, ← List.append_assoc, lineBehind_append _ [c],
              List.count_eq_zero.mpr hc, Nat.add_zero]
          obtain ⟨hstarts, hwidth⟩ := hlast hends
          rw [horiginals, lineBehind_append] at hstarts
          have hline : '\n' ∉ chars ++ [c] := List.count_eq_zero.mp (by omega)
          obtain ⟨hresult, hlength⟩ := filling_inLine hline hwidth hreplacement
          rw [columnBehind_inLine hresult, columnBehind_inLine hline, hlength, hfront]
          rw [horiginals, lineBehind_append, List.count_eq_zero.mpr hline, Nat.add_zero]

/-! ## Edits of a text -/

/-- Edits that do not overlap are all made, and every character outside of them keeps its line. It keeps its
column as well if every edit before it that ends on its line is made within that line and writes no more
characters than it replaces. -/
theorem edits_keep_places {text : String} {edits : List Edit} (h : CanBeMade text edits) :
    ∃ stretches, KeepsPlaces text.toList edits (applyEdits text edits).toList stretches := by
  have hperm := List.mergeSort_perm edits fun a b => a.span.start ≤ b.span.start
  have hreplaces : ∀ e ∈ edits.mergeSort (fun a b => a.span.start ≤ b.span.start),
      Replaces 0 text.toList e := by
    intro e he
    have hmem := hperm.mem_iff.mp he
    exact replaces_of_boundaries (h.nonempty e hmem) (h.boundaries e hmem)
  obtain ⟨stretches, horiginal, hresult, hedits, hspans⟩ := applyFrom_stretches hreplaces h.sorted
  have hmade : (stretches.filterMap Stretch.edit?).Perm edits := hedits ▸ hperm
  have hinLine : WritesInLine stretches := fun e he => h.inLine e (hmade.mem_iff.mp he)
  have hout : (applyEdits text edits).toList = results stretches := by
    rw [applyEdits, String.toList_ofList, hresult]
  refine ⟨stretches, horiginal, hout, hmade, hspans, ?_, ?_, ?_, ?_⟩
  · intro front c behind hsplit houtside
    refine kept_of_outside hspans (horiginal.symm.trans hsplit) fun e he => ?_
    rw [Nat.zero_add]
    exact houtside e (hmade.mem_iff.mp he)
  · rw [hout, horiginal]
    exact hinLine.count
  · rintro before c after rfl
    rw [lineBehind, lineBehind, hinLine.front.count]
  · rintro before c after rfl hnarrow
    exact column_kept hinLine.front hnarrow

/-- A text of four lines, with a letter of two bytes. -/
def accented : String :=
  "é = 1; export a\nexport \x7b\n  a \x7d; b"

/-- The export list, and then the word before it. -/
def accentedEdits : List Edit :=
  [⟨⟨17, 31⟩, ""⟩, ⟨⟨8, 14⟩, "var"⟩]

theorem edits_keep_places_accented : CanBeMade accented accentedEdits ∧
    ∃ stretches, KeepsPlaces accented.toList accentedEdits (applyEdits accented accentedEdits).toList
      stretches := by
  have hvalid : ∀ n ∈ [8, 14, 17, 31], String.Pos.Raw.IsValid accented ⟨n⟩ := by
    have hsplit : ∀ k, accented.toList = accented.toList.take k ++ accented.toList.drop k :=
      fun k => (List.take_append_drop k _).symm
    have hcounts : [8, 14, 17, 31] =
        [7, 13, 16, 30].map fun k => byteCount (accented.toList.take k) := by
      decide +kernel
    intro n hn
    rw [hcounts, List.mem_map] at hn
    obtain ⟨k, -, rfl⟩ := hn
    exact isValid_byteCount (hsplit k)
  have hmade : CanBeMade accented accentedEdits := by
    refine ⟨by decide, ?_, by decide, by decide⟩
    intro e he
    simp only [accentedEdits, List.mem_cons, List.not_mem_nil, or_false] at he
    rcases he with rfl | rfl
    · exact ⟨hvalid 17 (by decide), hvalid 31 (by decide)⟩
    · exact ⟨hvalid 8 (by decide), hvalid 14 (by decide)⟩
  exact ⟨hmade, edits_keep_places hmade⟩

end TaskRunner.Proofs
