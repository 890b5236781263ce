import TaskRunner.Proofs.TokenGaps

/-!
# Steps through templates

The text of a template and its substitutions are read by steps that move the cursor forward.
-/

namespace TaskRunner.Proofs
open Source

variable {a b cur after : Cursor}

/-! ## Lexemes -/

lemma lexemeAt_ok {regexMayStart : Bool} {kind : Kind}
    (h : lexemeAt regexMayStart cur = .ok (kind, after)) :
    ∃ count, lexeme regexMayStart cur.rest = .ok (kind, count) ∧ after = cur.advance count := by
  unfold lexemeAt at h
  split at h
  · cases h
    exact ⟨_, ‹_›, rfl⟩
  · cases h

lemma lexemeAt_error {regexMayStart : Bool} {e : SyntaxError}
    (h : lexemeAt regexMayStart cur = .error e) :
    lexeme regexMayStart cur.rest = .error e.fault ∧ e.place = cur.place := by
  unfold lexemeAt at h
  split at h
  · cases h
  · cases h
    exact ⟨‹_›, rfl⟩

/-! ## What is read next in a template -/

section
variable {opened : Place} {fuel : Nat} {rest : List Char}

lemma templateText_close (h : cur.rest = '\x60' :: rest) :
    templateText opened (fuel + 1) cur = .ok (cur.advance 1) := by
  simp [templateText, h]

lemma templateText_escape (h : cur.rest = '\\' :: rest) :
    templateText opened (fuel + 1) cur = templateText opened fuel (cur.advance 2) := by
  simp [templateText, h]

lemma templateText_hole (h : cur.rest = '$' :: '\x7b' :: rest) :
    templateText opened (fuel + 1) cur = templateHole opened fuel 0 true (cur.advance 2) := by
  simp [templateText, h]

lemma templateText_char {c : Char} (h : cur.rest = c :: rest) (hclose : c ≠ '\x60') (hescape : c ≠ '\\')
    (hhole : ¬ (c = '$' ∧ rest.head? = some '\x7b')) :
    templateText opened (fuel + 1) cur = templateText opened fuel (cur.advance 1) := by
  rw [templateText]
  split
  · rename_i heq
    cases h.symm.trans heq
  · rename_i heq
    exact absurd (List.cons.inj (h.symm.trans heq)).1 hclose
  · rename_i heq
    exact absurd (List.cons.inj (h.symm.trans heq)).1 hescape
  · rename_i heq
    obtain ⟨hc, hrest⟩ := List.cons.inj (h.symm.trans heq)
    exact absurd ⟨hc, by rw [hrest, List.head?_cons]⟩ hhole
  · rfl

/-- The braces open in a substitution behind a token of it; none if the token closes it. -/
def depthBehind (depth : Nat) (kind : Kind) : Option Nat :=
  if kind == .punct "\x7b" then some (depth + 1)
  else if kind == .punct "\x7d" then if depth = 0 then none else some (depth - 1)
  else some depth

variable {depth : Nat} {regex : Bool} {gap : Gap} {mid : Cursor}

lemma templateHole_template (hgap : gapAt cur = .ok (gap, mid)) (h : mid.rest = '\x60' :: rest) :
    templateHole opened (fuel + 1) depth regex cur =
      (templateText mid.place fuel (mid.advance 1) >>= templateHole opened fuel depth false) := by
  rw [templateHole, hgap]
  simp only [bind, Except.bind, h]

lemma templateHole_lexemeAt (hgap : gapAt cur = .ok (gap, mid)) (hne : mid.rest ≠ [])
    (hopen : ∀ rest, mid.rest ≠ '\x60' :: rest) :
    templateHole opened (fuel + 1) depth regex cur = lexemeAt regex mid >>= fun found =>
      match depthBehind depth found.1 with
      | none => templateText opened fuel found.2
      | some depth => templateHole opened fuel depth found.1.regexMayFollow found.2 := by
  rw [templateHole, hgap]
  dsimp only [bind, Except.bind]
  split
  · rename_i heq
    exact absurd heq hne
  · rename_i heq
    exact absurd heq (hopen _)
  · cases lexemeAt regex mid with
    | error e => rfl
    | ok found =>
      dsimp only
      unfold depthBehind
      split
      · rfl
      · split
        · split <;> rfl
        · rfl

end

/-! ## Steps through a template -/

/-- A character of a template's text, or an escape, lies between the cursors. -/
inductive InText (a b : Cursor) : Prop
  | escape {rest : List Char} (escape : a.rest = '\\' :: rest) (moved : b = a.advance 2)
  | char {ch : Char} {rest : List Char} (char : a.rest = ch :: rest) (open_ : ch ≠ '\x60')
      (plain : ch ≠ '\\') (noHole : ¬ (ch = '$' ∧ rest.head? = some '\x7b'))
      (moved : b = a.advance 1)

/-- The ways in which a template's text goes on. -/
inductive TextStep (cur : Cursor) : Prop
  | ended (nothing : cur.rest = [])
      (eq : ∀ opened fuel,
        templateText opened (fuel + 1) cur = .error ⟨.unterminatedTemplate, opened⟩)
  | closed {rest : List Char} (close : cur.rest = '\x60' :: rest)
      (eq : ∀ opened fuel, templateText opened (fuel + 1) cur = .ok (cur.advance 1))
  | inText {after : Cursor} (step : InText cur after)
      (eq : ∀ opened fuel, templateText opened (fuel + 1) cur = templateText opened fuel after)
  | hole {rest : List Char} (hole : cur.rest = '$' :: '\x7b' :: rest)
      (eq : ∀ opened fuel,
        templateText opened (fuel + 1) cur = templateHole opened fuel 0 true (cur.advance 2))

lemma textStep (cur : Cursor) : TextStep cur := by
  cases hrest : cur.rest with
  | nil => exact .ended hrest fun opened fuel => by rw [templateText, hrest]
  | cons ch rest =>
    by_cases hclose : ch = '\x60'
    · subst hclose
      exact .closed hrest fun _ _ => templateText_close hrest
    · by_cases hescape : ch = '\\'
      · subst hescape
        exact .inText (.escape hrest rfl) fun _ _ => templateText_escape hrest
      · by_cases hhole : ch = '$' ∧ rest.head? = some '\x7b'
        · obtain ⟨rfl, hhead⟩ := hhole
          obtain ⟨rest, rfl⟩ := List.head?_eq_some_iff.mp hhead
          exact .hole hrest fun _ _ => templateText_hole hrest
        · exact .inText (.char hrest hclose hescape hhole rfl) fun _ _ =>
            templateText_char hrest hclose hescape hhole

/-- The ways in which a substitution of a template goes on. -/
inductive HoleStep (depth : Nat) (regex : Bool) (cur : Cursor) : Prop
  | gapFails {e : SyntaxError} (gap : gapAt cur = .error e)
      (eq : ∀ opened fuel, templateHole opened (fuel + 1) depth regex cur = .error e)
  | ended {gap : Gap} {mid : Cursor} (gap : gapAt cur = .ok (gap, mid)) (nothing : mid.rest = [])
      (eq : ∀ opened fuel,
        templateHole opened (fuel + 1) depth regex cur = .error ⟨.unterminatedTemplate, opened⟩)
  | template {gap : Gap} {mid : Cursor} {rest : List Char} (gap : gapAt cur = .ok (gap, mid))
      (template : mid.rest = '\x60' :: rest)
      (eq : ∀ opened fuel, templateHole opened (fuel + 1) depth regex cur =
        (templateText mid.place fuel (mid.advance 1) >>= templateHole opened fuel depth false))
  | lexemeFails {gap : Gap} {mid : Cursor} {e : SyntaxError} (gap : gapAt cur = .ok (gap, mid))
      (noTemplate : ∀ rest, mid.rest ≠ '\x60' :: rest) (lexeme : lexemeAt regex mid = .error e)
      (eq : ∀ opened fuel, templateHole opened (fuel + 1) depth regex cur = .error e)
  | lexeme {gap : Gap} {mid after : Cursor} {kind : Kind} (gap : gapAt cur = .ok (gap, mid))
      (something : mid.rest ≠ []) (noTemplate : ∀ rest, mid.rest ≠ '\x60' :: rest)
      (lexeme : lexemeAt regex mid = .ok (kind, after))
      (eq : ∀ opened fuel, templateHole opened (fuel + 1) depth regex cur =
        match depthBehind depth kind with
        | none => templateText opened fuel after
        | some depth => templateHole opened fuel depth kind.regexMayFollow after)

lemma holeStep (depth : Nat) (regex : Bool) (cur : Cursor) : HoleStep depth regex cur := by
  cases hgap : gapAt cur with
  | error e =>
    exact .gapFails hgap fun opened fuel => by rw [templateHole, hgap]; rfl
  | ok found =>
    obtain ⟨gap, mid⟩ := found
    cases hrest : mid.rest with
    | nil =>
      refine .ended hgap hrest fun opened fuel => ?_
      rw [templateHole, hgap]
      simp only [bind, Except.bind, hrest]
    | cons ch rest =>
      have hne : mid.rest ≠ [] := by
        rw [hrest]
        exact List.cons_ne_nil ch rest
      by_cases htemplate : ch = '\x60'
      · subst htemplate
        exact .template hgap hrest fun _ _ => templateHole_template hgap hrest
      · have hno : ∀ rest, mid.rest ≠ '\x60' :: rest := by
          intro rest heq
          exact htemplate (List.cons.inj (hrest.symm.trans heq)).1
        cases hlexeme : lexemeAt regex mid with
        | error e =>
          refine .lexemeFails hgap hno hlexeme fun opened fuel => ?_
          rw [templateHole_lexemeAt hgap hne hno, hlexeme]
          rfl
        | ok found =>
          obtain ⟨kind, after⟩ := found
          refine .lexeme hgap hne hno hlexeme fun opened fuel => ?_
          rw [templateHole_lexemeAt hgap hne hno, hlexeme]
          rfl

lemma InText.forward (h : InText a b) : Forward a b := by
  cases h with
  | escape _ moved => exact ⟨2, moved⟩
  | char _ _ _ _ moved => exact ⟨1, moved⟩

lemma lexemeAt_forward {regex : Bool} {kind : Kind} (h : lexemeAt regex cur = .ok (kind, after)) :
    Forward cur after := by
  obtain ⟨count, -, rfl⟩ := lexemeAt_ok h
  exact forward_advance cur count

lemma template_forward (fuel : Nat) :
    (∀ {opened : Place} {cur after : Cursor},
      templateText opened fuel cur = .ok after → Forward cur after) ∧
    ∀ {opened : Place} {depth : Nat} {regex : Bool} {cur after : Cursor},
      templateHole opened fuel depth regex cur = .ok after → Forward cur after := by
  -- The two readers of a template share their fuel, so one induction follows both.
  induction fuel with
  | zero =>
    refine ⟨?_, ?_⟩
    · intro opened cur after h
      cases h
    · intro opened depth regex cur after h
      cases h
  | succ fuel ih =>
    obtain ⟨ihText, ihHole⟩ := ih
    refine ⟨?_, ?_⟩
    · intro opened cur after h
      cases textStep cur with
      | ended _ eq =>
        rw [eq] at h
        cases h
      | closed _ eq =>
        rw [eq] at h
        cases h
        exact forward_advance cur 1
      | inText step eq =>
        rw [eq] at h
        exact step.forward.trans (ihText h)
      | hole _ eq =>
        rw [eq] at h
        exact (forward_advance cur 2).trans (ihHole h)
    · intro opened depth regex cur after h
      cases holeStep depth regex cur with
      | gapFails _ eq | ended _ _ eq | lexemeFails _ _ _ eq =>
        rw [eq] at h
        cases h
      | template gap _ eq =>
        rw [eq] at h
        obtain ⟨behind, htext, h⟩ := bind_ok h
        exact (gapAt_forward gap).trans
          ((forward_advance _ 1).trans ((ihText htext).trans (ihHole h)))
      | lexeme gap _ _ lexeme eq =>
        rw [eq] at h
        refine (gapAt_forward gap).trans ((lexemeAt_forward lexeme).trans ?_)
        split at h
        · exact ihText h
        · exact ihHole h

end TaskRunner.Proofs
