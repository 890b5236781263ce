import Mathlib.Data.List.Nodup
import Mathlib.Tactic.ByContra
import TaskRunner.Source.File
import TaskRunner.Proofs.ExceptSteps

/-!
# Listed signatures

The functions that a file exports are listed under their exported names, one signature for each export of
a function. What is listed is looked up by the exported name, and the first export of a name decides, so an
export of a function gets its own signature, and its own function is called, exactly if no export before it
gives its name to something else.
-/

namespace TaskRunner.Proofs
open Source

variable {after : Token} {trees behind : List Tree} {o o' : Outline}

/-! ## What all statements keep -/

/-- A property of outlines that is kept by everything that a statement can do. -/
structure KeptByReaders (P : Outline → Prop) : Prop where
  addEdit : ∀ {o} (span : Span) (replacement : String), P o → P (o.addEdit span replacement)
  addExports : ∀ {o} (entries : List Export), P o → P (o.addExports entries)
  declare : ∀ {o o' kind bound}, o.declare kind bound = .ok o' → P o → P o'
  addFunction : ∀ {o o' kind bound} (f : LocalFunction), o.declare kind bound = .ok o' →
    f.name = bound.name → P o → P (o'.addFunction f)

namespace KeptByReaders

variable {P : Outline → Prop} (h : KeptByReaders P)
include h

lemma exportNames (exported : Bool) (names : List BoundName) (ho : P o) :
    P (o.exportNames exported names) := by
  unfold Outline.exportNames
  split
  · exact h.addExports _ ho
  · exact ho

lemma declareAll {kind : Declaration} {names : List BoundName} (hread : o.declareAll kind names = .ok o')
    (ho : P o) : P o' := by
  unfold Outline.declareAll at hread
  induction names generalizing o with
  | nil =>
    cases hread
    exact ho
  | cons bound rest ih =>
    rw [List.foldlM_cons] at hread
    obtain ⟨o₁, hbound, hrest⟩ := bind_ok hread
    exact ih hrest (h.declare hbound ho)

lemma functionDeclaration {leading : List Comment} {exported : Bool}
    (hread : functionDeclaration after leading exported o trees = .ok (o', behind)) (ho : P o) : P o' := by
  unfold Source.functionDeclaration at hread
  dsimp only at hread
  split at hread
  · obtain ⟨bound, -, hread⟩ := bind_ok hread
    obtain ⟨⟨params, body, rest⟩, -, hread⟩ := bind_ok hread
    obtain ⟨o₁, hdeclare, hread⟩ := bind_ok hread
    cases hread
    exact h.exportNames _ _ (h.addFunction _ hdeclare rfl ho)
  · cases hread

lemma classDeclaration {exported : Bool}
    (hread : classDeclaration after exported o trees = .ok (o', behind)) (ho : P o) : P o' := by
  obtain ⟨bound, -, hread⟩ := bind_ok hread
  obtain ⟨rest, -, hread⟩ := bind_ok hread
  obtain ⟨o₁, hdeclare, hread⟩ := bind_ok hread
  cases hread
  exact h.exportNames _ _ (h.declare hdeclare ho)

omit h in
/-- A declarator that is not a pattern binds its one name. -/
lemma single_bound {single : Option String} {names : List BoundName}
    (hread : declaratorTarget after trees = .ok (single, names, behind)) {name : String}
    (hname : single = some name) : ∃ bound, names = [bound] ∧ bound.name = name := by
  unfold declaratorTarget at hread
  split at hread
  · cases hread
  · split at hread
    · obtain ⟨bound, -, hread⟩ := bind_ok hread
      cases hread
      exact ⟨bound, rfl, Option.some.inj hname⟩
    · obtain ⟨names', -, hread⟩ := bind_ok hread
      cases hread
      cases hname

/-- The function that a declarator gives to its name is added behind the exports of the name. -/
lemma valueFunction {kind : Declaration} {exported : Bool} {bound : BoundName} {o₁ : Outline}
    (hdeclare : o.declareAll kind [bound] = .ok o₁) (f : LocalFunction) (hname : f.name = bound.name)
    (ho : P o) : P ((o₁.exportNames exported [bound]).addFunction f) := by
  have hone : o.declare kind bound = .ok o₁ := by
    rw [Outline.declareAll, List.foldlM_cons] at hdeclare
    obtain ⟨o₂, hbound, hnil⟩ := bind_ok hdeclare
    cases hnil
    exact hbound
  have hswap : (o₁.exportNames exported [bound]).addFunction f =
      (o₁.addFunction f).exportNames exported [bound] := by
    cases exported <;> rfl
  rw [hswap]
  exact h.exportNames _ _ (h.addFunction f hone hname ho)

lemma declarators {kind : Declaration} {leading : List Comment} {exported : Bool} {fuel : Nat}
    (hread : declarators after kind leading exported fuel o trees = .ok (o', behind)) (ho : P o) :
    P o' := by
  induction fuel generalizing o trees with
  | zero =>
    cases hread
    exact ho
  | succ fuel ih =>
    rw [Source.declarators] at hread
    obtain ⟨⟨single, names, left⟩, htarget, hread⟩ := bind_ok hread
    obtain ⟨o₁, hdeclare, hread⟩ := bind_ok hread
    have hnames : P (o₁.exportNames exported names) := h.exportNames _ _ (h.declareAll hdeclare ho)
    have hmore : ∀ {o₂ : Outline} {left : List Tree}, P o₂ →
        (if startsWithPunct left "," then
          Source.declarators after kind leading exported fuel o₂ left.tail
        else .ok (o₂, pastSemicolon left)) = .ok (o', behind) → P o' := by
      intro o₂ left ho₂ hread
      split at hread
      · exact ih hread ho₂
      · cases hread
        exact ho₂
    dsimp only at hread
    by_cases hvalue : startsWithPunct left "=" = true
    · simp only [hvalue, if_true] at hread
      refine hmore ?_ hread
      split
      · rename_i name params body _
        obtain ⟨bound, rfl, hbound⟩ := single_bound htarget rfl
        exact h.valueFunction hdeclare _ hbound.symm ho
      · exact hnames
    · simp only [hvalue] at hread
      exact hmore hnames hread

/-- The end of an import declaration, behind its clause. -/
lemma importSource {bindings : List (ImportBinding × BoundName)} {rest : List Tree}
    (hread : (match (ahead after rest).text? with
      | none => (.error (unexpected (ahead after rest)) : Except SyntaxError (Outline × List Tree))
      | some source => do
        let behind := pastSemicolon (pastAttributes rest.tail)
        let o ← o.declareAll .lexical (bindings.map Prod.snd)
        let replacement := importReplacement source (bindings.map Prod.fst)
        .ok (o.addEdit (spanOf (consumed trees behind)) replacement, behind)) = .ok (o', behind))
    (ho : P o) : P o' := by
  split at hread
  · cases hread
  · obtain ⟨o₁, hdeclare, hread⟩ := bind_ok hread
    cases hread
    exact h.addEdit _ _ (h.declareAll hdeclare ho)

lemma importDeclaration (hread : importDeclaration after o trees = .ok (o', behind)) (ho : P o) :
    P o' := by
  unfold Source.importDeclaration at hread
  dsimp only at hread
  split at hread
  · exact h.importSource hread ho
  · obtain ⟨⟨bindings, rest⟩, -, hread⟩ := bind_ok hread
    exact h.importSource hread ho

lemma exportDefault {leading : List Comment}
    (hread : exportDefault after leading o trees = .ok (o', behind)) (ho : P o) : P o' := by
  unfold Source.exportDefault at hread
  dsimp only at hread
  split at hread
  · exact h.functionDeclaration hread (h.addEdit _ _ ho)
  · split at hread
    · exact h.classDeclaration hread (h.addEdit _ _ ho)
    · cases hread
      exact h.addEdit _ _ ho

lemma exportList {inside : List Tree} {closer : Token}
    (hread : exportList after o trees inside closer = .ok (o', behind)) (ho : P o) : P o' := by
  obtain ⟨entries, -, hread⟩ := bind_ok hread
  dsimp only at hread
  split at hread
  · split at hread
    · cases hread
      exact h.addEdit _ _ ho
    · cases hread
  · cases hread
    exact h.addEdit _ _ (h.addExports _ ho)

lemma exportDeclaration (hread : exportDeclaration after o trees = .ok (o', behind)) (ho : P o) :
    P o' := by
  unfold Source.exportDeclaration at hread
  split at hread
  · rename_i keyword t rest
    have hblanked : P (o.addEdit keyword.first.span "") := h.addEdit _ _ ho
    dsimp only at hread
    split at hread
    · exact h.exportDefault hread ho
    · split at hread
      · exact h.functionDeclaration hread hblanked
      · split at hread
        · exact h.declarators hread hblanked
        · split at hread
          · exact h.classDeclaration hread hblanked
          · split at hread
            · cases hread
              exact h.addEdit _ _ ho
            · split at hread
              · exact h.exportList hread ho
              · cases hread
  · cases hread

lemma statement (hread : statement after o trees = .ok (o', behind)) (ho : P o) : P o' := by
  unfold Source.statement at hread
  dsimp only at hread
  split at hread
  · exact h.importDeclaration hread ho
  · split at hread
    · exact h.exportDeclaration hread ho
    · split at hread
      · exact h.functionDeclaration hread ho
      · split at hread
        · exact h.declarators hread ho
        · split at hread
          · exact h.classDeclaration hread ho
          · cases hread
            exact ho

lemma statements {fuel : Nat} (hread : statements after fuel o trees = .ok o') (ho : P o) : P o' := by
  induction fuel generalizing o trees with
  | zero =>
    cases hread
    exact ho
  | succ fuel ih =>
    cases trees with
    | nil =>
      cases hread
      exact ho
    | cons t rest =>
      obtain ⟨⟨o₁, left⟩, hstatement, hread⟩ := bind_ok hread
      exact ih hread (h.statement hstatement ho)

/-- What the outline of nothing has and every statement keeps, the outline of every file has. -/
lemma file {text : String} {f : File} (hread : File.ofText text = .ok f) (ho : P .empty) :
    P f.outline := by
  obtain ⟨tokens, -, hread⟩ := bind_ok hread
  obtain ⟨nested, -, hread⟩ := bind_ok hread
  obtain ⟨outline, houtline, hread⟩ := bind_ok hread
  cases hread
  exact h.statements houtline ho

end KeptByReaders

/-! ## Functions and their names -/

/-- A name is declared once unless it is declared by `var` only, and has no more functions than
declarations. -/
structure Accounted (o : Outline) : Prop where
  lexical : o.lexicalNames.Nodup
  apart : ∀ name ∈ o.lexicalNames, name ∉ o.varNames
  functions : ∀ name, o.functions.countP (·.name == name) ≤
    o.lexicalNames.count name + o.varNames.count name

/-- What a declaration does to the names. -/
lemma declare_cases {kind : Declaration} {bound : BoundName} (h : o.declare kind bound = .ok o') :
    bound.name ∉ o.lexicalNames ∧
      ((bound.name ∉ o.varNames ∧ o' = { o with lexicalNames := bound.name :: o.lexicalNames }) ∨
        o' = { o with varNames := bound.name :: o.varNames }) := by
  unfold Outline.declare at h
  cases kind with
  | lexical =>
    dsimp only at h
    split at h
    · cases h
    · rename_i hclash
      simp only [Bool.or_eq_true, List.contains_iff_mem, not_or] at hclash
      exact ⟨hclash.1, .inl ⟨hclash.2, (Except.ok.inj h).symm⟩⟩
  | var =>
    dsimp only at h
    split at h
    · cases h
    · rename_i hclash
      exact ⟨fun hmem => hclash (List.contains_iff_mem.mpr hmem), .inr (Except.ok.inj h).symm⟩

/-- A declared name makes room for one more function. -/
lemma Accounted.declare {kind : Declaration} {bound : BoundName} (hread : o.declare kind bound = .ok o')
    (h : Accounted o) : Accounted o' ∧ ∀ name, o'.functions.countP (·.name == name) +
      (if bound.name = name then 1 else 0) ≤ o'.lexicalNames.count name + o'.varNames.count name := by
  have hroom : ∀ name, o'.functions.countP (·.name == name) + (if bound.name = name then 1 else 0) ≤
      o'.lexicalNames.count name + o'.varNames.count name := by
    intro name
    have hname := h.functions name
    obtain ⟨-, ⟨-, rfl⟩ | rfl⟩ := declare_cases hread <;>
    · simp only [List.count_cons, beq_iff_eq]
      omega
  refine ⟨⟨?_, ?_, fun name => Nat.le_of_add_right_le (hroom name)⟩, hroom⟩
  · obtain ⟨hnew, ⟨-, rfl⟩ | rfl⟩ := declare_cases hread
    · exact List.nodup_cons.mpr ⟨hnew, h.lexical⟩
    · exact h.lexical
  · obtain ⟨hnew, ⟨hvar, rfl⟩ | rfl⟩ := declare_cases hread
    · intro name hmem
      rcases List.mem_cons.mp hmem with rfl | hmem
      · exact hvar
      · exact h.apart name hmem
    · intro name hmem hother
      rcases List.mem_cons.mp hother with rfl | hother
      · exact hnew hmem
      · exact h.apart name hmem hother

lemma accounted_kept : KeptByReaders Accounted where
  addEdit _ _ h := ⟨h.lexical, h.apart, h.functions⟩
  addExports _ h := ⟨h.lexical, h.apart, h.functions⟩
  declare hread h := (h.declare hread).1
  addFunction {_ o' _ bound} f hread hname h := by
    obtain ⟨hkept, hroom⟩ := h.declare hread
    refine ⟨hkept.lexical, hkept.apart, fun name => ?_⟩
    rw [Outline.addFunction, List.countP_append, List.countP_singleton]
    simpa only [hname, beq_iff_eq] using hroom name

lemma accounted_file {text : String} {f : File} (h : File.ofText text = .ok f) : Accounted f.outline :=
  accounted_kept.file h ⟨List.nodup_nil, fun _ hmem => (nomatch hmem), fun _ => Nat.zero_le _⟩

/-- Two functions of one name are values of a name that is declared by `var` again. -/
lemma Accounted.function_unique (h : Accounted o) {g g' : LocalFunction} (hg : g ∈ o.functions)
    (hg' : g' ∈ o.functions) (hname : g'.name = g.name) : g' = g ∨ 2 ≤ o.varNames.count g.name := by
  by_contra hne
  rw [not_or, Nat.not_le] at hne
  have hcount : o.functions.countP (·.name == g.name) ≤ 1 := by
    have hlexical := List.nodup_iff_count_le_one.mp h.lexical g.name
    have hfunctions := h.functions g.name
    by_cases hmem : g.name ∈ o.lexicalNames
    · have hvar := List.count_eq_zero.mpr (h.apart _ hmem)
      omega
    · have hzero := List.count_eq_zero.mpr hmem
      omega
  rw [List.countP_eq_length_filter] at hcount
  have hmem : g ∈ o.functions.filter (·.name == g.name) :=
    List.mem_filter.mpr ⟨hg, beq_self_eq_true _⟩
  have hmem' : g' ∈ o.functions.filter (·.name == g.name) :=
    List.mem_filter.mpr ⟨hg', beq_iff_eq.mpr hname⟩
  obtain ⟨only, honly⟩ := List.length_eq_one_iff.mp
    (Nat.le_antisymm hcount (List.length_pos_of_mem hmem))
  rw [honly, List.mem_singleton] at hmem hmem'
  exact hne.1 (hmem'.trans hmem.symm)

/-! ## Exports and what is listed for them -/

/-- No export before it gives its name to something else. -/
def LeadsItsName (f : File) (e : Export) : Prop :=
  ∃ front back, f.exports = front ++ e :: back ∧ ∀ other ∈ front, other.exported ≠ e.exported

/-- What is listed at a place are the signature and the command of an export's own function. -/
def ListsOwn (f : File) (ns : String) (i : Nat) (e : Export) : Prop :=
  ∃ g, f.function? e.name = some g ∧ f.signatures[i]? = some (signatureOf e.exported g) ∧
    (f.commands ns)[i]? = some ((signatureOf e.exported g).toCommand ns e.name)

variable {f : File} {e : Export}

lemma localName?_eq_some_iff (he : e ∈ f.exports) :
    f.localName? e.exported = some e.name ↔ LeadsItsName f e := by
  rw [File.localName?, Option.map_eq_some_iff]
  constructor
  · rintro ⟨first, hfirst, hname⟩
    obtain ⟨hexported, front, back, hsplit, hfront⟩ := List.find?_eq_some_iff_append.mp hfirst
    obtain rfl : first = e := by
      rw [beq_iff_eq] at hexported
      cases first
      cases e
      exact (Export.mk.injEq _ _ _ _).mpr ⟨hexported, hname⟩
    exact ⟨front, back, hsplit, fun other hmem => by simpa using hfront other hmem⟩
  · rintro ⟨front, back, hsplit, hfront⟩
    refine ⟨e, List.find?_eq_some_iff_append.mpr ⟨beq_self_eq_true _, front, back, hsplit, ?_⟩, rfl⟩
    exact fun other hmem => by simpa using hfront other hmem

@[simp] lemma toCommand_target (s : Signature) (ns target : String) :
    (s.toCommand ns target).target = target := by
  unfold Signature.toCommand Command.withComment
  cases s.description <;> rfl

lemma functionExports_mem (he : e ∈ f.functionExports) :
    e ∈ f.exports ∧ ∃ g, f.function? e.name = some g := by
  obtain ⟨hmem, hsome⟩ := List.mem_filter.mp he
  exact ⟨hmem, Option.isSome_iff_exists.mp hsome⟩

/-- An export leads its name if and only if its own function is listed for it. -/
lemma listsOwn_iff {ns : String} {i : Nat} (he : f.functionExports[i]? = some e) :
    ListsOwn f ns i e ↔ LeadsItsName f e := by
  obtain ⟨hmem, g, hg⟩ := functionExports_mem (List.mem_of_getElem? he)
  have hsignature : f.signatures[i]? = some (f.signature e.exported) := by
    rw [File.signatures, List.getElem?_map, he, Option.map_some]
  have hcommand : (f.commands ns)[i]? = some ((f.signature e.exported).toCommand ns
      ((f.localName? e.exported).getD e.exported)) := by
    rw [File.commands, List.getElem?_map, he, Option.map_some]
  rw [← localName?_eq_some_iff hmem]
  constructor
  · rintro ⟨g', -, -, hown⟩
    -- the command tells which binding was found, even where the signatures happen to be the same
    rw [hcommand] at hown
    have htarget := congrArg Command.target (Option.some.inj hown)
    rw [toCommand_target, toCommand_target] at htarget
    have hsome : (f.exports.find? (·.exported == e.exported)).isSome = true :=
      List.find?_isSome.mpr ⟨e, hmem, beq_self_eq_true _⟩
    obtain ⟨first, hfirst⟩ := Option.isSome_iff_exists.mp hsome
    have hlocal : f.localName? e.exported = some first.name := by
      rw [File.localName?, hfirst, Option.map_some]
    rw [hlocal, Option.getD_some] at htarget
    rw [hlocal, htarget]
  · intro hlocal
    have hfound : f.signature e.exported = signatureOf e.exported g := by
      rw [File.signature, hlocal, Option.getD_some, hg]
    refine ⟨g, hg, by rw [hsignature, hfound], ?_⟩
    rw [hcommand, hfound, hlocal, Option.getD_some]

lemma signature_name (f : File) (name : String) : (f.signature name).name = name := by
  unfold File.signature
  split <;> rfl

/-- For every accepted text, one signature and one command are listed for each export of a function, in
order and under the exported name; they are those of the export's own function exactly if no export before
it gives the name to something else, and that function is the only one of its name unless the name is
declared by `var` more than once. -/
theorem lists_own_signatures {text : String} (h : File.ofText text = .ok f) (ns : String) :
    f.signatures.map Signature.name = f.functionExports.map Export.exported ∧
    (f.commands ns).length = f.functionExports.length ∧
    (∀ (i : Nat) (e : Export), f.functionExports[i]? = some e →
      (ListsOwn f ns i e ↔ LeadsItsName f e)) ∧
    ∀ g ∈ f.outline.functions, ∀ g' ∈ f.outline.functions, g'.name = g.name →
      g' = g ∨ 2 ≤ f.outline.varNames.count g.name := by
  refine ⟨?_, List.length_map _, fun i e he => listsOwn_iff he, ?_⟩
  · rw [File.signatures, List.map_map]
    exact List.map_congr_left fun e _ => signature_name f e.exported
  · exact fun g hg g' hg' hname => (accounted_file h).function_unique hg hg' hname

/-- A file that exports two functions, both under other names. -/
def packing : String :=
  "export \x7b build as compile, pack as bundle \x7d\nfunction build(x) \x7b\x7d\n" ++
    "const pack = (y, z) => y\n"

theorem lists_own_signatures_packing :
    ∃ f, File.ofText packing = .ok f ∧ f.functionExports = [⟨"compile", "build"⟩, ⟨"bundle", "pack"⟩] ∧
      f.signatures.map Signature.name = ["compile", "bundle"] ∧ (f.commands "").length = 2 ∧
      LeadsItsName f ⟨"bundle", "pack"⟩ ∧ ListsOwn f "" 1 ⟨"bundle", "pack"⟩ := by
  have hread : (File.ofText packing).toOption.map (fun f => (f.exports, f.functionExports)) =
      some ([⟨"compile", "build"⟩, ⟨"bundle", "pack"⟩],
        [⟨"compile", "build"⟩, ⟨"bundle", "pack"⟩]) := by
    decide +kernel
  obtain ⟨f, hf, hexports⟩ := Option.map_eq_some_iff.mp hread
  obtain ⟨hall, hfunctions⟩ := Prod.mk.inj hexports
  obtain ⟨hnames, hlength, howns, -⟩ := lists_own_signatures (ok_of_toOption hf) ""
  rw [hfunctions] at hnames hlength
  have hleads : LeadsItsName f ⟨"bundle", "pack"⟩ := by
    refine ⟨[⟨"compile", "build"⟩], [], hall, ?_⟩
    simp
  exact ⟨f, ok_of_toOption hf, hfunctions, hnames, hlength, hleads,
    (howns 1 _ (by rw [hfunctions]; rfl)).mpr hleads⟩

/-- A file that exports two functions under one name. -/
def sharing : String :=
  "function a(x) \x7b\x7d\nfunction b(y, z) \x7b\x7d\nexport \x7b a as c, b as c \x7d\n"

/-- The first function is listed, and called, for both exports. -/
theorem namesake_is_listed :
    ∃ f, File.ofText sharing = .ok f ∧ f.functionExports[1]? = some ⟨"c", "b"⟩ ∧
      f.signatures.map Signature.params =
        [[.positional ⟨"x", none⟩], [.positional ⟨"x", none⟩]] ∧
      (f.commands "").map Command.target = ["a", "a"] ∧ ¬ ListsOwn f "" 1 ⟨"c", "b"⟩ := by
  have hread : (File.ofText sharing).toOption.map (fun f =>
      (f.functionExports, f.signatures.map Signature.params, (f.commands "").map Command.target)) =
      some ([⟨"c", "a"⟩, ⟨"c", "b"⟩],
        [[.positional ⟨"x", none⟩], [.positional ⟨"x", none⟩]], ["a", "a"]) := by
    decide +kernel
  obtain ⟨f, hf, hlisted⟩ := Option.map_eq_some_iff.mp hread
  obtain ⟨hexports, hlisted⟩ := Prod.mk.inj hlisted
  obtain ⟨hparams, htargets⟩ := Prod.mk.inj hlisted
  refine ⟨f, ok_of_toOption hf, by rw [hexports]; rfl, hparams, htargets, ?_⟩
  rintro ⟨g, -, -, hcommand⟩
  have htarget := congrArg (Option.map Command.target) hcommand
  rw [← List.getElem?_map, htargets, Option.map_some, toCommand_target] at htarget
  exact absurd htarget (by decide)

end TaskRunner.Proofs
