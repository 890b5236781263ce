import TaskRunner.Proofs.CommaParts
import TaskRunner.Proofs.HiddenStatements
import TaskRunner.Source.File

/-!
# Files that look alike

Signatures are found in hidden parameters as they are in the parameters. So two files whose tokens are the
same when they are hidden have the same exports, functions and statements, if what stands before a
declaration on a new line leaves an expression open in both of them or in none.
-/

namespace TaskRunner.Proofs
open Source Tree

variable {keep behindPoint : Bool} {trees trees' : List Tree} {after after' : Token}

/-! ## Signatures of hidden parameters -/

lemma hideTrees_nil : hideTrees keep behindPoint [] = [] := by
  rw [hideTrees]

lemma hideTrees_cons (t : Tree) (rest : List Tree) :
    hideTrees keep behindPoint (t :: rest) =
      hideTree keep (nameBehind behindPoint "") t :: hideTrees keep (isPoint t) rest := by
  rw [hideTrees]

lemma isEmpty_hideTrees : (hideTrees keep behindPoint trees).isEmpty = trees.isEmpty := by
  rw [hideTrees_eq, hideLevel_isEmpty]

/-- Behind a mark that is no point nothing is taken for a property. -/
lemma hideTrees_mark {mark : String} {t : Tree} (h : t.isPunct mark = true)
    (hmark : mark ≠ "." ∧ mark ≠ "?.") (before behind : List Tree) :
    hideTrees keep behindPoint (before ++ t :: behind) =
      hideTrees keep behindPoint before ++ hideTree keep none t :: hideTrees keep false behind := by
  induction before generalizing behindPoint with
  | nil =>
    rw [List.nil_append, hideTrees_cons, hideTrees_nil, List.nil_append, hideTree_punct h,
      isPoint_other h hmark]
  | cons u before ih => rw [List.cons_append, hideTrees_cons, hideTrees_cons, ih, List.cons_append]

lemma CommaFree.hidden (h : CommaFree trees) : CommaFree (hideTrees keep behindPoint trees) := by
  induction trees generalizing behindPoint with
  | nil =>
    rw [hideTrees_nil]
    exact commaFree_nil
  | cons t rest ih =>
    obtain ⟨ht, hrest⟩ := commaFree_cons.mp h
    rw [hideTrees_cons]
    exact commaFree_cons.mpr ⟨by rwa [hideTree_isPunct], ih hrest⟩

lemma splitAtCommas_hidden :
    splitAtCommas (hideTrees keep false trees) = (splitAtCommas trees).map (hideTrees keep false) := by
  induction hlength : trees.length using Nat.strongRecOn generalizing trees with
  | _ length ih =>
    rcases comma_cases trees with hfree | ⟨front, comma, more, rfl, hfree, hcomma⟩
    · rw [splitAtCommas_part hfree, splitAtCommas_part hfree.hidden]
      cases trees with
      | nil => simp [hideTrees_nil]
      | cons t rest => simp [hideTrees_cons]
    · have hmark : (leaf comma).isPunct "," = true := hcomma
      rw [hideTrees_mark hmark (by decide), hideTree_leaf, hideToken_none,
        splitAtCommas_comma hfree.hidden (by rwa [placeless_isPunct]), splitAtCommas_comma hfree hcomma,
        List.map_cons, ih more.length (by simp [← hlength]; omega) rfl]

lemma cutAt_hidden {mark : String} (hmark : mark ≠ "." ∧ mark ≠ "?.") :
    cutAt mark (hideTrees keep behindPoint trees) =
      (cutAt mark trees).map fun found =>
        (hideTrees keep behindPoint found.1, hideTrees keep false found.2) := by
  induction trees generalizing behindPoint with
  | nil => simp [hideTrees_nil, cutAt]
  | cons t rest ih =>
    rw [hideTrees_cons, cutAt, cutAt, hideTree_isPunct]
    split
    · rw [isPoint_other ‹_› hmark]
      simp [hideTrees_nil]
    · rw [ih, Option.map_map, Option.map_map]
      simp [Function.comp_def, hideTrees_cons]

lemma literalOf_hidden : literalOf (hideTrees keep false trees) = literalOf trees := by
  cases trees with
  | nil => simp [hideTrees_nil]
  | cons t rest =>
    cases rest with
    | nil => cases t <;> simp [hideTrees_cons, hideTrees_nil, literalOf]
    | cons u rest => simp [hideTrees_cons, literalOf]

lemma optionOf_hidden : optionOf (hideTrees keep false trees) = optionOf trees := by
  cases trees with
  | nil => simp [hideTrees_nil]
  | cons key rest =>
    cases rest with
    | nil => simp [hideTrees_cons, hideTrees_nil, optionOf]
    | cons colon value =>
      cases key with
      | group opener inside closer => simp [hideTrees_cons, optionOf]
      | leaf token =>
        simp only [hideTrees_cons, nameBehind_false, hideTree_leaf, hideToken_none, optionOf,
          placeless_nameOrText?, hideTree_isPunct]
        split
        · rw [isPoint_other ‹_› (by decide), literalOf_hidden, hideTrees_eq, startsWithPunct_hideLevel]
          refine congrArg _ (funext fun name => ?_)
          split
          · rw [hideLevel_tail (noPoint_punct ‹_› (by decide)), ← hideTrees_eq, literalOf_hidden]
          · rfl
        · rfl

lemma optionsOf_hidden : optionsOf (hideTrees keep false trees) = optionsOf trees := by
  cases trees with
  | nil => simp [hideTrees_nil]
  | cons t rest =>
    cases rest with
    | cons u rest => simp [hideTrees_cons, optionsOf]
    | nil =>
      simp only [hideTrees_cons, hideTrees_nil, nameBehind_false, optionsOf, hideTree_inside?, Option.map_map]
      refine congrArg (Option.map · _) (funext fun found => ?_)
      simp only [Function.comp_apply, hideInside, splitAtCommas_hidden, List.filterMap_map]
      exact congrArg (List.filterMap · _) (funext fun part => optionOf_hidden)

lemma paramName_hidden : paramName (hideTrees keep false trees) = paramName trees := by
  cases trees with
  | nil => simp [hideTrees_nil]
  | cons t rest =>
    cases rest with
    | nil => simp [hideTrees_cons, hideTrees_nil, paramName]
    | cons u rest =>
      cases rest with
      | cons v rest => simp [hideTrees_cons, paramName]
      | nil =>
        simp only [hideTrees_cons, hideTrees_nil, paramName, hideTree_isPunct]
        split
        · rw [isPoint_other ‹_› (by decide), nameBehind_false, hideTree_name?]
        · rfl

lemma isSimple_hidden : isSimple (hideTrees keep false trees) = isSimple trees := by
  cases trees with
  | nil => simp [hideTrees_nil]
  | cons t rest =>
    cases rest with
    | nil => cases t <;> simp [hideTrees_cons, hideTrees_nil, isSimple]
    | cons u rest => simp [hideTrees_cons, isSimple]

lemma positionalOf_hidden (position : Nat) (default : Option (List Tree)) :
    positionalOf position (hideTrees keep false trees) (default.map (hideTrees keep false)) =
      positionalOf position trees default := by
  unfold positionalOf
  rw [paramName_hidden, isSimple_hidden]
  cases default with
  | none => rfl
  | some value => simp [literalOf_hidden]

lemma paramOf_hidden (position : Nat) (isLast : Bool) :
    paramOf position isLast (hideTrees keep false trees) = paramOf position isLast trees := by
  unfold paramOf
  rw [cutAt_hidden (by decide)]
  cases cutAt "=" trees with
  | none => exact congrArg Param.positional (positionalOf_hidden position none)
  | some found =>
    dsimp only [Option.map_some]
    rw [optionsOf_hidden]
    split
    · rfl
    · exact congrArg Param.positional (positionalOf_hidden position (some found.2))

lemma paramsFrom_hidden (position : Nat) (parts : List (List Tree)) :
    paramsFrom position (parts.map (hideTrees keep false)) = paramsFrom position parts := by
  induction parts generalizing position with
  | nil => rfl
  | cons part parts ih =>
    rw [List.map_cons, paramsFrom, paramsFrom, ih, paramOf_hidden, List.isEmpty_map]

lemma paramsOf_hidden : paramsOf (hideTrees keep false trees) = paramsOf trees := by
  have hfilter : (fun part : List Tree => !part.isEmpty) ∘ hideTrees keep false = fun part => !part.isEmpty := by
    funext part
    simp [isEmpty_hideTrees]
  rw [paramsOf, splitAtCommas_hidden, List.filter_map, hfilter, paramsFrom_hidden]
  rfl

/-- The comments that are kept describe a function. -/
lemma descriptionOf_hidden (f : LocalFunction) : descriptionOf (hideFunction true f) = descriptionOf f := by
  obtain ⟨name, params, body, leading⟩ := f
  have hlast : ((hideComments true leading).getLast?.filter Comment.isBlock).bind plainComment =
      (leading.getLast?.filter Comment.isBlock).bind plainComment := by
    simp only [hideComments, if_true, List.getLast?_map]
    cases leading.getLast? with
    | none => rfl
    | some c =>
      obtain ⟨text, isBlock, span⟩ := c
      cases isBlock <;> rfl
  have hfirst : ∀ t : Token, (placeless true t).comments.head?.bind plainComment =
      t.comments.head?.bind plainComment := by
    intro t
    rw [placeless_comments]
    cases t.comments <;> rfl
  unfold descriptionOf
  dsimp only [hideFunction]
  rw [hlast]
  cases body with
  | none => rfl
  | some found =>
    obtain ⟨inside, closer⟩ := found
    cases inside with
    | nil => simp [hideInside, hideTrees_nil]
    | cons t rest => simp [hideInside, hideTrees_cons, hfirst]

/-! ## Files with the same outline -/

section
variable {f f' : File}

lemma exports_alike (h : hideOutline keep f'.outline = hideOutline keep f.outline) :
    f'.exports = f.exports := by
  have hexports : (hideOutline keep f'.outline).exports = (hideOutline keep f.outline).exports := by rw [h]
  exact hexports

lemma functions_alike (h : hideOutline keep f'.outline = hideOutline keep f.outline) :
    f'.outline.functions.map (hideFunction keep) = f.outline.functions.map (hideFunction keep) :=
  congrArg Outline.functions h

lemma functionNames_alike (h : hideOutline keep f'.outline = hideOutline keep f.outline) :
    f'.outline.functions.map (·.name) = f.outline.functions.map (·.name) := by
  have hnames := congrArg (List.map (·.name)) (functions_alike h)
  rwa [List.map_map, List.map_map] at hnames

lemma function?_alike (h : hideOutline keep f'.outline = hideOutline keep f.outline) (name : String) :
    (f'.function? name).map (hideFunction keep) = (f.function? name).map (hideFunction keep) := by
  have hfind := congrArg (List.find? (·.name == name)) (functions_alike h)
  rwa [List.find?_map, List.find?_map] at hfind

lemma functionExports_alike (h : hideOutline keep f'.outline = hideOutline keep f.outline) :
    f'.functionExports = f.functionExports := by
  have hsome : ∀ name, (f'.function? name).isSome = (f.function? name).isSome := by
    intro name
    rw [← Option.isSome_map, function?_alike h, Option.isSome_map]
  simp only [File.functionExports, exports_alike h, hsome]

lemma localName?_alike (h : hideOutline keep f'.outline = hideOutline keep f.outline) (name : String) :
    f'.localName? name = f.localName? name := by
  rw [File.localName?, exports_alike h, ← File.localName?]

/-- Files with the same outline have the same parameters, whatever becomes of comments. -/
lemma params_alike (h : hideOutline keep f'.outline = hideOutline keep f.outline) (name : String) :
    (f'.signature name).params = (f.signature name).params := by
  have hparams : ∀ f : File, (f.signature name).params =
      (((f.function? ((f.localName? name).getD name)).map (hideFunction keep)).map
        (paramsOf ·.params)).getD [] := by
    intro f
    unfold File.signature
    cases f.function? ((f.localName? name).getD name) with
    | none => rfl
    | some g => exact paramsOf_hidden.symm
  rw [hparams, hparams, localName?_alike h, function?_alike h]

/-- Files with the same outline and the same comments have the same signatures. -/
lemma signature_alike (h : hideOutline true f'.outline = hideOutline true f.outline) (name : String) :
    f'.signature name = f.signature name := by
  have hsignature : ∀ f : File, f.signature name =
      (((f.function? ((f.localName? name).getD name)).map (hideFunction true)).map
        (signatureOf name)).getD ⟨name, [], none⟩ := by
    intro f
    unfold File.signature
    cases f.function? ((f.localName? name).getD name) with
    | none => rfl
    | some g =>
      simp only [Option.map_some, Option.getD_some, signatureOf, descriptionOf_hidden]
      rw [hideFunction, paramsOf_hidden]
  rw [hsignature, hsignature, localName?_alike h, function?_alike h]

end

/-! ## Names that leave an expression open -/

/-- A name that leaves an expression open before a declaration on a new line if the tree does. -/
def openName (after : Token) (t : Tree) (rest : List Tree) : String :=
  if leavesOpen t.last && newDeclaration after rest then "in" else ""

lemma keepsOpen_openName (after : Token) : KeepsOpen after (openName after) := by
  intro t rest _ hnew
  rw [openName, hnew, Bool.and_true]
  cases hopen : leavesOpen t with
  | true => simp [Tree.last, hopen, openWords]
  | false => simp [Tree.last, hopen, openWords]

/-- Where a token outside of all groups stands before a declaration on a new line, it leaves an expression
open in both files or in none. -/
def OpenAlike (after : Token) (trees trees' : List Tree) : Prop :=
  ∀ before t rest before' t' rest', trees = before ++ leaf t :: rest → trees' = before' ++ leaf t' :: rest' →
    (tokensOfAll before').length = (tokensOfAll before).length → newDeclaration after rest = true →
    leavesOpen t' = leavesOpen t

lemma OpenAlike.tail {t t' : Tree} {rest rest' : List Tree} (h : OpenAlike after (t :: rest) (t' :: rest'))
    (hlength : t'.tokens.length = t.tokens.length) : OpenAlike after rest rest' := by
  rintro before u behind before' u' behind' rfl rfl hbefore hnew
  refine h (t :: before) u behind (t' :: before') u' behind' rfl rfl ?_ hnew
  rw [tokensOfAll_cons, tokensOfAll_cons, List.length_append, List.length_append, hlength, hbefore]

lemma placeless_placeless (t : Token) : placeless keep (placeless keep t) = placeless keep t := by
  cases keep with
  | false => rfl
  | true => simp [placeless, Function.comp_def, seen]

/-- Tokens that are the same under one name are so under every other. -/
lemma hideToken_rename {t t' : Token} {name : String}
    (h : hideToken keep (some name) t' = hideToken keep (some name) t) (other : String) :
    hideToken keep (some other) t' = hideToken keep (some other) t := by
  have hhide : ∀ t, hideToken keep (some other) t =
      hideToken keep (some other) (hideToken keep (some name) t) := by
    intro t
    have hplace : placeless keep (hideToken keep (some name) t) =
        { placeless keep t with kind := renamed (some name) t.kind } := by
      rw [hideToken]
      exact congrArg (fun u : Token => { u with kind := renamed (some name) t.kind }) (placeless_placeless t)
    rw [hideToken, hideToken, hplace]
    simp [hideToken]
  rw [hhide, h, ← hhide]

lemma hideToken_name? (name : Option String) (t : Token) :
    (hideToken keep name t).name?.isSome = t.name?.isSome := by
  unfold Token.name? hideToken renamed
  cases t.kind <;> rfl

lemma newDeclaration_alike (hending : placeless keep after' = placeless keep after)
    (htrees : hideTrees keep false trees' = hideTrees keep false trees) :
    newDeclaration after' trees' = newDeclaration after trees := by
  rw [hideTrees_eq, hideTrees_eq] at htrees
  calc newDeclaration after' trees'
      = newDeclaration (placeless keep after') (hideLevel keep (fun _ _ => "") false trees') :=
        newDeclaration_hidden.symm
    _ = newDeclaration (placeless keep after) (hideLevel keep (fun _ _ => "") false trees) := by
        rw [hending, htrees]
    _ = newDeclaration after trees := newDeclaration_hidden

/-- Tokens that are alike leave an expression open alike, and so they are hidden under the same names. -/
lemma hideLevel_alike (hending : placeless keep after' = placeless keep after)
    (htrees : hideTrees keep behindPoint trees' = hideTrees keep behindPoint trees)
    (hopen : OpenAlike after trees trees') :
    hideLevel keep (openName after') behindPoint trees' = hideLevel keep (openName after) behindPoint trees := by
  induction trees generalizing behindPoint trees' with
  | nil =>
    cases trees' with
    | nil => rw [hideLevel_nil, hideLevel_nil]
    | cons t' rest' => simp [hideTrees_cons, hideTrees_nil] at htrees
  | cons t rest ih =>
    cases trees' with
    | nil => simp [hideTrees_cons, hideTrees_nil] at htrees
    | cons t' rest' =>
      rw [hideTrees_cons, hideTrees_cons] at htrees
      obtain ⟨hfirst, hrest⟩ := List.cons.inj htrees
      have hpoint : isPoint t' = isPoint t := by
        have hsame := congrArg isPoint hfirst
        rwa [hideTree_isPoint, hideTree_isPoint] at hsame
      have htokens : t'.tokens.length = t.tokens.length := by
        have hsame := congrArg (fun tree : Tree => tree.tokens.length) hfirst
        rwa [hideTree_tokens, hideTree_tokens] at hsame
      rw [hpoint] at hrest
      rw [hideLevel_cons, hideLevel_cons, hpoint, ih hrest (hopen.tail htokens)]
      refine congrArg (· :: _) ?_
      cases behindPoint with
      | false => exact hfirst
      | true =>
        cases t with
        | group opener inside closer =>
          cases t' with
          | leaf token' => simp at hfirst
          | group opener' inside' closer' =>
            rw [hideTree_group, hideTree_group] at hfirst ⊢
            exact hfirst
        | leaf token =>
          cases t' with
          | group opener' inside' closer' => simp at hfirst
          | leaf token' =>
            rw [hideTree_leaf, hideTree_leaf] at hfirst ⊢
            have htoken := Tree.leaf.inj hfirst
            have hnamed : token'.name?.isSome = token.name?.isSome := by
              have hsame := congrArg (fun t : Token => t.name?.isSome) htoken
              rwa [hideToken_name?, hideToken_name?] at hsame
            cases hname : token.name? with
            | none =>
              have hname' : token'.name? = none := by
                rwa [hname, Option.isSome_none, Option.isSome_eq_false_iff, Option.isNone_iff_eq_none] at hnamed
              rw [hideToken_other hname, hideToken_other hname'] at htoken ⊢
              rw [htoken]
            | some own =>
              have hsome : token.name?.isSome = true := by rw [hname]; rfl
              rw [noPoint_name (nameOrText?_name hsome)] at hrest
              have hnew := newDeclaration_alike hending hrest
              have hsame : openName after' (leaf token') rest' = openName after (leaf token) rest := by
                rw [openName, openName, hnew]
                cases hdeclares : newDeclaration after rest with
                | false => rw [Bool.and_false, Bool.and_false]
                | true => rw [Tree.last, Tree.last, hopen [] token rest [] token' rest' rfl rfl rfl hdeclares]
              rw [hsame]
              exact congrArg leaf (hideToken_rename htoken _)

/-- A single token stands in the file behind the tokens of the trees before it. -/
lemma token_of_leaf {tokens : List Token} {nested : Nested} {before rest : List Tree} {t : Token}
    (htokens : tokens = tokensOfAll nested.trees ++ [nested.ending])
    (htrees : nested.trees = before ++ leaf t :: rest) : tokens[(tokensOfAll before).length]? = some t := by
  rw [htokens, htrees, tokensOfAll_append, tokensOfAll_cons, Tree.tokens, List.append_assoc,
    List.getElem?_append_right (Nat.le_refl _), Nat.sub_self]
  rfl

lemma leavesOpen_alike {t t' : Token} (h : t'.kind = t.kind) : leavesOpen t' = leavesOpen t := by
  unfold leavesOpen
  rw [h]

/-- Tokens of the same kinds leave an expression open alike. -/
lemma openAlike_kinds {tokens tokens' : List Token} {nested nested' : Nested}
    (hkinds : tokens'.map Token.kind = tokens.map Token.kind)
    (htokens : tokens = tokensOfAll nested.trees ++ [nested.ending])
    (htokens' : tokens' = tokensOfAll nested'.trees ++ [nested'.ending]) :
    OpenAlike nested.ending nested.trees nested'.trees := by
  intro before t rest before' t' rest' htrees htrees' hlength _
  have hkind := congrArg (·[(tokensOfAll before).length]?) hkinds
  have ht := token_of_leaf htokens htrees
  have ht' := token_of_leaf htokens' htrees'
  rw [hlength] at ht'
  simp only [List.getElem?_map, ht, ht', Option.map_some, Option.some.injEq] at hkind
  exact leavesOpen_alike hkind

lemma isPoint_kind {t t' : Token} (h : t'.kind = t.kind) : isPoint (leaf t') = isPoint (leaf t) := by
  simp only [isPoint, Tree.isPunct, Token.isPunct, h]

lemma hideToken_alike {t t' : Token} (h : placeless keep t' = placeless keep t) (name : Option String) :
    hideToken keep name t' = hideToken keep name t := by
  rw [hideToken, hideToken, h, placeless_kind h]

/-- Tokens that are the same wherever they stand are hidden alike in front of others that are. -/
lemma hideTokens_front {tokens tokens' more more' : List Token}
    (h : tokens'.map (placeless keep) = tokens.map (placeless keep))
    (hmore : ∀ behindPoint, hideTokens keep behindPoint more' = hideTokens keep behindPoint more) :
    hideTokens keep behindPoint (tokens' ++ more') = hideTokens keep behindPoint (tokens ++ more) := by
  induction tokens generalizing behindPoint tokens' with
  | nil =>
    obtain rfl := List.map_eq_nil_iff.mp h
    exact hmore behindPoint
  | cons t rest ih =>
    cases tokens' with
    | nil => cases h
    | cons t' rest' =>
      obtain ⟨hfirst, hrest⟩ := List.cons.inj h
      rw [List.cons_append, List.cons_append, hideTokens, hideTokens, isPoint_kind (placeless_kind hfirst),
        ih hrest, hideToken_alike hfirst]

lemma hideTokens_placeless {tokens tokens' : List Token}
    (h : tokens'.map (placeless keep) = tokens.map (placeless keep)) :
    hideTokens keep behindPoint tokens' = hideTokens keep behindPoint tokens := by
  have hall : hideTokens keep behindPoint (tokens' ++ []) = hideTokens keep behindPoint (tokens ++ []) :=
    hideTokens_front h fun _ => rfl
  rwa [List.append_nil, List.append_nil] at hall

/-! ## Statements of files that look alike -/

/-- A file is read from statements one behind the other. -/
lemma Sequence.statements {stmts : List (List Tree)} {o o' : Outline} (h : Sequence after o stmts o')
    {fuel : Nat} (hfuel : stmts.flatten.length ≤ fuel) :
    Source.statements after fuel o stmts.flatten = .ok o' := by
  induction h generalizing fuel with
  | ending => cases fuel <;> rfl
  | @next o o₁ o₂ stmt more nonempty read _ ih =>
    obtain ⟨t, rest, rfl⟩ := List.exists_cons_of_ne_nil nonempty
    rw [List.flatten_cons, List.length_append, List.length_cons] at hfuel
    obtain ⟨fuel, rfl⟩ : ∃ less, fuel = less + 1 := ⟨fuel - 1, by omega⟩
    have hmore := ih (by omega : more.flatten.length ≤ fuel)
    rw [List.flatten_cons, List.cons_append, Source.statements, ← List.cons_append, read]
    exact hmore

/-- The statements that a text is read as, one behind the other. -/
structure HasStatements (text : String) (f : File) (stmts : List (List Tree)) : Prop where
  file : File.ofText text = .ok f
  statements : ∃ nested, (tokenize text >>= nest) = .ok nested ∧ nested.trees = stmts.flatten ∧
    Sequence nested.ending .empty stmts f.outline

lemma hasStatements_ofText {text : String} {f : File} (h : File.ofText text = .ok f) :
    ∃ stmts, HasStatements text f stmts := by
  obtain ⟨tokens, htokenize, hnested⟩ := bind_ok h
  obtain ⟨nested, hnest, houtlined⟩ := bind_ok hnested
  obtain ⟨outline, houtline, hfile⟩ := bind_ok houtlined
  cases hfile
  obtain ⟨-, hending⟩ := nest_tokens (tokenize_tiles htokenize) hnest
  obtain ⟨stmts, htrees, hsequence⟩ := outlineOf_sequence hending (nest_openedByMarks hnest) houtline
  exact ⟨stmts, h, nested, by rw [htokenize]; exact hnest, htrees, hsequence⟩

/-- Tokens that are the same when they are hidden are read as the same statements. -/
lemma HasStatements.alike {text text' : String} {f : File} {stmts : List (List Tree)} {tokens tokens' : List Token}
    (h : HasStatements text f stmts) (htokens : tokenize text = .ok tokens) (htokens' : tokenize text' = .ok tokens')
    (hhidden : hideTokens keep false tokens' = hideTokens keep false tokens)
    (hopen : ∀ nested nested', nest tokens = .ok nested → nest tokens' = .ok nested' →
      OpenAlike nested.ending nested.trees nested'.trees) :
    ∃ f' stmts', HasStatements text' f' stmts' ∧ hideOutline keep f'.outline = hideOutline keep f.outline ∧
      boundaries stmts' = boundaries stmts := by
  obtain ⟨-, nested, hnested, htrees, hsequence⟩ := h
  rw [htokens, ok_bind] at hnested
  have hnest : (nest tokens').toOption.map (hideNested keep) = some (hideNested keep nested) := by
    rw [← nest_hidden, hhidden, nest_hidden, hnested]
    rfl
  obtain ⟨nested', hnested', hsame⟩ : ∃ nested', nest tokens' = .ok nested' ∧
      hideNested keep nested' = hideNested keep nested := by
    cases hnest' : nest tokens' with
    | error e => simp [hnest', Except.toOption] at hnest
    | ok nested' =>
      rw [hnest'] at hnest
      exact ⟨nested', rfl, Option.some.inj hnest⟩
  obtain ⟨hlevel, hend⟩ := Nested.mk.inj hsame
  obtain ⟨-, hending'⟩ := nest_tokens (tokenize_tiles htokens') hnested'
  have hopened := hopen nested nested' hnested hnested'
  rw [htrees] at hlevel hopened
  have halike : LooksAlike keep nested.ending (openName nested.ending) stmts.flatten nested'.ending
      (openName nested'.ending) nested'.trees :=
    ⟨hend, hideLevel_alike hend hlevel hopened, keepsOpen_openName _, keepsOpen_openName _⟩
  obtain ⟨stmts', o', htrees', hsequence', houtline, hboundaries⟩ :=
    halike.sequence hending' (nest_openedByMarks hnested') rfl hsequence
  have houtline' : outlineOf nested' = .ok o' := by
    rw [outlineOf, htrees']
    exact hsequence'.statements (Nat.le_refl _)
  have hfile' : File.ofText text' = .ok ⟨text', o'⟩ := by
    rw [File.ofText, htokens', ok_bind, hnested', ok_bind, houtline', ok_bind]
  refine ⟨⟨text', o'⟩, stmts', ⟨hfile', nested', ?_, htrees', hsequence'⟩, houtline, hboundaries⟩
  rw [htokens', ok_bind, hnested']

end TaskRunner.Proofs
