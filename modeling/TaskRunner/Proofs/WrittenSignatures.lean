import TaskRunner.Proofs.CommaParts
import TaskRunner.Proofs.WrittenTrees
import TaskRunner.Source.File

/-!
# Signatures read back what was written

A function that is written with literal defaults, and with options as a trailing object of literals, is
read as one export whose signature is the written one. Texts are quoted as in a script, so they may hold
quotes, backslashes, line ends, brackets and comment marks.
-/

namespace TaskRunner.Proofs
open Source Tree

/-! ## What is written -/

/-- A name that a script can give without escapes. -/
abbrev Identifier := { name : String // IsIdentifier name }

/-- A literal as a script writes it. -/
inductive LiteralForm where
  | null
  | bool (b : Bool)
  | natural (n : Nat)
  | text (s : String)

namespace LiteralForm

def source : LiteralForm → String
  | null => "null"
  | bool b => if b then "true" else "false"
  | natural n => toString n
  | text s => quoted s

/-- The literal; of a number the nearest double. -/
def value : LiteralForm → Literal
  | null => .null
  | bool b => .bool b
  | natural n => .number (Number.ofNat n)
  | text s => .text s

/-- The token that is written. -/
def kind : LiteralForm → Kind
  | null => .ident "null"
  | bool b => .ident (if b then "true" else "false")
  | natural n => .number (Number.ofNat n)
  | text s => .text s

end LiteralForm

/-- The key of a property: an identifier, or any quoted text. -/
inductive KeyForm where
  | name (k : Identifier)
  | text (s : String)

namespace KeyForm

def source : KeyForm → String
  | name k => k.val
  | text s => quoted s

def value : KeyForm → String
  | name k => k.val
  | text s => s

def kind : KeyForm → Kind
  | name k => .ident k.val
  | text s => .text s

end KeyForm

/-- A property of an options object: a literal, or `!` before one. -/
structure PropertyForm where
  key : KeyForm
  negated : Bool
  literal : LiteralForm

namespace PropertyForm

def source (p : PropertyForm) : String :=
  p.key.source ++ ": " ++ (if p.negated then "!" else "") ++ p.literal.source

/-- The option that is declared. Before a literal, `!` negates its truthiness. -/
def option (p : PropertyForm) : OptionSpec :=
  ⟨p.key.value, kebab p.key.value,
    if p.negated then .bool !p.literal.value.isTruthy else p.literal.value⟩

end PropertyForm

/-- A parameter: a positional one with or without a default, or options. -/
inductive ParamForm where
  | positional (name : Identifier) (default : Option LiteralForm)
  | options (name : Identifier) (properties : List PropertyForm)

namespace ParamForm

def source : ParamForm → String
  | positional name none => name.val
  | positional name (some default) => name.val ++ " = " ++ default.source
  | options name properties =>
    name.val ++ " = \x7b " ++ ", ".intercalate (properties.map PropertyForm.source) ++ " \x7d"

/-- The parameter that is declared. -/
def param : ParamForm → Param
  | positional name default => .positional ⟨name.val, default.map LiteralForm.value⟩
  | options _ properties => .options (properties.map PropertyForm.option)

def isOptions : ParamForm → Bool
  | positional _ _ => false
  | options _ _ => true

end ParamForm

/-- A function with positional parameters and perhaps options behind them. -/
structure SignatureForm where
  name : Identifier
  positional : List (Identifier × Option LiteralForm)
  options : Option (Identifier × List PropertyForm)

namespace SignatureForm

def params (f : SignatureForm) : List ParamForm :=
  f.positional.map (fun p => .positional p.1 p.2) ++ f.options.toList.map fun o => .options o.1 o.2

def source (f : SignatureForm) : String :=
  "export function " ++ f.name.val ++ "(" ++ ", ".intercalate (f.params.map ParamForm.source) ++
    ") \x7b\x7d"

/-- The signature that is declared. -/
def signature (f : SignatureForm) : Signature :=
  ⟨f.name.val, f.params.map ParamForm.param, none⟩

end SignatureForm

/-! ## Literals and keys -/

variable {chars rest : List Char} {trees : List Tree}

lemma readAs_identifier {name : String} (hname : IsIdentifier name) (hrest : Delimited rest) :
    ReadAs name.toList rest (IsLeaf (.ident name)) := by
  refine readAs_leaf ?_ (lexeme_identifier hname hrest) Kind.noConfusion (fun _ h => Kind.noConfusion h)
  obtain ⟨c, more, hchars, hc, -⟩ := hname
  rw [hchars]
  exact opens_cons (startsToken_of_isNameStart hc) _

lemma readAs_quoted (text : String) : ReadAs (quoted text).toList rest (IsLeaf (.text text)) := by
  refine readAs_leaf ?_ (lexeme_quoted text rest) Kind.noConfusion (fun _ h => Kind.noConfusion h)
  rw [quoted, String.toList_ofList]
  exact opens_cons ⟨by decide, by decide, by decide, by decide⟩ _

lemma readAs_natural (n : Nat) (hrest : Delimited rest) :
    ReadAs (toString n).toList rest (IsLeaf (.number (Number.ofNat n))) := by
  have hchars : (toString n).toList = Nat.toDigits 10 n := by simp
  rw [hchars]
  refine readAs_leaf ?_ (lexeme_natural n hrest) Kind.noConfusion (fun _ h => Kind.noConfusion h)
  obtain ⟨c, more, hdigits⟩ := List.exists_cons_of_ne_nil (Nat.toDigits_ne_nil (n := n) (b := 10))
  rw [hdigits]
  exact opens_cons (startsToken_of_isDigit (isDigit_toDigits c (hdigits ▸ List.mem_cons_self))) _

lemma readAs_literal (l : LiteralForm) (hrest : Delimited rest) :
    ReadAs l.source.toList rest (IsLeaf l.kind) := by
  cases l with
  | null => exact readAs_identifier (by decide +kernel) hrest
  | bool b =>
    cases b
    · exact readAs_identifier (by decide +kernel) hrest
    · exact readAs_identifier (by decide +kernel) hrest
  | natural n => exact readAs_natural n hrest
  | text s => exact readAs_quoted s

lemma literalOf_kind {l : LiteralForm} {t : Token} (h : t.kind = l.kind) :
    literalOf [leaf t] = some l.value := by
  unfold literalOf
  cases l with
  | bool b => cases b <;> simp [h, LiteralForm.kind, LiteralForm.value]
  | _ => simp [h, LiteralForm.kind, LiteralForm.value]

lemma readAs_key (k : KeyForm) (hrest : Delimited rest) :
    ReadAs k.source.toList rest (IsLeaf k.kind) := by
  cases k with
  | name k => exact readAs_identifier k.property hrest
  | text s => exact readAs_quoted s

lemma nameOrText?_kind {k : KeyForm} {t : Token} (h : t.kind = k.kind) :
    t.nameOrText? = some k.value := by
  unfold Token.nameOrText?
  cases k <;> simp [h, KeyForm.kind, KeyForm.value]

/-! ## Lists -/

/-- Trees that stand between two commas. -/
def IsPart (trees : List Tree) : Prop :=
  trees ≠ [] ∧ ∀ t ∈ trees, t.isPunct "," = false

variable {α : Type} {P : α → List Tree → Prop}

/-- Trees for each item in order, with commas between. -/
inductive Listed (P : α → List Tree → Prop) : List α → List Tree → Prop where
  | nothing : Listed P [] []
  | last {a : α} {trees : List Tree} (item : P a trees) : Listed P [a] trees
  | next {a b : α} {items : List α} {trees more : List Tree} {comma : Token} (item : P a trees)
      (mark : comma.isPunct "," = true) (tail : Listed P (b :: items) more) :
      Listed P (a :: b :: items) (trees ++ leaf comma :: more)

lemma splitAtCommas_last (h : IsPart trees) : splitAtCommas trees = [trees] :=
  (splitAtCommas_part h.2).trans (if_neg h.1)

lemma splitAtCommas_next (h : IsPart trees) {comma : Token} (hcomma : comma.isPunct "," = true)
    (more : List Tree) :
    splitAtCommas (trees ++ leaf comma :: more) = trees :: splitAtCommas more :=
  splitAtCommas_comma h.2 hcomma more

lemma Listed.parts {items : List α} (h : Listed P items trees)
    (hpart : ∀ a trees, P a trees → IsPart trees) : List.Forall₂ P items (splitAtCommas trees) := by
  induction h with
  | nothing => exact .nil
  | last item =>
    rw [splitAtCommas_last (hpart _ _ item)]
    exact .cons item .nil
  | next item mark _ ih =>
    rw [splitAtCommas_next (hpart _ _ item) mark]
    exact .cons item ih

lemma readAs_mark {c : Char} {mark : String} (h : (c, mark) = (',', ",") ∨ (c, mark) = (':', ":")) :
    ReadAs [c] rest (IsLeaf (.punct mark)) := by
  have hmark : (c, mark) ∈ plainMarks ∧ StartsToken c ∧ IsPlainMark mark := by
    rcases h with h | h
    all_goals
      obtain ⟨rfl, rfl⟩ := Prod.mk.inj h
      exact ⟨by decide, ⟨by decide, by decide, by decide, by decide⟩, by decide, by decide⟩
  obtain ⟨hmem, hopens, hplain⟩ := hmark
  refine readAs_leaf (opens_cons hopens _) (lexeme_plainMark hmem rest) Kind.noConfusion ?_
  intro mark' h
  obtain rfl := Kind.punct.inj h
  exact hplain

lemma delimited_cons {c : Char} (h : c ∈ delimiters) (rest : List Char) : Delimited (c :: rest) := by
  intro d hd
  obtain rfl := Option.mem_some.mp hd
  exact h

lemma readAs_list {written : α → List Char} (hrest : Delimited rest)
    (h : ∀ a rest, Delimited rest → ReadAs (written a) rest (P a)) (items : List α) :
    ReadAs ([',', ' '].intercalate (items.map written)) rest (Listed P items) := by
  induction items with
  | nil => exact readAs_nothing .nothing
  | cons a items ih =>
    cases items with
    | nil =>
      rw [List.map_singleton, List.intercalate_singleton]
      exact (h a rest hrest).imp fun _ hP => .last hP
    | cons b items =>
      rw [List.map_cons] at ih
      rw [List.map_cons, List.map_cons, List.intercalate_cons_cons, List.append_assoc]
      have hitem := h a (',' :: ' ' :: ([',', ' '].intercalate (written b :: items.map written) ++ rest))
        (delimited_cons (by decide) _)
      have hspace : Spaces [' '] := by simp [Spaces]
      refine (hitem.append ((readAs_mark (.inl rfl)).append (ih.behindSpaces hspace))).imp ?_
      rintro _ ⟨front, _, rfl, hP, _, more, rfl, ⟨comma, rfl, hkind, -⟩, htail⟩
      exact .next hP (by simp [Token.isPunct, hkind]) htail

/-! ## Properties -/

/-- The trees of a property, read as the option that it declares. -/
def IsProperty (p : PropertyForm) (trees : List Tree) : Prop :=
  IsPart trees ∧ optionOf trees = some p.option

lemma readAs_not (h : rest.head? ≠ some '=') : ReadAs ['!'] rest (IsLeaf (.punct "!")) := by
  refine readAs_leaf (opens_cons ⟨by decide, by decide, by decide, by decide⟩ _) (lexeme_not h)
    Kind.noConfusion ?_
  intro mark' h
  obtain rfl := Kind.punct.inj h
  exact ⟨by decide, by decide⟩

lemma literal_head (l : LiteralForm) : (l.source.toList ++ rest).head? ≠ some '=' := by
  cases l with
  | null => simp [LiteralForm.source]
  | bool b => cases b <;> simp [LiteralForm.source]
  | natural n =>
    obtain ⟨c, more, hdigits⟩ := List.exists_cons_of_ne_nil (Nat.toDigits_ne_nil (n := n) (b := 10))
    have hc : c.isDigit = true := isDigit_toDigits c (hdigits ▸ List.mem_cons_self)
    simp [LiteralForm.source, hdigits]
    rintro rfl
    revert hc
    decide
  | text s => simp [LiteralForm.source, quoted]

lemma isPunct_of_kind {t : Token} {kind : Kind} (h : t.kind = kind) (mark : String) :
    (leaf t).isPunct mark = (kind == .punct mark) := by
  rw [isPunct, Token.isPunct, h]

lemma literal_isPunct {l : LiteralForm} {t : Token} (h : t.kind = l.kind) (mark : String) :
    (leaf t).isPunct mark = false := by
  rw [isPunct_of_kind h]
  cases l <;> rfl

lemma key_isPunct {k : KeyForm} {t : Token} (h : t.kind = k.kind) (mark : String) :
    (leaf t).isPunct mark = false := by
  rw [isPunct_of_kind h]
  cases k <;> rfl

lemma readAs_property (p : PropertyForm) (hrest : Delimited rest) :
    ReadAs p.source.toList rest (IsProperty p) := by
  have hspace : Spaces [' '] := by simp [Spaces]
  obtain ⟨key, negated, literal⟩ := p
  have hvalue := readAs_literal literal hrest
  cases negated with
  | false =>
    have hchars : (PropertyForm.source ⟨key, false, literal⟩).toList =
        key.source.toList ++ ([':'] ++ ([' '] ++ literal.source.toList)) := by
      simp [PropertyForm.source]
    rw [hchars]
    refine ((readAs_key key (delimited_cons (by decide) _)).append
      ((readAs_mark (.inr rfl)).append (hvalue.behindSpaces hspace))).imp ?_
    rintro _ ⟨_, _, rfl, ⟨k, rfl, hk, -⟩, _, _, rfl, ⟨colon, rfl, hcolon, -⟩, t, rfl, ht, -⟩
    refine ⟨⟨List.cons_ne_nil _ _, ?_⟩, ?_⟩
    · simp [key_isPunct hk, isPunct_of_kind hcolon, literal_isPunct ht]
    · simp [optionOf, isPunct_of_kind hcolon, nameOrText?_kind hk, startsWithPunct,
        literal_isPunct ht, literalOf_kind ht, PropertyForm.option, OptionSpec.ofKey]
  | true =>
    have hchars : (PropertyForm.source ⟨key, true, literal⟩).toList =
        key.source.toList ++ ([':'] ++ ([' '] ++ (['!'] ++ literal.source.toList))) := by
      simp [PropertyForm.source]
    rw [hchars]
    refine ((readAs_key key (delimited_cons (by decide) _)).append
      ((readAs_mark (.inr rfl)).append
        (((readAs_not (literal_head literal)).append hvalue).behindSpaces hspace))).imp ?_
    rintro _ ⟨_, _, rfl, ⟨k, rfl, hk, -⟩, _, _, rfl, ⟨colon, rfl, hcolon, -⟩, _, _, rfl,
      ⟨bang, rfl, hbang, -⟩, t, rfl, ht, -⟩
    refine ⟨⟨List.cons_ne_nil _ _, ?_⟩, ?_⟩
    · simp [key_isPunct hk, isPunct_of_kind hcolon, isPunct_of_kind hbang, literal_isPunct ht]
    · simp [optionOf, isPunct_of_kind hcolon, nameOrText?_kind hk, startsWithPunct,
        isPunct_of_kind hbang, literalOf_kind ht, PropertyForm.option, OptionSpec.ofKey]

/-! ## Parameters -/

/-- The trees of a parameter, read as the one that it declares; as options only at the end. -/
def IsParam (p : ParamForm) (trees : List Tree) : Prop :=
  IsPart trees ∧ ∀ position isLast, (p.isOptions = true → isLast = true) →
    paramOf position isLast trees = p.param

lemma readAs_equals (rest : List Char) : ReadAs ['='] (' ' :: rest) (IsLeaf (.punct "=")) := by
  refine readAs_leaf (opens_cons ⟨by decide, by decide, by decide, by decide⟩ _)
    (lexeme_equals rest) Kind.noConfusion ?_
  intro mark' h
  obtain rfl := Kind.punct.inj h
  exact ⟨by decide, by decide⟩

/-- A name and, behind an equals sign, its default. -/
def IsDefaulted (name : String) (Q : List Tree → Prop) (trees : List Tree) : Prop :=
  ∃ n equals default, trees = leaf n :: leaf equals :: default ∧ n.kind = .ident name ∧
    equals.kind = .punct "=" ∧ Q default

lemma readAs_defaulted {Q : List Tree → Prop} {name : String} (hname : IsIdentifier name)
    (h : ReadAs chars rest Q) :
    ReadAs (name.toList ++ ' ' :: '=' :: ' ' :: chars) rest (IsDefaulted name Q) := by
  have hspace : Spaces [' '] := by simp [Spaces]
  have hequals := (readAs_equals (chars ++ rest)).append (h.behindSpaces hspace)
  refine ((readAs_identifier hname (delimited_cons (by decide) _)).append
    (hequals.behindSpaces hspace)).imp ?_
  rintro _ ⟨_, _, rfl, ⟨n, rfl, hn, -⟩, _, default, rfl, ⟨equals, rfl, hequals, -⟩, hQ⟩
  exact ⟨n, equals, default, rfl, hn, hequals, hQ⟩

lemma optionsOf_listed {properties : List PropertyForm} {opener closer : Token} {inside : List Tree}
    (hopener : opener.kind = .punct "\x7b") (h : Listed IsProperty properties inside) :
    optionsOf [group opener inside closer] = some (properties.map PropertyForm.option) := by
  have hparts : List.Forall₂ IsProperty properties (splitAtCommas inside) :=
    h.parts fun _ _ hproperty => hproperty.1
  have hoptions : ∀ {properties parts}, List.Forall₂ IsProperty properties parts →
      parts.filterMap optionOf = properties.map PropertyForm.option := by
    intro properties parts hparts
    induction hparts with
    | nil => rfl
    | cons hproperty _ ih => simp [hproperty.2, ih]
  simp [optionsOf, inside?, Token.isPunct, hopener, hoptions hparts]

lemma readAs_param (p : ParamForm) (hrest : Delimited rest) :
    ReadAs p.source.toList rest (IsParam p) := by
  cases p with
  | positional name default =>
    cases default with
    | none =>
      refine (readAs_identifier name.property hrest).imp ?_
      rintro _ ⟨t, rfl, ht, -⟩
      refine ⟨⟨List.cons_ne_nil _ _, ?_⟩, ?_⟩
      · simp [isPunct_of_kind ht]
      · intro position isLast _
        have hpositional : positionalOf position [leaf t] none = ⟨name.val, none⟩ := by
          simp [positionalOf, paramName, Tree.name?, Token.name?, ht, isSimple, Token.isPunct]
        simp [paramOf, cutAt, isPunct_of_kind ht, hpositional, ParamForm.param]
    | some default =>
      have hchars : (ParamForm.source (.positional name (some default))).toList =
          name.val.toList ++ ' ' :: '=' :: ' ' :: default.source.toList := by
        simp [ParamForm.source]
      rw [hchars]
      refine (readAs_defaulted name.property (readAs_literal default hrest)).imp ?_
      rintro _ ⟨n, equals, _, rfl, hn, hequals, t, rfl, ht, -⟩
      refine ⟨⟨List.cons_ne_nil _ _, ?_⟩, ?_⟩
      · simp [isPunct_of_kind hn, isPunct_of_kind hequals, literal_isPunct ht]
      · intro position isLast _
        have hcut : cutAt "=" [leaf n, leaf equals, leaf t] = some ([leaf n], [leaf t]) := by
          simp [cutAt, isPunct_of_kind hn, isPunct_of_kind hequals]
        simp [paramOf, hcut, optionsOf, inside?, positionalOf, paramName, Tree.name?, Token.name?, hn,
          literalOf_kind ht, ParamForm.param]
  | options name properties =>
    have hspace : Spaces [' '] := by simp [Spaces]
    have hchars : (ParamForm.source (.options name properties)).toList =
        name.val.toList ++ ' ' :: '=' :: ' ' :: braces.opener.1 ::
          ([' '] ++ [',', ' '].intercalate (properties.map fun p => p.source.toList) ++
            ([' '] ++ [braces.closer.1])) := by
      simp [ParamForm.source, braces, Function.comp_def]
    have hends : Delimited ([' '] ++ braces.closer.1 :: rest) := delimited_cons (by decide) _
    have hlist := readAs_list hends (fun p _ => readAs_property p) properties
    rw [hchars]
    refine (readAs_defaulted name.property
      (readAs_group (.inr rfl) hspace (hlist.behindSpaces hspace))).imp ?_
    rintro _ ⟨n, equals, _, rfl, hn, hequals, opener, inside, closer, rfl, hopener, hinside⟩
    refine ⟨⟨List.cons_ne_nil _ _, ?_⟩, ?_⟩
    · have hgroup : (group opener inside closer).isPunct "," = false := rfl
      simp [isPunct_of_kind hn, isPunct_of_kind hequals, hgroup]
    · intro position isLast hlast
      have hcut : cutAt "=" [leaf n, leaf equals, group opener inside closer] =
          some ([leaf n], [group opener inside closer]) := by
        simp [cutAt, isPunct_of_kind hn, isPunct_of_kind hequals]
      simp [paramOf, hcut, hlast rfl, optionsOf_listed hopener hinside, ParamForm.param]

lemma paramsFrom_listed {params : List ParamForm} {parts : List (List Tree)}
    (h : List.Forall₂ IsParam params parts) (hlast : params.Pairwise fun p _ => p.isOptions = false)
    (position : Nat) : paramsFrom position parts = params.map ParamForm.param := by
  induction h generalizing position with
  | nil => rfl
  | @cons p part params parts hparam hparts ih =>
    obtain ⟨hfront, hbehind⟩ := List.pairwise_cons.mp hlast
    have hends : p.isOptions = true → parts.isEmpty = true := by
      intro hoptions
      cases hparts with
      | nil => rfl
      | @cons q _ _ _ _ _ =>
        rw [hfront q List.mem_cons_self] at hoptions
        cases hoptions
    rw [paramsFrom, hparam.2 position _ hends, ih hbehind, List.map_cons]

lemma paramsOf_listed {params : List ParamForm} (h : Listed IsParam params trees)
    (hlast : params.Pairwise fun p _ => p.isOptions = false) :
    paramsOf trees = params.map ParamForm.param := by
  have hparts : List.Forall₂ IsParam params (splitAtCommas trees) := h.parts fun _ _ hparam => hparam.1
  have hnonempty : ∀ {params parts}, List.Forall₂ IsParam params parts →
      parts.filter (fun part => !part.isEmpty) = parts := by
    intro params parts hparts
    induction hparts with
    | nil => rfl
    | cons hparam _ ih => simp [hparam.1.1, ih]
  rw [paramsOf, hnonempty hparts, paramsFrom_listed hparts hlast]

/-- Options stand behind all other parameters. -/
lemma options_last (f : SignatureForm) : f.params.Pairwise fun p _ => p.isOptions = false := by
  rw [SignatureForm.params, List.pairwise_append]
  refine ⟨?_, ?_, ?_⟩
  · rw [List.pairwise_map]
    exact List.Pairwise.imp (fun _ => rfl) (List.pairwise_of_forall (R := fun _ _ => True) fun _ _ => trivial)
  · cases f.options <;> simp
  · intro p hp _ _
    obtain ⟨_, -, rfl⟩ := List.mem_map.mp hp
    rfl

/-! ## Functions -/

/-- The trees of an exported function with an empty body. -/
def IsFunction (f : SignatureForm) (trees : List Tree) : Prop :=
  ∃ keyword function name opener inside closer bodyOpener bodyCloser,
    trees = [leaf keyword, leaf function, leaf name, group opener inside closer,
      group bodyOpener [] bodyCloser] ∧
    (keyword.kind = .ident "export" ∧ keyword.comments = []) ∧ function.kind = .ident "function" ∧
    name.kind = .ident f.name.val ∧ opener.kind = .punct "(" ∧ bodyOpener.kind = .punct "\x7b" ∧
    Listed IsParam f.params inside

lemma toList_source (f : SignatureForm) :
    f.source.toList = "export".toList ++ ([' '] ++ ("function".toList ++ ([' '] ++
      (f.name.val.toList ++ (parentheses.opener.1 ::
        ([',', ' '].intercalate (f.params.map fun p => p.source.toList) ++
          ([] ++ [parentheses.closer.1])) ++
        ([' '] ++ (braces.opener.1 :: ([] ++ ([] ++ [braces.closer.1]))))))))) := by
  have hkeywords : "export function ".toList =
      "export".toList ++ ([' '] ++ ("function".toList ++ [' '])) := by decide
  have hmarks : "(".toList = ['('] ∧ ", ".toList = [',', ' '] ∧
      ") \x7b\x7d".toList = [')', ' ', '\x7b', '\x7d'] := by decide
  unfold SignatureForm.source
  simp only [String.toList_append, String.toList_intercalate, List.map_map, hkeywords, hmarks,
    Function.comp_def, parentheses, braces, List.append_assoc, List.cons_append, List.nil_append]

/-- The trees behind the keyword of an exported function. -/
def IsFunctionTail (f : SignatureForm) (behind : List Tree) : Prop :=
  ∀ keyword : Token, keyword.kind = .ident "export" → keyword.comments = [] →
    IsFunction f (leaf keyword :: behind)

lemma readAs_functionTail (f : SignatureForm) : ∃ tail, f.source.toList = "export".toList ++ tail ∧
    Delimited tail ∧ ReadAs tail [] (IsFunctionTail f) := by
  have hspace : Spaces [' '] := by simp [Spaces]
  have hbody : ReadAs (braces.opener.1 :: ([] ++ ([] ++ [braces.closer.1]))) []
      (IsGroupOf "\x7b" (· = [])) :=
    readAs_group (.inr rfl) spaces_nil (readAs_nothing rfl)
  have hends : Delimited ([] ++ parentheses.closer.1 ::
      ([' '] ++ braces.opener.1 :: ([] ++ ([] ++ [braces.closer.1])) ++ [])) :=
    delimited_cons (by decide) _
  have hparams := readAs_list hends (fun p _ => readAs_param p) f.params
  have hfunction : IsIdentifier "function" := by decide +kernel
  refine ⟨_, toList_source f, delimited_cons (by decide) _, ?_⟩
  refine (((readAs_identifier hfunction (delimited_cons (by decide) _)).append
    (((readAs_identifier f.name.property (delimited_cons (by decide) _)).append
      ((readAs_group (.inl rfl) spaces_nil hparams).append
        (hbody.behindSpaces hspace))).behindSpaces hspace)).behindSpaces hspace).imp ?_
  rintro _ ⟨_, _, rfl, ⟨function, rfl, hfunction, -⟩, _, _, rfl, ⟨name, rfl, hname, -⟩, _, _, rfl,
    ⟨opener, inside, closer, rfl, hopener, hinside⟩, bodyOpener, _, bodyCloser, rfl, hbodyOpener, rfl⟩
  intro keyword hkeyword hcomments
  exact ⟨keyword, function, name, opener, inside, closer, bodyOpener, bodyCloser, rfl,
    ⟨hkeyword, hcomments⟩, hfunction, hname, hopener, hbodyOpener, hinside⟩

lemma readAs_function (f : SignatureForm) : ReadAs f.source.toList [] (IsFunction f) := by
  have hexport : IsIdentifier "export" := by decide +kernel
  obtain ⟨tail, hsource, hends, htail⟩ := readAs_functionTail f
  rw [hsource]
  refine ((readAs_identifier hexport (by rwa [List.append_nil])).append htail).imp ?_
  rintro _ ⟨_, behind, rfl, ⟨keyword, rfl, hkeyword, hcomments⟩, hbehind⟩
  exact hbehind keyword hkeyword hcomments

/-- The outline of a function, with its description from the comments in front of it. -/
lemma outlineOf_functionTail {f : SignatureForm} {nested : Nested} {keyword : Token} {behind : List Tree}
    (htrees : nested.trees = leaf keyword :: behind) (hkeyword : keyword.kind = .ident "export")
    (h : IsFunctionTail f behind) :
    ∃ outline g, outlineOf nested = .ok outline ∧ outline.exports = [⟨f.name.val, f.name.val⟩] ∧
      outline.functions = [g] ∧ g.name = f.name.val ∧ signatureOf f.name.val g =
        { f.signature with
          description := (keyword.comments.getLast?.filter Comment.isBlock).bind plainComment } := by
  obtain ⟨_, function, name, opener, inside, closer, bodyOpener, bodyCloser, hbehind, -, hfunction, hname,
    hopener, hbodyOpener, hinside⟩ := h { keyword with comments := [] } hkeyword rfl
  obtain rfl := (List.cons.inj hbehind).2
  let g : LocalFunction := ⟨f.name.val, inside, some ([], bodyCloser), keyword.comments⟩
  have hsignature : signatureOf f.name.val g =
      { f.signature with
        description := (keyword.comments.getLast?.filter Comment.isBlock).bind plainComment } := by
    have hdescription : descriptionOf g =
        (keyword.comments.getLast?.filter Comment.isBlock).bind plainComment := by
      cases hplain : (keyword.comments.getLast?.filter Comment.isBlock).bind plainComment <;>
        simp [descriptionOf, g, hplain]
    simp [g, signatureOf, hdescription, paramsOf_listed hinside (options_last f), SignatureForm.signature]
  have htail : functionTail nested.ending [group opener inside closer, group bodyOpener [] bodyCloser] =
      .ok (inside, ([], bodyCloser), []) := by
    simp [functionTail, inside?, Token.isPunct, hopener, hbodyOpener]
  have hbound : nameOfToken name = .ok ⟨f.name.val, name⟩ := by
    simp [nameOfToken, Token.name?, hname]
  have hdeclare : (Outline.empty.addEdit keyword.span "").declare .lexical ⟨f.name.val, name⟩ =
      .ok ⟨[f.name.val], [], [], [], [⟨keyword.span, ""⟩]⟩ := rfl
  let o : Outline :=
    ⟨[f.name.val], [], [g], [⟨f.name.val, f.name.val⟩], [⟨keyword.span, ""⟩]⟩
  have hdeclaration : functionDeclaration nested.ending keyword.comments true
      (Outline.empty.addEdit keyword.span "")
      [leaf function, leaf name, group opener inside closer, group bodyOpener [] bodyCloser] =
      .ok (o, []) := by
    simp [functionDeclaration, dropWord, startsWithWord, Tree.isWord, Token.isWord, hfunction,
      dropPunct, startsWithPunct, isPunct_of_kind hname, ahead, first, hbound, htail, hdeclare, bind,
      Except.bind, Outline.addFunction, Outline.exportNames, Outline.addExports, g, o]
  have hexport : exportDeclaration nested.ending .empty nested.trees = .ok (o, []) := by
    simp [exportDeclaration, htrees, Tree.isWord, Token.isWord, hfunction, first, hdeclaration]
  have hstatement : statement nested.ending .empty nested.trees = .ok (o, []) := by
    rw [← hexport]
    simp [statement, startsWithWord, htrees, Tree.isWord, Token.isWord, hkeyword]
  refine ⟨o, g, ?_, rfl, rfl, rfl, hsignature⟩
  rw [htrees] at hstatement
  rw [outlineOf, htrees]
  simp [statements, hstatement, bind, Except.bind]

lemma outlineOf_function {f : SignatureForm} {nested : Nested} (h : IsFunction f nested.trees) :
    ∃ outline g, outlineOf nested = .ok outline ∧ outline.exports = [⟨f.name.val, f.name.val⟩] ∧
      outline.functions = [g] ∧ g.name = f.name.val ∧ signatureOf f.name.val g = f.signature := by
  obtain ⟨keyword, function, name, opener, inside, closer, bodyOpener, bodyCloser, htrees,
    ⟨hkeyword, hcomments⟩, htail⟩ := h
  have hbehind : IsFunctionTail f [leaf function, leaf name, group opener inside closer,
      group bodyOpener [] bodyCloser] := fun other hother hnone =>
    ⟨other, function, name, opener, inside, closer, bodyOpener, bodyCloser, rfl, ⟨hother, hnone⟩, htail⟩
  have houtline := outlineOf_functionTail htrees hkeyword hbehind
  rw [hcomments] at houtline
  exact houtline

/-- Every function written with literal defaults and trailing options is read back as written. -/
theorem written_signature_reads_back (f : SignatureForm) :
    ∃ file, File.ofText f.source = .ok file ∧
      file.exports = [⟨f.name.val, f.name.val⟩] ∧ file.signatures = [f.signature] := by
  have hfirst : firstCursor f.source.toList = Cursor.start f.source.toList := by
    rw [toList_source]
    rfl
  obtain ⟨tokens, nested, htokens, hnested, htrees⟩ := (readAs_function f).nested hfirst
  obtain ⟨outline, g, houtline, hexports, hfunctions, hname, hsignature⟩ := outlineOf_function htrees
  refine ⟨⟨f.source, outline⟩, ?_, hexports, ?_⟩
  · simp [File.ofText, htokens, hnested, houtline, bind, Except.bind]
  · simp [File.signatures, File.functionExports, File.exports, hexports, File.function?, hfunctions,
      hname, File.signature, File.localName?, hsignature]

example : SignatureForm.source ⟨⟨"ship", by decide +kernel⟩, [(⟨"host", by decide +kernel⟩, none),
    (⟨"port", by decide +kernel⟩, some (.natural 80))],
    some (⟨"o", by decide +kernel⟩, [⟨.text "dry run", true, .null⟩])⟩ =
    "export function ship(host, port = 80, o = \x7b \"dry run\": !null \x7d) \x7b\x7d" := by
  decide +kernel

end TaskRunner.Proofs
