import TaskRunner.Proofs.OmittedDefaults
import TaskRunner.Proofs.WellFormedCommands

/-!
# The object that is passed for an object literal

A function whose last parameter defaults to an object literal is always passed an object in its place, with
those properties of the literal whose values are literals. And it is passed one value for every parameter,
for one that takes the rest of the arguments too.
-/

namespace TaskRunner.Proofs
open Source CommandLine

/-! ## Properties of an object literal -/

/-- What stands in an object literal. -/
def literalInside? : List Tree → Option (List Tree)
  | [t] => (t.inside? "\x7b").map (·.1)
  | _ => none

/-- What stands in the object literal that the last parameter defaults to. -/
def trailingLiteral (parts : List (List Tree)) : Option (List Tree) :=
  (parts.getLast?.bind defaultOf?).bind literalInside?

/-- The key that a token stands for in front of a property. -/
def keyOf? (t : Token) : Option String :=
  match t.kind with
  | .number value => some (Literal.number value).toText
  | _ => t.nameOrText?

/-- The key of a property of an object literal that has a value, is shorthand for one or is a method or an
accessor. A key that is computed is known only when the file runs, and so are those that are spread. -/
def writtenKey? : List Tree → Option String
  | [.leaf t] => t.name?
  | .leaf t :: next :: rest =>
    if next.isPunct ":" || next.isGroup "(" then keyOf? t
    else if t.isWord "get" || t.isWord "set" || t.isWord "async" || t.isPunct "*" then
      writtenKey? (next :: rest)
    else none
  | _ => none

/-- The property has a value that is a literal or a negated one, and a key that is no number. -/
inductive IsPlain (key : String) : List Tree → Prop
  | literal {t : Token} {colon : Tree} {value : List Tree} {l : Literal}
      (name : t.nameOrText? = some key) (isColon : colon.isPunct ":" = true)
      (isLiteral : literalOf value = some l) : IsPlain key (.leaf t :: colon :: value)
  | negated {t : Token} {colon mark : Tree} {value : List Tree} {l : Literal}
      (name : t.nameOrText? = some key) (isColon : colon.isPunct ":" = true)
      (isMark : mark.isPunct "!" = true) (isLiteral : literalOf value = some l) :
      IsPlain key (.leaf t :: colon :: mark :: value)

lemma literalOf_noMark {value : List Tree} {l : Literal} (h : literalOf value = some l) (mark : String) :
    startsWithPunct value mark = false := by
  unfold literalOf at h
  split at h
  · rename_i t
    have hkind : ∀ other : Kind, t.kind = other → (other == .punct mark) = false →
        startsWithPunct [.leaf t] mark = false := by
      intro other hother hne
      simpa [startsWithPunct, Source.Tree.isPunct, Token.isPunct, hother] using hne
    split at h
    · exact hkind _ ‹_› rfl
    · exact hkind _ ‹_› rfl
    · exact hkind _ ‹_› rfl
    · cases h
  · cases h

lemma isPlain_iff {key : String} {property : List Tree} :
    IsPlain key property ↔ ∃ o, optionOf property = some o ∧ o.key = key := by
  refine ⟨?_, ?_⟩
  · rintro (⟨name, isColon, isLiteral⟩ | ⟨name, isColon, isMark, isLiteral⟩)
    · rename_i l
      refine ⟨OptionSpec.ofKey key l, ?_, rfl⟩
      simp [optionOf, isColon, name, literalOf_noMark isLiteral, isLiteral]
    · rename_i l
      refine ⟨OptionSpec.ofKey key (.bool !l.isTruthy), ?_, rfl⟩
      simp [optionOf, isColon, name, startsWithPunct, isMark, isLiteral]
  · rintro ⟨o, hoption, rfl⟩
    unfold optionOf at hoption
    split at hoption
    · split at hoption
      · rename_i key colon value isColon
        obtain ⟨name, hname, hoption⟩ := Option.bind_eq_some_iff.mp hoption
        split at hoption
        · rename_i hmark
          obtain ⟨l, hliteral, rfl⟩ := Option.map_eq_some_iff.mp hoption
          obtain ⟨mark, rest, rfl⟩ : ∃ mark rest, value = mark :: rest := by
            cases value with
            | nil => cases hmark
            | cons mark rest => exact ⟨mark, rest, rfl⟩
          exact .negated hname isColon hmark hliteral
        · obtain ⟨l, hliteral, rfl⟩ := Option.map_eq_some_iff.mp hoption
          exact .literal hname isColon hliteral
      · cases hoption
    · cases hoption

lemma trailingOptions_eq (parts : List (List Tree)) :
    trailingOptions parts =
      (trailingLiteral parts).map fun inside => (splitAtCommas inside).filterMap optionOf := by
  unfold trailingOptions trailingLiteral
  cases parts.getLast?.bind defaultOf? with
  | none => rfl
  | some default =>
    rw [Option.bind_some, Option.bind_some]
    rcases default with _ | ⟨t, _ | ⟨u, rest⟩⟩
    · rfl
    · rw [optionsOf, literalInside?, Option.map_map]
      rfl
    · rfl

/-! ## What is passed -/

lemma get?_ofFields_isSome {key : String} (fields : List (String × Json)) :
    ((Json.ofFields fields).get? key).isSome = true ↔ key ∈ fields.map Prod.fst := by
  have hfold : ∀ sorted : List (String × Json),
      ((fields.foldl (fun sorted field => Json.insertField field.1 field.2 sorted) sorted).find?
        (·.1 == key)).isSome = true ↔
      (sorted.find? (·.1 == key)).isSome = true ∨ key ∈ fields.map Prod.fst := by
    induction fields with
    | nil => simp
    | cons field rest ih =>
      intro sorted
      rw [List.foldl_cons, ih]
      by_cases hkey : field.1 = key
      · subst hkey
        simp [find?_insertField_same]
      · rw [find?_insertField_other hkey]
        simp [Ne.symm hkey]
  rw [Json.ofFields, Json.get?, Option.isSome_map, hfold]
  simp

/-- A parameter that takes the rest of the arguments. -/
def IsRest (part : List Tree) : Prop :=
  startsWithPunct part "..." = true

/-- The values of a call stand for what a call without them would mean: where the last parameter defaults
to an object literal, the properties written in it are passed, or else nothing is; and a parameter that
takes the rest of the arguments gets none. -/
structure LosesNothing (parts : List (List Tree)) (values : List Json) : Prop where
  properties : ∀ inside, trailingLiteral parts = some inside →
    values[parts.length - 1]? = none ∨ values[parts.length - 1]? = some .null ∨
      ∀ property ∈ splitAtCommas inside, ∀ key, writtenKey? property = some key →
        (values[parts.length - 1]?.bind (Json.get? key)).isSome = true
  rest : ∀ i part, parts[i]? = some part → IsRest part → values.length ≤ i

/-- Every property written in the object literal that the last parameter defaults to has a plain value, or
another property of its key has, and no parameter takes the rest of the arguments. -/
structure PlainParts (parts : List (List Tree)) : Prop where
  properties : ∀ inside, trailingLiteral parts = some inside →
    ∀ property ∈ splitAtCommas inside, ∀ key, writtenKey? property = some key →
      ∃ plain ∈ splitAtCommas inside, IsPlain key plain
  rest : ∀ part ∈ parts, ¬ IsRest part

variable {f : File} {ns : String} {c : Command}

/-- One value is passed for every parameter. -/
lemma callValues_length (hc : c ∈ f.commands ns) (given : Given) :
    (callValues c given).length = (partsOf f c).length := by
  obtain ⟨hargs, hoptions⟩ := command_params hc
  unfold callValues Command.takesOptions
  rw [hargs, hoptions]
  unfold argumentParts
  cases htrailing : trailingOptions (partsOf f c) with
  | none => simp
  | some specs =>
    have hne : partsOf f c ≠ [] := by
      intro hnil
      rw [hnil] at htrailing
      cases htrailing
    have hpos := List.length_pos_iff.mpr hne
    simp
    omega

/-- For a last parameter with an object literal stands an object with the plain properties of it. -/
lemma callValues_trailing (hc : c ∈ f.commands ns) (given : Given) {inside : List Tree}
    (hinside : trailingLiteral (partsOf f c) = some inside) :
    ∃ fields, (callValues c given)[(partsOf f c).length - 1]? = some (.record fields) ∧
      ∀ key, ((Json.record fields).get? key).isSome = true ↔
        ∃ plain ∈ splitAtCommas inside, IsPlain key plain := by
  obtain ⟨hargs, hoptions⟩ := command_params hc
  rw [trailingOptions_eq, hinside, Option.map_some] at hoptions
  have htakes : c.takesOptions = true := by rw [Command.takesOptions, hoptions]; rfl
  have hlength : c.args.length = (partsOf f c).length - 1 := by
    have hall := callValues_length hc given
    rw [callValues, if_pos htakes, List.length_append, List.length_map, List.length_singleton] at hall
    omega
  obtain ⟨fields, hfields⟩ :
      ∃ fields, Json.ofFields (c.optionList.map fun o => (o.key, optionValue given o)) = .record fields :=
    ⟨_, rfl⟩
  refine ⟨fields, ?_, fun key => ?_⟩
  · rw [callValues, if_pos htakes, ← hlength, List.getElem?_append_right (by simp)]
    simp [hfields]
  · rw [← hfields, get?_ofFields_isSome, Command.optionList, hoptions, Option.getD_some, List.map_map]
    simp only [List.mem_map, List.mem_filterMap, isPlain_iff, Function.comp_apply]
    refine ⟨?_, ?_⟩
    · rintro ⟨o, ⟨plain, hplain, hoption⟩, hkey⟩
      exact ⟨plain, hplain, o, hoption, hkey⟩
    · rintro ⟨plain, hplain, o, hoption, hkey⟩
      exact ⟨o, ⟨plain, hplain, hoption⟩, hkey⟩

/-- The values of a call lose nothing of the parameters that its function declares if and only if all that
is written of them is plain. -/
theorem call_loses_nothing_iff {r : Registry} {args : List String} {values : List Json}
    (hc : c ∈ f.commands ns) (h : r.invocation args = .ok (.call c values)) :
    LosesNothing (partsOf f c) values ↔ PlainParts (partsOf f c) := by
  obtain ⟨given, -, rfl⟩ := invocation_call h
  have hlength := callValues_length hc given
  refine ⟨?_, ?_⟩
  · rintro ⟨hproperties, hrest⟩
    refine ⟨fun inside hinside property hproperty key hwrites => ?_, fun part hpart hisRest => ?_⟩
    · obtain ⟨fields, hrecord, hkeys⟩ := callValues_trailing hc given hinside
      rw [← hkeys]
      rcases hproperties inside hinside with hnone | hnull | hall
      · rw [hrecord] at hnone
        cases hnone
      · rw [hrecord] at hnull
        cases hnull
      · have hsome := hall property hproperty key hwrites
        rwa [hrecord, Option.bind_some] at hsome
    · obtain ⟨i, hi, rfl⟩ := List.getElem_of_mem hpart
      have hle := hrest i _ (List.getElem?_eq_getElem hi) hisRest
      omega
  · rintro ⟨hproperties, hrest⟩
    refine ⟨fun inside hinside => .inr (.inr fun property hproperty key hwrites => ?_), ?_⟩
    · obtain ⟨fields, hrecord, hkeys⟩ := callValues_trailing hc given hinside
      rw [hrecord, Option.bind_some, hkeys]
      exact hproperties inside hinside property hproperty key hwrites
    · intro i part hpart hisRest
      exact absurd hisRest (hrest part (List.mem_of_getElem? hpart))

/-- A file whose function has options with plain values. -/
def retrying : String :=
  "export function main(o = \x7b retries: 3, 'dry run': !1 \x7d) \x7b return o \x7d\n"

/-- The command of that function. -/
def retryingCommand : Command :=
  { Command.ofFunction "main" with
    options := some [⟨"retries", "retries", .number 3⟩, ⟨"dry run", "dry run", .bool false⟩] }

/-- The values of a call of it that gives nothing. -/
def retryingValues : List Json :=
  [.record [("dry run", .bool false), ("retries", .int 3)]]

theorem call_loses_nothing_iff_retrying :
    ∃ f, File.ofText retrying = .ok f ∧ retryingCommand ∈ f.commands "" ∧
      Registry.invocation ⟨[retryingCommand]⟩ ["main"] = .ok (.call retryingCommand retryingValues) ∧
      (LosesNothing (partsOf f retryingCommand) retryingValues ↔ PlainParts (partsOf f retryingCommand)) ∧
      PlainParts (partsOf f retryingCommand) := by
  have hread : (File.ofText retrying).toOption.map (fun f => (f.commands "",
      (partsOf f retryingCommand).map (startsWithPunct · "..."),
      (trailingLiteral (partsOf f retryingCommand)).map fun inside =>
        (splitAtCommas inside).all fun property =>
          writtenKey? property == (optionOf property).map OptionSpec.key)) =
      some ([retryingCommand], [false], some true) := by
    decide +kernel
  have hcall : Registry.invocation ⟨[retryingCommand]⟩ ["main"] =
      .ok (.call retryingCommand retryingValues) := rfl
  obtain ⟨f, hf, hread⟩ := Option.map_eq_some_iff.mp hread
  obtain ⟨hcommands, hread⟩ := Prod.mk.inj hread
  obtain ⟨hrest, hwritten⟩ := Prod.mk.inj hread
  have hmem : retryingCommand ∈ f.commands "" := by rw [hcommands]; exact List.mem_cons_self
  refine ⟨f, ok_of_toOption hf, hmem, hcall, call_loses_nothing_iff hmem hcall, ?_, ?_⟩
  · intro inside hinside property hproperty key hkey
    rw [hinside, Option.map_some, Option.some.injEq] at hwritten
    have hsame := beq_iff_eq.mp (List.all_eq_true.mp hwritten property hproperty)
    exact ⟨property, hproperty, isPlain_iff.mpr (Option.map_eq_some_iff.mp (hsame ▸ hkey))⟩
  · intro part hpart hisRest
    have hfalse : startsWithPunct part "..." ∈ [false] := hrest ▸ List.mem_map_of_mem hpart
    rw [show startsWithPunct part "..." = true from hisRest] at hfalse
    cases List.mem_singleton.mp hfalse

/-- A file whose function has an option with a negative value. -/
def negative : String :=
  "export function main(o = \x7b retries: -1 \x7d) \x7b console.log(String(o.retries)) \x7d\n"

/-- The command of that function: the option is not known. -/
def negativeCommand : Command :=
  { Command.ofFunction "main" with options := some [] }

/-- An object without the property is passed in place of the one that has it. -/
theorem negative_value_is_lost :
    ∃ f, File.ofText negative = .ok f ∧ negativeCommand ∈ f.commands "" ∧
      Registry.invocation ⟨[negativeCommand]⟩ ["main"] = .ok (.call negativeCommand [.record []]) ∧
      ¬ LosesNothing (partsOf f negativeCommand) [.record []] := by
  have hread : (File.ofText negative).toOption.map (fun f => (f.commands "",
      (partsOf f negativeCommand).length, (trailingLiteral (partsOf f negativeCommand)).map fun inside =>
        (splitAtCommas inside).map writtenKey?)) =
      some ([negativeCommand], 1, some [some "retries"]) := by
    decide +kernel
  obtain ⟨f, hf, hread⟩ := Option.map_eq_some_iff.mp hread
  obtain ⟨hcommands, hread⟩ := Prod.mk.inj hread
  obtain ⟨hlength, hwritten⟩ := Prod.mk.inj hread
  obtain ⟨inside, hinside, hkeys⟩ := Option.map_eq_some_iff.mp hwritten
  refine ⟨f, ok_of_toOption hf, by rw [hcommands]; exact List.mem_cons_self, rfl, fun h => ?_⟩
  obtain ⟨property, hproperty, hkey⟩ : ∃ property ∈ splitAtCommas inside,
      writtenKey? property = some "retries" := by
    rw [← List.mem_map, hkeys]
    exact List.mem_cons_self
  have hpassed := h.properties inside hinside
  rw [hlength] at hpassed
  rcases hpassed with hnone | hnull | hall
  · cases hnone
  · cases hnull
  · have hpresent := hall property hproperty "retries" hkey
    cases hpresent

end TaskRunner.Proofs
