import TaskRunner.Proofs.ArgumentMatching
import TaskRunner.Proofs.NumberTexts

/-!
# Omitted arguments

An argument or option that the words of a call leave out is passed as its declared default. The default
travels as a text and is read again by its own type, or as a switch that is off, or not at all.
-/

namespace TaskRunner.Proofs
open CommandLine

/-! ## Records -/

lemma find?_insertField_same (key : String) (value : Json) (fields : List (String × Json)) :
    (Json.insertField key value fields).find? (·.1 == key) = some (key, value) := by
  induction fields with
  | nil => simp [Json.insertField]
  | cons field rest ih =>
    rw [Json.insertField]
    split
    · simp
    · split
      · simp
      · rename_i hne
        rw [List.find?_cons_of_neg (by simpa using Ne.symm hne)]
        exact ih

lemma find?_insertField_other {key other : String} (h : key ≠ other) (value : Json)
    (fields : List (String × Json)) :
    (Json.insertField key value fields).find? (·.1 == other) = fields.find? (·.1 == other) := by
  induction fields with
  | nil => simp [Json.insertField, h]
  | cons field rest ih =>
    rw [Json.insertField]
    split
    · rw [List.find?_cons_of_neg (by simpa using h)]
    · split
      · rename_i heq
        subst heq
        rw [List.find?_cons_of_neg (by simpa using h), List.find?_cons_of_neg (by simpa using h)]
      · rw [List.find?_cons, List.find?_cons, ih]

/-- Later fields of other keys do not hide a field. -/
lemma get?_ofFields {key : String} (value : Json) (before : List (String × Json))
    {behind : List (String × Json)} (h : ∀ field ∈ behind, field.1 ≠ key) :
    (Json.ofFields (before ++ (key, value) :: behind)).get? key = some value := by
  have hlast : ∀ sorted : List (String × Json), sorted.find? (·.1 == key) = some (key, value) →
      (behind.foldl (fun sorted field => Json.insertField field.1 field.2 sorted) sorted).find?
        (·.1 == key) = some (key, value) := by
    induction behind with
    | nil => exact fun sorted hsorted => hsorted
    | cons field rest ih =>
      intro sorted hsorted
      refine ih (fun other hother => h other (List.mem_cons_of_mem _ hother)) _ ?_
      rw [find?_insertField_other (h field List.mem_cons_self)]
      exact hsorted
  rw [Json.ofFields, Json.get?, List.foldl_append, List.foldl_cons,
    hlast _ (find?_insertField_same key value _)]
  rfl

/-! ## Values -/

lemma valueOf?_eq_none {given : Given} {slot : Slot} (h : isGiven given slot = false) :
    valueOf? given slot = none := by
  have hnone : given.find? (·.1 == slot) = none := by
    rw [List.find?_eq_none]
    intro entry hentry
    exact Bool.not_eq_true _ ▸ List.any_eq_false.mp h entry hentry
  rw [valueOf?, hnone, Option.bind_none]

/-- The text of a default other than null is read back as its value. -/
lemma typedValue_shown {d : Literal} {raw : String} (h : d.shown? = some raw) :
    typedValue raw (some d) = d.toJson := by
  cases d with
  | null => cases h
  | bool b =>
    cases h
    cases b <;> rfl
  | number x =>
    cases h
    obtain ⟨y, hread, hsame⟩ := number_reads_back x
    simp only [typedValue, hread, hsame]
  | text s =>
    cases h
    rfl

lemma argumentDefault_eq {c : Command} {before behind : List ArgSpec} {a : ArgSpec}
    (hargs : c.args = before ++ a :: behind) (hfirst : ∀ b ∈ before, b.name ≠ a.name) :
    argumentDefault c a.name = defaultText a.default := by
  have hnone : before.find? (·.name == a.name) = none := by
    rw [List.find?_eq_none]
    intro b hb
    simpa using hfirst b hb
  rw [argumentDefault, hargs, List.find?_append, hnone, Option.none_or,
    List.find?_cons_of_pos (by simp), Option.bind_some]

lemma argumentValue_omitted {c : Command} {given : Given} {before behind : List ArgSpec}
    {a : ArgSpec} {d : Literal} (hargs : c.args = before ++ a :: behind)
    (hfirst : ∀ b ∈ before, b.name ≠ a.name) (hdefault : a.default = some d)
    (homitted : isGiven given (.argument a.name) = false) :
    argumentValue c given a = d.toJson := by
  rw [argumentValue, valueOf?_eq_none homitted, argumentDefault_eq hargs hfirst, hdefault]
  have htext : defaultText (some d) = d.shown? := rfl
  dsimp only [Option.orElse]
  rw [htext]
  cases hshown : d.shown? with
  | none => rfl
  | some raw => exact typedValue_shown hshown

/-- Whether an option that is left out gets its default: a switch of its own is off, whatever its
default is. -/
def KeepsDefault (o : OptionSpec) : Prop :=
  isReserved o = true ∨ o.default ≠ .bool true

/-- An option that is left out has its default if and only if it keeps it. -/
lemma optionValue_omitted {given : Given} {o : OptionSpec}
    (homitted : isGiven given (.option o.flag) = false) :
    optionValue given o = o.default.toJson ↔ KeepsDefault o := by
  unfold KeepsDefault
  by_cases hreserved : isReserved o = true
  · simp [optionValue, hreserved]
  · cases hdefault : o.default with
    | null => simp [optionValue, hreserved, hdefault, homitted, Literal.toJson]
    | bool b => cases b <;> simp [optionValue, hreserved, hdefault, homitted, Literal.toJson]
    | number x =>
      have hread : typedValue (Literal.number x).toText (some (.number x)) = (Literal.number x).toJson :=
        typedValue_shown rfl
      simp [optionValue, hreserved, hdefault, valueOf?_eq_none homitted, defaultText, Literal.shown?,
        hread]
    | text s =>
      simp [optionValue, hreserved, hdefault, valueOf?_eq_none homitted, defaultText, Literal.shown?,
        Literal.toText, Literal.toJson, typedValue]

/-! ## Calls -/

variable {c : Command} {given : Given}

/-- The values of the positional arguments come first, in declared order. -/
lemma callValues_argument {before behind : List ArgSpec} {a : ArgSpec}
    (hargs : c.args = before ++ a :: behind) :
    (callValues c given)[before.length]? = some (argumentValue c given a) := by
  have hvalues : (c.args.map (argumentValue c given))[before.length]? =
      some (argumentValue c given a) := by
    rw [List.getElem?_map, hargs, List.getElem?_append_right (Nat.le_refl _), Nat.sub_self,
      List.getElem?_cons_zero, Option.map_some]
  unfold callValues
  split
  · rw [List.getElem?_append_left (List.getElem?_eq_some_iff.mp hvalues).1, hvalues]
  · exact hvalues

lemma callValues_getElem? {i : Nat} {a : ArgSpec} (ha : c.args[i]? = some a) :
    (callValues c given)[i]? = some (argumentValue c given a) := by
  obtain ⟨hi, rfl⟩ := List.getElem?_eq_some_iff.mp ha
  have hsplit : c.args = c.args.take i ++ c.args[i] :: c.args.drop (i + 1) := by
    rw [List.getElem_cons_drop, List.take_append_drop]
  have hlength : (c.args.take i).length = i := by
    rw [List.length_take]
    omega
  rw [← callValues_argument hsplit, hlength]

/-- The options object comes behind the positional arguments. -/
lemma callValues_option {before behind : List OptionSpec} {o : OptionSpec}
    (hoptions : c.optionList = before ++ o :: behind) (hlast : ∀ b ∈ behind, b.key ≠ o.key) :
    ((callValues c given)[c.args.length]?.bind (Json.get? o.key)) = some (optionValue given o) := by
  have htakes : c.takesOptions = true := by
    unfold Command.optionList at hoptions
    cases h : c.options with
    | none => simp [h] at hoptions
    | some options => simp [Command.takesOptions, h]
  have hbehind : ∀ field ∈ behind.map fun o => (o.key, optionValue given o), field.1 ≠ o.key := by
    simpa using hlast
  have hfield := get?_ofFields (optionValue given o)
    (before.map fun o => (o.key, optionValue given o)) hbehind
  simp [callValues, htakes, hoptions, hfield]

/-- What a call passes for what its words leave out: for a positional argument its default, and for an
option its default if and only if it keeps it. Only words of the call give anything: an option its flag,
and a positional argument its value. -/
theorem omitted_defaults {r : Registry} {args : List String} {c : Command} {values : List Json}
    (h : r.invocation args = .ok (.call c values)) :
    ∃ given, CallGives r args c given ∧
      (∀ flag value, (.option flag, value) ∈ given →
        ∃ word ∈ args, ∃ inline, longForm? word = some (flag, inline)) ∧
      (∀ name value, (.argument name, value) ∈ given → ∃ word ∈ args, value = some word) ∧
      (∀ before a behind d, c.args = before ++ a :: behind → (∀ b ∈ before, b.name ≠ a.name) →
        a.default = some d → isGiven given (.argument a.name) = false →
        values[before.length]? = some d.toJson) ∧
      ∀ before o behind, c.optionList = before ++ o :: behind → (∀ b ∈ behind, b.key ≠ o.key) →
        isGiven given (.option o.flag) = false →
        (values[c.args.length]?.bind (Json.get? o.key) = some o.default.toJson ↔ KeepsDefault o) := by
  obtain ⟨given, hcall, rfl⟩ := invocation_call h
  obtain ⟨rest, hsuffix, hmatch⟩ := hcall.matched
  have hargs : ∀ word ∈ rest, word ∈ args := fun word hword =>
    hsuffix.subset (List.mem_cons_of_mem _ hword)
  refine ⟨given, hcall, ?_, ?_, ?_, ?_⟩
  · intro flag value hgiven
    obtain ⟨word, hword, inline, hform⟩ := option_given hmatch hgiven
    exact ⟨word, hargs word hword, inline, hform⟩
  · intro name value hgiven
    obtain ⟨word, hword, hvalue⟩ := argument_given hmatch hgiven
    exact ⟨word, hargs word hword, hvalue⟩
  · intro before a behind d hargs hfirst hdefault homitted
    rw [callValues_argument hargs, argumentValue_omitted hargs hfirst hdefault homitted]
  · intro before o behind hoptions hlast homitted
    rw [callValues_option hoptions hlast, Option.some.injEq]
    exact optionValue_omitted homitted

/-- A command with a region, a cache that is on by default and a target that is off by default. -/
def deploy : Command :=
  { Command.ofFunction "deploy" with
    args := [⟨"region", some (.text "eu")⟩]
    options := some [⟨"cache", "cache", .bool true⟩, ⟨"target", "target", .null⟩] }

/-- The values of a call that leaves out everything. -/
def deployValues : List Json :=
  [.text "eu", .record [("cache", .bool false), ("target", .null)]]

theorem omitted_defaults_deploy :
    Registry.invocation ⟨[deploy]⟩ ["deploy"] = .ok (.call deploy deployValues) ∧
    ∃ given, CallGives ⟨[deploy]⟩ ["deploy"] deploy given ∧
      isGiven given (.argument "region") = false ∧ deployValues[0]? = some (.text "eu") ∧
      isGiven given (.option "target") = false ∧
      (deployValues[1]?.bind (Json.get? "target") = some .null ↔
        KeepsDefault ⟨"target", "target", .null⟩) := by
  have hcall : Registry.invocation ⟨[deploy]⟩ ["deploy"] = .ok (.call deploy deployValues) := rfl
  obtain ⟨given, hgives, -, -, harguments, hoptions⟩ := omitted_defaults hcall
  have hnothing : given = [] := by
    obtain ⟨rest, hsuffix, hmatch⟩ := hgives.matched
    have hrest : rest = [] := by simpa using hsuffix.length_le
    rw [hrest] at hmatch
    exact (Except.ok.inj hmatch).symm
  subst hnothing
  refine ⟨hcall, [], hgives, rfl, ?_, rfl, ?_⟩
  · exact harguments [] ⟨"region", some (.text "eu")⟩ [] (.text "eu") rfl (by simp) rfl rfl
  · exact hoptions [⟨"cache", "cache", .bool true⟩] ⟨"target", "target", .null⟩ [] rfl (by simp) rfl

/-- A switch that is on by default is passed as off when it is left out. -/
theorem omitted_switch_is_off :
    deploy.optionList.head? = some ⟨"cache", "cache", .bool true⟩ ∧
    ∃ values, Registry.invocation ⟨[deploy]⟩ ["deploy"] = .ok (.call deploy values) ∧
      values[1]?.bind (Json.get? "cache") = some (.bool false) ∧
      values[1]?.bind (Json.get? "cache") ≠ some (Literal.bool true).toJson := by
  refine ⟨rfl, deployValues, rfl, rfl, ?_⟩
  intro h
  cases h

end TaskRunner.Proofs
