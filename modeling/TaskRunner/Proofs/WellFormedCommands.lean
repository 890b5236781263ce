import Mathlib.Data.List.Nodup
import TaskRunner.Proofs.ArgumentMatching
import TaskRunner.Source.File

/-!
# Well-formed commands

The arguments and options of a command are those that the parameter list of its function declares: a last
parameter that defaults to an object literal declares the options, every other one an argument.

Arguments are matched by names that are made of the source: a pattern is called by its position, and an
option by the dash-separated form of its key. Different things of the source may so meet under one name.
A command is well-formed unless that happens, or an argument that must be given follows one that need not.
-/

namespace TaskRunner.Proofs
open Source CommandLine

/-! ## Parts of a parameter list -/

/-- What a parameter binds, without its default. -/
def targetOf (part : List Tree) : List Tree :=
  match cutAt "=" part with
  | some (target, _) => target
  | none => part

/-- The default of a parameter. -/
def defaultOf? (part : List Tree) : Option (List Tree) :=
  (cutAt "=" part).map (·.2)

/-- The options that the last parameter declares, if it defaults to an object literal. -/
def trailingOptions (parts : List (List Tree)) : Option (List OptionSpec) :=
  (parts.getLast?.bind defaultOf?).bind optionsOf

/-- The parameters that declare an argument each. -/
def argumentParts (parts : List (List Tree)) : List (List Tree) :=
  if (trailingOptions parts).isSome then parts.dropLast else parts

/-- The parameters of a function, without the commas between them. -/
def LocalFunction.parts (g : LocalFunction) : List (List Tree) :=
  (splitAtCommas g.params).filter fun part => !part.isEmpty

/-- The parameters of a command's function; none if there is no such function. -/
def partsOf (f : File) (c : Command) : List (List Tree) :=
  match f.function? c.target with
  | some g => LocalFunction.parts g
  | none => []

/-- The argument that a parameter at a position declares. -/
def argumentOf (position : Nat) (part : List Tree) : ArgSpec :=
  positionalOf position (targetOf part) (defaultOf? part)

lemma paramOf_first (position : Nat) (part : List Tree) :
    paramOf position false part = .positional (argumentOf position part) := by
  unfold paramOf argumentOf targetOf defaultOf?
  cases cutAt "=" part with
  | none => rfl
  | some cut => rfl

lemma paramOf_last (position : Nat) (part : List Tree) :
    paramOf position true part = match (defaultOf? part).bind optionsOf with
      | some specs => .options specs
      | none => .positional (argumentOf position part) := by
  unfold paramOf argumentOf targetOf defaultOf?
  cases cutAt "=" part with
  | none => rfl
  | some cut => rfl

lemma paramsFrom_eq (position : Nat) (parts : List (List Tree)) :
    paramsFrom position parts =
      ((argumentParts parts).mapIdx fun i part => argumentOf (position + i) part).map Param.positional ++
        ((trailingOptions parts).map Param.options).toList := by
  induction parts generalizing position with
  | nil => rfl
  | cons part rest ih =>
    cases rest with
    | nil =>
      have hlast : trailingOptions [part] = (defaultOf? part).bind optionsOf := rfl
      rw [paramsFrom, paramsFrom, List.isEmpty_nil, paramOf_last, argumentParts, hlast]
      cases (defaultOf? part).bind optionsOf with
      | none => simp
      | some specs => simp
    | cons next rest =>
      have htrailing : trailingOptions (part :: next :: rest) = trailingOptions (next :: rest) := by
        rw [trailingOptions, List.getLast?_cons_cons]
        rfl
      have harguments : argumentParts (part :: next :: rest) = part :: argumentParts (next :: rest) := by
        unfold argumentParts
        rw [htrailing]
        split
        · rw [List.dropLast_cons_of_ne_nil (List.cons_ne_nil _ _)]
        · rfl
      rw [paramsFrom, List.isEmpty_cons, paramOf_first, ih, htrailing, harguments, List.mapIdx_cons,
        List.map_cons, List.cons_append]
      simp only [Nat.add_zero, Nat.add_assoc, Nat.add_comm 1]

/-! ## Commands -/

lemma signature_params {s : Signature} {args : List ArgSpec} {options : Option (List OptionSpec)}
    (h : s.params = args.map Param.positional ++ (options.map Param.options).toList) :
    s.positional = args ∧ s.options = options := by
  unfold Signature.positional Signature.options
  rw [h]
  clear h
  induction args with
  | nil => cases options <;> simp
  | cons a rest ih =>
    obtain ⟨hargs, hoptions⟩ := ih
    exact ⟨congrArg (a :: ·) hargs, hoptions⟩

/-- The arguments and options of a command, by the parts of its function's parameter list. -/
lemma command_params {f : File} {ns : String} {c : Command} (hc : c ∈ f.commands ns) :
    c.args = (argumentParts (partsOf f c)).mapIdx argumentOf ∧
      c.options = trailingOptions (partsOf f c) := by
  obtain ⟨e, -, rfl⟩ := List.mem_map.mp hc
  unfold partsOf Signature.toCommand Command.withComment
  dsimp only
  unfold File.signature
  cases f.function? ((f.localName? e.exported).getD e.exported) with
  | none => exact ⟨rfl, rfl⟩
  | some g =>
    refine signature_params ?_
    have hparams := paramsFrom_eq 0 (LocalFunction.parts g)
    simp only [Nat.zero_add] at hparams
    exact hparams

/-! ## What a command line demands -/

/-- What the matching of arguments demands of a command: what is matched has one name, flags included that
are known everywhere, a long flag stands for one thing, and the arguments that must be given come first. -/
structure WellFormed (c : Command) : Prop where
  slots : ((commandLevel c).positionals ++
    (commandLevel c).longFlags.filterMap fun flag => slotOf flag.2).Nodup
  longFlags : ((commandLevel c).longFlags.map Prod.fst).Nodup
  requiredFirst : c.args.Pairwise fun a b => b.isRequired = true → a.isRequired = true

/-- The parameter takes one argument by its name and has no default. -/
def IsRequiredPart (part : List Tree) : Prop :=
  isSimple (targetOf part) = true ∧ defaultOf? part = none

/-- What well-formedness comes to in the source. -/
structure DistinctParts (parts : List (List Tree)) : Prop where
  /-- No name is declared by two parameters. -/
  names : (argumentParts parts).Pairwise fun a b =>
    ∀ name, paramName (targetOf a) = some name → paramName (targetOf b) ≠ some name
  /-- No parameter is named as a pattern is called, by its position counted from one. -/
  patterns : ∀ i part, (argumentParts parts)[i]? = some part → paramName (targetOf part) = none →
    ∀ other ∈ argumentParts parts, paramName (targetOf other) ≠ some ("arg" ++ toString (i + 1))
  /-- No two keys have one flag, if it is not reserved. -/
  keys : (((trailingOptions parts).getD []).filter fun o => !isReserved o).Pairwise fun a b =>
    kebab a.key ≠ kebab b.key
  /-- No parameter that must be given stands behind one that may be omitted. -/
  requiredFirst : (argumentParts parts).Pairwise fun a b => IsRequiredPart b → IsRequiredPart a

/-! ## Names, flags and order -/

lemma commandLevel_slots (c : Command) :
    (commandLevel c).positionals ++ (commandLevel c).longFlags.filterMap (fun flag => slotOf flag.2) =
      (c.args.map fun a => Slot.argument a.name) ++
        (((ownOptions c).map fun o => Slot.option o.flag) ++ GlobalFlag.all.map Slot.global) := by
  have hown : ((ownOptions c).map optionLongFlag).filterMap (fun flag => slotOf flag.2) =
      (ownOptions c).map fun o => Slot.option o.flag := by
    simp [List.filterMap_map, slotOf_optionLongFlag]
  have hglobal : globalLongFlags.filterMap (fun flag => slotOf flag.2) =
      GlobalFlag.all.map Slot.global := rfl
  unfold commandLevel
  rw [List.filterMap_append, List.filterMap_append, hown, hglobal]
  exact congrArg _ (List.append_nil _)

lemma commandLevel_flags (c : Command) :
    (commandLevel c).longFlags.map Prod.fst =
      (ownOptions c).map OptionSpec.flag ++ (GlobalFlag.all.map GlobalFlag.name ++ ["help"]) := by
  simp [commandLevel, globalLongFlags, optionLongFlag, Function.comp_def]

/-- An option of its own has none of the flags that are known everywhere. -/
lemma ownOptions_free {c : Command} {o : OptionSpec} (h : o ∈ ownOptions c) :
    o.flag ∉ GlobalFlag.all.map GlobalFlag.name ++ ["help"] := by
  have hfree : isReserved o = false := by simpa using (List.mem_filter.mp h).2
  intro hmem
  have hreserved : o.flag ∈ reservedFlags := by
    rcases List.mem_append.mp hmem with hmem | hmem
    · exact List.mem_append_right _ hmem
    · rw [List.mem_singleton.mp hmem]
      exact List.mem_cons_self
  rw [isReserved, List.contains_iff_mem.mpr hreserved] at hfree
  cases hfree

lemma wellFormed_iff {c : Command} : WellFormed c ↔
    (c.args.map ArgSpec.name).Nodup ∧ ((ownOptions c).map OptionSpec.flag).Nodup ∧
      c.args.Pairwise fun a b => b.isRequired = true → a.isRequired = true := by
  have hnames : (c.args.map fun a => Slot.argument a.name).Nodup ↔ (c.args.map ArgSpec.name).Nodup := by
    rw [← List.nodup_map_iff (f := Slot.argument) fun _ _ heq => Slot.argument.inj heq, List.map_map]
    rfl
  have hoptions : ((ownOptions c).map fun o => Slot.option o.flag).Nodup ↔
      ((ownOptions c).map OptionSpec.flag).Nodup := by
    rw [← List.nodup_map_iff (f := Slot.option) fun _ _ heq => Slot.option.inj heq, List.map_map]
    rfl
  refine ⟨?_, ?_⟩
  · rintro ⟨hslots, hflags, hrequired⟩
    rw [commandLevel_slots, List.nodup_append] at hslots
    rw [commandLevel_flags, List.nodup_append] at hflags
    exact ⟨hnames.mp hslots.1, hflags.1, hrequired⟩
  · rintro ⟨hargs, hflags, hrequired⟩
    refine ⟨?_, ?_, hrequired⟩
    · rw [commandLevel_slots, List.nodup_append, List.nodup_append]
      refine ⟨hnames.mpr hargs, ⟨hoptions.mpr hflags, by decide, ?_⟩, ?_⟩
      · intro slot hslot other hother heq
        obtain ⟨o, -, rfl⟩ := List.mem_map.mp hslot
        obtain ⟨flag, -, rfl⟩ := List.mem_map.mp hother
        cases heq
      · intro slot hslot other hother heq
        obtain ⟨a, -, rfl⟩ := List.mem_map.mp hslot
        rcases List.mem_append.mp hother with hother | hother
        · obtain ⟨o, -, rfl⟩ := List.mem_map.mp hother
          cases heq
        · obtain ⟨flag, -, rfl⟩ := List.mem_map.mp hother
          cases heq
    · rw [commandLevel_flags, List.nodup_append]
      refine ⟨hflags, by decide +kernel, ?_⟩
      intro flag hflag other hother heq
      obtain ⟨o, ho, rfl⟩ := List.mem_map.mp hflag
      exact ownOptions_free ho (heq ▸ hother)

/-! ## Names of parameters -/

lemma toString_inj {m n : Nat} (h : toString m = toString n) : m = n := by
  rw [Nat.toString_eq_ofList_toDigits, Nat.toString_eq_ofList_toDigits] at h
  have hdigits := congrArg String.toList h
  rw [String.toList_ofList, String.toList_ofList] at hdigits
  calc m = Nat.ofDigitChars 10 (Nat.toDigits 10 m) 0 := Nat.ofDigitChars_ten_toDigits.symm
    _ = Nat.ofDigitChars 10 (Nat.toDigits 10 n) 0 := by rw [hdigits]
    _ = n := Nat.ofDigitChars_ten_toDigits

/-- The name of an argument is the declared one, or the one of its position. -/
lemma argument_names (parts : List (List Tree)) :
    (parts.mapIdx argumentOf).map ArgSpec.name =
      parts.mapIdx fun i part => (paramName (targetOf part)).getD ("arg" ++ toString (i + 1)) := by
  refine List.ext_getElem (by simp) fun i hi hi' => ?_
  simp [argumentOf, positionalOf]

/-- Arguments have different names if and only if no two of them are declared with one name and none with
that of a pattern's position. -/
lemma argument_names_nodup_iff (parts : List (List Tree)) :
    ((parts.mapIdx argumentOf).map ArgSpec.name).Nodup ↔
      (parts.Pairwise fun a b =>
        ∀ name, paramName (targetOf a) = some name → paramName (targetOf b) ≠ some name) ∧
      ∀ i part, parts[i]? = some part → paramName (targetOf part) = none →
        ∀ other ∈ parts, paramName (targetOf other) ≠ some ("arg" ++ toString (i + 1)) := by
  rw [argument_names, List.Nodup, List.pairwise_iff_getElem, List.pairwise_iff_getElem]
  simp only [List.getElem_mapIdx, List.length_mapIdx]
  refine ⟨fun h => ⟨?_, ?_⟩, ?_⟩
  · intro i j hi hj hlt name ha hb
    exact h i j hi hj hlt (by rw [ha, hb]; rfl)
  · intro i part hpart hnone other hother hname
    obtain ⟨hi, rfl⟩ := List.getElem?_eq_some_iff.mp hpart
    obtain ⟨j, hj, rfl⟩ := List.getElem_of_mem hother
    rcases Nat.lt_trichotomy i j with hlt | rfl | hlt
    · exact h i j hi hj hlt (by rw [hnone, hname]; rfl)
    · rw [hnone] at hname
      cases hname
    · exact h j i hj hi hlt (by rw [hnone, hname]; rfl)
  · rintro ⟨hnames, hpatterns⟩ i j hi hj hlt heq
    cases ha : paramName (targetOf parts[i]) with
    | none =>
      cases hb : paramName (targetOf parts[j]) with
      | none =>
        -- Two patterns are called by their positions, which are different.
        rw [ha, hb, Option.getD_none, Option.getD_none, String.append_right_inj] at heq
        have hsame := toString_inj heq
        omega
      | some name =>
        rw [ha, hb, Option.getD_none, Option.getD_some] at heq
        exact hpatterns i _ (List.getElem?_eq_getElem hi) ha _ (List.getElem_mem hj) (by rw [hb, heq])
    | some name =>
      cases hb : paramName (targetOf parts[j]) with
      | none =>
        rw [ha, hb, Option.getD_none, Option.getD_some] at heq
        exact hpatterns j _ (List.getElem?_eq_getElem hj) hb _ (List.getElem_mem hi) (by rw [ha, heq])
      | some other =>
        rw [ha, hb, Option.getD_some, Option.getD_some] at heq
        exact hnames i j hi hj hlt name ha (by rw [hb, heq])

/-! ## Flags and order -/

/-- The flag of an option is the dash-separated form of its key. -/
lemma optionOf_flag {trees : List Tree} {o : OptionSpec} (h : optionOf trees = some o) :
    o.flag = kebab o.key := by
  unfold optionOf at h
  split at h
  · split at h
    · obtain ⟨name, -, h⟩ := Option.bind_eq_some_iff.mp h
      split at h
      · obtain ⟨l, -, rfl⟩ := Option.map_eq_some_iff.mp h
        rfl
      · obtain ⟨l, -, rfl⟩ := Option.map_eq_some_iff.mp h
        rfl
    · cases h
  · cases h

lemma trailingOptions_flag {parts : List (List Tree)} {specs : List OptionSpec} {o : OptionSpec}
    (h : trailingOptions parts = some specs) (ho : o ∈ specs) : o.flag = kebab o.key := by
  obtain ⟨default, -, hspecs⟩ := Option.bind_eq_some_iff.mp h
  unfold optionsOf at hspecs
  split at hspecs
  · obtain ⟨⟨inside, closer⟩, -, rfl⟩ := Option.map_eq_some_iff.mp hspecs
    obtain ⟨property, -, hoption⟩ := List.mem_filterMap.mp ho
    exact optionOf_flag hoption
  · cases hspecs

lemma argumentOf_required (position : Nat) (part : List Tree) :
    (argumentOf position part).isRequired = true ↔ IsRequiredPart part := by
  unfold IsRequiredPart argumentOf positionalOf ArgSpec.isRequired
  cases defaultOf? part with
  | none => cases isSimple (targetOf part) <;> simp
  | some default => simp

lemma required_pairwise_iff (parts : List (List Tree)) :
    ((parts.mapIdx argumentOf).Pairwise fun a b => b.isRequired = true → a.isRequired = true) ↔
      parts.Pairwise fun a b => IsRequiredPart b → IsRequiredPart a := by
  rw [List.pairwise_iff_getElem, List.pairwise_iff_getElem]
  simp only [List.getElem_mapIdx, List.length_mapIdx, argumentOf_required]

/-! ## Commands -/

/-- The command of an exported function is well-formed if and only if no two names meet that are made of
its parameters and no parameter that must be given stands behind one that may be omitted. -/
theorem command_well_formed_iff {f : File} {ns : String} {c : Command} (hc : c ∈ f.commands ns) :
    WellFormed c ↔ DistinctParts (partsOf f c) := by
  obtain ⟨hargs, hoptions⟩ := command_params hc
  have hown : ownOptions c =
      ((trailingOptions (partsOf f c)).getD []).filter fun o => !isReserved o := by
    rw [ownOptions, Command.optionList, hoptions]
  have hflag : ∀ o ∈ ownOptions c, o.flag = kebab o.key := by
    intro o ho
    rw [hown] at ho
    have hmem := (List.mem_filter.mp ho).1
    cases hspecs : trailingOptions (partsOf f c) with
    | none =>
      rw [hspecs] at hmem
      exact absurd hmem List.not_mem_nil
    | some specs =>
      rw [hspecs] at hmem
      exact trailingOptions_flag hspecs hmem
  have hkeys : ((ownOptions c).map OptionSpec.flag).Nodup ↔
      (ownOptions c).Pairwise fun a b => kebab a.key ≠ kebab b.key := by
    rw [List.map_congr_left hflag, List.Nodup, List.pairwise_map]
  rw [wellFormed_iff, hargs, argument_names_nodup_iff, required_pairwise_iff, hkeys, hown]
  refine ⟨?_, ?_⟩
  · rintro ⟨⟨hnames, hpatterns⟩, hflags, hrequired⟩
    exact ⟨hnames, hpatterns, hflags, hrequired⟩
  · rintro ⟨hnames, hpatterns, hflags, hrequired⟩
    exact ⟨⟨hnames, hpatterns⟩, hflags, hrequired⟩

/-- A file whose function has a pattern behind a name and options that are told apart. -/
def deploying : String :=
  "export function main(env, [first], o = \x7b dryRun: false, region: 'eu' \x7d) \x7b return env \x7d\n"

/-- The command of that function: the pattern is called by its position. -/
def deployingCommand : Command :=
  { Command.ofFunction "main" with
    args := [⟨"env", none⟩, ⟨"arg2", some .null⟩]
    options := some [⟨"dryRun", "dry-run", .bool false⟩, ⟨"region", "region", .text "eu"⟩] }

theorem command_well_formed_iff_deploying :
    ∃ f, File.ofText deploying = .ok f ∧ deployingCommand ∈ f.commands "" ∧
      (WellFormed deployingCommand ↔ DistinctParts (partsOf f deployingCommand)) ∧
      WellFormed deployingCommand := by
  have hread : (File.ofText deploying).toOption.map (·.commands "") = some [deployingCommand] := by
    decide +kernel
  obtain ⟨f, hf, hcommands⟩ := Option.map_eq_some_iff.mp hread
  have hmem : deployingCommand ∈ f.commands "" := by rw [hcommands]; exact List.mem_cons_self
  refine ⟨f, ok_of_toOption hf, hmem, command_well_formed_iff hmem, wellFormed_iff.mpr ⟨?_, ?_, ?_⟩⟩
  · decide
  · decide +kernel
  · simp [deployingCommand, ArgSpec.isRequired]

/-- A file whose function has a pattern behind a parameter that is named as the pattern is called. -/
def meeting : String :=
  "export function main(arg2, [second]) \x7b return second \x7d\n"

/-- The command of that function. -/
def meetingCommand : Command :=
  { Command.ofFunction "main" with args := [⟨"arg2", none⟩, ⟨"arg2", some .null⟩] }

/-- Two arguments of one name are not matched: the second word is refused. -/
theorem name_meets_pattern :
    ∃ f, File.ofText meeting = .ok f ∧ meetingCommand ∈ f.commands "" ∧ ¬ WellFormed meetingCommand ∧
      (Registry.ofCommands (f.commands "")).invocation ["main", "x", "y"] = .error .argumentConflict := by
  have hread : (File.ofText meeting).toOption.map (·.commands "") = some [meetingCommand] := by
    decide +kernel
  obtain ⟨f, hf, hcommands⟩ := Option.map_eq_some_iff.mp hread
  refine ⟨f, ok_of_toOption hf, by rw [hcommands]; exact List.mem_cons_self, ?_, ?_⟩
  · intro h
    have hnames := (wellFormed_iff.mp h).1
    revert hnames
    decide
  · rw [hcommands, Registry.ofCommands, List.mergeSort_singleton]
    rfl

end TaskRunner.Proofs
