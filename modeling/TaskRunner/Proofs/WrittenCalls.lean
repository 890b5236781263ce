import Mathlib.Data.List.Nodup
import Mathlib.Data.List.Perm.Basic
import TaskRunner.Proofs.Identifiers
import TaskRunner.Proofs.OmittedDefaults
import TaskRunner.Proofs.SortedCommands

/-!
# Calls written as arguments

A call can be written as an argument list: the command's name, words for its first positional arguments,
and for each option that is set its flag, with the value behind an equals sign. Matching such a list gives
every value its own slot, whatever the order of the options, so the call gets back what was written.
-/

namespace TaskRunner.Proofs
open CommandLine

/-! ## Flags and their values -/

lemma splitAtEquals_none {chars : List Char} (h : ∀ c ∈ chars, c ≠ '=') :
    splitAtEquals chars = none := by
  induction chars with
  | nil => rfl
  | cons c rest ih =>
    have hc : (c == '=') = false := by simpa using h c List.mem_cons_self
    rw [splitAtEquals, hc, ih fun d hd => h d (List.mem_cons_of_mem _ hd)]
    rfl

lemma splitAtEquals_append {name : List Char} (h : ∀ c ∈ name, c ≠ '=') (value : List Char) :
    splitAtEquals (name ++ '=' :: value) = some (name, value) := by
  induction name with
  | nil => rfl
  | cons c rest ih =>
    have hc : (c == '=') = false := by simpa using h c List.mem_cons_self
    rw [List.cons_append, splitAtEquals, hc, ih fun d hd => h d (List.mem_cons_of_mem _ hd)]
    rfl

/-- The argument that sets an option: its flag, with a value unless the option is a switch. -/
def optionWord (value : OptionSpec → String) (o : OptionSpec) : String :=
  if o.default.isSwitch then "--" ++ o.flag else "--" ++ o.flag ++ "=" ++ value o

/-- What an argument gives for its option. -/
def optionEntry (value : OptionSpec → String) (o : OptionSpec) : Slot × Option String :=
  (.option o.flag, if o.default.isSwitch then none else some (value o))

variable {value : OptionSpec → String} {o : OptionSpec}

lemma longForm?_optionWord (h : ∀ c ∈ o.flag.toList, c ≠ '=') :
    longForm? (optionWord value o) = some (o.flag, (optionEntry value o).2) := by
  have hdashes : "--".toList = ['-', '-'] := rfl
  have hequals : "=".toList = ['='] := rfl
  unfold longForm? optionWord optionEntry
  cases o.default.isSwitch with
  | true => simp [hdashes, splitAtEquals_none h]
  | false => simp [hdashes, hequals, splitAtEquals_append h]

lemma optionWord_ne_dashes (hne : o.flag.toList ≠ []) : optionWord value o ≠ "--" := by
  have hdashes : "--".toList = ['-', '-'] := rfl
  intro heq
  have hlist := congrArg String.toList heq
  unfold optionWord at hlist
  cases h : o.default.isSwitch with
  | true => simp_all
  | false => simp_all

/-! ## Matching written words -/

/-- A level between two words: what the words so far give, and the positional arguments left. -/
structure Ready (p : Progress) (entries : Given) (slots : List Slot) : Prop where
  entries : entriesOf p = entries
  slots : p.positionals = slots
  awaiting : p.awaiting = false
  trailing : p.trailing = false
  complete : ∀ entry ∈ p.pending, entry.2.isSome = true

variable {p : Progress} {entries : Given} {slots : List Slot} {level : Level}

lemma isGiven_eq_false {slot : Slot} (h : slot ∉ entries.map Prod.fst) :
    isGiven entries slot = false := by
  rw [isGiven, List.any_eq_false]
  intro entry hentry heq
  exact h (List.mem_map.mpr ⟨entry, hentry, by simpa using heq⟩)

lemma Ready.enter {slot : Slot} (value : Option String) (h : Ready p entries slots)
    (hpending : p.pending = none) (hnew : slot ∉ entries.map Prod.fst) :
    ∃ q, p.enter slot value = .ok q ∧ Ready q (entries ++ [(slot, value)]) slots := by
  have hgiven : p.given = entries := by simpa [entriesOf, hpending] using h.entries
  refine ⟨{ p with given := p.given ++ [(slot, value)] }, ?_, ?_⟩
  · rw [Progress.enter, hgiven, isGiven_eq_false hnew]
    rfl
  · exact ⟨by simp [entriesOf, hpending, hgiven], h.slots, h.awaiting, h.trailing, by simp [hpending]⟩

lemma Ready.settle (h : Ready p entries slots) (hnodup : (entries.map Prod.fst).Nodup) :
    ∃ q, p.settle = .ok q ∧ q.pending = none ∧ Ready q entries slots := by
  unfold Progress.settle
  cases hpending : p.pending with
  | none => exact ⟨p, rfl, hpending, h⟩
  | some entry =>
    obtain ⟨slot, value⟩ := entry
    obtain ⟨text, rfl⟩ := Option.isSome_iff_exists.mp (h.complete (slot, value) hpending)
    have hentries : p.given ++ [(slot, some text)] = entries := by
      simpa [entriesOf, hpending] using h.entries
    have hnew : slot ∉ p.given.map Prod.fst := by
      rw [← hentries, List.map_append, List.nodup_append] at hnodup
      intro hmem
      exact hnodup.2.2 slot hmem slot (by simp) rfl
    refine ⟨{ p with given := entries, pending := none, awaiting := false }, ?_, rfl, ?_⟩
    · rw [← hentries]
      simp [Progress.enter, isGiven_eq_false hnew]
    · exact ⟨by simp [entriesOf], h.slots, rfl, h.trailing, by simp⟩

/-- A word that does not start with a dash is the value of the next positional argument. -/
lemma Ready.positional {word : String} {slot : Slot} (level : Level) (h : Ready p entries (slot :: slots))
    (hnodup : (entries.map Prod.fst).Nodup) (hword : word.toList.head? ≠ some '-') :
    ∃ q, p.word level word = .ok q ∧ Ready q (entries ++ [(slot, some word)]) slots := by
  obtain ⟨q, hsettle, hpending, hq⟩ := h.settle hnodup
  have hlong : longForm? word = none := by
    unfold longForm?
    split
    · rename_i hlist
      rw [hlist] at hword
      exact absurd rfl hword
    · rfl
  refine ⟨{ q with pending := some (slot, some word), awaiting := false, positionals := slots }, ?_, ?_⟩
  · unfold Progress.word
    rw [hlong]
    dsimp only
    split
    · rename_i hlist
      rw [hlist] at hword
      exact absurd rfl hword
    · rw [h.awaiting]
      dsimp only
      rw [Progress.positional, h.slots]
      dsimp only
      rw [hsettle]
      exact congrArg Except.ok (by rw [hq.awaiting])
  · have hentries := hq.entries
    refine ⟨?_, rfl, rfl, hq.trailing, by simp⟩
    simp only [entriesOf, hpending, Option.toList_none, List.append_nil] at hentries
    simp [entriesOf, hentries]

/-- The words for positional arguments fill them one after the other. -/
lemma Ready.scanWords {words : List String} (level : Level) (h : Ready p entries slots)
    (hcommands : level.commands = []) (hlength : words.length ≤ slots.length)
    (hnodup : (entries.map Prod.fst ++ slots).Nodup)
    (hwords : ∀ word ∈ words, word.toList.head? ≠ some '-') :
    ∃ q, (∀ more, scanLevel level p (words ++ more) = scanLevel level q more) ∧
      Ready q (entries ++ slots.zip (words.map some)) (slots.drop words.length) := by
  induction words generalizing p entries slots with
  | nil => exact ⟨p, fun _ => rfl, by simpa using h⟩
  | cons word rest ih =>
    cases slots with
    | nil => cases hlength
    | cons slot slots =>
      have hentries : (entries.map Prod.fst).Nodup := (List.nodup_append.mp hnodup).1
      obtain ⟨q, hword, hq⟩ := h.positional level hentries (hwords word List.mem_cons_self)
      obtain ⟨r, hscan, hr⟩ := ih hq (by simpa using hlength) (by simpa using hnodup)
        fun other hother => hwords other (List.mem_cons_of_mem _ hother)
      refine ⟨r, ?_, by simpa using hr⟩
      intro more
      rw [List.cons_append, scanLevel, h.trailing, h.awaiting, hcommands, hword]
      exact hscan more

/-! ## Options in any order -/

variable {c : Command}

/-- What makes the options of a command tell apart on the command line: each has a flag of its own that
comes from an identifier. -/
structure OwnFlags (c : Command) : Prop where
  flags : ∀ o ∈ c.optionList, IsIdentifier o.key ∧ o.flag = kebab o.key
  distinct : (c.optionList.map OptionSpec.flag).Nodup
  free : ∀ o ∈ c.optionList, isReserved o = false

lemma lookup_option (h : OwnFlags c) (ho : o ∈ c.optionList) :
    (commandLevel c).longFlags.lookup o.flag = some (optionLongFlag o).2 := by
  have hown : ownOptions c = c.optionList :=
    List.filter_eq_self.mpr fun o ho => by rw [h.free o ho]; rfl
  obtain ⟨before, behind, hsplit⟩ := List.append_of_mem ho
  have hdistinct := h.distinct
  rw [hsplit, List.map_append, List.map_cons, List.nodup_append] at hdistinct
  rw [List.lookup_eq_some_iff]
  refine ⟨before.map optionLongFlag, behind.map optionLongFlag ++ (globalLongFlags ++ [("help", .help)]),
    ?_, ?_⟩
  · simp [commandLevel, hown, hsplit, optionLongFlag]
  · intro entry hentry
    obtain ⟨other, hother, rfl⟩ := List.mem_map.mp hentry
    have hne := hdistinct.2.2 other.flag (List.mem_map_of_mem hother) o.flag List.mem_cons_self
    simpa [optionLongFlag] using Ne.symm hne

/-- The argument of an option gives its value to the option's own slot. -/
lemma Ready.option (value : OptionSpec → String) (h : Ready p entries slots) (hown : OwnFlags c)
    (ho : o ∈ c.optionList)
    (hnodup : (entries.map Prod.fst).Nodup) (hnew : .option o.flag ∉ entries.map Prod.fst) :
    ∃ q, p.word (commandLevel c) (optionWord value o) = .ok q ∧
      Ready q (entries ++ [optionEntry value o]) slots := by
  obtain ⟨hkey, hflag⟩ := hown.flags o ho
  obtain ⟨hne, hequals⟩ := hkey.kebab
  rw [← hflag] at hne hequals
  obtain ⟨q, hsettle, hpending, hq⟩ := h.settle hnodup
  obtain ⟨r, henter, hr⟩ := hq.enter (optionEntry value o).2 hpending hnew
  refine ⟨r, ?_, hr⟩
  have hdashes : (optionWord value o == "--") = false := by simpa using optionWord_ne_dashes hne
  rw [Progress.word, longForm?_optionWord hequals]
  simp only [hdashes, lookup_option hown ho]
  unfold optionLongFlag optionEntry at *
  cases hswitch : o.default.isSwitch with
  | true =>
    rw [hswitch] at henter
    simp only [if_true, Progress.flag, hsettle]
    exact henter
  | false =>
    rw [hswitch] at henter
    simp only [Bool.false_eq_true, if_false, Progress.flag, hsettle]
    exact henter

lemma Ready.scanOptions {chosen : List OptionSpec} (value : OptionSpec → String)
    (h : Ready p entries slots) (hown : OwnFlags c)
    (hchosen : ∀ o ∈ chosen, o ∈ c.optionList)
    (hnodup : (entries ++ chosen.map (optionEntry value)).map Prod.fst |>.Nodup) :
    ∃ q, scanLevel (commandLevel c) p (chosen.map (optionWord value)) = .ok (q, none) ∧
      Ready q (entries ++ chosen.map (optionEntry value)) slots := by
  induction chosen generalizing p entries with
  | nil => exact ⟨p, rfl, by simpa using h⟩
  | cons o rest ih =>
    have hfront := hnodup
    rw [List.map_append, List.nodup_append] at hfront
    have hnew : Slot.option o.flag ∉ entries.map Prod.fst := fun hmem =>
      hfront.2.2 _ hmem (Slot.option o.flag) (by simp [optionEntry]) rfl
    obtain ⟨q, hword, hq⟩ := h.option value hown (hchosen o List.mem_cons_self) hfront.1 hnew
    obtain ⟨r, hscan, hr⟩ := ih hq (fun o ho => hchosen o (List.mem_cons_of_mem _ ho))
      (by simpa using hnodup)
    refine ⟨r, ?_, by simpa using hr⟩
    rw [List.map_cons, scanLevel, h.trailing, h.awaiting, hword]
    exact hscan

/-! ## What slots hold -/

lemma isGiven_of_mem {slot : Slot} {value : Option String} (h : (slot, value) ∈ entries) :
    isGiven entries slot = true := by
  rw [isGiven, List.any_eq_true]
  exact ⟨(slot, value), h, by simp⟩

lemma valueOf?_of_mem {slot : Slot} {value : Option String} (hnodup : (entries.map Prod.fst).Nodup)
    (h : (slot, value) ∈ entries) : valueOf? entries slot = value := by
  obtain ⟨before, behind, rfl⟩ := List.append_of_mem h
  rw [List.map_append, List.map_cons, List.nodup_append] at hnodup
  have hnone : before.find? (·.1 == slot) = none := by
    rw [List.find?_eq_none]
    intro entry hentry heq
    have hslot : entry.1 = slot := by simpa using heq
    exact hnodup.2.2 entry.1 (List.mem_map_of_mem hentry) slot List.mem_cons_self hslot
  simp [valueOf?, List.find?_append, hnone]

/-- A call depends on what is given, not on its order. -/
lemma callValues_perm {other : Given} (hperm : other.Perm entries)
    (hnodup : (entries.map Prod.fst).Nodup) : callValues c other = callValues c entries := by
  have hnodup' : (other.map Prod.fst).Nodup := (hperm.map Prod.fst).nodup_iff.mpr hnodup
  have hgiven : ∀ slot, isGiven other slot = isGiven entries slot := fun slot => hperm.any_eq
  have hvalue : ∀ slot, valueOf? other slot = valueOf? entries slot := by
    intro slot
    cases hslot : isGiven entries slot with
    | false => rw [valueOf?_eq_none hslot, valueOf?_eq_none ((hgiven slot).trans hslot)]
    | true =>
      obtain ⟨⟨found, value⟩, hmem, heq⟩ := List.any_eq_true.mp hslot
      obtain rfl : found = slot := by simpa using heq
      rw [valueOf?_of_mem hnodup hmem, valueOf?_of_mem hnodup' (hperm.mem_iff.mpr hmem)]
  have hargument : argumentValue c other = argumentValue c entries := by
    funext a
    simp only [argumentValue, hvalue]
  have hoption : optionValue other = optionValue entries := by
    funext o
    simp only [optionValue, hgiven, hvalue]
  simp only [callValues, hargument, hoption]

lemma insertField_perm {key : String} {fields : List (String × Json)} (value : Json)
    (h : key ∉ fields.map Prod.fst) :
    (Json.insertField key value fields).Perm ((key, value) :: fields) := by
  induction fields with
  | nil => exact List.Perm.refl _
  | cons field rest ih =>
    obtain ⟨k, v⟩ := field
    rw [List.map_cons, List.mem_cons, not_or] at h
    rw [Json.insertField]
    split
    · exact List.Perm.refl _
    · rw [if_neg h.1]
      exact ((ih h.2).cons (k, v)).trans (List.Perm.swap _ _ _)

/-- A record of fields with different keys holds exactly these fields. -/
lemma ofFields_perm {fields : List (String × Json)} (hnodup : (fields.map Prod.fst).Nodup) :
    ∃ sorted, Json.ofFields fields = .record sorted ∧ sorted.Perm fields := by
  have hfold : ∀ sorted : List (String × Json), ((sorted ++ fields).map Prod.fst).Nodup →
      (fields.foldl (fun sorted field => Json.insertField field.1 field.2 sorted) sorted).Perm
        (sorted ++ fields) := by
    clear hnodup
    induction fields with
    | nil => exact fun sorted _ => by simp
    | cons field rest ih =>
      intro sorted hnodup
      have hnew : field.1 ∉ sorted.map Prod.fst := by
        rw [List.map_append, List.nodup_append] at hnodup
        exact fun hmem => hnodup.2.2 field.1 hmem field.1 List.mem_cons_self rfl
      have hinsert := insertField_perm field.2 hnew
      have hmoved : (Json.insertField field.1 field.2 sorted ++ rest).Perm (sorted ++ field :: rest) :=
        (hinsert.append_right rest).trans List.perm_middle.symm
      exact (ih _ ((hmoved.map Prod.fst).nodup_iff.mpr hnodup)).trans hmoved
  exact ⟨_, rfl, by simpa using hfold [] (by simpa using hnodup)⟩

/-! ## Calls -/

/-- A command whose arguments, options and flags are told apart by their names. -/
structure ToldApart (c : Command) : Prop extends OwnFlags c where
  arguments : (c.args.map ArgSpec.name).Nodup
  keys : (c.optionList.map OptionSpec.key).Nodup

/-- Words for the first positional arguments, all required ones among them, and options to set. -/
structure Written (c : Command) (words : List String) (chosen : List OptionSpec) : Prop where
  fits : words.length ≤ c.args.length
  covers : ∀ a ∈ c.args.drop words.length, a.isRequired = false
  plain : ∀ word ∈ words, word.toList.head? ≠ some '-'
  declared : ∀ o ∈ chosen, o ∈ c.optionList
  once : chosen.Nodup

/-- What a written call gives. -/
def writtenGiven (c : Command) (words : List String) (chosen : List OptionSpec)
    (value : OptionSpec → String) : Given :=
  (c.args.map fun a => Slot.argument a.name).zip (words.map some) ++ chosen.map (optionEntry value)

variable {words : List String} {chosen : List OptionSpec}

lemma argument_mem_writtenGiven {i : Nat} {a : ArgSpec} {word : String} (chosen : List OptionSpec)
    (value : OptionSpec → String) (ha : c.args[i]? = some a)
    (hword : words[i]? = some word) :
    (.argument a.name, some word) ∈ writtenGiven c words chosen value := by
  apply List.mem_append_left
  apply List.mem_of_getElem? (i := i)
  simp [List.getElem?_zip_eq_some, ha, hword]

lemma option_mem_writtenGiven (ho : o ∈ chosen) :
    optionEntry value o ∈ writtenGiven c words chosen value :=
  List.mem_append_right _ (List.mem_map_of_mem ho)

lemma fst_zip_sublist {α β : Type} (l : List α) (m : List β) :
    ((l.zip m).map Prod.fst).Sublist l := by
  induction l generalizing m with
  | nil => exact List.Sublist.refl []
  | cons a rest ih =>
    cases m with
    | nil => exact List.nil_sublist _
    | cons b more => exact (ih more).cons_cons a

lemma ToldApart.argumentSlots (hc : ToldApart c) : (c.args.map fun a => Slot.argument a.name).Nodup := by
  have hmap := hc.arguments.map (f := Slot.argument) fun _ _ heq => Slot.argument.inj heq
  rwa [List.map_map] at hmap

lemma Written.nodup (h : Written c words chosen) (hc : ToldApart c) (value : OptionSpec → String) :
    ((writtenGiven c words chosen value).map Prod.fst).Nodup := by
  have hflags : (chosen.map fun o => Slot.option o.flag).Nodup := by
    refine h.once.map_on ?_
    intro a ha b hb heq
    exact List.inj_on_of_nodup_map hc.distinct (h.declared a ha) (h.declared b hb)
      (Slot.option.inj heq)
  have hzip := fst_zip_sublist (c.args.map fun a => Slot.argument a.name) (words.map some)
  rw [writtenGiven, List.map_append, List.map_map, List.nodup_append]
  refine ⟨hc.argumentSlots.sublist hzip, hflags, ?_⟩
  intro slot hslot other hother heq
  obtain ⟨a, -, rfl⟩ := List.mem_map.mp (hzip.subset hslot)
  obtain ⟨o, -, rfl⟩ := List.mem_map.mp hother
  cases heq

lemma Written.matchLevel (h : Written c words chosen) (hc : ToldApart c) (value : OptionSpec → String) :
    matchLevel (commandLevel c) (words ++ chosen.map (optionWord value)) =
      .ok (writtenGiven c words chosen value) := by
  have hnodup := h.nodup hc value
  have hstart : Ready (.atStart (commandLevel c)) [] (commandLevel c).positionals :=
    ⟨rfl, rfl, rfl, rfl, fun _ hentry => nomatch hentry⟩
  obtain ⟨p, hwords, hp⟩ := hstart.scanWords (commandLevel c) rfl
    (by simpa [commandLevel] using h.fits) hc.argumentSlots h.plain
  obtain ⟨q, hoptions, hq⟩ := hp.scanOptions value hc.toOwnFlags h.declared hnodup
  obtain ⟨r, hsettle, hpending, hr⟩ := hq.settle hnodup
  have hgiven := hr.entries
  rw [entriesOf, hpending, Option.toList_none, List.append_nil] at hgiven
  rw [CommandLine.matchLevel, hwords, hoptions]
  change (q.settle >>= fun p => Except.ok p.given) = _
  rw [hsettle]
  exact congrArg Except.ok hgiven

lemma Written.requiredGiven (h : Written c words chosen) :
    requiredGiven c (writtenGiven c words chosen value) = true := by
  rw [CommandLine.requiredGiven, List.all_eq_true]
  intro a ha
  obtain ⟨i, hi, rfl⟩ := List.mem_iff_getElem.mp ha
  by_cases hword : i < words.length
  · have hmem := argument_mem_writtenGiven chosen value (List.getElem?_eq_getElem hi)
      (List.getElem?_eq_getElem hword)
    rw [isGiven_of_mem hmem, Bool.or_true]
  · have hmem : c.args[i] ∈ c.args.drop words.length := by
      rw [List.mem_drop_iff_getElem]
      exact ⟨i - words.length, by omega, by congr 1; omega⟩
    rw [h.covers _ hmem]
    rfl

/-- A command is found by its name unless the name is taken. -/
lemma find?_untaken {commands : List Command} (hc : c ∈ commands)
    (hunique : ∀ d ∈ commands, d.cliName = c.cliName → d = c) (hinit : c.cliName ≠ initCommand) :
    (Registry.ofCommands commands).find? c.cliName = some c := by
  rw [find?_ofCommands, if_neg hinit]
  cases hfound : commands.find? (·.cliName == c.cliName) with
  | none =>
    have hother := List.find?_eq_none.mp hfound c hc
    exact absurd (beq_self_eq_true _) hother
  | some d =>
    have hname := List.find?_some hfound
    exact congrArg some (hunique d (List.mem_of_find?_eq_some hfound) (by simpa using hname))

/-- The argument list of a call is matched by the command that it names. -/
lemma invocation_named {r : Registry} {args : List String} {given : Given}
    (hfind : r.find? c.cliName = some c) (hmatch : CommandLine.matchLevel (commandLevel c) args = .ok given)
    (hrequired : CommandLine.requiredGiven c given = true) :
    r.invocation (c.cliName :: args) = .ok (.call c (callValues c given)) := by
  have hnamed : r.rootLevel.commands.contains c.cliName = true := by
    have hmem := List.mem_of_find?_eq_some hfind
    simp only [Registry.rootLevel, List.contains_iff_mem]
    exact List.mem_cons_of_mem _ (List.mem_map_of_mem hmem)
  have hscan : scanLevel r.rootLevel (.atStart r.rootLevel) (c.cliName :: args) =
      .ok (.atStart r.rootLevel, some (c.cliName, args)) := by
    rw [scanLevel, hnamed]
    rfl
  unfold Registry.invocation
  dsimp only
  rw [hscan]
  dsimp only [Bind.bind, Except.bind]
  rw [hfind]
  dsimp only
  rw [hmatch]
  dsimp only
  rw [if_pos hrequired]
  rfl

/-- A value that is given for an option is read by the type of its default; a switch is on. -/
lemma optionValue_given {given : Given} (hfree : isReserved o = false)
    (hnodup : (given.map Prod.fst).Nodup) (hgiven : optionEntry value o ∈ given) :
    optionValue given o =
      if o.default.isSwitch then .bool true else typedValue (value o) (some o.default) := by
  have hvalue := valueOf?_of_mem hnodup hgiven
  have hset := isGiven_of_mem hgiven
  unfold optionValue
  rw [hfree]
  cases hdefault : o.default with
  | null => simp_all [Literal.isSwitch]
  | bool b => simp_all [Literal.isSwitch]
  | number x => simp_all [Literal.isSwitch]
  | text s => simp_all [Literal.isSwitch]

/-- A written call is accepted, whatever the order of its options, and passes one value for each positional
argument and an options object with the declared keys if the function takes one. Every word and every
option's value stands in its own place, read by the type of its own default. -/
theorem written_call_reads_back {commands : List Command} (hc : c ∈ commands)
    (hunique : ∀ d ∈ commands, d.cliName = c.cliName → d = c) (hinit : c.cliName ≠ initCommand)
    (hapart : ToldApart c) (hwritten : Written c words chosen) (value : OptionSpec → String) :
    ∃ values,
      (∀ order : List OptionSpec, order.Perm chosen →
        (Registry.ofCommands commands).invocation
          (c.cliName :: (words ++ order.map (optionWord value))) = .ok (.call c values)) ∧
      values.length = c.args.length + (if c.takesOptions then 1 else 0) ∧
      (∀ (i : Nat) (a : ArgSpec) (word : String), c.args[i]? = some a → words[i]? = some word →
        values[i]? = some (typedValue word a.default)) ∧
      ∀ options, c.options = some options →
        ∃ fields, values[c.args.length]? = some (.record fields) ∧
          (fields.map Prod.fst).Perm (options.map OptionSpec.key) ∧
          ∀ o ∈ chosen, (Json.record fields).get? o.key =
            some (if o.default.isSwitch then .bool true
              else typedValue (value o) (some o.default)) := by
  have hnodup := hwritten.nodup hapart value
  have hfind := find?_untaken hc hunique hinit
  refine ⟨callValues c (writtenGiven c words chosen value), ?_, ?_, ?_, ?_⟩
  · intro order horder
    have hordered : Written c words order :=
      ⟨hwritten.fits, hwritten.covers, hwritten.plain,
        fun o ho => hwritten.declared o (horder.mem_iff.mp ho), horder.nodup_iff.mpr hwritten.once⟩
    have hgiven : (writtenGiven c words order value).Perm (writtenGiven c words chosen value) :=
      (horder.map _).append_left _
    rw [invocation_named hfind (hordered.matchLevel hapart value) hordered.requiredGiven,
      callValues_perm hgiven hnodup]
  · unfold callValues
    split <;> simp
  · intro i a word ha hword
    have hmem := argument_mem_writtenGiven chosen value ha hword
    rw [callValues_getElem? ha, argumentValue, valueOf?_of_mem hnodup hmem]
    rfl
  · intro options hoptions
    have hlist : c.optionList = options := by rw [Command.optionList, hoptions, Option.getD_some]
    have hkeys := hapart.keys
    rw [hlist] at hkeys
    let fields := options.map fun o => (o.key, optionValue (writtenGiven c words chosen value) o)
    have hfields : fields.map Prod.fst = options.map OptionSpec.key := by
      simp [fields]
    obtain ⟨sorted, hsorted, hperm⟩ := ofFields_perm (hfields.symm ▸ hkeys)
    refine ⟨sorted, ?_, ?_, ?_⟩
    · rw [← hsorted]
      simp [callValues, Command.takesOptions, hoptions, hlist, fields]
    · rw [← hfields]
      exact hperm.map Prod.fst
    · intro o ho
      have hdeclared := hwritten.declared o ho
      rw [← optionValue_given (hapart.free o hdeclared) hnodup (option_mem_writtenGiven ho), ← hsorted]
      rw [hlist] at hdeclared
      obtain ⟨before, behind, hsplit⟩ := List.append_of_mem hdeclared
      rw [hsplit, List.map_append, List.map_cons, List.nodup_append, List.nodup_cons] at hkeys
      have hlast : ∀ field ∈ behind.map fun o => (o.key, optionValue (writtenGiven c words chosen value) o),
          field.1 ≠ o.key := by
        intro field hfield heq
        obtain ⟨other, hother, rfl⟩ := List.mem_map.mp hfield
        exact hkeys.2.1.1 (heq ▸ List.mem_map_of_mem hother)
      have hget := get?_ofFields (optionValue (writtenGiven c words chosen value) o)
        (before.map fun o => (o.key, optionValue (writtenGiven c words chosen value) o)) hlast
      simpa [fields, hsplit] using hget

/-- A command with a required and an optional argument, and with options of several types. -/
def release : Command :=
  { Command.ofFunction "releaseApp" with
    args := [⟨"env", none⟩, ⟨"region", some (.text "eu")⟩]
    options := some [.ofKey "dryRun" (.bool true), .ofKey "retries" (.number 3), .ofKey "notes" .null] }

theorem written_call_reads_back_release :
    Written release ["prod", "us"] (release.optionList.take 2) ∧
    ∃ values,
      (Registry.ofCommands [release]).invocation
        ["release-app", "prod", "us", "--retries=5", "--dry-run"] = .ok (.call release values) ∧
      values.length = 3 ∧ values[1]? = some (.text "us") ∧
      ∃ fields, values[2]? = some (.record fields) ∧
        (fields.map Prod.fst).Perm ["dryRun", "retries", "notes"] ∧
        (Json.record fields).get? "dryRun" = some (.bool true) ∧
        (Json.record fields).get? "retries" = some (typedValue "5" (some (.number 3))) := by
  have hapart : ToldApart release :=
    ⟨⟨by decide +kernel, by decide +kernel, by decide +kernel⟩, by decide +kernel, by decide +kernel⟩
  have hwritten : Written release ["prod", "us"] (release.optionList.take 2) :=
    ⟨by decide, by decide, by decide, fun o ho => List.mem_of_mem_take ho, by decide +kernel⟩
  obtain ⟨values, hcall, hlength, harguments, hoptions⟩ :=
    @written_call_reads_back _ _ _ [release] List.mem_cons_self
      (fun d hd _ => List.mem_singleton.mp hd) (by decide +kernel) hapart hwritten (fun _ => "5")
  obtain ⟨fields, hrecord, hkeys, hvalues⟩ := hoptions _ rfl
  refine ⟨hwritten, values, ?_, hlength, ?_, fields, hrecord, hkeys, ?_, ?_⟩
  · exact hcall [.ofKey "retries" (.number 3), .ofKey "dryRun" (.bool true)] (List.Perm.swap _ _ _)
  · exact harguments 1 ⟨"region", some (.text "eu")⟩ "us" rfl rfl
  · exact hvalues (.ofKey "dryRun" (.bool true)) List.mem_cons_self
  · exact hvalues (.ofKey "retries" (.number 3)) (List.mem_cons_of_mem _ List.mem_cons_self)

end TaskRunner.Proofs
