import TaskRunner.Proofs.GlobalValues

/-!
# Global flags that matching recognises

Matching the arguments on two levels recognises the global flags that are read from them beforehand, with the
same values, and leads to the command that was asked for. Reading and matching differ where a flag is met that
still waits for its value, or a lone `--`, but such arguments are refused. They part only where a command's
name starts with a dash: matching looks for the names of commands first, reading for flags.
-/

namespace TaskRunner.Proofs
open CommandLine

/-- The global flags among what is given, with their values. -/
def recognised (given : Given) : List (GlobalFlag × String) :=
  given.filterMap fun entry =>
    match entry with
    | (.global flag, some value) => some (flag, value)
    | _ => none

/-- The slot whose value is still missing. -/
def expected (p : Progress) : Option Slot :=
  match p.pending with
  | some (slot, none) => some slot
  | _ => none

/-- A level that knows the global flags and puts nothing else into their slots. -/
structure KnowsGlobals (level : Level) : Prop where
  known : ∀ flag : GlobalFlag, level.longFlags.lookup flag.name = some (.takesValue (.global flag))
  others : ∀ name action, level.longFlags.lookup name = some action → GlobalFlag.ofName? name = none →
    ∀ flag, slotOf action ≠ some (.global flag)
  letters : ∀ c action, level.shortFlags.lookup c = some action → action = .help ∨ action = .version
  positionals : ∀ flag, .global flag ∉ level.positionals

/-- The next argument is waited for if and only if a value is missing, which is that of a flag of the level,
and only positional arguments of the level are left. -/
structure Steady (level : Level) (p : Progress) : Prop where
  waits : p.awaiting = (expected p).isSome
  source : ∀ slot, expected p = some slot → ∃ name, level.longFlags.lookup name = some (.takesValue slot)
  positionals : ∀ slot ∈ p.positionals, slot ∈ level.positionals

variable {level : Level} {p q : Progress} {arg : String}

lemma recognised_append (front behind : Given) :
    recognised (front ++ behind) = recognised front ++ recognised behind :=
  List.filterMap_append

/-- A value that is still missing is not recognised yet. -/
lemma recognised_entriesOf_expected {slot : Slot} (h : expected p = some slot) :
    recognised (entriesOf p) = recognised p.given := by
  unfold expected at h
  split at h
  · rename_i other pending
    cases other <;> simp [entriesOf, pending, recognised]
  · cases h

/-! ## One argument -/

lemma enter_eq {slot : Slot} {value : Option String} (h : p.enter slot value = .ok q) :
    q = { p with given := p.given ++ [(slot, value)] } := by
  unfold Progress.enter at h
  split at h
  · cases h
  · exact (Except.ok.inj h).symm

/-- What is pending is entered, and no value is missing. -/
structure SettlesPending (p q : Progress) : Prop where
  complete : expected p = none
  given : q.given = entriesOf p
  pending : q.pending = none
  positionals : q.positionals = p.positionals
  trailing : q.trailing = p.trailing
  calm : p.awaiting = (expected p).isSome → q.awaiting = false

lemma settle_settlesPending (h : p.settle = .ok q) : SettlesPending p q := by
  unfold Progress.settle at h
  split at h
  · rename_i pending
    cases h
    have complete : expected p = none := by simp [expected, pending]
    refine ⟨complete, by simp [entriesOf, pending], pending, rfl, rfl, fun waits => ?_⟩
    rw [waits, complete]
    rfl
  · cases h
  · rename_i slot value pending
    rw [enter_eq h]
    constructor <;> simp [expected, entriesOf, pending]

lemma steady_of_complete (complete : expected p = none) (awaiting : p.awaiting = false)
    (positionals : ∀ slot ∈ p.positionals, slot ∈ level.positionals) : Steady level p :=
  ⟨by simp [complete, awaiting], by simp [complete], positionals⟩

/-- No value is missing before, and the entry comes behind all others. -/
structure Adds (level : Level) (p q : Progress) (entry : Slot × Option String) : Prop where
  complete : expected p = none
  steady : Steady level q
  trailing : q.trailing = p.trailing
  entries : entriesOf q = entriesOf p ++ [entry]

lemma SettlesPending.enter {settled : Progress} {slot : Slot} {value : Option String} (steady : Steady level p)
    (hsettled : SettlesPending p settled) (henter : settled.enter slot value = .ok q) :
    Adds level p q (slot, value) ∧ expected q = none := by
  rw [enter_eq henter]
  have after : expected { settled with given := settled.given ++ [(slot, value)] } = none := by
    simp [expected, hsettled.pending]
  have left := hsettled.positionals ▸ steady.positionals
  have steadyAfter := steady_of_complete after (hsettled.calm steady.waits) left
  refine ⟨⟨hsettled.complete, steadyAfter, hsettled.trailing, ?_⟩, after⟩
  simp [entriesOf, hsettled.given, hsettled.pending]

/-- A flag is the next entry, and a value is missing if the flag takes one and has none of its own. -/
lemma flag_adds {name : String} {action : FlagAction} {inline : Option String} (steady : Steady level p)
    (found : level.longFlags.lookup name = some action) (h : p.flag action inline = .ok q) :
    ∃ slot, slotOf action = some slot ∧ Adds level p q (slot, inline) ∧
      expected q = if action = .takesValue slot ∧ inline = none then some slot else none := by
  cases action with
  | takesValue slot =>
    cases inline with
    | some value =>
      obtain ⟨settled, hsettle, henter⟩ := bind_ok h
      obtain ⟨adds, after⟩ := (settle_settlesPending hsettle).enter steady henter
      exact ⟨slot, rfl, adds, by simp [after]⟩
    | none =>
      obtain ⟨settled, hsettle, hq⟩ := bind_ok h
      have hsettled := settle_settlesPending hsettle
      cases hq
      refine ⟨slot, rfl, ⟨hsettled.complete, ⟨rfl, ?_, ?_⟩, hsettled.trailing, ?_⟩, ?_⟩
      · intro other waiting
        cases waiting
        exact ⟨name, found⟩
      · exact hsettled.positionals ▸ steady.positionals
      · simp [entriesOf, hsettled.given]
      · simp [expected]
  | switch slot =>
    cases inline with
    | some value => cases h
    | none =>
      obtain ⟨settled, hsettle, henter⟩ := bind_ok h
      obtain ⟨adds, after⟩ := (settle_settlesPending hsettle).enter steady henter
      exact ⟨slot, rfl, adds, by simp [after]⟩
  | help | version =>
    cases inline with
    | some value => cases h
    | none =>
      obtain ⟨settled, -, hq⟩ := bind_ok h
      cases hq

lemma positional_adds (steady : Steady level p) (h : p.positional level arg = .ok q) :
    ∃ slot ∈ level.positionals, Adds level p q (slot, some arg) ∧ expected q = none := by
  unfold Progress.positional at h
  cases left : p.positionals with
  | nil =>
    rw [left] at h
    dsimp only at h
    split at h
    · cases h
    · split at h <;> cases h
  | cons slot rest =>
    rw [left] at h
    obtain ⟨settled, hsettle, hq⟩ := bind_ok h
    have hsettled := settle_settlesPending hsettle
    cases hq
    have known : ∀ other ∈ slot :: rest, other ∈ level.positionals := left ▸ steady.positionals
    refine ⟨slot, known slot List.mem_cons_self, ⟨hsettled.complete, ?_, hsettled.trailing, ?_⟩, rfl⟩
    · exact steady_of_complete rfl (hsettled.calm steady.waits) fun other hother =>
        known other (List.mem_cons_of_mem _ hother)
    · simp [entriesOf, hsettled.given]

/-- How an argument is taken in front of any lone `--`: as a flag, as the value that is missing, or as the next
positional argument. -/
inductive Takes (level : Level) (p : Progress) (arg : String) (q : Progress) : Prop where
  | flag (complete : expected p = none) (dash : arg.startsWith "-" = true)
      (values : recognised (entriesOf q) = recognised (entriesOf p) ++ (inlineValue? arg).toList)
      (globals : ∀ flag, expected q = some (.global flag) ↔ bareFlag? arg = some flag)
  | value (slot : Slot) (waiting : expected p = some slot) (plain : longForm? arg = none)
      (entries : entriesOf q = p.given ++ [(slot, some arg)]) (complete : expected q = none)
  | positional (slot : Slot) (complete : expected p = none) (plain : longForm? arg = none)
      (known : slot ∈ level.positionals) (entries : entriesOf q = entriesOf p ++ [(slot, some arg)])
      (settled : expected q = none)

variable {name : String} {inline : Option String} {action : FlagAction} {slot : Slot}

/-- Only the flag of its name fills the slot of a global flag. -/
lemma KnowsGlobals.slot_iff (knows : KnowsGlobals level) (found : level.longFlags.lookup name = some action)
    (fills : slotOf action = some slot) (flag : GlobalFlag) : slot = .global flag ↔ name = flag.name := by
  constructor
  · rintro rfl
    cases named : GlobalFlag.ofName? name with
    | none => exact absurd fills (knows.others name action found named flag)
    | some other =>
      rw [← ofName?_eq_some.mp named, knows.known other] at found
      cases found
      cases fills
      exact (ofName?_eq_some.mp named).symm
  · rintro rfl
    rw [knows.known flag] at found
    cases found
    exact (Option.some.inj fills).symm

lemma KnowsGlobals.recognised_flag (knows : KnowsGlobals level)
    (found : level.longFlags.lookup name = some action) (fills : slotOf action = some slot)
    (form : longForm? arg = some (name, inline)) : recognised [(slot, inline)] = (inlineValue? arg).toList := by
  have isGlobal := knows.slot_iff found fills
  cases given : inlineValue? arg with
  | some mention =>
    rw [inlineValue?_iff_longForm?.mp given] at form
    cases form
    rw [(isGlobal mention.1).mpr rfl]
    rfl
  | none =>
    cases slot with
    | global flag =>
      cases inline with
      | none => rfl
      | some value =>
        rw [(isGlobal flag).mp rfl] at form
        rw [inlineValue?_iff_longForm?.mpr form] at given
        cases given
    | argument _ | option _ => rfl

lemma takes_flag (knows : KnowsGlobals level) (form : longForm? arg = some (name, inline))
    (found : level.longFlags.lookup name = some action) (steady : Steady level p)
    (h : p.flag action inline = .ok q) : Takes level p arg q := by
  obtain ⟨slot, fills, adds, waits⟩ := flag_adds steady found h
  refine .flag adds.complete (startsWith_of_longForm? form) ?_ fun flag => ?_
  · rw [adds.entries, recognised_append, knows.recognised_flag found fills form]
  · rw [waits, bareFlag?_iff_longForm?, form]
    have isGlobal := knows.slot_iff found fills flag
    constructor
    · intro waiting
      split at waiting
      · rename_i bare
        rw [isGlobal.mp (Option.some.inj waiting), bare.2]
      · cases waiting
    · intro same
      cases same
      rw [knows.known flag] at found
      cases found
      rw [if_pos ⟨congrArg _ (isGlobal.mpr rfl).symm, rfl⟩, isGlobal.mpr rfl]

lemma word_takes (knows : KnowsGlobals level) (steady : Steady level p) (hdashes : arg ≠ "--")
    (h : p.word level arg = .ok q) : Takes level p arg q ∧ Steady level q ∧ q.trailing = p.trailing := by
  unfold Progress.word at h
  cases form : longForm? arg with
  | some written =>
    obtain ⟨name, inline⟩ := written
    rw [form] at h
    dsimp only at h
    rw [if_neg (by simpa using hdashes)] at h
    cases found : level.longFlags.lookup name with
    | none =>
      rw [found] at h
      cases h
    | some action =>
      rw [found] at h
      obtain ⟨slot, -, adds, -⟩ := flag_adds steady found h
      exact ⟨takes_flag knows form found steady h, adds.steady, adds.trailing⟩
  | none =>
    rw [form] at h
    dsimp only at h
    split at h
    · -- Short flags only show something, so a list with one is never accepted.
      rename_i c rest _
      rw [Progress.shortFlag] at h
      cases found : level.shortFlags.lookup c with
      | none =>
        rw [found] at h
        cases h
      | some action =>
        rw [found] at h
        obtain ⟨next, hflag, -⟩ := bind_ok h
        rcases knows.letters c action found with rfl | rfl
        all_goals
          obtain ⟨settled, -, hnext⟩ := bind_ok hflag
          cases hnext
    · split at h
      · rename_i slot value awaiting pending
        cases h
        have missing := steady.waits.symm.trans awaiting
        have waiting : expected p = some slot := by
          cases value <;> simp_all [expected]
        refine ⟨.value slot waiting form ?_ rfl, steady_of_complete rfl rfl steady.positionals, rfl⟩
        simp [entriesOf]
      · obtain ⟨slot, known, adds, settled⟩ := positional_adds steady h
        exact ⟨.positional slot adds.complete form known adds.entries settled, adds.steady, adds.trailing⟩

/-! ## A level -/

/-- The values that flags get, if the first argument is the value of the given slot. -/
def mentionsBehind : Option Slot → List String → List (GlobalFlag × String)
  | some (.global flag), value :: rest => (flag, value) :: mentions rest
  | _, args => mentions args

/-- The first word, if the first argument is the value of the given slot. -/
def firstWordBehind : Option Slot → List String → Option String
  | some (.global _), _ :: rest => firstWord? rest
  | _, args => firstWord? args

/-- The values that flags get behind the name of a command. -/
def mentionsBelow (named : Option (String × List String)) : List (GlobalFlag × String) :=
  (named.map fun call => mentions call.2).getD []

variable {args rest : List String} {named : Option (String × List String)}

lemma ne_dashes_of_plain (plain : longForm? arg = none) : arg ≠ "--" := by
  rintro rfl
  cases plain

lemma bareFlag?_of_plain (plain : longForm? arg = none) : bareFlag? arg = none := by
  cases found : bareFlag? arg with
  | none => rfl
  | some flag =>
    rw [bareFlag?_iff_longForm?.mp found] at plain
    cases plain

lemma plain_of_word (h : arg.startsWith "-" = false) : longForm? arg = none := by
  cases form : longForm? arg with
  | none => rfl
  | some written =>
    rw [startsWith_of_longForm? form] at h
    cases h

/-- An argument that does not start with two dashes gives no flag a value of its own. -/
lemma mentions_plain (plain : longForm? arg = none) : mentions (arg :: rest) = mentions rest := by
  have nothing : inlineValue? arg = none := by
    cases given : inlineValue? arg with
    | none => rfl
    | some mention =>
      rw [inlineValue?_iff_longForm?.mp given] at plain
      cases plain
  rw [mentions_single (ne_dashes_of_plain plain) (bareFlag?_of_plain plain), nothing]
  rfl

lemma mentionsBehind_other {slot : Option Slot} (h : ∀ flag, slot ≠ some (.global flag)) :
    mentionsBehind slot args = mentions args := by
  unfold mentionsBehind
  split
  · exact absurd rfl (h _)
  · rfl

lemma recognised_other (h : ∀ flag, slot ≠ .global flag) (value : Option String) :
    recognised [(slot, value)] = [] := by
  cases slot with
  | global flag => exact absurd rfl (h flag)
  | argument _ | option _ => rfl

/-- Behind a lone `--` no global flag is recognised, no command is named, and no missing value is given. -/
lemma scanLevel_trailing (knows : KnowsGlobals level) (steady : Steady level p) (trailing : p.trailing = true)
    (h : scanLevel level p args = .ok (q, named)) :
    named = none ∧ recognised (entriesOf q) = recognised (entriesOf p) ∧
      (expected q = none → expected p = none) := by
  induction args generalizing p with
  | nil =>
    cases h
    exact ⟨rfl, rfl, id⟩
  | cons arg rest ih =>
    rw [scanLevel, if_pos trailing] at h
    obtain ⟨next, hpositional, hscan⟩ := bind_ok h
    obtain ⟨slot, known, adds, -⟩ := positional_adds steady hpositional
    obtain ⟨unnamed, same, -⟩ := ih adds.steady (adds.trailing.trans trailing) hscan
    have other : ∀ flag, slot ≠ .global flag := fun flag isGlobal =>
      knows.positionals flag (isGlobal ▸ known)
    refine ⟨unnamed, ?_, fun _ => adds.complete⟩
    rw [same, adds.entries, recognised_append, recognised_other other, List.append_nil]

/-- Taking an argument keeps what is recognised together with what is mentioned from there on. -/
lemma Takes.mentions (knows : KnowsGlobals level) (takes : Takes level p arg q) (hdashes : arg ≠ "--")
    (rest : List String) :
    recognised (entriesOf q) ++ mentionsBehind (expected q) rest =
      recognised (entriesOf p) ++ mentionsBehind (expected p) (arg :: rest) := by
  cases takes with
  | flag complete dash values globals =>
    rw [values, complete, List.append_assoc]
    congr 1
    change _ = Proofs.mentions (arg :: rest)
    cases bare : bareFlag? arg with
    | none =>
      rw [mentions_single hdashes bare, mentionsBehind_other]
      intro flag waiting
      rw [(globals flag).mp waiting] at bare
      cases bare
    | some flag =>
      rw [inlineValue?_of_bareFlag? bare, (globals flag).mpr bare]
      cases rest with
      | nil => exact (mentions_dangling bare).symm
      | cons value rest => exact (mentions_bare bare).symm
  | value slot waiting plain entries complete =>
    rw [entries, complete, recognised_append, recognised_entriesOf_expected waiting, waiting,
      List.append_assoc]
    congr 1
    cases slot with
    | global flag => rfl
    | argument _ | option _ => exact (mentions_plain plain).symm
  | positional slot complete plain known entries settled =>
    have other : ∀ flag, slot ≠ .global flag := fun flag isGlobal =>
      knows.positionals flag (isGlobal ▸ known)
    rw [entries, settled, complete, recognised_append, recognised_other other, List.append_nil]
    exact congrArg _ (mentions_plain plain).symm

/-- What is recognised on a level grows by what the arguments mention. -/
lemma scanLevel_mentions (knows : KnowsGlobals level) (steady : Steady level p) (trailing : p.trailing = false)
    (h : scanLevel level p args = .ok (q, named)) (complete : expected q = none)
    (plain : ∀ call ∈ named, call.1.startsWith "-" = false) :
    recognised (entriesOf q) ++ mentionsBelow named =
      recognised (entriesOf p) ++ mentionsBehind (expected p) args := by
  induction args generalizing p with
  | nil =>
    cases h
    rw [complete]
    rfl
  | cons arg rest ih =>
    rw [scanLevel, if_neg (by simp [trailing])] at h
    split at h
    · -- The name of the command is read as a word, and reading goes on behind it.
      cases h
      rw [complete]
      exact congrArg _ (mentions_plain (plain_of_word (plain (arg, rest) rfl))).symm
    · obtain ⟨next, hword, hscan⟩ := bind_ok h
      by_cases hdashes : arg = "--"
      · -- A flag whose value is missing here never gets one, so an accepted list has none.
        subst hdashes
        cases hword
        obtain ⟨rfl, same, before⟩ :=
          scanLevel_trailing knows (p := { p with trailing := true })
            ⟨steady.waits, steady.source, steady.positionals⟩ rfl hscan
        have none : expected p = .none := before complete
        rw [same, none]
        simp [mentionsBelow, mentionsBehind, entriesOf]
      · obtain ⟨takes, steadyAfter, trailingAfter⟩ := word_takes knows steady hdashes hword
        rw [ih steadyAfter (trailingAfter.trans trailing) hscan, takes.mentions knows hdashes]

/-- A level where only global flags take values. -/
structure OnlyGlobals (level : Level) : Prop where
  flags : ∀ name slot, level.longFlags.lookup name = some (.takesValue slot) → ∃ flag, slot = .global flag
  positionals : level.positionals = []

/-- Taking an argument keeps the first word. -/
lemma Takes.firstWord (only : OnlyGlobals level) (steady : Steady level p) (takes : Takes level p arg q)
    (hdashes : arg ≠ "--") (rest : List String) :
    firstWordBehind (expected q) rest = firstWordBehind (expected p) (arg :: rest) := by
  cases takes with
  | flag complete dash values globals =>
    rw [complete]
    change _ = firstWord? (arg :: rest)
    cases bare : bareFlag? arg with
    | none =>
      rw [firstWord?_single hdashes bare, if_pos dash]
      unfold firstWordBehind
      split
      · rename_i flag _ _ waiting
        rw [(globals flag).mp waiting] at bare
        cases bare
      · rfl
    | some flag =>
      rw [(globals flag).mpr bare]
      cases rest with
      | nil => exact (firstWord?_dangling bare).symm
      | cons value rest => exact (firstWord?_bare bare).symm
  | value slot waiting plain entries complete =>
    obtain ⟨name, found⟩ := steady.source slot waiting
    obtain ⟨flag, rfl⟩ := only.flags name slot found
    rw [waiting, complete]
    rfl
  | positional slot complete plain known entries settled =>
    rw [only.positionals] at known
    cases known

lemma scanLevel_firstWord (knows : KnowsGlobals level) (only : OnlyGlobals level)
    (steady : Steady level p) (trailing : p.trailing = false)
    (h : scanLevel level p args = .ok (q, some (name, rest))) (word : name.startsWith "-" = false) :
    firstWordBehind (expected p) args = some name := by
  induction args generalizing p with
  | nil => cases h
  | cons arg more ih =>
    rw [scanLevel, if_neg (by simp [trailing])] at h
    split at h
    · rename_i isNamed
      have complete : expected p = none := by
        rw [Bool.and_eq_true, Bool.not_eq_true', steady.waits] at isNamed
        simpa using isNamed.1
      cases h
      have plain := plain_of_word word
      rw [complete]
      change firstWord? (name :: rest) = some name
      rw [firstWord?_single (ne_dashes_of_plain plain) (bareFlag?_of_plain plain), word]
      rfl
    · obtain ⟨next, hword, hscan⟩ := bind_ok h
      by_cases hdashes : arg = "--"
      · subst hdashes
        cases hword
        obtain ⟨unnamed, -⟩ := scanLevel_trailing knows (p := { p with trailing := true })
          ⟨steady.waits, steady.source, steady.positionals⟩ rfl hscan
        cases unnamed
      · obtain ⟨takes, steadyAfter, trailingAfter⟩ := word_takes knows steady hdashes hword
        rw [← takes.firstWord only steady hdashes]
        exact ih steadyAfter (trailingAfter.trans trailing) hscan

end TaskRunner.Proofs
