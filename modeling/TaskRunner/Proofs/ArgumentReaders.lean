import TaskRunner.Proofs.RecognisedGlobals

/-!
# Agreement on the arguments

An argument list is read three times: for the global flags, for the command that is asked for, and by matching
it on the levels of the program and of the command. Main statement: the first two readings always go by the
same places, and matching agrees with them on every list that it accepts with a command, if and only if the
command's name does not start with a dash.
-/

namespace TaskRunner.Proofs
open CommandLine

/-! ## The levels of a program -/

lemma mem_globalLongFlags {name : String} {action : FlagAction} (h : (name, action) ∈ globalLongFlags) :
    ∃ flag, GlobalFlag.name flag = name ∧ action = .takesValue (.global flag) := by
  obtain ⟨flag, -, same⟩ := List.mem_map.mp h
  cases same
  exact ⟨flag, rfl, rfl⟩

lemma lookup_globalLongFlags (flag : GlobalFlag) :
    globalLongFlags.lookup flag.name = some (.takesValue (.global flag)) := by
  cases flag <;> rfl

lemma name_mem_reservedFlags (flag : GlobalFlag) : flag.name ∈ reservedFlags := by
  cases flag <;> decide

/-- A level knows the global flags if its own flags in front of them have other names and slots, and those
behind them fill no slot. -/
lemma knowsGlobals_of_flags {level : Level} (own shows : List (String × FlagAction))
    (hflags : level.longFlags = own ++ globalLongFlags ++ shows)
    (hown : ∀ entry ∈ own, entry.1 ∉ reservedFlags ∧ ∀ flag, slotOf entry.2 ≠ some (.global flag))
    (hshows : ∀ entry ∈ shows, slotOf entry.2 = none)
    (hletters : ∀ entry ∈ level.shortFlags, entry.2 = .help ∨ entry.2 = .version)
    (hpositionals : ∀ flag, .global flag ∉ level.positionals) : KnowsGlobals level := by
  refine ⟨fun flag => ?_, fun name action found unnamed flag fills => ?_, fun c action found => ?_,
    hpositionals⟩
  · have notOwn : own.lookup flag.name = none := by
      rw [List.lookup_eq_none_iff]
      intro entry hentry
      have differs : flag.name ≠ entry.1 := fun same =>
        (hown entry hentry).1 (same ▸ name_mem_reservedFlags flag)
      simpa using differs
    rw [hflags, List.lookup_append, List.lookup_append, notOwn, lookup_globalLongFlags]
    rfl
  · have hmem := mem_of_lookup found
    rw [hflags, List.mem_append, List.mem_append] at hmem
    rcases hmem with (inOwn | inGlobals) | inShows
    · exact (hown _ inOwn).2 flag fills
    · obtain ⟨global, rfl, -⟩ := mem_globalLongFlags inGlobals
      rw [ofName?_name] at unnamed
      cases unnamed
    · rw [hshows _ inShows] at fills
      cases fills
  · exact hletters _ (mem_of_lookup found)

lemma knowsGlobals_rootLevel (r : Registry) : KnowsGlobals r.rootLevel :=
  knowsGlobals_of_flags [] _ rfl (by simp) (by simp [slotOf]) (by simp [Registry.rootLevel])
    (by simp [Registry.rootLevel])

lemma knowsGlobals_initLevel : KnowsGlobals initLevel :=
  knowsGlobals_of_flags [] _ rfl (by simp) (by simp [slotOf]) (by simp [initLevel])
    (by simp [initLevel])

lemma knowsGlobals_commandLevel (c : Command) : KnowsGlobals (commandLevel c) := by
  refine knowsGlobals_of_flags _ _ rfl ?_ (by simp [slotOf]) (by simp [commandLevel]) (by simp [commandLevel])
  intro entry hentry
  obtain ⟨o, ho, rfl⟩ := List.mem_map.mp hentry
  have free := (List.mem_filter.mp ho).2
  refine ⟨by simpa [isReserved, optionLongFlag] using free, fun flag => ?_⟩
  rw [slotOf_optionLongFlag]
  simp

lemma onlyGlobals_rootLevel (r : Registry) : OnlyGlobals r.rootLevel := by
  refine ⟨fun name slot found => ?_, rfl⟩
  rcases List.mem_append.mp (mem_of_lookup found) with known | shows
  · obtain ⟨flag, -, same⟩ := mem_globalLongFlags known
    cases same
    exact ⟨flag, rfl⟩
  · simp at shows

/-! ## Matching on both levels -/

/-- The level below the name of a command. -/
def levelOf (r : Registry) (name : String) : Level :=
  match r.find? name with
  | none => initLevel
  | some c => commandLevel c

/-- The command that arguments name, and what they give on the program's level and on the command's. -/
def matchLevels (r : Registry) (args : List String) :
    Except UsageError (Option (String × Given × Given)) := do
  let (p, named) ← scanLevel r.rootLevel (.atStart r.rootLevel) args
  let settled ← p.settle
  match named with
  | none => .ok none
  | some (name, rest) => do
    let below ← matchLevel (levelOf r name) rest
    .ok (some (name, settled.given, below))

/-- The name of the command that is called. -/
def commandName? : Invocation → Option String
  | .none => none
  | .init => some initCommand
  | .call c _ => some c.cliName

lemma knowsGlobals_levelOf (r : Registry) (name : String) : KnowsGlobals (levelOf r name) := by
  unfold levelOf
  split
  · exact knowsGlobals_initLevel
  · exact knowsGlobals_commandLevel _

lemma steady_atStart (level : Level) : Steady level (.atStart level) :=
  steady_of_complete rfl rfl fun _ h => h

lemma scanLevel_mem {level : Level} {p q : Progress} {args rest : List String} {name : String}
    (h : scanLevel level p args = .ok (q, some (name, rest))) : name ∈ level.commands := by
  induction args generalizing p with
  | nil => cases h
  | cons arg more ih =>
    rw [scanLevel] at h
    split at h
    · obtain ⟨next, -, hscan⟩ := bind_ok h
      exact ih hscan
    · split at h
      · rename_i isNamed
        cases h
        simpa using (Bool.and_eq_true_iff.mp isNamed).2
      · obtain ⟨next, -, hscan⟩ := bind_ok h
        exact ih hscan

lemma recognised_atStart (level : Level) (args : List String) :
    recognised (entriesOf (.atStart level)) ++ mentionsBehind (expected (.atStart level)) args =
      mentions args :=
  rfl

/-- Matching a level to the end recognises what its arguments mention. -/
lemma matchLevel_mentions {r : Registry} {name : String} {args : List String} {given : Given}
    (h : matchLevel (levelOf r name) args = .ok given) : recognised given = mentions args := by
  obtain ⟨⟨p, named⟩, hscan, h⟩ := bind_ok h
  obtain ⟨settled, hsettle, h⟩ := bind_ok h
  cases h
  have hsettled := settle_settlesPending hsettle
  have unnamed : named = none := by
    cases named with
    | none => rfl
    | some call =>
      -- The levels below the program's own have no commands.
      have known := scanLevel_mem hscan
      unfold levelOf at known
      split at known <;> cases known
  subst unnamed
  rw [hsettled.given, ← recognised_atStart (levelOf r name), ← scanLevel_mentions (knowsGlobals_levelOf r name)
    (steady_atStart _) rfl hscan hsettled.complete (by simp)]
  simp [mentionsBelow]

lemma initCommand_of_find?_none {r : Registry} {name : String} (known : name ∈ r.rootLevel.commands)
    (missing : r.find? name = none) : name = initCommand := by
  rcases List.mem_cons.mp known with isInit | registered
  · exact isInit
  · obtain ⟨c, hc, rfl⟩ := List.mem_map.mp registered
    exact absurd (beq_self_eq_true c.cliName) (List.find?_eq_none.mp missing c hc)

variable {r : Registry} {args rest : List String} {name : String} {above below : Given} {p settled : Progress}

lemma matchLevels_named (hscan : scanLevel r.rootLevel (.atStart r.rootLevel) args = .ok (p, some (name, rest)))
    (hsettle : p.settle = .ok settled) (hbelow : matchLevel (levelOf r name) rest = .ok below) :
    matchLevels r args = .ok (some (name, settled.given, below)) := by
  simp only [matchLevels, hscan, hsettle, hbelow, ok_bind]

/-- What an accepted list leads to: the command that is called, with the values of what is given on its
level. -/
structure LeadsTo (found : Option (String × Given × Given)) (invocation : Invocation) : Prop where
  name : found.map Prod.fst = commandName? invocation
  values : ∀ c values, invocation = .call c values →
    ∃ above below, found = some (c.cliName, above, below) ∧ values = callValues c below

/-- An accepted list is matched on both levels. -/
lemma invocation_leadsTo {invocation : Invocation} (h : r.invocation args = .ok invocation) :
    ∃ found, matchLevels r args = .ok found ∧ LeadsTo found invocation := by
  obtain ⟨⟨p, named⟩, hscan, h⟩ := bind_ok h
  cases named with
  | none =>
    obtain ⟨called, hcalled, h⟩ := bind_ok h
    obtain ⟨settled, hsettle, h⟩ := bind_ok h
    cases hcalled
    cases h
    refine ⟨none, ?_, rfl, by simp⟩
    simp only [matchLevels, hscan, hsettle, ok_bind]
  | some call =>
    obtain ⟨name, rest⟩ := call
    dsimp only at h
    cases hfind : r.find? name with
    | none =>
      rw [hfind] at h
      obtain ⟨below, hbelow, h⟩ := bind_ok h
      obtain ⟨called, hcalled, h⟩ := bind_ok h
      obtain ⟨settled, hsettle, h⟩ := bind_ok h
      cases hcalled
      cases h
      have onLevel : matchLevel (levelOf r name) rest = .ok below := by rw [levelOf, hfind, hbelow]
      refine ⟨_, matchLevels_named hscan hsettle onLevel, ?_, by simp⟩
      exact congrArg some (initCommand_of_find?_none (scanLevel_mem hscan) hfind)
    | some c =>
      rw [hfind] at h
      obtain ⟨below, hbelow, h⟩ := bind_ok h
      split at h
      · obtain ⟨called, hcalled, h⟩ := bind_ok h
        obtain ⟨settled, hsettle, h⟩ := bind_ok h
        cases hcalled
        cases h
        have onLevel : matchLevel (levelOf r name) rest = .ok below := by rw [levelOf, hfind, hbelow]
        have sameName : c.cliName = name := by simpa using List.find?_some hfind
        subst sameName
        refine ⟨_, matchLevels_named hscan hsettle onLevel, rfl, ?_⟩
        intro other values same
        cases same
        exact ⟨settled.given, below, rfl, rfl⟩
      · cases h

/-! ## Agreement -/

lemma firstWord?_word (h : firstWord? args = some name) : name.startsWith "-" = false := by
  obtain ⟨i, found, there⟩ := Option.bind_eq_some_iff.mp h
  have word := List.find?_some found
  rw [isWordAt, there] at word
  simpa using (Bool.and_eq_true_iff.mp word).2

/-- A list that names a command without a dash is matched as it is read. -/
lemma matchLevels_agrees (h : matchLevels r args = .ok (some (name, above, below)))
    (word : name.startsWith "-" = false) :
    firstWord? args = some name ∧ recognised (above ++ below) = mentions args := by
  obtain ⟨⟨p, named⟩, hscan, h⟩ := bind_ok h
  obtain ⟨settled, hsettle, h⟩ := bind_ok h
  cases named with
  | none => cases h
  | some call =>
    obtain ⟨_, rest⟩ := call
    obtain ⟨_, hbelow, h⟩ := bind_ok h
    cases h
    have hsettled := settle_settlesPending hsettle
    have plain : ∀ call ∈ some (name, rest), call.1.startsWith "-" = false := by
      rintro call ⟨⟩
      exact word
    have knows := knowsGlobals_rootLevel r
    refine ⟨scanLevel_firstWord knows (onlyGlobals_rootLevel r) (steady_atStart _) rfl hscan word, ?_⟩
    rw [recognised_append, hsettled.given, matchLevel_mentions hbelow,
      ← recognised_atStart r.rootLevel args]
    exact scanLevel_mentions knows (steady_atStart _) rfl hscan hsettled.complete plain

/-- The two readings of an argument list go by the same places: each flag has the value that it gets last, and
the command that is asked for is the first word. If the list is accepted with a command, that command is the
one that is asked for, and the global flags are recognised with the values they get, if and only if the
command's name does not start with a dash. -/
theorem argument_readers_agree (args : List String) :
    (∀ flag, (Globals.ofArgs args).get? flag = lastValue? flag (mentions args)) ∧
    requestedCommand args = firstWord? args ∧
    ∀ (r : Registry) (invocation : Invocation), r.invocation args = .ok invocation →
      ∃ found, matchLevels r args = .ok found ∧ LeadsTo found invocation ∧
        ∀ name above below, found = some (name, above, below) →
          (requestedCommand args = some name ∧ recognised (above ++ below) = mentions args ↔
            name.startsWith "-" = false) := by
  refine ⟨ofArgs_get? args, requestedCommand_eq args, fun r invocation h => ?_⟩
  obtain ⟨found, hfound, leads⟩ := invocation_leadsTo h
  refine ⟨found, hfound, leads, ?_⟩
  rintro name above below rfl
  rw [requestedCommand_eq]
  exact ⟨fun agree => firstWord?_word agree.1, matchLevels_agrees hfound⟩

/-- A command that takes a file. -/
def build : Command :=
  { Command.ofFunction "build" with args := [⟨"file", none⟩] }

/-- The value of a flag may be the name of a command, a flag may be given again behind the command's name, and
behind a lone `--` it is only a word. -/
theorem argument_readers_agree_build :
    let args := ["--config", "init", "build", "--log-level=debug", "--config", "b.yaml", "--", "--config"]
    Registry.invocation ⟨[build]⟩ args = .ok (.call build [.text "--config"]) ∧
    mentions args = [(.config, "init"), (.logLevel, "debug"), (.config, "b.yaml")] ∧
    (Globals.ofArgs args).get? .config = some "b.yaml" ∧
    ∃ above below, matchLevels ⟨[build]⟩ args = .ok (some ("build", above, below)) ∧
      requestedCommand args = some "build" ∧ recognised (above ++ below) = mentions args := by
  intro args
  have hcall : Registry.invocation ⟨[build]⟩ args = .ok (.call build [.text "--config"]) := rfl
  have hmentions : mentions args = [(.config, "init"), (.logLevel, "debug"), (.config, "b.yaml")] := by
    decide
  obtain ⟨hvalues, -, haccepted⟩ := argument_readers_agree args
  obtain ⟨found, hfound, leads, hagree⟩ := haccepted ⟨[build]⟩ _ hcall
  obtain ⟨above, below, rfl, -⟩ := leads.values build _ rfl
  have word : "build".startsWith "-" = false := by simp
  refine ⟨hcall, hmentions, ?_, above, below, hfound, (hagree _ above below rfl).mpr word⟩
  rw [hvalues, hmentions]
  rfl

/-- A command with the name of a flag is matched by that name, while both readings take it for the flag: the
command is called with a file, but the file is read as the flag's value and no command is asked for. -/
theorem dashed_command_read_as_flag :
    let command := { build with name := "--config" }
    let args := ["--config", "x"]
    Registry.invocation ⟨[command]⟩ args = .ok (.call command [.text "x"]) ∧
    matchLevels ⟨[command]⟩ args = .ok (some ("--config", [], [(.argument "file", some "x")])) ∧
    requestedCommand args = none ∧ (Globals.ofArgs args).config = some "x" ∧
    recognised [(.argument "file", some "x")] = [] ∧ mentions args = [(.config, "x")] := by
  refine ⟨rfl, rfl, ?_, rfl, rfl, ?_⟩
  · decide
  · decide

end TaskRunner.Proofs
