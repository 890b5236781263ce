import TaskRunner.CommandLine.Registry
import TaskRunner.Proofs.ExceptSteps

/-!
# Where matched slots come from

A slot that is matched on a level is one of its positional arguments, with a word as its value, or belongs
to a flag that stands among the words. So what a call of a command was given can be traced back to the
words behind the command's name.
-/

namespace TaskRunner.Proofs
open CommandLine

/-- The slot that a flag fills. -/
def slotOf : FlagAction → Option Slot
  | .takesValue slot => some slot
  | .switch slot => some slot
  | .help => none
  | .version => none

/-- Some of the words is a flag of the slot. -/
def Flagged (level : Level) (words : List String) (slot : Slot) : Prop :=
  (∃ word ∈ words, ∃ name inline action, longForm? word = some (name, inline) ∧
    level.longFlags.lookup name = some action ∧ slotOf action = some slot) ∨
  ∃ c action, level.shortFlags.lookup c = some action ∧ slotOf action = some slot

/-- Some of the words fills the slot, as a flag or as the value of a positional argument. -/
def Sourced (level : Level) (words : List String) (entry : Slot × Option String) : Prop :=
  (entry.1 ∈ level.positionals ∧ ∃ word ∈ words, entry.2 = some word) ∨ Flagged level words entry.1

/-- What has been entered or waits to be entered. -/
def entriesOf (p : Progress) : Given :=
  p.given ++ p.pending.toList

/-- Everything matched so far comes from the words, and only positional arguments of the level are left. -/
structure AllSourced (level : Level) (words : List String) (p : Progress) : Prop where
  entries : ∀ entry ∈ entriesOf p, Sourced level words entry
  positionals : ∀ slot ∈ p.positionals, slot ∈ level.positionals

variable {level : Level} {words : List String} {p q : Progress}

lemma allSourced_atStart : AllSourced level words (.atStart level) :=
  ⟨by simp [Progress.atStart, entriesOf], fun _ h => h⟩

lemma entriesOf_enter {slot : Slot} {value : Option String} (h : p.enter slot value = .ok q) :
    entriesOf q = p.given ++ (slot, value) :: p.pending.toList ∧ q.positionals = p.positionals := by
  unfold Progress.enter at h
  split at h
  · cases h
  · cases h
    simp [entriesOf]

lemma AllSourced.enter {slot : Slot} {value : Option String} (hp : AllSourced level words p)
    (hslot : Sourced level words (slot, value)) (h : p.enter slot value = .ok q) :
    AllSourced level words q := by
  obtain ⟨hentries, hpositionals⟩ := entriesOf_enter h
  refine ⟨?_, by rw [hpositionals]; exact hp.positionals⟩
  intro entry hentry
  rw [hentries, List.mem_append, List.mem_cons] at hentry
  have hmem := hp.entries entry
  rw [entriesOf, List.mem_append] at hmem
  rcases hentry with hentry | rfl | hentry
  · exact hmem (.inl hentry)
  · exact hslot
  · exact hmem (.inr hentry)

lemma AllSourced.settle (hp : AllSourced level words p) (h : p.settle = .ok q) :
    AllSourced level words q := by
  unfold Progress.settle at h
  split at h
  · cases h
    exact hp
  · cases h
  · rename_i slot value hpending
    refine AllSourced.enter (p := { p with pending := none, awaiting := false }) ⟨?_, hp.positionals⟩ ?_ h
    · intro entry hentry
      apply hp.entries
      rw [entriesOf, List.mem_append] at hentry ⊢
      exact .inl (hentry.resolve_right (by simp))
    · apply hp.entries
      simp [entriesOf, hpending]

lemma AllSourced.wait {entry : Slot × Option String} {awaiting : Bool} {rest : List Slot}
    (hp : AllSourced level words p) (hentry : Sourced level words entry)
    (hrest : ∀ slot ∈ rest, slot ∈ level.positionals) :
    AllSourced level words
      { p with pending := some entry, awaiting := awaiting, positionals := rest } := by
  refine ⟨?_, hrest⟩
  intro other hother
  simp only [entriesOf, List.mem_append, Option.toList_some, List.mem_singleton] at hother
  rcases hother with hother | rfl
  · exact hp.entries other (by simp only [entriesOf, List.mem_append]; exact .inl hother)
  · exact hentry

lemma AllSourced.flag {action : FlagAction} {inline : Option String} (hp : AllSourced level words p)
    (hslot : ∀ slot, slotOf action = some slot → Flagged level words slot)
    (h : p.flag action inline = .ok q) : AllSourced level words q := by
  unfold Progress.flag at h
  cases action with
  | takesValue slot =>
    cases inline with
    | some value =>
      obtain ⟨p', hsettle, henter⟩ := bind_ok h
      exact (hp.settle hsettle).enter (.inr (hslot slot rfl)) henter
    | none =>
      obtain ⟨p', hsettle, hq⟩ := bind_ok h
      cases hq
      exact (hp.settle hsettle).wait (.inr (hslot slot rfl)) (hp.settle hsettle).positionals
  | switch slot =>
    cases inline with
    | some value => cases h
    | none =>
      obtain ⟨p', hsettle, henter⟩ := bind_ok h
      exact (hp.settle hsettle).enter (.inr (hslot slot rfl)) henter
  | help | version =>
    cases inline with
    | some value => cases h
    | none =>
      obtain ⟨p', hsettle, hq⟩ := bind_ok h
      cases hq

lemma AllSourced.shortFlag {chars : List Char} (hp : AllSourced level words p)
    (h : Progress.shortFlag level chars p = .ok q) : AllSourced level words q := by
  induction chars generalizing p with
  | nil =>
    cases h
    exact hp
  | cons c rest ih =>
    rw [Progress.shortFlag] at h
    cases hc : level.shortFlags.lookup c with
    | none =>
      rw [hc] at h
      cases h
    | some action =>
      rw [hc] at h
      obtain ⟨p', hflag, hrest⟩ := bind_ok h
      exact ih (hp.flag (fun slot hslot => .inr ⟨c, action, hc, hslot⟩) hflag) hrest

lemma AllSourced.positional {word : String} (hp : AllSourced level words p) (hword : word ∈ words)
    (h : p.positional level word = .ok q) : AllSourced level words q := by
  unfold Progress.positional at h
  cases hpositionals : p.positionals with
  | nil =>
    rw [hpositionals] at h
    dsimp only at h
    split at h
    · cases h
    · split at h <;> cases h
  | cons slot rest =>
    rw [hpositionals] at h
    obtain ⟨p', hsettle, hq⟩ := bind_ok h
    cases hq
    have hlevel := hp.positionals
    rw [hpositionals] at hlevel
    exact (hp.settle hsettle).wait (.inl ⟨hlevel slot List.mem_cons_self, word, hword, rfl⟩)
      fun other hother => hlevel other (List.mem_cons_of_mem _ hother)

lemma AllSourced.word {arg : String} (hp : AllSourced level words p) (harg : arg ∈ words)
    (h : p.word level arg = .ok q) : AllSourced level words q := by
  unfold Progress.word at h
  cases hlong : longForm? arg with
  | some form =>
    obtain ⟨name, inline⟩ := form
    rw [hlong] at h
    dsimp only at h
    split at h
    · cases h
      exact ⟨hp.entries, hp.positionals⟩
    · cases hlookup : level.longFlags.lookup name with
      | none =>
        rw [hlookup] at h
        cases h
      | some action =>
        rw [hlookup] at h
        refine hp.flag (fun slot hslot => ?_) h
        exact .inl ⟨arg, harg, name, inline, action, hlong, hlookup, hslot⟩
  | none =>
    rw [hlong] at h
    dsimp only at h
    split at h
    · exact hp.shortFlag h
    · split at h
      · rename_i slot value hawaiting hpending
        cases h
        refine hp.wait ?_ hp.positionals
        rcases hp.entries (slot, value) (by simp [entriesOf, hpending]) with hpositional | hflagged
        · exact .inl ⟨hpositional.1, arg, harg, rfl⟩
        · exact .inr hflagged
      · exact hp.positional harg h

lemma AllSourced.scanLevel {args : List String} {named : Option (String × List String)}
    (hp : AllSourced level words p) (hargs : ∀ arg ∈ args, arg ∈ words)
    (h : scanLevel level p args = .ok (q, named)) : AllSourced level words q := by
  induction args generalizing p with
  | nil =>
    cases h
    exact hp
  | cons arg rest ih =>
    have hrest : ∀ word ∈ rest, word ∈ words := fun word hword =>
      hargs word (List.mem_cons_of_mem _ hword)
    rw [CommandLine.scanLevel] at h
    split at h
    · obtain ⟨p', hpositional, hscan⟩ := bind_ok h
      exact ih (hp.positional (hargs arg List.mem_cons_self) hpositional) hrest hscan
    · split at h
      · cases h
        exact hp
      · obtain ⟨p', hword, hscan⟩ := bind_ok h
        exact ih (hp.word (hargs arg List.mem_cons_self) hword) hrest hscan

lemma matchLevel_sourced {args : List String} {given : Given}
    (h : matchLevel level args = .ok given) {entry : Slot × Option String} (hentry : entry ∈ given) :
    Sourced level args entry := by
  obtain ⟨⟨p, named⟩, hscan, h⟩ := bind_ok h
  obtain ⟨q, hsettle, hq⟩ := bind_ok h
  cases hq
  have hp := allSourced_atStart.scanLevel (fun _ h => h) hscan
  apply (hp.settle hsettle).entries
  rw [entriesOf, List.mem_append]
  exact .inl hentry

/-! ## The level of a command -/

lemma mem_of_lookup {α β : Type} [BEq α] [LawfulBEq α] {key : α} {value : β}
    {entries : List (α × β)} (h : entries.lookup key = some value) : (key, value) ∈ entries := by
  obtain ⟨before, behind, hsplit, -⟩ := List.lookup_eq_some_iff.mp h
  rw [hsplit]
  exact List.mem_append_right _ List.mem_cons_self

lemma slotOf_optionLongFlag (o : OptionSpec) : slotOf (optionLongFlag o).2 = some (.option o.flag) := by
  unfold optionLongFlag
  cases o.default.isSwitch <;> rfl

/-- A flag of a command fills a slot for the whole program, or it is the flag of an option. -/
lemma flagged_cases {c : Command} {slot : Slot} (h : Flagged (commandLevel c) words slot) :
    (∃ flag, slot = .global flag) ∨
    ∃ flag, slot = .option flag ∧ ∃ word ∈ words, ∃ inline, longForm? word = some (flag, inline) := by
  rcases h with ⟨word, hword, name, inline, action, hlong, hlookup, hslot⟩ |
    ⟨letter, action, hlookup, hslot⟩
  · have hmem := mem_of_lookup hlookup
    simp only [commandLevel, List.mem_append, List.mem_map, List.mem_singleton, globalLongFlags] at hmem
    rcases hmem with (⟨o, -, ho⟩ | ⟨global, -, hglobal⟩) | hhelp
    · have hflag := slotOf_optionLongFlag o
      rw [ho, hslot, Option.some.injEq] at hflag
      have hname : o.flag = name := congrArg Prod.fst ho
      exact .inr ⟨o.flag, hflag, word, hword, inline, by rw [hlong, hname]⟩
    · obtain ⟨rfl, rfl⟩ := Prod.mk.inj hglobal
      exact .inl ⟨global, (Option.some.inj hslot).symm⟩
    · obtain ⟨rfl, rfl⟩ := Prod.mk.inj hhelp
      cases hslot
  · have hmem := mem_of_lookup hlookup
    simp only [commandLevel, List.mem_singleton] at hmem
    obtain ⟨rfl, rfl⟩ := Prod.mk.inj hmem
    cases hslot

/-- An option is given only by a word with its flag. -/
lemma option_given {c : Command} {args : List String} {given : Given}
    (h : matchLevel (commandLevel c) args = .ok given) {flag : String} {value : Option String}
    (hgiven : (.option flag, value) ∈ given) :
    ∃ word ∈ args, ∃ inline, longForm? word = some (flag, inline) := by
  rcases matchLevel_sourced h hgiven with ⟨hpositional, -⟩ | hflagged
  · simp [commandLevel] at hpositional
  · rcases flagged_cases hflagged with ⟨global, hglobal⟩ | ⟨other, hslot, hword⟩
    · cases hglobal
    · cases hslot
      exact hword

/-- A positional argument is given only by a word that is its value. -/
lemma argument_given {c : Command} {args : List String} {given : Given}
    (h : matchLevel (commandLevel c) args = .ok given) {name : String} {value : Option String}
    (hgiven : (.argument name, value) ∈ given) : ∃ word ∈ args, value = some word := by
  rcases matchLevel_sourced h hgiven with ⟨-, hword⟩ | hflagged
  · exact hword
  · rcases flagged_cases hflagged with ⟨global, hglobal⟩ | ⟨other, hslot, -⟩
    · cases hglobal
    · cases hslot

lemma scanLevel_named {args rest : List String} {name : String}
    (h : scanLevel level p args = .ok (q, some (name, rest))) : name :: rest <:+ args := by
  induction args generalizing p with
  | nil => cases h
  | cons arg more ih =>
    rw [scanLevel] at h
    split at h
    · obtain ⟨p', -, hscan⟩ := bind_ok h
      exact (ih hscan).trans (List.suffix_cons arg more)
    · split at h
      · cases h
        exact List.suffix_rfl
      · obtain ⟨p', -, hscan⟩ := bind_ok h
        exact (ih hscan).trans (List.suffix_cons arg more)

/-- The words of a call behind the command's name, and what they give for the command. -/
structure CallGives (r : Registry) (args : List String) (c : Command) (given : Given) : Prop where
  registered : c ∈ r.commands
  matched : ∃ rest, c.cliName :: rest <:+ args ∧ matchLevel (commandLevel c) rest = .ok given
  required : requiredGiven c given = true

/-- A call passes the values of what its words give. -/
lemma invocation_call {r : Registry} {args : List String} {c : Command} {values : List Json}
    (h : r.invocation args = .ok (.call c values)) :
    ∃ given, CallGives r args c given ∧ values = callValues c given := by
  obtain ⟨⟨p, named⟩, hscan, h⟩ := bind_ok h
  cases named with
  | none =>
    obtain ⟨invocation, hinvocation, h⟩ := bind_ok h
    obtain ⟨q, -, h⟩ := bind_ok h
    cases hinvocation
    cases h
  | some call =>
    obtain ⟨name, rest⟩ := call
    dsimp only at h
    cases hfind : r.find? name with
    | none =>
      rw [hfind] at h
      obtain ⟨given, -, h⟩ := bind_ok h
      obtain ⟨invocation, hinvocation, h⟩ := bind_ok h
      obtain ⟨q, -, h⟩ := bind_ok h
      cases hinvocation
      cases h
    | some d =>
      rw [hfind] at h
      obtain ⟨given, hmatch, h⟩ := bind_ok h
      split at h
      · rename_i hrequired
        obtain ⟨invocation, hinvocation, h⟩ := bind_ok h
        obtain ⟨q, -, h⟩ := bind_ok h
        cases hinvocation
        cases h
        have hname : c.cliName = name := by simpa using List.find?_some hfind
        refine ⟨given, ⟨List.mem_of_find?_eq_some hfind, ⟨rest, ?_, hmatch⟩, hrequired⟩, rfl⟩
        rw [hname]
        exact scanLevel_named hscan
      · cases h

end TaskRunner.Proofs
