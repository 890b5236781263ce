import TaskRunner.Proofs.WrittenCalls

/-!
# Where the values of global flags stand

An argument is the value of a global flag if the one in front of it is that flag without a value of its own,
and no value itself. Everything that is read before the commands are known follows from these places: the
value of each flag is the one that is given last, and the command that is asked for is the first argument that
is neither a value nor starts with a dash. All of it ends at the first lone `--` that is no value.
-/

namespace TaskRunner.Proofs
open CommandLine

/-! ## Places -/

/-- The global flag that an argument is, without a value of its own. -/
def bareFlag? (arg : String) : Option GlobalFlag :=
  GlobalFlag.all.find? fun flag => arg == "--" ++ flag.name

/-- The global flag of an argument and the value behind its equals sign. -/
def inlineValue? (arg : String) : Option (GlobalFlag × String) :=
  GlobalFlag.all.findSome? fun flag =>
    (List.isPrefixOf? ("--" ++ flag.name ++ "=").toList arg.toList).map fun value =>
      (flag, String.ofList value)

/-- The flag whose value stands at a place. -/
def ownerAt (args : List String) : Nat → Option GlobalFlag
  | 0 => none
  | i + 1 => if (ownerAt args i).isSome then none else args[i]?.bind bareFlag?

/-- Whether a lone `--` stands at a place and is no value. -/
def closesAt (args : List String) (i : Nat) : Bool :=
  args[i]? == some "--" && (ownerAt args i).isNone

/-- The places in front of the first lone `--` that is no value. -/
def openPlaces (args : List String) : List Nat :=
  (List.range args.length).takeWhile fun i => !closesAt args i

/-- The flag that gets a value at a place, and the value. -/
def mentionAt? (args : List String) (i : Nat) : Option (GlobalFlag × String) :=
  match ownerAt args i with
  | some flag => args[i]?.map (flag, ·)
  | none => args[i]?.bind inlineValue?

/-- The values that global flags get, in order. -/
def mentions (args : List String) : List (GlobalFlag × String) :=
  (openPlaces args).filterMap (mentionAt? args)

/-- The value that a flag gets last. -/
def lastValue? (flag : GlobalFlag) (given : List (GlobalFlag × String)) : Option String :=
  (given.filter (·.1 == flag)).getLast?.map Prod.snd

/-- Whether the argument at a place is a word: no value, and without a dash at its start. -/
def isWordAt (args : List String) (i : Nat) : Bool :=
  (ownerAt args i).isNone && args[i]?.any fun arg => !arg.startsWith "-"

/-- The first word. -/
def firstWord? (args : List String) : Option String :=
  ((openPlaces args).find? (isWordAt args)).bind (args[·]?)

/-! ## Forms of an argument -/

variable {arg value : String} {flag : GlobalFlag} {args rest : List String}

lemma longForm?_bare {name : String} (h : '=' ∉ name.toList) :
    longForm? ("--" ++ name) = some (name, none) := by
  have plain : splitAtEquals name.toList = none := splitAtEquals_none fun c hc equals => h (equals ▸ hc)
  have dashes : "--".toList = ['-', '-'] := rfl
  simp [longForm?, dashes, plain]

lemma longForm?_inline {name : String} (h : '=' ∉ name.toList) (value : String) :
    longForm? ("--" ++ name ++ "=" ++ value) = some (name, some value) := by
  have cut : splitAtEquals (name.toList ++ '=' :: value.toList) = some (name.toList, value.toList) :=
    splitAtEquals_append (fun c hc equals => h (equals ▸ hc)) _
  have dashes : "--".toList = ['-', '-'] := rfl
  have equals : "=".toList = ['='] := rfl
  simp [longForm?, dashes, equals, cut]

/-- An argument with two dashes is its name behind them, or the name, an equals sign and the value. -/
lemma longForm?_cases {name : String} {inline : Option String} (h : longForm? arg = some (name, inline)) :
    (inline = none ∧ arg = "--" ++ name) ∨
      ∃ value, inline = some value ∧ arg = "--" ++ name ++ "=" ++ value := by
  have dashes : "--".toList = ['-', '-'] := rfl
  have equals : "=".toList = ['='] := rfl
  unfold longForm? at h
  split at h
  · rename_i body chars
    by_cases valued : '=' ∈ body
    · obtain ⟨front, value, rfl, plain⟩ := List.eq_append_cons_of_mem valued
      rw [splitAtEquals_append fun c hc sign => plain (sign ▸ hc)] at h
      obtain ⟨rfl, rfl⟩ := Prod.mk.inj (Option.some.inj h)
      refine .inr ⟨String.ofList value, rfl, String.toList_inj.mp ?_⟩
      simp [chars, dashes, equals]
    · rw [splitAtEquals_none fun c hc sign => valued (sign ▸ hc)] at h
      obtain ⟨rfl, rfl⟩ := Prod.mk.inj (Option.some.inj h)
      refine .inl ⟨rfl, String.toList_inj.mp ?_⟩
      simp [chars, dashes]
  · cases h

lemma equals_notMem_name (flag : GlobalFlag) : '=' ∉ flag.name.toList := by
  cases flag <;> decide

lemma bareFlag?_eq_some : bareFlag? arg = some flag ↔ arg = "--" ++ flag.name := by
  constructor
  · intro h
    simpa using List.find?_some h
  · rintro rfl
    cases flag <;> rfl

lemma name_inj {other : GlobalFlag} : flag.name = other.name ↔ flag = other := by
  cases flag <;> cases other <;> simp [GlobalFlag.name]

lemma ofName?_eq_some {name : String} : GlobalFlag.ofName? name = some flag ↔ flag.name = name := by
  constructor
  · intro h
    unfold GlobalFlag.ofName? at h
    simpa using List.find?_some h
  · rintro rfl
    cases flag <;> rfl

lemma inlineValue?_sound (h : inlineValue? arg = some (flag, value)) :
    arg = "--" ++ flag.name ++ "=" ++ value := by
  obtain ⟨other, -, found⟩ := List.exists_of_findSome?_eq_some h
  obtain ⟨chars, behind, same⟩ := Option.map_eq_some_iff.mp found
  obtain ⟨rfl, rfl⟩ := Prod.mk.inj same
  rw [List.isPrefixOf?_eq_some_iff_append_eq] at behind
  apply String.toList_inj.mp
  rw [String.toList_append, String.toList_ofList, behind]

lemma inlineValue?_isSome (flag : GlobalFlag) (value : String) :
    (inlineValue? ("--" ++ flag.name ++ "=" ++ value)).isSome := by
  have behind : List.isPrefixOf? ("--" ++ flag.name ++ "=").toList ("--" ++ flag.name ++ "=" ++ value).toList =
      some value.toList := by
    rw [List.isPrefixOf?_eq_some_iff_append_eq, ← String.toList_append]
  refine List.findSome?_isSome_iff.mpr ⟨flag, ?_, ?_⟩
  · cases flag <;> simp [GlobalFlag.all]
  · rw [behind]
    rfl

lemma bareFlag?_iff_longForm? :
    bareFlag? arg = some flag ↔ longForm? arg = some (flag.name, none) := by
  rw [bareFlag?_eq_some]
  constructor
  · rintro rfl
    exact longForm?_bare (equals_notMem_name flag)
  · intro h
    rcases longForm?_cases h with ⟨-, plain⟩ | ⟨value, inline, -⟩
    · exact plain
    · cases inline

lemma inlineValue?_iff_longForm? :
    inlineValue? arg = some (flag, value) ↔ longForm? arg = some (flag.name, some value) := by
  have forward : ∀ {flag value}, inlineValue? arg = some (flag, value) →
      longForm? arg = some (flag.name, some value) := fun {flag value} h =>
    inlineValue?_sound h ▸ longForm?_inline (equals_notMem_name flag) value
  refine ⟨forward, fun h => ?_⟩
  rcases longForm?_cases h with ⟨bare, -⟩ | ⟨_, inline, written⟩
  · cases bare
  · obtain ⟨⟨other, given⟩, found⟩ := Option.isSome_iff_exists.mp (inlineValue?_isSome flag value)
    cases inline
    rw [← written] at found
    have same := (forward found).symm.trans h
    simp only [Option.some.injEq, Prod.mk.injEq, name_inj] at same
    rw [found, same.1, same.2]

lemma bareFlag?_dashes : bareFlag? "--" = none := by
  decide

lemma inlineValue?_of_bareFlag? (h : bareFlag? arg = some flag) : inlineValue? arg = none := by
  cases given : inlineValue? arg with
  | none => rfl
  | some mention =>
    have inline := inlineValue?_iff_longForm?.mp given
    simp [bareFlag?_iff_longForm?.mp h] at inline

lemma ne_dashes_of_bareFlag? (h : bareFlag? arg = some flag) : arg ≠ "--" := by
  rintro rfl
  rw [bareFlag?_dashes] at h
  cases h

/-! ## Places behind a place that is no value -/

/-- Behind a place that is no value, what stands in front of it does not matter. -/
lemma ownerAt_add {k : Nat} (h : ownerAt args k = none) (i : Nat) :
    ownerAt args (k + i) = ownerAt (args.drop k) i := by
  induction i with
  | zero => exact h
  | succ i ih => rw [← Nat.add_assoc, ownerAt, ownerAt, ih, List.getElem?_drop]

lemma openPlaces_add {k : Nat} (hk : k ≤ args.length) (h : ownerAt args k = none)
    (unclosed : ∀ i < k, closesAt args i = false) :
    openPlaces args = List.range k ++ (openPlaces (args.drop k)).map (k + ·) := by
  have whole : args.length = k + (args.drop k).length := by
    rw [List.length_drop]
    omega
  have later : ((fun i => !closesAt args i) ∘ (k + ·)) = fun i => !closesAt (args.drop k) i := by
    funext i
    simp [closesAt, ownerAt_add h]
  rw [openPlaces, whole, List.range_add, List.takeWhile_append_of_pos (by simpa using unclosed),
    List.takeWhile_map, later]
  rfl

lemma mentions_add {k : Nat} (hk : k ≤ args.length) (h : ownerAt args k = none)
    (unclosed : ∀ i < k, closesAt args i = false) :
    mentions args = (List.range k).filterMap (mentionAt? args) ++ mentions (args.drop k) := by
  have later : (mentionAt? args ∘ (k + ·)) = mentionAt? (args.drop k) := by
    funext i
    simp [mentionAt?, ownerAt_add h]
  rw [mentions, openPlaces_add hk h unclosed, List.filterMap_append, List.filterMap_map, later]
  rfl

lemma firstWord?_add {k : Nat} (hk : k ≤ args.length) (h : ownerAt args k = none)
    (unclosed : ∀ i < k, closesAt args i = false) (noWord : ∀ i < k, isWordAt args i = false) :
    firstWord? args = firstWord? (args.drop k) := by
  have later : (isWordAt args ∘ (k + ·)) = isWordAt (args.drop k) := by
    funext i
    simp [isWordAt, ownerAt_add h]
  have front : (List.range k).find? (isWordAt args) = none := by
    simpa using noWord
  rw [firstWord?, openPlaces_add hk h unclosed, List.find?_append, front, Option.none_or, List.find?_map,
    later]
  simp [firstWord?, Option.bind_map]

/-! ## From the front on -/

lemma startsWith_dash {name : String} : ("--" ++ name).startsWith "-" = true := by
  rw [String.startsWith_string_iff]
  exact ⟨'-' :: name.toList, by simp⟩

lemma startsWith_of_longForm? {name : String} {inline : Option String}
    (h : longForm? arg = some (name, inline)) : arg.startsWith "-" = true := by
  rcases longForm?_cases h with ⟨-, rfl⟩ | ⟨value, -, rfl⟩
  · exact startsWith_dash
  · simp [String.append_assoc, startsWith_dash]

lemma openPlaces_dashes : openPlaces ("--" :: rest) = [] := by
  simp [openPlaces, List.range_succ_eq_map, closesAt, ownerAt]

/-- Behind a bare flag and its value everything is as at the start, and neither closes anything. -/
lemma places_bare (h : bareFlag? arg = some flag) (value : String) (rest : List String) :
    ownerAt (arg :: value :: rest) 1 = some flag ∧ ownerAt (arg :: value :: rest) 2 = none ∧
      ∀ i < 2, closesAt (arg :: value :: rest) i = false := by
  have owner : ownerAt (arg :: value :: rest) 1 = some flag := by simp [ownerAt, h]
  refine ⟨owner, by simp [ownerAt, h], fun i hi => ?_⟩
  match i with
  | 0 => simp [closesAt, ne_dashes_of_bareFlag? h]
  | 1 => simp [closesAt, owner]

lemma openPlaces_dangling (h : bareFlag? arg = some flag) : openPlaces [arg] = [0] := by
  simp [openPlaces, List.range_succ_eq_map, closesAt, ne_dashes_of_bareFlag? h]

@[simp] lemma mentions_nil : mentions [] = [] :=
  rfl

@[simp] lemma mentions_dashes : mentions ("--" :: rest) = [] := by
  rw [mentions, openPlaces_dashes, List.filterMap_nil]

lemma mentions_dangling (h : bareFlag? arg = some flag) : mentions [arg] = [] := by
  simp [mentions, openPlaces_dangling h, mentionAt?, ownerAt, inlineValue?_of_bareFlag? h]

/-- A bare flag takes the argument behind it, whatever that is. -/
lemma mentions_bare (h : bareFlag? arg = some flag) :
    mentions (arg :: value :: rest) = (flag, value) :: mentions rest := by
  obtain ⟨owner, behind, unclosed⟩ := places_bare h value rest
  have first : mentionAt? (arg :: value :: rest) 0 = none := by
    simp [mentionAt?, ownerAt, inlineValue?_of_bareFlag? h]
  have second : mentionAt? (arg :: value :: rest) 1 = some (flag, value) := by
    simp [mentionAt?, owner]
  rw [mentions_add (by simp) behind unclosed]
  simp [List.range_succ_eq_map, first, second]

/-- An argument that takes no value from behind it stands for itself. -/
lemma mentions_single (hdashes : arg ≠ "--") (h : bareFlag? arg = none) :
    mentions (arg :: rest) = (inlineValue? arg).toList ++ mentions rest := by
  have behind : ownerAt (arg :: rest) 1 = none := by simp [ownerAt, h]
  rw [mentions_add (k := 1) (by simp) behind (by simp [closesAt, hdashes])]
  cases given : inlineValue? arg <;> simp [List.range_succ_eq_map, mentionAt?, ownerAt, given]

@[simp] lemma firstWord?_nil : firstWord? [] = none :=
  rfl

@[simp] lemma firstWord?_dashes : firstWord? ("--" :: rest) = none := by
  rw [firstWord?, openPlaces_dashes, List.find?_nil, Option.bind_none]

lemma isWordAt_bare (h : bareFlag? arg = some flag) : isWordAt (arg :: rest) 0 = false := by
  simp [isWordAt, bareFlag?_eq_some.mp h, startsWith_dash]

lemma firstWord?_dangling (h : bareFlag? arg = some flag) : firstWord? [arg] = none := by
  simp [firstWord?, openPlaces_dangling h, isWordAt_bare h]

lemma firstWord?_bare (h : bareFlag? arg = some flag) :
    firstWord? (arg :: value :: rest) = firstWord? rest := by
  obtain ⟨owner, behind, unclosed⟩ := places_bare h value rest
  refine firstWord?_add (by simp) behind unclosed fun i hi => ?_
  match i with
  | 0 => exact isWordAt_bare h
  | 1 => simp [isWordAt, owner]

lemma firstWord?_single (hdashes : arg ≠ "--") (h : bareFlag? arg = none) :
    firstWord? (arg :: rest) = if arg.startsWith "-" then firstWord? rest else some arg := by
  have behind : ownerAt (arg :: rest) 1 = none := by simp [ownerAt, h]
  have unclosed : closesAt (arg :: rest) 0 = false := by simp [closesAt, hdashes]
  split
  · rename_i dash
    exact firstWord?_add (k := 1) (by simp) behind (by simpa using unclosed) (by simp [isWordAt, dash])
  · rename_i word
    rw [firstWord?, openPlaces_add (k := 1) (by simp) behind (by simpa using unclosed)]
    simp [List.range_succ_eq_map, isWordAt, ownerAt, word]

/-- What holds of no arguments, of those behind a lone `--`, and of those behind one argument or behind a bare
flag and its value if it holds of the rest, holds of all arguments. -/
@[elab_as_elim]
lemma args_induction {motive : List String → Prop} (args : List String) (nil : motive [])
    (dashes : ∀ rest, motive ("--" :: rest))
    (dangling : ∀ arg flag, bareFlag? arg = some flag → motive [arg])
    (bare : ∀ arg flag value rest, bareFlag? arg = some flag → motive rest → motive (arg :: value :: rest))
    (single : ∀ arg rest, arg ≠ "--" → bareFlag? arg = none → motive rest → motive (arg :: rest)) :
    motive args := by
  induction len : args.length using Nat.strongRecOn generalizing args with
  | ind n ih =>
    match args with
    | [] => exact nil
    | arg :: rest =>
      by_cases hdashes : arg = "--"
      · exact hdashes ▸ dashes rest
      · cases hflag : bareFlag? arg with
        | none => exact single arg rest hdashes hflag (ih _ (by simp at len; omega) _ rfl)
        | some flag =>
          match rest with
          | [] => exact dangling arg flag hflag
          | value :: rest => exact bare arg flag value rest hflag (ih _ (by simp at len; omega) _ rfl)

/-! ## What is read -/

lemma single_cases (h : bareFlag? arg = none) :
    (∃ flag value, longForm? arg = some (GlobalFlag.name flag, some value) ∧
      inlineValue? arg = some (flag, value)) ∨
    inlineValue? arg = none ∧
      ∀ name inline, longForm? arg = some (name, inline) → GlobalFlag.ofName? name = none := by
  cases given : inlineValue? arg with
  | some mention => exact .inl ⟨mention.1, mention.2, inlineValue?_iff_longForm?.mp given, rfl⟩
  | none =>
    refine .inr ⟨rfl, fun name inline form => ?_⟩
    cases named : GlobalFlag.ofName? name with
    | none => rfl
    | some flag =>
      rw [← ofName?_eq_some.mp named] at form
      cases inline with
      | none => rw [bareFlag?_iff_longForm?.mpr form] at h; cases h
      | some value => rw [inlineValue?_iff_longForm?.mpr form] at given; cases given

lemma ofName?_name (flag : GlobalFlag) : GlobalFlag.ofName? flag.name = some flag :=
  ofName?_eq_some.mpr rfl

/-- The flags are read by recording what they get, in order. -/
lemma scan_eq_foldl (g : Globals) (args : List String) :
    Globals.scan g args = (mentions args).foldl (fun g mention => g.set mention.1 mention.2) g := by
  induction args using args_induction generalizing g with
  | nil => rfl
  | dashes rest => simp [Globals.scan]
  | dangling arg flag h =>
    simp [Globals.scan, ne_dashes_of_bareFlag? h, bareFlag?_iff_longForm?.mp h, ofName?_name,
      mentions_dangling h]
  | bare arg flag value rest h ih =>
    simp [Globals.scan, ne_dashes_of_bareFlag? h, bareFlag?_iff_longForm?.mp h, ofName?_name,
      mentions_bare h, ih]
  | single arg rest hdashes h ih =>
    rw [mentions_single hdashes h]
    rcases single_cases h with ⟨flag, value, form, given⟩ | ⟨given, other⟩
    · simp [Globals.scan, hdashes, form, ofName?_name, given, ih]
    · cases form : longForm? arg with
      | none => simp [Globals.scan, hdashes, form, given, ih]
      | some written =>
        obtain ⟨name, inline⟩ := written
        simp [Globals.scan, hdashes, form, other name inline form, given, ih]

lemma get?_set (g : Globals) (flag other : GlobalFlag) (value : String) :
    (g.set flag value).get? other = if flag = other then some value else g.get? other := by
  cases flag <;> cases other <;> rfl

/-- Of the values recorded for a flag the last one stays. -/
lemma get?_foldl (given : List (GlobalFlag × String)) (g : Globals) (flag : GlobalFlag) :
    (given.foldl (fun g mention => g.set mention.1 mention.2) g).get? flag =
      (lastValue? flag given).or (g.get? flag) := by
  induction given generalizing g with
  | nil => simp [lastValue?]
  | cons mention rest ih =>
    rw [List.foldl_cons, ih, get?_set]
    by_cases own : mention.1 = flag
    · simp [lastValue?, own, List.getLast?_cons]
    · simp [lastValue?, own]

lemma ofArgs_get? (args : List String) (flag : GlobalFlag) :
    (Globals.ofArgs args).get? flag = lastValue? flag (mentions args) := by
  have none : Globals.empty.get? flag = none := by cases flag <;> rfl
  rw [Globals.ofArgs, scan_eq_foldl, get?_foldl, none, Option.or_none]

lemma requestedCommand_eq (args : List String) : requestedCommand args = firstWord? args := by
  induction args using args_induction with
  | nil => rfl
  | dashes rest => simp [requestedCommand]
  | dangling arg flag h =>
    simp [requestedCommand, ne_dashes_of_bareFlag? h, bareFlag?_iff_longForm?.mp h, firstWord?_dangling h]
  | bare arg flag value rest h ih =>
    simp [requestedCommand, ne_dashes_of_bareFlag? h, bareFlag?_iff_longForm?.mp h, ofName?_name,
      firstWord?_bare h, ih]
  | single arg rest hdashes h ih =>
    rw [firstWord?_single hdashes h, ← ih]
    cases form : longForm? arg with
    | none => simp [requestedCommand, hdashes, form]
    | some written =>
      obtain ⟨name, inline⟩ := written
      have takesNothing : (inline.isNone && (GlobalFlag.ofName? name).isSome) = false := by
        rcases single_cases h with ⟨flag, value, valued, -⟩ | ⟨-, other⟩
        · rw [form] at valued
          cases valued
          rfl
        · simp [other name inline form]
      have dashed := startsWith_of_longForm? form
      rw [requestedCommand.eq_def, if_pos dashed]
      cases rest <;> simp [hdashes, form, takesNothing, requestedCommand.eq_1]

end TaskRunner.Proofs
