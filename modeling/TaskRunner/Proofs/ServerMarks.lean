import Mathlib.Data.List.Infix
import TaskRunner.Report.Reporter

/-!
# Marks for a build server

A build server takes a line that starts with two colons for a command: a name, behind a blank properties
between commas, and behind the next two colons a message. Line breaks and percent signs stand in it as codes,
and within a property so do commas and colons.
-/

namespace TaskRunner.Proofs
open Report

variable {chars front message name : List Char} {c : Char} {codes : Char → Char → Option Char}

/-! ## Reading a command -/

/-- A command that a build server reads in a line. -/
structure ServerCommand where
  name : String
  properties : List (String × String)
  message : String
deriving DecidableEq, Repr

/-- The character of a code in a message, by the two characters behind the percent sign. -/
def messageCode : Char → Char → Option Char
  | '2', '5' => some '%'
  | '0', 'D' => some '\r'
  | '0', 'A' => some '\n'
  | _, _ => none

/-- The character of a code in a property. -/
def propertyCode : Char → Char → Option Char
  | '3', 'A' => some ':'
  | '2', 'C' => some ','
  | a, b => messageCode a b

/-- Characters with the codes among them read. -/
def decoded (codes : Char → Char → Option Char) : List Char → List Char
  | '%' :: a :: b :: rest =>
    match codes a b with
    | some c => c :: decoded codes rest
    | none => '%' :: decoded codes (a :: b :: rest)
  | c :: rest => c :: decoded codes rest
  | [] => []

/-- The characters before and behind the first two colons. -/
def cutAtColons : List Char → Option (List Char × List Char)
  | [] => none
  | c :: rest =>
    if c = ':' ∧ rest.head? = some ':' then some ([], rest.tail)
    else (cutAtColons rest).map fun (front, behind) => (c :: front, behind)

/-- The name and the value of a property; what has no equals sign is none. -/
def readProperty (part : List Char) : Option (String × String) :=
  match part.dropWhile (· != '=') with
  | [] => none
  | _ :: value => some (String.ofList (part.takeWhile (· != '=')), String.ofList (decoded propertyCode value))

/-- The command in a line. -/
def serverCommand? (line : String) : Option ServerCommand :=
  match line.toList with
  | ':' :: ':' :: rest =>
    (cutAtColons rest).map fun (front, message) =>
      { name := String.ofList (front.takeWhile (· != ' '))
        properties := (((front.dropWhile (· != ' ')).tail).splitOn ',').filterMap readProperty
        message := String.ofList (decoded messageCode message) }
  | _ => none

/-- Nothing in the text ends a line. -/
def IsLine (s : String) : Prop :=
  '\n' ∉ s.toList ∧ '\r' ∉ s.toList

instance (s : String) : Decidable (IsLine s) :=
  inferInstanceAs (Decidable (_ ∧ _))

lemma isLine_append {a b : String} : IsLine (a ++ b) ↔ IsLine a ∧ IsLine b := by
  simp only [IsLine, String.toList_append, List.mem_append, not_or]
  exact and_and_and_comm

/-! ## Escaped characters -/

/-- Characters with codes for percent signs and line breaks. -/
def escaped (chars : List Char) : List Char :=
  chars.flatMap escapeMarkChar

lemma escaped_append : escaped (front ++ chars) = escaped front ++ escaped chars :=
  List.flatMap_append

lemma escapeMarkChar_cases (c : Char) :
    (escapeMarkChar c = [c] ∧ c ≠ '%' ∧ c ≠ '\n' ∧ c ≠ '\r') ∨
      ∃ a b, escapeMarkChar c = ['%', a, b] ∧ messageCode a b = some c ∧ propertyCode a b = some c ∧
        ∀ d ∈ ['%', a, b], d ∈ "%250DA".toList := by
  unfold escapeMarkChar
  split
  · exact .inr ⟨'2', '5', rfl, rfl, rfl, by simp⟩
  · exact .inr ⟨'0', 'D', rfl, rfl, rfl, by simp⟩
  · exact .inr ⟨'0', 'A', rfl, rfl, rfl, by simp⟩
  · next hpercent hreturn hfeed => exact .inl ⟨rfl, hpercent, hfeed, hreturn⟩

/-- Escaping brings in no character but those of codes. -/
lemma mem_escaped (h : c ∈ escaped chars) :
    (c ∈ chars ∧ c ≠ '\n' ∧ c ≠ '\r') ∨ c ∈ "%250DA".toList := by
  obtain ⟨d, hd, hc⟩ := List.mem_flatMap.mp h
  obtain ⟨hplain, -, hfeed, hreturn⟩ | ⟨a, b, hcode, -, -, hchars⟩ := escapeMarkChar_cases d
  · obtain rfl : c = d := by simpa [hplain] using hc
    exact .inl ⟨hd, hfeed, hreturn⟩
  · exact .inr (hchars c (hcode ▸ hc))

lemma isLine_escapeMark (s : String) : IsLine (escapeMark s) := by
  have hchars : (escapeMark s).toList = escaped s.toList := String.toList_ofList
  rw [IsLine, hchars]
  exact ⟨fun h => (mem_escaped h).elim (·.2.1 rfl) (absurd · (by decide)),
    fun h => (mem_escaped h).elim (·.2.2 rfl) (absurd · (by decide))⟩

lemma decoded_plain (hc : c ≠ '%') : decoded codes (c :: chars) = c :: decoded codes chars := by
  rw [decoded.eq_def]
  split <;> simp_all

lemma decoded_code {a b : Char} (hcode : codes a b = some c) :
    decoded codes ('%' :: a :: b :: chars) = c :: decoded codes chars := by
  rw [decoded, hcode]

/-- Reading the codes undoes the escaping, in a message as in a property. -/
lemma decoded_escaped (chars : List Char) :
    decoded messageCode (escaped chars) = chars ∧ decoded propertyCode (escaped chars) = chars := by
  induction chars with
  | nil => exact ⟨rfl, rfl⟩
  | cons c chars ih =>
    rw [escaped, List.flatMap_cons, ← escaped]
    obtain ⟨hplain, hpercent, -⟩ | ⟨a, b, hcode, hmessage, hproperty, -⟩ := escapeMarkChar_cases c
    · simp only [hplain, List.cons_append, List.nil_append, decoded_plain hpercent, ih.1, ih.2, and_self]
    · simp only [hcode, List.cons_append, List.nil_append, decoded_code hmessage, decoded_code hproperty,
        ih.1, ih.2, and_self]

/-! ## The first two colons -/

lemma head_escaped : (escaped chars).head? = some ':' ↔ chars.head? = some ':' := by
  cases chars with
  | nil => rfl
  | cons c chars =>
    rw [escaped, List.flatMap_cons]
    obtain ⟨hplain, -⟩ | ⟨a, b, hcode, hmessage, -⟩ := escapeMarkChar_cases c
    · rw [hplain]
      rfl
    · have hc : c ≠ ':' := by
        rintro rfl
        exact absurd hcode (by simp [escapeMarkChar])
      simp [hcode, hc]

lemma cutAtColons_cons (h : ¬ (c = ':' ∧ chars.head? = some ':')) :
    cutAtColons (c :: chars) = (cutAtColons chars).map fun (front, behind) => (c :: front, behind) := by
  rw [cutAtColons, if_neg h]

lemma cutAtColons_append (h : ':' ∉ front) :
    cutAtColons (front ++ chars) = (cutAtColons chars).map fun (more, behind) => (front ++ more, behind) := by
  induction front with
  | nil => simp
  | cons c front ih =>
    rw [List.mem_cons, not_or] at h
    rw [List.cons_append, cutAtColons_cons fun hc => h.1 hc.1.symm, ih h.2, Option.map_map]
    rfl

/-- Escaping neither adds nor removes a place where two colons stand. -/
lemma cutAtColons_escaped (chars : List Char) :
    cutAtColons (escaped chars) =
      (cutAtColons chars).map fun (front, behind) => (escaped front, escaped behind) := by
  induction chars with
  | nil => rfl
  | cons c chars ih =>
    have hcons : ∀ rest, escaped (c :: rest) = escapeMarkChar c ++ escaped rest := fun _ => List.flatMap_cons
    by_cases hcolons : c = ':' ∧ chars.head? = some ':'
    · obtain ⟨rfl, hhead⟩ := hcolons
      obtain ⟨rest, rfl⟩ := List.head?_eq_some_iff.mp hhead
      rfl
    · rw [cutAtColons_cons hcolons, Option.map_map]
      simp only [Function.comp_def, hcons]
      obtain ⟨hplain, -⟩ | ⟨a, b, hcode, -, -, hchars⟩ := escapeMarkChar_cases c
      · rw [hplain, List.singleton_append, cutAtColons_cons (by rwa [head_escaped]), ih, Option.map_map]
        rfl
      · have hcolon : ':' ∉ escapeMarkChar c := hcode ▸ fun h => absurd (hchars _ h) (by decide)
        rw [cutAtColons_append hcolon, ih, Option.map_map]
        rfl

/-- The cut is made behind a text that neither has two colons in it nor ends with one. -/
lemma cutAtColons_behind (h : ¬ [':', ':'] <:+: front ++ [':']) :
    cutAtColons (front ++ ':' :: ':' :: chars) = some (front, chars) := by
  induction front with
  | nil => rfl
  | cons c front ih =>
    rw [List.cons_append, List.infix_cons_iff, not_or] at h
    have hcolons : ¬ (c = ':' ∧ (front ++ ':' :: ':' :: chars).head? = some ':') := by
      rintro ⟨rfl, hhead⟩
      refine h.1 (List.cons_prefix_cons.mpr ⟨rfl, ?_⟩)
      cases front <;> simp_all
    rw [List.cons_append, cutAtColons_cons hcolons, ih h.2]
    rfl

/-- A text that has two colons in it or ends with one is itself cut. -/
lemma cutAtColons_within (h : [':', ':'] <:+: front ++ [':']) (chars : List Char) :
    ∃ before behind, cutAtColons (front ++ ':' :: ':' :: chars) = some (before, behind) ∧
      chars.length < behind.length := by
  induction front with
  | nil => exact absurd h.length_le (by simp)
  | cons c front ih =>
    by_cases hcolons : c = ':' ∧ (front ++ ':' :: ':' :: chars).head? = some ':'
    · refine ⟨[], (front ++ ':' :: ':' :: chars).tail, by rw [List.cons_append, cutAtColons, if_pos hcolons], ?_⟩
      simp only [List.length_tail, List.length_append, List.length_cons]
      omega
    · have hrest : [':', ':'] <:+: front ++ [':'] := by
        refine (List.infix_cons_iff.mp h).resolve_left fun hprefix => hcolons ?_
        obtain ⟨rfl, hhead⟩ := List.cons_prefix_cons.mp hprefix
        refine ⟨rfl, ?_⟩
        cases front with
        | nil => rfl
        | cons d front => rw [← (List.cons_prefix_cons.mp hhead).1]; rfl
      obtain ⟨before, behind, hcut, hlonger⟩ := ih hrest
      exact ⟨c :: before, behind, by rw [List.cons_append, cutAtColons_cons hcolons, hcut]; rfl, hlonger⟩

/-! ## Printed marks -/

lemma readProperty_title (name : List Char) :
    readProperty ("title=".toList ++ escaped name) = some ("title", String.ofList name) := by
  show some (_, String.ofList (decoded propertyCode (escaped name))) = _
  rw [(decoded_escaped name).2]
  rfl

/-- The title is read whole if and only if it has no comma; it ends at the first one. -/
lemma properties_title (name : List Char) :
    (("title=".toList ++ escaped name).splitOn ',').filterMap readProperty = [("title", String.ofList name)] ↔
      ',' ∉ name := by
  have hescaped : ∀ part : List Char, ',' ∉ part → ',' ∉ "title=".toList ++ escaped part := by
    intro part hpart h
    rcases List.mem_append.mp h with h | h
    · exact absurd h (by decide)
    · exact (mem_escaped h).elim (hpart ·.1) (absurd · (by decide))
  constructor
  · intro h hcomma
    obtain ⟨before, behind, rfl, hfirst⟩ := List.eq_append_cons_of_mem hcomma
    have hcut : escaped (before ++ ',' :: behind) = escaped before ++ ',' :: escaped behind := escaped_append
    rw [hcut, ← List.append_assoc, List.splitOn_append_cons_self_of_not_mem (hescaped _ hfirst),
      List.filterMap_cons_some (readProperty_title before)] at h
    have hlength := congrArg List.length (String.ofList_injective (congrArg Prod.snd (List.cons.inj h).1))
    simp at hlength
  · intro hcomma
    rw [List.splitOn_eq_singleton (hescaped _ hcomma), List.filterMap_cons_some (readProperty_title name),
      List.filterMap_nil]

/-- What is read in an error mark: the title up to the first two colons, and as the message what is behind
them. -/
lemma serverCommand?_error (name message : String) :
    serverCommand? ("::error title=" ++ escapeMark name ++ "::" ++ escapeMark message) =
      (cutAtColons (name.toList ++ ':' :: ':' :: message.toList)).map fun (title, behind) =>
        { name := "error"
          properties := (("title=".toList ++ escaped title).splitOn ',').filterMap readProperty
          message := String.ofList behind } := by
  have hchars : ("::error title=" ++ escapeMark name ++ "::" ++ escapeMark message).toList =
      ':' :: ':' :: ("error title=".toList ++ escaped (name.toList ++ ':' :: ':' :: message.toList)) := by
    simp only [String.toList_append, escapeMark, String.toList_ofList, escaped_append, List.append_assoc]
    rfl
  rw [serverCommand?, hchars]
  simp only
  rw [cutAtColons_append (by decide), cutAtColons_escaped, Option.map_map, Option.map_map]
  refine Option.map_congr fun ⟨title, behind⟩ _ => ?_
  simp only [Function.comp_apply, (decoded_escaped behind).1]
  rfl

lemma isLine_group (t : Snapshot) :
    IsLine ("::group::" ++ tagged t.tag (kindWord t.kind ++ " " ++ t.name)) ↔ IsLine t.tag ∧ IsLine t.name := by
  have hword : IsLine (kindWord t.kind) := by
    cases t.kind <;> decide
  have hspace : IsLine " " := by decide
  have hmark : IsLine "::group::" := by decide
  rw [tagged]
  split
  · next hempty =>
    have htag : IsLine t.tag := by
      rw [String.isEmpty_iff.mp hempty]
      decide
    simp only [isLine_append, hword, hspace, hmark, htag, true_and]
  · simp only [isLine_append, hword, hspace, hmark, true_and, and_true]

/-- The line that opens a task's group is one line if and only if the task's name and place are, and the line that
marks an error always is. What a build server reads in that is the task's name and the message if and only if
the name has no comma and no two colons and does not end with a colon. -/
theorem error_mark_reads_back (colors : Bool) (t : Snapshot) (message : String) :
    (∃ group, Reporter.server.printed colors (.start t) = group ++ "\n" ∧
      (IsLine group ↔ IsLine t.tag ∧ IsLine t.name)) ∧
    ∃ mark headline,
      Reporter.server.printed colors (.error t message) =
        "::endgroup::\n" ++ mark ++ "\n" ++ headline ++ "\n" ∧
      IsLine mark ∧
      (serverCommand? mark = some { name := "error", properties := [("title", t.name)], message := message } ↔
        ',' ∉ t.name.toList ∧ ¬ [':', ':'] <:+: t.name.toList ++ [':']) := by
  refine ⟨⟨"::group::" ++ tagged t.tag (kindWord t.kind ++ " " ++ t.name), ?_, isLine_group t⟩,
    "::error title=" ++ escapeMark t.name ++ "::" ++ escapeMark message,
    tagged t.tag ("✗ " ++ t.name ++ detailsText t), ?_, ?_, ?_⟩
  · simp [Reporter.printed, serverLines, String.join]
  · simp [Reporter.printed, serverLines, String.join, String.append_assoc]
  · have hstart : IsLine "::error title=" := by decide
    have hcolons : IsLine "::" := by decide
    simp only [isLine_append, isLine_escapeMark, hstart, hcolons, and_self]
  rw [serverCommand?_error]
  by_cases hcolons : [':', ':'] <:+: t.name.toList ++ [':']
  · obtain ⟨title, behind, hcut, hlonger⟩ := cutAtColons_within hcolons message.toList
    rw [hcut]
    refine iff_of_false (fun h => ?_) (fun h => h.2 hcolons)
    have hmessage : String.ofList behind = message := congrArg ServerCommand.message (Option.some.inj h)
    rw [← hmessage, String.toList_ofList] at hlonger
    exact absurd hlonger (lt_irrefl _)
  · rw [cutAtColons_behind hcolons, and_iff_left hcolons, ← properties_title, String.ofList_toList]
    constructor
    · exact fun h => congrArg ServerCommand.properties (Option.some.inj h)
    · intro h
      simp only [Option.map_some, h, String.ofList_toList]

/-- A comma ends the title that is read, and a line feed in a name ends the line that opens its group. -/
theorem comma_ends_title :
    serverLines (.error ⟨⟨1⟩, "a, b", .exec, "", .fail, none, none, none⟩ "m") =
        ["::endgroup::", "::error title=a, b::m", "✗ a, b"] ∧
      serverCommand? "::error title=a, b::m" =
        some { name := "error", properties := [("title", "a")], message := "m" } ∧
      serverLines (.start ⟨⟨1⟩, "a\nb", .exec, "", .running, none, none, none⟩) = ["::group::exec a\nb"] := by
  decide +kernel

end TaskRunner.Proofs
