import TaskRunner.Proofs.HiddenFiles
import TaskRunner.Proofs.RenamedTokens

/-!
# Names of properties

Behind a point another name stands for another property, and a file is read as before: with the same other
tokens, statements, exports and signatures. The reader looks at the name of a property in two places, though.
A name that is also an operator is taken for one where a slash comes next, and where a declaration on a new
line does.
-/

namespace TaskRunner.Proofs
open Source Tree

/-- A text is read as another one is, but for the name of one token. -/
structure SameButName (index : Nat) (name : String) (text : String) (f : File) (text' : String) (f' : File) :
    Prop where
  accepted : File.ofText text' = .ok f'
  tokens : ∃ tokens tokens', tokenize text = .ok tokens ∧ tokenize text' = .ok tokens' ∧
    tokens'.map (placeless true) =
      (tokens.map (placeless true)).modify index fun t => { t with kind := .ident name }
  statements : ∃ stmts stmts', HasStatements text f stmts ∧ HasStatements text' f' stmts' ∧
    boundaries stmts' = boundaries stmts
  exports : f'.exports = f.exports
  functions : f'.functionExports = f.functionExports
  signatures : ∀ exported, f'.signature exported = f.signature exported

/-- The name of the property does not matter to whether its expression goes on. -/
def GoesOnAlike (name name' : List Char) (text : String) (p : Token) : Prop :=
  openWords.contains (String.ofList name') = openWords.contains (String.ofList name) ∨
    ∀ nested before rest, (tokenize text >>= nest) = .ok nested → nested.trees = before ++ leaf p :: rest →
      newDeclaration nested.ending rest = false

variable {earlier earlier' later later' tokens tokens' : List Token} {point point' p p' : Token}
  {name name' : List Char}

lemma hideTokens_renamed {behindPoint : Bool}
    (hearlier : earlier'.map (placeless true) = earlier.map (placeless true))
    (hpoint : placeless true point' = placeless true point) (hmark : isPoint (leaf point) = true)
    (hident : p.kind = .ident (String.ofList name))
    (hp : placeless true p' = { placeless true p with kind := .ident (String.ofList name') })
    (hlater : later'.map (placeless true) = later.map (placeless true)) :
    hideTokens true behindPoint (earlier' ++ point' :: p' :: later') =
      hideTokens true behindPoint (earlier ++ point :: p :: later) := by
  have hident' : p'.kind = .ident (String.ofList name') := congrArg Token.kind hp
  have hplain : isPoint (leaf p) = false := noPoint_name (by simp [Token.nameOrText?, hident])
  have hplain' : isPoint (leaf p') = false := noPoint_name (by simp [Token.nameOrText?, hident'])
  have hproperty : hideToken true (some "") p' = hideToken true (some "") p := by
    rw [hideToken, hideToken, hp, hident, hident']
    rfl
  refine hideTokens_front hearlier fun behindPoint => ?_
  rw [hideTokens, hideTokens, hideTokens, hideTokens, isPoint_kind (placeless_kind hpoint), hmark, hplain, hplain',
    nameBehind_true, hproperty, hideTokens_placeless hlater, hideToken_alike hpoint]

lemma modify_behind {α : Type} (front behind : List α) (a b : α) (f : α → α) :
    (front ++ a :: b :: behind).modify (front.length + 1) f = front ++ a :: f b :: behind := by
  induction front with
  | nil => rfl
  | cons c front ih => rw [List.cons_append, List.length_cons, List.modify_succ_cons, ih, List.cons_append]

/-- Only the property that has another name may leave an expression open in one file and not in the other. -/
lemma openAlike_renamed {text : String} {nested nested' : Nested}
    (hsame : tokens'.map (placeless true) = (tokens.map (placeless true)).modify (earlier.length + 1)
      fun t => { t with kind := .ident (String.ofList name') })
    (htokens : tokens = tokensOfAll nested.trees ++ [nested.ending])
    (htokens' : tokens' = tokensOfAll nested'.trees ++ [nested'.ending])
    (hsplit : tokens = earlier ++ point :: p :: later) (hident : p.kind = .ident (String.ofList name))
    (hnested : (tokenize text >>= nest) = .ok nested) (hopen : GoesOnAlike name name' text p) :
    OpenAlike nested.ending nested.trees nested'.trees := by
  intro before t rest before' t' rest' htrees htrees' hlength hnew
  have ht := token_of_leaf htokens htrees
  have ht' := token_of_leaf htokens' htrees'
  rw [hlength] at ht'
  have hplace := congrArg (·[(tokensOfAll before).length]?) hsame
  simp only [List.getElem?_map, List.getElem?_modify, ht, ht', Option.map_some] at hplace
  have htoken := Option.some.inj hplace
  dsimp only at htoken
  by_cases hindex : earlier.length + 1 = (tokensOfAll before).length
  · have hproperty : tokens[(tokensOfAll before).length]? = some p := by
      rw [← hindex, hsplit, List.getElem?_append_right (Nat.le_add_right _ 1), Nat.add_sub_cancel_left]
      rfl
    obtain rfl : p = t := Option.some.inj (hproperty.symm.trans ht)
    rw [if_pos hindex] at htoken
    have hident' : t'.kind = .ident (String.ofList name') := congrArg Token.kind htoken
    rcases hopen with hwords | hnone
    · simp only [leavesOpen, hident, hident', hwords]
    · rw [hnone nested before rest hnested htrees] at hnew
      cases hnew
  · rw [if_neg hindex] at htoken
    exact leavesOpen_alike (placeless_kind htoken)

/-- Under another name a property leaves a file as it is read: all other tokens, the statements, what it
exports and the signatures stay the same, if the name does not matter to a slash or to a declaration on a new
line behind it. -/
theorem renamed_property_keeps_reading {text : String} {f : File} {earlier later : List Token}
    {point p : Token} {front behind old new oldName newName : List Char} (h : File.ofText text = .ok f)
    (htokens : tokenize text = .ok (earlier ++ point :: p :: later))
    (hpoint : point.kind = .punct "." ∨ point.kind = .punct "?.")
    (htext : text.toList = front ++ (old ++ behind))
    (hspan : p.span = ⟨byteCount front, byteCount front + byteCount old⟩) (hold : IsSpelled old oldName)
    (hnew : IsSpelled new newName) (hslash : SlashAlike oldName newName later)
    (hopen : GoesOnAlike oldName newName text p) :
    ∃ f', SameButName (earlier.length + 1) (String.ofList newName) text f
      (String.ofList (front ++ (new ++ behind))) f' := by
  obtain ⟨stmts, hstmts⟩ := hasStatements_ofText h
  obtain ⟨mark, hmark, hpunct⟩ : ∃ mark ∈ pointMarks, point.kind = .punct mark := by
    rcases hpoint with hpoint | hpoint
    · exact ⟨".", by decide, hpoint⟩
    · exact ⟨"?.", by decide, hpoint⟩
  have hisPoint : isPoint (leaf point) = true := by
    rcases hpoint with hpoint | hpoint <;> simp [isPoint, Tree.isPunct, Token.isPunct, hpoint]
  obtain ⟨hident, earlier', point', p', later', htokens', hearlier, hpoint', hp, hlater⟩ :=
    tokenize_renamed htokens hmark hpunct htext hspan hold hnew hslash
  have hsame : (earlier' ++ point' :: p' :: later').map (placeless true) =
      ((earlier ++ point :: p :: later).map (placeless true)).modify (earlier.length + 1)
        fun t => { t with kind := .ident (String.ofList newName) } := by
    have hlength : earlier.length = (earlier.map (placeless true)).length := by rw [List.length_map]
    rw [List.map_append, List.map_append, List.map_cons, List.map_cons, List.map_cons, List.map_cons, hlength,
      modify_behind, hearlier, hpoint', hp, hlater]
  obtain ⟨f', stmts', hstmts', houtline, hboundaries⟩ := hstmts.alike htokens htokens'
    (hideTokens_renamed hearlier hpoint' hisPoint hident hp hlater) fun nested nested' hnested hnested' =>
      openAlike_renamed hsame (nest_tokens (tokenize_tiles htokens) hnested).1
        (nest_tokens (tokenize_tiles htokens') hnested').1 rfl hident
        (by rw [htokens]; exact hnested) hopen
  exact ⟨f', hstmts'.file, ⟨_, _, htokens, htokens', hsame⟩, ⟨stmts, stmts', hstmts, hstmts', hboundaries⟩,
    exports_alike houtline, functionExports_alike houtline, signature_alike houtline⟩

/-- A file in which a property is read before a function is exported. -/
def readingProperty (property : String) : String :=
  "const x = o." ++ property ++ "\nexport function main(a) \x7b return 1 \x7d\n"

/-- A property that has the length of a word keeps all of them. -/
theorem renamed_property_keeps_reading_length :
    ∃ f f', File.ofText (readingProperty "size") = .ok f ∧
      SameButName 5 "length" (readingProperty "size") f (readingProperty "length") f' := by
  have hread : (File.ofText (readingProperty "size")).isOk = true := by decide +kernel
  have hfront : (tokenize (readingProperty "size")).toOption.map
      (fun tokens => (tokens.take 6).map fun t => (t.kind, t.span)) =
      some [(.ident "const", ⟨0, 5⟩), (.ident "x", ⟨6, 7⟩), (.punct "=", ⟨8, 9⟩), (.ident "o", ⟨10, 11⟩),
        (.punct ".", ⟨11, 12⟩), (.ident "size", ⟨12, 16⟩)] := by
    decide +kernel
  have hparts : ("size".toList.all isNamePart && "length".toList.all isNamePart) = true := by decide
  obtain ⟨hsize, hlength⟩ := Bool.and_eq_true_iff.mp hparts
  have hold : IsSpelled "size".toList "size".toList := by
    refine ⟨spells_self (List.all_eq_true.mp hsize), fun c hc => ?_, by decide⟩
    obtain rfl : 's' = c := Option.some.inj hc
    decide
  have hnew : IsSpelled "length".toList "length".toList := by
    refine ⟨spells_self (List.all_eq_true.mp hlength), fun c hc => ?_, by decide⟩
    obtain rfl : 'l' = c := Option.some.inj hc
    decide
  cases hf : File.ofText (readingProperty "size") with
  | error e =>
    rw [hf] at hread
    cases hread
  | ok f =>
    cases htokens : tokenize (readingProperty "size") with
    | error e =>
      rw [htokens] at hfront
      cases hfront
    | ok tokens =>
      rw [htokens] at hfront
      match tokens, hfront with
      | a :: b :: c :: d :: point :: p :: later, hfront =>
        simp only [Except.toOption, Option.map_some, List.take_succ_cons, List.take_zero, List.map_cons,
          List.map_nil, Option.some.injEq, List.cons.injEq, Prod.mk.injEq, and_true] at hfront
        obtain ⟨-, -, -, -, ⟨hpoint, -⟩, -, hspan⟩ := hfront
        have hsplit : tokenize (readingProperty "size") = .ok ([a, b, c, d] ++ point :: p :: later) := htokens
        have htext : (readingProperty "size").toList = (readingProperty "size").toList.take 12 ++
            ("size".toList ++ (readingProperty "size").toList.drop 16) := by
          decide
        have hcount : byteCount ((readingProperty "size").toList.take 12) = 12 ∧
            byteCount "size".toList = 4 := by
          decide
        have hwords : operandWords.contains "length" = operandWords.contains "size" ∧
            openWords.contains "length" = openWords.contains "size" := by
          decide
        obtain ⟨f', hf'⟩ := renamed_property_keeps_reading hf hsplit (.inl hpoint) htext
          (by rw [hspan, hcount.1, hcount.2]) hold hnew (.inl hwords.1) (.inl hwords.2)
        have htext' : String.ofList ((readingProperty "size").toList.take 12 ++
            ("length".toList ++ (readingProperty "size").toList.drop 16)) = readingProperty "length" := by
          decide
        rw [htext'] at hf'
        exact ⟨f, f', rfl, hf'⟩

/-- Under the name `of` a property hides the export on the next line, and under the name `in` a quotient is
taken for a regular expression. -/
theorem property_name_changes_reading :
    ((File.ofText (readingProperty "size")).toOption.map File.exports = some [⟨"main", "main"⟩] ∧
      (File.ofText (readingProperty "of")).toOption.map File.exports = some []) ∧
    (tokenize "o.size / a / b").toOption.map (·.map Token.kind) =
      some [.ident "o", .punct ".", .ident "size", .punct "/", .ident "a", .punct "/", .ident "b", .endOfFile] ∧
    (tokenize "o.in / a / b").toOption.map (·.map Token.kind) =
      some [.ident "o", .punct ".", .ident "in", .regex, .ident "b", .endOfFile] := by
  refine ⟨⟨?_, ?_⟩, ?_, ?_⟩ <;> decide +kernel

end TaskRunner.Proofs
