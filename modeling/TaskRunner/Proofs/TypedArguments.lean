import TaskRunner.Proofs.OmittedDefaults
import TaskRunner.Script.Run

/-!
# Typed arguments

A text that is typed for an argument becomes a data value, and the script gets that as a value of its own. A value
of null is how a call leaves an argument to the function's default, and the one text that becomes null is that of a
number which is not finite.
-/

namespace TaskRunner.Proofs
open CommandLine Script Number

variable {x : Float} {m : Nat} {q : Int}

/-! ## Numbers -/

/-- A text for an argument whose default is a number is read as a number that is not finite. -/
def IsUnbounded (raw : String) (default : Option Literal) : Prop :=
  ∃ d x, default = some (.number d) ∧ floatOfText raw = some x ∧ x.isFinite = false

/-- The double nearest to the size of an integral double is that size. -/
lemma ofNat_integral {n : Nat} (hfinite : x.isFinite = true) (hx : magnitude x = (m, q)) (hne : m ≠ 0)
    (hn : (n : ℚ) = m * 2 ^ q) : Number.ofNat n = Float.ofBits (UInt64.ofNat (magnitudeBits x)) := by
  obtain ⟨hm, hbits⟩ := magnitude_isMagnitude hx hfinite hne
  have hround : RoundsTo m q ((n : ℚ) / (1 : Nat)) := roundsTo_exact (by rw [Nat.cast_one, div_one, hn])
  rw [Number.ofNat, ofRatio, bitsOfRatio_eq hm Nat.one_pos hround, hbits]

/-- What a script makes of the data value of a finite number: the number itself, without the sign of a zero. -/
lemma load_number (hfinite : x.isFinite = true) :
    ∃ y, (∀ memory : Memory, memory.load (Literal.number x).toJson = (memory, .number y)) ∧
      (y = x ∨ x = -(Float.ofBits 0) ∧ y = Float.ofBits 0) := by
  cases hwhole : Literal.isWhole x with
  | false =>
    have hjson : (Literal.number x).toJson = .float x := by simp [Literal.toJson, hwhole, hfinite]
    exact ⟨x, fun memory => by rw [hjson]; rfl, .inl rfl⟩
  | true =>
    have hjson : (Literal.number x).toJson = .int (truncate x) := by simp [Literal.toJson, hwhole]
    have hintegral : isIntegral x = true := by
      unfold Literal.isWhole at hwhole
      exact (Bool.and_eq_true _ _ ▸ hwhole).1
    refine ⟨_, fun memory => by rw [hjson]; rfl, ?_⟩
    rcases hx : magnitude x with ⟨m, q⟩
    by_cases hzero : m = 0
    · subst hzero
      rcases zero_cases hfinite hx with rfl | rfl
      · exact .inr ⟨rfl, by decide +kernel⟩
      · exact .inl (by decide +kernel)
    · refine .inl ?_
      obtain ⟨n, htruncate, hn⟩ := truncate_integral hintegral hx
      have hpos : 0 < n := by
        have h := roundsTo_pos (magnitude_isMagnitude hx hfinite hzero).1 (roundsTo_exact hn)
        exact_mod_cast h
      have hsigned := signed_magnitude (notNaN_of_finite hfinite).1
      rw [← ofNat_integral hfinite hx hzero hn] at hsigned
      rw [htruncate]
      cases hnegative : isNegative x with
      | true =>
        rw [hnegative] at hsigned
        simpa [hpos] using hsigned
      | false =>
        rw [hnegative] at hsigned
        have habove : ¬ (n : Int) < 0 := by omega
        simpa [habove] using hsigned

/-- A typed text becomes null if and only if it is read as a number that is not finite. -/
lemma typedValue_null_iff {raw : String} {default : Option Literal} :
    typedValue raw default = .null ↔ IsUnbounded raw default := by
  constructor
  · intro h
    cases default with
    | none => cases h
    | some d =>
      cases d with
      | null | text => cases h
      | bool b =>
        rw [typedValue] at h
        split at h
        · cases h
        · split at h <;> cases h
      | number d =>
        cases hread : floatOfText raw with
        | none => simp [typedValue, hread] at h
        | some x =>
          refine ⟨d, x, rfl, hread, ?_⟩
          simp only [typedValue, hread] at h
          by_contra hfinite
          obtain ⟨y, hload, -⟩ := load_number (Bool.not_eq_false _ ▸ hfinite)
          have hnumber := congrArg Prod.snd (hload ⟨#[], #[]⟩)
          rw [h] at hnumber
          cases hnumber
  · rintro ⟨d, x, rfl, hread, hfinite⟩
    simp only [typedValue, hread]
    exact toJson_of_not_finite hfinite

/-! ## Values of a script -/

variable {memory : Memory}

lemma load_eq_null {j : Json} : (memory.load j).2 = .null ↔ j = .null := by
  cases j <;> simp [Memory.load, Memory.makeList, Memory.makeRecord]

/-- No data value is loaded as `undefined`. -/
lemma load_ne_undefined {j : Json} : (memory.load j).2 ≠ .undefined := by
  cases j <;> simp [Memory.load, Memory.makeList, Memory.makeRecord]

/-- Whether a parameter with a default gets the default in place of a value. -/
def TakesDefault (m : Machine) (v : Value) : Prop :=
  ∀ (p : Pattern) (e : Expr) (rest : List (Pattern × Value)) (declares : Bool) (scope : ScopeId),
    m.bind ((.withDefault p e, v) :: rest) declares scope =
      (m.push (.fallback p rest declares scope)).eval e scope

/-- Only a missing value is replaced by a default. -/
lemma takesDefault_iff {m : Machine} {v : Value} : TakesDefault m v ↔ v = .undefined := by
  constructor
  · intro h
    by_contra hv
    have hbind := h (.name "") (.name "") [] true globalScope
    cases v with
    | undefined => exact hv rfl
    | _ => cases congrArg Machine.control hbind
  · rintro rfl p e rest declares scope
    rfl

/-- A call leaves a parameter without a value if and only if its argument is null or there is none. -/
lemma ask_missing_iff (m : Machine) (function : Expr) (args : List Json) :
    ∃ values, (m.ask function args).stack = [.invoke values] ∧
      ∀ i, TakesDefault m (Machine.arg values i) ↔ (args[i]?).getD .null = .null := by
  refine ⟨_, rfl, fun i => ?_⟩
  rw [takesDefault_iff, Machine.arg]
  generalize m.memory = memory
  induction args generalizing memory i with
  | nil => simp [Memory.loadItems]
  | cons j args ih =>
    cases i with
    | succ i => exact ih i (memory.load j).1
    | zero =>
      have hnull : (memory.load j).2 = .null ↔ j = .null := load_eq_null
      have hpresent : (memory.load j).2 ≠ .undefined := load_ne_undefined
      simp only [Memory.loadItems, List.map_cons, List.getElem?_cons_zero, Option.getD_some]
      rw [← hnull]
      generalize (memory.load j).2 = v at hpresent
      cases v with
      | undefined => exact absurd rfl hpresent
      | null => exact iff_of_true rfl rfl
      | _ => exact iff_of_false Value.noConfusion Value.noConfusion

/-! ## Calls -/

variable {c : Command} {given : Given}

lemma argumentValue_typed {a : ArgSpec} {raw : String} (hgiven : valueOf? given (.argument a.name) = some raw) :
    argumentValue c given a = typedValue raw a.default := by
  rw [argumentValue, hgiven]
  rfl

lemma optionValue_typed {o : OptionSpec} {raw : String} (hreserved : isReserved o = false)
    (hswitch : o.default.isSwitch = false) (hgiven : valueOf? given (.option o.flag) = some raw) :
    optionValue given o = typedValue raw (some o.default) := by
  rw [optionValue, if_neg (by simp [hreserved])]
  cases hdefault : o.default with
  | null | bool => rw [hdefault] at hswitch; cases hswitch
  | number | text => simp only [hgiven]; rfl

/-- The options object, which no default replaces. -/
lemma callValues_options (h : c.takesOptions = true) :
    ∃ fields, (callValues c given)[c.args.length]? = some (.record fields) := by
  simp [callValues, h, Json.ofFields]

/-- A typed text becomes null if and only if its default is a number and the text is read as one that is not
finite; any finite number that is read comes to the script as that number, a zero without its sign. In a call each
argument and each option that is no switch has the value of the text that was typed for it. So a parameter of the
function gets its default in place of a typed argument if and only if that is a number that is not finite, and it
never gets it in place of the options. -/
theorem typed_value_replaced_iff (raw : String) (default : Option Literal) (r : Registry) (args : List String) :
    (typedValue raw default = .null ↔ IsUnbounded raw default) ∧
      (∀ d x, default = some (.number d) → floatOfText raw = some x → x.isFinite = true →
        ∃ y, (∀ memory : Memory, memory.load (typedValue raw default) = (memory, .number y)) ∧
          (y = x ∨ x = -(Float.ofBits 0) ∧ y = Float.ofBits 0)) ∧
      ∀ c values, r.invocation args = .ok (.call c values) →
        ∃ given, CallGives r args c given ∧
          (∀ before o behind text, c.optionList = before ++ o :: behind → (∀ b ∈ behind, b.key ≠ o.key) →
            isReserved o = false → o.default.isSwitch = false → valueOf? given (.option o.flag) = some text →
            values[c.args.length]?.bind (Json.get? o.key) = some (typedValue text (some o.default))) ∧
          ∀ (m : Machine) function, ∃ passed, (m.ask function values).stack = [.invoke passed] ∧
            (∀ i a text, c.args[i]? = some a → valueOf? given (.argument a.name) = some text →
              values[i]? = some (typedValue text a.default) ∧
              (TakesDefault m (Machine.arg passed i) ↔ IsUnbounded text a.default)) ∧
            (c.takesOptions = true → ¬ TakesDefault m (Machine.arg passed c.args.length)) := by
  refine ⟨typedValue_null_iff, fun d x hdefault hread hfinite => ?_, fun c values h => ?_⟩
  · simp only [typedValue, hdefault, hread]
    exact load_number hfinite
  obtain ⟨given, hcall, rfl⟩ := invocation_call h
  refine ⟨given, hcall, ?_, fun m function => ?_⟩
  · intro before o behind text hoptions hlast hreserved hswitch hgiven
    rw [callValues_option hoptions hlast, optionValue_typed hreserved hswitch hgiven]
  · obtain ⟨passed, hstack, hmissing⟩ := ask_missing_iff m function (callValues c given)
    refine ⟨passed, hstack, fun i a text harg hgiven => ?_, fun htakes => ?_⟩
    · have hvalue : (callValues c given)[i]? = _ := callValues_getElem? harg
      rw [argumentValue_typed hgiven] at hvalue
      refine ⟨hvalue, ?_⟩
      rw [hmissing, hvalue, Option.getD_some, typedValue_null_iff]
    · obtain ⟨fields, hfields⟩ : ∃ fields, (callValues c given)[c.args.length]? = some (.record fields) :=
        callValues_options htakes
      rw [hmissing, hfields]
      exact Json.noConfusion

/-- A command that is tried three times unless another number is given. -/
def retry : Command :=
  { Command.ofFunction "retry" with args := [⟨"count", some (.number 3)⟩] }

theorem typed_value_replaced_iff_retrying :
    floatOfText "7" = some (Number.ofNat 7) ∧ typedValue "7" (some (.number 3)) ≠ .null ∧
      Registry.invocation ⟨[retry]⟩ ["retry", "7"] = .ok (.call retry [typedValue "7" (some (.number 3))]) ∧
      ∀ (m : Machine) function, ∃ passed,
        (m.ask function [typedValue "7" (some (.number 3))]).stack = [.invoke passed] ∧
          ¬ TakesDefault m (Machine.arg passed 0) := by
  have hread : floatOfText "7" = some (Number.ofNat 7) := by decide +kernel
  have hbounded : ¬ IsUnbounded "7" (some (.number 3)) := by
    rintro ⟨d, x, -, hx, hfinite⟩
    obtain rfl : Number.ofNat 7 = x := by rwa [hread, Option.some.injEq] at hx
    revert hfinite
    decide +kernel
  have hinvocation : Registry.invocation ⟨[retry]⟩ ["retry", "7"] =
      .ok (.call retry [typedValue "7" (some (.number 3))]) := rfl
  obtain ⟨hnull, -, hcalls⟩ := typed_value_replaced_iff "7" (some (.number 3)) ⟨[retry]⟩ ["retry", "7"]
  refine ⟨hread, fun h => hbounded (hnull.mp h), hinvocation, fun m function => ?_⟩
  obtain ⟨given, hgives, -, hpassed⟩ := hcalls _ _ hinvocation
  obtain ⟨passed, hstack, harguments, -⟩ := hpassed m function
  have hgiven : valueOf? given (.argument "count") = some "7" := by
    obtain ⟨rest, hsuffix, hmatch⟩ := hgives.matched
    have hname : retry.cliName = "retry" := rfl
    have hrest : rest = ["7"] := by simpa [hname, List.suffix_cons_iff] using hsuffix
    rw [hrest] at hmatch
    rw [← Except.ok.inj hmatch]
    rfl
  exact ⟨passed, hstack, fun h => hbounded ((harguments 0 _ "7" rfl hgiven).2.mp h)⟩

/-- A number that is not finite is passed as null, in place of which the function gets its default. -/
theorem infinite_number_is_replaced :
    floatOfText "inf" = some (Float.ofBits (UInt64.ofNat infinityBits)) ∧
      Registry.invocation ⟨[retry]⟩ ["retry", "inf"] = .ok (.call retry [.null]) ∧
      ∀ (m : Machine) function, (m.ask function [.null]).stack = [.invoke [.undefined]] ∧
        TakesDefault m .undefined := by
  have hread : floatOfText "inf" = some (Float.ofBits (UInt64.ofNat infinityBits)) := by decide +kernel
  have hnull : typedValue "inf" (some (.number 3)) = .null :=
    typedValue_null_iff.mpr ⟨3, _, rfl, hread, by decide +kernel⟩
  have hinvocation : Registry.invocation ⟨[retry]⟩ ["retry", "inf"] =
      .ok (.call retry [typedValue "inf" (some (.number 3))]) := rfl
  rw [hnull] at hinvocation
  exact ⟨hread, hinvocation, fun m function => ⟨rfl, takesDefault_iff.mpr rfl⟩⟩

end TaskRunner.Proofs
