import JsonRpcRelay.Framework.Traversal
import JsonRpcRelay.Validators.ObjectTypes

/-!
# Accepted parameters

What is known of the parameters of a request that the validation lets through.
-/

namespace JsonRpcRelay.Validators

open Framework

/-- The value passes the test of the type, or of one of the types. -/
def ParamType.Accepts : ParamType → Json → Prop
  | .one type, x => type.test x = .ok true
  | .oneOf types, x => ∃ type ∈ types, type.test x = .ok true

/-- The rule lets `x` through and leaves `y` of it. -/
structure IParamValidation.Accepts (rule : IParamValidation) (x y : Json) : Prop where
  notNull : x.isNull = false
  type : rule.type.Accepts x
  left : y = rule.type.left x

/-- The parameters are accepted one by one, and only optional ones are missing at the end. -/
inductive Checked : List IParamValidation → List Json → List Json → Prop
  | missing {rules : List IParamValidation} (h : ∀ rule ∈ rules, rule.required = false) :
      Checked rules [] []
  | param {rule : IParamValidation} {rules : List IParamValidation} {x y : Json}
      {xs ys : List Json} (h : rule.Accepts x y) (hs : Checked rules xs ys) :
      Checked (rule :: rules) (x :: xs) (y :: ys)

theorem Checked.exists_param {rule : IParamValidation} {rules : List IParamValidation}
    {params left : List Json} (hrequired : rule.required = true)
    (h : Checked (rule :: rules) params left) :
    ∃ y x ys xs, left = y :: ys ∧ params = x :: xs ∧ rule.Accepts x y ∧ Checked rules xs ys := by
  cases h with
  | missing hmissing =>
    have hnot := hmissing rule List.mem_cons_self
    rw [hrequired] at hnot
    cases hnot
  | param haccepts hs => exact ⟨_, _, _, _, rfl, rfl, haccepts, hs⟩

theorem Checked.eq_nil {params left : List Json} (h : Checked [] params left) :
    params = [] ∧ left = [] := by
  cases h with
  | missing _ => exact ⟨rfl, rfl⟩

variable {index : String} {x : Json} {rule : IParamValidation} {o : Option Json}

private theorem testOne_eq_ok {type : IType} (h : testOne index x type = .ok ()) :
    type.test x = .ok true := by
  obtain ⟨result, hresult, h⟩ := exists_of_bind_ok h
  cases result with
  | true => exact hresult
  | false => cases h

private theorem testOneOf_eq_ok {types : List IType} (h : testOneOf index x types = .ok ()) :
    ∃ type ∈ types, type.test x = .ok true := by
  obtain ⟨results, hresults, h⟩ := exists_of_bind_ok h
  have hmem : true ∈ results := by
    by_contra hnot
    rw [List.contains_iff_mem.not.mpr hnot |> Bool.eq_false_of_not_eq_true] at h
    cases h
  have hok : .ok true ∈ types.map (·.test x) := by
    rw [mapM_ok_iff.mp hresults]
    exact List.mem_map_of_mem hmem
  obtain ⟨type, htype, htest⟩ := List.mem_map.mp hok
  exact ⟨type, htype, htest⟩

private theorem validateParam_none (h : validateParam index none rule = .ok o) :
    o = none ∧ rule.required = false := by
  simp only [validateParam, requiredIsMissing, Option.isNone_none, Bool.and_true] at h
  split at h
  · cases h
  · rename_i hrequired
    cases h
    exact ⟨rfl, Bool.eq_false_of_not_eq_true hrequired⟩

private theorem validateParam_some (h : validateParam index (some x) rule = .ok o) :
    ∃ y, o = some y ∧ rule.Accepts x y := by
  unfold validateParam at h
  rw [if_neg (by simp [requiredIsMissing])] at h
  split at h
  · rename_i hnone
    cases hnone
  · cases h
  · rename_i x' hnull heq
    cases heq
    have hnotNull : x.isNull = false := by
      cases x with
      | null => exact absurd rfl hnull
      | _ => rfl
    obtain ⟨_, htest, h⟩ := exists_of_bind_ok h
    refine ⟨rule.type.left x, (Except.ok.inj h).symm, hnotNull, ?_, rfl⟩
    cases hrule : rule.type with
    | one type =>
      rw [hrule] at htest
      exact testOne_eq_ok htest
    | oneOf types =>
      rw [hrule] at htest
      exact testOneOf_eq_ok htest

private theorem checked_of_mapM {params : List Json} {rules : List IParamValidation} {k : ℕ}
    {xs : List Json} {os : List (Option Json)} (hxs : ∀ i, params[k + i]? = xs[i]?)
    (hlength : xs.length ≤ rules.length)
    (h : (rules.zipIdx k).mapM (fun v => validateParam (toString v.2) params[v.2]? v.1) = .ok os) :
    Checked rules xs (os.filterMap id) := by
  induction rules generalizing k xs os with
  | nil =>
    cases h
    rw [List.length_eq_zero_iff.mp (Nat.le_zero.mp hlength)]
    exact .missing (by simp)
  | cons rule rules ih =>
    rw [List.zipIdx_cons, List.mapM_cons] at h
    obtain ⟨o, ho, h⟩ := exists_of_bind_ok h
    obtain ⟨os', hos, h⟩ := exists_of_bind_ok h
    cases h
    have hhead := hxs 0
    rw [Nat.add_zero] at hhead
    rw [hhead] at ho
    cases xs with
    | nil =>
      obtain ⟨rfl, hrequired⟩ := validateParam_none ho
      have htail : Checked rules [] (os'.filterMap id) := by
        apply ih (fun i => ?_) (Nat.zero_le _) hos
        rw [Nat.add_right_comm]
        exact hxs (i + 1)
      show Checked (rule :: rules) [] (os'.filterMap id)
      generalize os'.filterMap id = ys at htail
      cases htail with
      | missing hmissing =>
        apply Checked.missing
        intro rule' hmem
        rcases List.mem_cons.mp hmem with rfl | hmem
        · exact hrequired
        · exact hmissing rule' hmem
    | cons x xs =>
      obtain ⟨y, rfl, haccepts⟩ := validateParam_some ho
      show Checked (rule :: rules) (x :: xs) (y :: os'.filterMap id)
      apply Checked.param haccepts
      apply ih (fun i => ?_) (Nat.le_of_succ_le_succ hlength) hos
      rw [Nat.add_right_comm]
      exact hxs (i + 1)

theorem checked_of_validateParams {params left : List Json} {rules : List IParamValidation}
    (h : validateParams params rules = .ok left) : Checked rules params left := by
  unfold validateParams at h
  split at h
  · cases h
  · rename_i hlength
    obtain ⟨os, hos, h⟩ := exists_of_bind_ok h
    cases h
    exact checked_of_mapM (k := 0) (fun i => by rw [Nat.zero_add]) (Nat.le_of_not_lt hlength) hos

private theorem test_of_validateProperty {object : Json} {filters : IObjectSchema}
    {property : String × IObjectParamSchema} (h : validateProperty object filters property = .ok ())
    (hx : object.field? property.1 = some x) (hnullable : property.2.nullable = false) :
    property.2.type.test x = .ok true := by
  simp only [validateProperty, hx, requiredIsMissing, Option.isNone_some, Bool.and_false,
    isValidAndNonNullableParam, hnullable, Bool.not_false, Bool.or_true, Option.any_some,
    Option.filter_some] at h
  rw [if_neg Bool.false_ne_true] at h
  simp only [if_true] at h
  split at h
  · assumption
  · cases h

theorem test_of_validateSchema {schema : IObjectSchema} {object : Json} {result : Bool}
    (h : validateSchema schema object = .ok result) {property : String × IObjectParamSchema}
    (hmem : property ∈ schema.properties) (hx : object.field? property.1 = some x)
    (hnullable : property.2.nullable = false) : property.2.type.test x = .ok true := by
  unfold validateSchema at h
  split at h
  · cases h
  · obtain ⟨_, hall, _⟩ := exists_of_bind_ok h
    exact test_of_validateProperty (forM_ok hall property hmem) hx hnullable

theorem exists_of_isBaseHex {quantifier : ℕ → Bool} {text : List Char}
    (h : isBaseHex quantifier text = true) :
    ∃ c digits, text = '0' :: c :: digits ∧ (c = 'x' ∨ c = 'X') ∧
      (∀ d ∈ digits, Js.isHexDigit d = true) ∧ quantifier digits.length = true := by
  unfold isBaseHex at h
  split at h
  · rename_i c digits
    simp only [decide_eq_true_eq, List.all_eq_true] at h
    exact ⟨c, digits, rfl, h⟩
  · cases h

theorem exists_of_isBlockParamText {text : String} (h : isBlockParamText text = true) :
    ∃ c digits, text.toList = '0' :: c :: digits ∧ (c = 'x' ∨ c = 'X') ∧
      (∀ d ∈ digits, Js.isHexDigit d = true) ∧ bigIntOfHex text < 2 ^ 53 ∧
        (digits = ['0'] ∨ digits.takeWhile (· ≠ '0') ≠ []) := by
  unfold isBlockParamText at h
  split at h
  · rename_i c digits htext
    simp only [decide_eq_true_eq, List.all_eq_true] at h
    obtain ⟨hc, hdigits, hsafe, hzero⟩ := h
    exact ⟨c, digits, htext, hc, hdigits, hsafe, hzero.imp_right And.left⟩
  · cases h

/-- A hash is no safe integer. -/
theorem isBlockParamText_of_isBlockHash {text : String}
    (h : isBaseHex (· = 64) text.toList = true) : isBlockParamText text = false := by
  rw [Bool.eq_false_iff]
  intro hparam
  obtain ⟨c, digits, htext, _, hhex, hlength⟩ := exists_of_isBaseHex h
  obtain ⟨c', digits', htext', _, _, hsafe, hdigits⟩ := exists_of_isBlockParamText hparam
  obtain rfl : digits = digits' := by
    rw [htext] at htext'
    cases htext'
    rfl
  rcases hdigits with hzero | htake
  · rw [hzero] at hlength
    exact absurd hlength (by decide)
  · cases digits with
    | nil => exact htake rfl
    | cons d digits =>
      have hne : d ≠ '0' := by
        rintro rfl
        exact htake rfl
      have hlarge : 16 ^ digits.length ≤ Js.ofHexDigits (d :: digits) :=
        Js.le_ofHexDigits (hhex d List.mem_cons_self) hne
      have hcount : digits.length = 63 := by simpa using hlength
      rw [hcount] at hlarge
      rw [bigIntOfHex, htext] at hsafe
      exact absurd (hlarge.trans_lt hsafe) (by decide)

end JsonRpcRelay.Validators
