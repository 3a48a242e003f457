import Metap.Permission.Condition

/-!
# Tests on operands of the wrong kind

An ordering test is meant for two numbers or two strings, a membership test for an array.
`KindsMatch` is that intent, and a test on other operands should fail.

It does, with one exception.  A JSON null decodes into every type the operators decode into, as
zero, as the empty string and as the empty array, and an attribute or a context value that is absent
reads as null.  So a null is ordered against numbers and strings, and nothing is in it.
`NullPasses` spells out the tests that pass for this reason, and `test_failsClosed_iff` says that
there are no others.
-/

namespace Metap

/-! ## Kinds -/

def Json.isNumber : Json → Bool
  | .num _ => true
  | _ => false

def Json.isString : Json → Bool
  | .str _ => true
  | _ => false

def Json.isArray : Json → Bool
  | .arr _ => true
  | _ => false

/-- Two numbers, or two strings. -/
def Comparable (a b : Json) : Prop :=
  (a.isNumber = true ∧ b.isNumber = true) ∨ (a.isString = true ∧ b.isString = true)

/-- The operands are of the kinds that the operator is meant for. -/
def KindsMatch (op : ConditionOp) (actual expected : Json) : Prop :=
  match op with
  | .gt | .gte | .lt | .lte => Comparable actual expected
  | .in | .notIn => expected.isArray = true
  | .contains | .notContains => actual.isArray = true
  | .eq | .neq | .other _ => True

/-- The orders an ordering operator asks for. -/
def ConditionOp.accepts : ConditionOp → Ordering → Bool
  | .gt, o => o = .gt
  | .gte, o => o ≠ .lt
  | .lt, o => o = .lt
  | .lte, o => o ≠ .gt
  | _, _ => false

/-- The order of two documents of which one is null: the null is zero beside a number and the empty
string beside a string. -/
def nullOrder : Json → Json → Option Ordering
  | .null, .null => some .eq
  | .null, .num n => (Float64.ofNumLit n).map fun f => compare 0 f.value
  | .num n, .null => (Float64.ofNumLit n).map fun f => compare f.value 0
  | .null, .str s => some (if s = "" then .eq else .lt)
  | .str s, .null => some (if s = "" then .eq else .gt)
  | _, _ => none

/-- The tests that pass because an operand is null. -/
def NullPasses (op : ConditionOp) (actual expected : Json) : Prop :=
  match op with
  | .gt | .gte | .lt | .lte => ∃ o, nullOrder actual expected = some o ∧ op.accepts o = true
  | .notIn => expected = .null
  | .notContains => actual = .null
  | .eq | .neq | .in | .contains | .other _ => False

/-! ## Orderings -/

theorem string_compare_empty_left (s : String) :
    (if s < "" then Ordering.gt else if "" < s then .lt else .eq) =
      if s = "" then .eq else .lt := by
  by_cases hs : s = ""
  · simp [hs]
  · have hlt : "" < s := by
      rw [String.lt_iff_toList_lt]
      cases hcs : s.toList with
      | nil => exact absurd (String.toList_eq_nil_iff.mp hcs) hs
      | cons c cs => exact List.nil_lt_cons c cs
    rw [if_neg (lt_asymm hlt), if_pos hlt, if_neg hs]

theorem string_compare_empty_right (s : String) :
    (if "" < s then Ordering.gt else if s < "" then .lt else .eq) =
      if s = "" then .eq else .gt := by
  have hswap := congrArg Ordering.swap (string_compare_empty_left s)
  have hnlt : ¬s < "" := by
    rw [String.lt_iff_toList_lt]
    exact List.not_lt_nil _
  by_cases hs : s = ""
  · simp [hs]
  · rw [if_neg hnlt, if_neg hs] at hswap
    rw [if_neg hnlt, if_neg hs]
    split at hswap
    · next hlt => rw [if_pos hlt]
    · cases hswap

theorem nullOrder_of_comparable {a b : Json} (h : Comparable a b) : nullOrder a b = none := by
  unfold Comparable at h
  cases a <;> cases b <;> simp_all [Json.isNumber, Json.isString, nullOrder]

/-- Other documents are ordered only when one of them is null. -/
theorem compareOrdering_of_not_comparable {a b : Json} (h : ¬Comparable a b) :
    compareOrdering a b = nullOrder a b := by
  have hzero : Float64.zero.value = 0 := by simp [Float64.value, Float64.zero]
  cases a with
  | null =>
    cases b with
    | null => simp [compareOrdering, nullOrder, Json.decodeFloat64]
    | num n =>
      cases hn : Float64.ofNumLit n <;>
        simp [compareOrdering, nullOrder, Json.decodeFloat64, Json.decodeString, hn, hzero]
    | str s =>
      simp only [compareOrdering, nullOrder, Json.decodeFloat64, Json.decodeString]
      rw [string_compare_empty_left]
    | bool | arr | obj =>
      simp [compareOrdering, nullOrder, Json.decodeFloat64, Json.decodeString]
  | num m =>
    cases b with
    | null =>
      cases hm : Float64.ofNumLit m <;>
        simp [compareOrdering, nullOrder, Json.decodeFloat64, Json.decodeString, hm, hzero]
    | num n => exact absurd (Or.inl ⟨rfl, rfl⟩) h
    | bool | str | arr | obj =>
      simp [compareOrdering, nullOrder, Json.decodeFloat64, Json.decodeString]
  | str s =>
    cases b with
    | null =>
      simp only [compareOrdering, nullOrder, Json.decodeFloat64, Json.decodeString]
      rw [string_compare_empty_right]
    | str t => exact absurd (Or.inr ⟨rfl, rfl⟩) h
    | bool | num | arr | obj =>
      simp [compareOrdering, nullOrder, Json.decodeFloat64, Json.decodeString]
  | bool | arr | obj =>
    cases b <;> simp [compareOrdering, nullOrder, Json.decodeFloat64, Json.decodeString]

theorem matchOperator_accepts {op : ConditionOp} (hop : op ∈ [.gt, .gte, .lt, .lte]) (a b : Json) :
    matchOperator op a b = true ↔ ∃ o, compareOrdering a b = some o ∧ op.accepts o = true := by
  simp only [List.mem_cons, List.not_mem_nil, or_false] at hop
  rcases hop with rfl | rfl | rfl | rfl <;> cases h : compareOrdering a b <;>
    simp [matchOperator, ConditionOp.accepts, h]

/-- An ordering test fails closed unless a null is ordered. -/
theorem ordering_failsClosed_iff {op : ConditionOp} (hop : op ∈ [.gt, .gte, .lt, .lte])
    (a b : Json) : (matchOperator op a b = true → Comparable a b) ↔
      ¬∃ o, nullOrder a b = some o ∧ op.accepts o = true := by
  by_cases hkinds : Comparable a b
  · have hnone := nullOrder_of_comparable hkinds
    simp [hkinds, hnone]
  · rw [matchOperator_accepts hop, compareOrdering_of_not_comparable hkinds]
    simp [hkinds]

/-! ## Membership -/

theorem isArray_of_decodeArray {a : Json} (h : a.decodeArray.isSome = true) (hnull : a ≠ .null) :
    a.isArray = true := by
  cases a <;> simp_all [Json.decodeArray, Json.isArray]

theorem decodeArray_of_membership {a b : Json} :
    (matchOperator .in a b = true → b.decodeArray.isSome = true ∧ b ≠ .null) ∧
      (matchOperator .notIn a b = true → b.decodeArray.isSome = true) ∧
      (matchOperator .contains a b = true → a.decodeArray.isSome = true ∧ a ≠ .null) ∧
      (matchOperator .notContains a b = true → a.decodeArray.isSome = true) := by
  refine ⟨fun h => ?_, fun h => ?_, fun h => ?_, fun h => ?_⟩
  · cases b <;> simp_all [matchOperator, Json.decodeArray, arrayContains]
  · cases b <;> simp_all [matchOperator, Json.decodeArray]
  · cases a <;> simp_all [matchOperator, Json.decodeArray, arrayContains]
  · cases a <;> simp_all [matchOperator, Json.decodeArray]

/-! ## Tests -/

/-- **Type mismatch.**  A test passes only on operands of the kinds its operator is meant for,
unless an operand is null and the null decodes to a value that passes. -/
theorem test_failsClosed_iff (subject : Json) (ctx : RequestContext) (attr : String)
    (op : ConditionOp) (value : PolicyValue) :
    ((evaluateCondition subject ctx (.attribute attr op value)).isPassed = true →
        KindsMatch op (resolveAttribute subject attr ctx) (Permission.resolveValue value ctx)) ↔
      ¬NullPasses op (resolveAttribute subject attr ctx) (Permission.resolveValue value ctx) := by
  rw [isPassed_attribute]
  generalize resolveAttribute subject attr ctx = a
  generalize Permission.resolveValue value ctx = b
  obtain ⟨hin, hnotIn, hcontains, hnotContains⟩ := @decodeArray_of_membership a b
  cases op with
  | eq | neq | other => simp [KindsMatch, NullPasses]
  | gt | gte | lt | lte => exact ordering_failsClosed_iff (by simp) a b
  | «in» =>
    refine iff_of_true (fun h => ?_) id
    exact isArray_of_decodeArray (hin h).1 (hin h).2
  | contains =>
    refine iff_of_true (fun h => ?_) id
    exact isArray_of_decodeArray (hcontains h).1 (hcontains h).2
  | notIn =>
    refine ⟨fun h hnull => ?_, fun hnull h => isArray_of_decodeArray (hnotIn h) hnull⟩
    have hpass : Json.isArray b = true := h (by rw [hnull]; rfl)
    rw [hnull] at hpass
    cases hpass
  | notContains =>
    refine ⟨fun h hnull => ?_, fun hnull h => isArray_of_decodeArray (hnotContains h) hnull⟩
    have hpass : Json.isArray a = true := h (by rw [hnull]; rfl)
    rw [hnull] at hpass
    cases hpass

/-- A record without an amount is below every positive limit, and a state is outside a list of the
context that is not there. -/
theorem absent_operands_pass :
    let ctx : RequestContext := { tenantID := "acme" }
    let below := PolicyCondition.attribute "amount" .lt (.literal (some (.num ⟨"100", rfl⟩)))
    let outside := PolicyCondition.attribute "state" .notIn (.fromContext "blockedStates")
    resolveAttribute (.obj []) "amount" ctx = .null ∧
      (evaluateCondition (.obj []) ctx below).isPassed = true ∧
      Permission.resolveValue (.fromContext "blockedStates") ctx = .null ∧
      (evaluateCondition (.obj [("state", .str "blocked")]) ctx outside).isPassed = true := by
  decide +kernel

end Metap
