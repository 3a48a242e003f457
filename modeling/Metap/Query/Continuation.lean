import Metap.Framework.Sql.Order
import Metap.Query.ListMeaning

/-!
# Continuing a list

The request for the page after a cursor is planned like the request for the first page, with one
more condition (`planList_continues`).  That condition is the strict part of the page's own order:
`cursorTruth_position` says that it holds on a row exactly when the row's position, its sort value
and its id, comes after the position of the cursor, with nulls where the `ORDER BY` puts them.
-/

namespace Metap.Query

open Sql Builder

/-! ## The plan -/

section

variable {parseUuid : String → Option Uuid} {readCursor : String → Option Cursor} {c : Cursor}
  {raw : String} {input : ListInput} {id : Uuid} (hdecode : decodeCursor readCursor raw = some c)
  (hid : parseUuid c.id = some id)

include hdecode hid

/-- A cursor of the page's own sort is accepted. -/
theorem cursorConditions_ok {sort : ResolvedSort} (hfield : c.field = sort.field)
    (hdir : c.dir = sort.dir) (sortExpr : String) (ct : SortColType) (ws : List BindValue) :
    ∃ conditions ws', cursorConditions parseUuid readCursor (some raw) sort sortExpr ct ws =
      .ok (conditions, ws') := by
  have hown : ¬(c.field ≠ sort.field ∨ c.dir ≠ sort.dir) := by simp [hfield, hdir]
  simp only [cursorConditions, hdecode, if_neg hown, hid]
  cases c.value with
  | none | some value => exact ⟨_, _, rfl⟩

theorem requestConditions_continues {entity : EntityDefinition} {listView : Option EntityListView}
    {r : List String × ResolvedSort × String} {ws ws' : List BindValue}
    (h : requestConditions parseUuid readCursor entity listView input ws = .ok (r, ws'))
    (hfield : c.field = r.2.1.field) (hdir : c.dir = r.2.1.dir) :
    ∃ r' ws'', requestConditions parseUuid readCursor entity listView
      { input with cursor := some raw } ws = .ok (r', ws'') := by
  obtain ⟨filters, ws₁, hfilters, h⟩ := bind_eq_ok h
  obtain ⟨⟨jqlWhere, jqlOrder⟩, ws₂, hjql, h⟩ := bind_eq_ok h
  obtain ⟨⟨sortExpr, ct⟩, ws₃, hsort, h⟩ := bind_eq_ok h
  obtain ⟨after, ws₄, hafter, hret⟩ := bind_eq_ok h
  cases hret
  obtain ⟨conditions, ws'', hcursor⟩ :=
    cursorConditions_ok hdecode hid hfield hdir sortExpr ct ws₃
  refine ⟨(filters ++ jqlWhere.toList ++ conditions,
    resolveSort entity listView jqlOrder input.sort, sortExpr), ws'', ?_⟩
  unfold requestConditions
  rw [run_bind_of_ok hfilters, run_bind_of_ok hjql]
  show (sortFieldExpression _ _ >>= _) ws₂ = _
  rw [run_bind_of_ok hsort]
  show (cursorConditions _ _ _ _ _ _ >>= _) ws₃ = _
  rw [run_bind_of_ok hcursor]
  rfl

/-- The request for the page after a cursor is planned when the first page is. -/
theorem planList_continues {registry : MetadataRegistry} {entityName : String}
    {ctx : RequestContext} {policies : List PolicyRow} {q : PlannedListQuery}
    (h : planList parseUuid readCursor registry entityName input ctx policies = .ok q)
    (hfield : c.field = q.resolvedSort.field) (hdir : c.dir = q.resolvedSort.dir) :
    ∃ q', planList parseUuid readCursor registry entityName { input with cursor := some raw } ctx
      policies = .ok q' := by
  unfold planList at h ⊢
  split at h
  · cases h
  next entity hentity =>
  obtain ⟨tenant, htenant, h⟩ := except_bind_eq_ok h
  obtain ⟨listView, hview, h⟩ := except_bind_eq_ok h
  obtain ⟨⟨⟨conditions, sort, sortExpr⟩, params⟩, hrun, h⟩ := except_bind_eq_ok h
  cases h
  obtain ⟨scope, ws, hscope, hrun⟩ := bind_eq_ok hrun
  obtain ⟨requested, ws₁, hrequested, hret⟩ := bind_eq_ok hrun
  cases hret
  obtain ⟨r', ws', hcontinued⟩ := requestConditions_continues hdecode hid hrequested hfield hdir
  have hconditions : (listConditions parseUuid readCursor entity listView tenant
      { input with cursor := some raw } ctx policies).run [] =
      .ok ((scope ++ r'.1, r'.2.1, r'.2.2), ws') := by
    show listConditions parseUuid readCursor entity listView tenant _ ctx policies [] = _
    unfold listConditions
    rw [run_bind_of_ok hscope, run_bind_of_ok hcontinued]
    rfl
  simp only [htenant, hview, hconditions, bind, Except.bind, pure, Except.pure]
  exact ⟨_, rfl⟩

end

/-! ## The condition -/

section

variable {pg : Backend} {S : Set Value}

/-- The bound of a cursor at a value. -/
def boundOf (w : Value) : Option (Option Value) := if w = .null then none else some (some w)

theorem strict₂_compareOp_of_some {o : Op} (ho : o.isComparison = true) {u v : Value}
    {ord : Ordering} (h : compareValues pg u v = some ord) :
    strict₂ (compareOp pg o) (some u) (some v) = .ofBool (o.holds ord) :=
  (strict₂_compareOp_eq_ofBool pg ho).mpr ⟨u, v, ord, rfl, rfl, h, rfl⟩

theorem tie_eq (id cursorID : Uuid) :
    strict₂ (compareOp pg .gt) (some (.uuid id)) (some (.uuid cursorID)) =
      .ofBool (compare cursorID.toNat id.toNat = .lt) := by
  rw [strict₂_compareOp_of_some rfl (show compareValues pg (.uuid id) (.uuid cursorID) =
    some (compare id.toNat cursorID.toNat) from rfl), Op.holds,
    Std.OrientedOrd.eq_swap (a := id.toNat) (b := cursorID.toNat)]
  cases compare cursorID.toNat id.toNat <;> rfl

/-- The cursor condition is the strict part of the page's order, and it never fails. -/
theorem cursorTruth_position (hc : Collation pg) (hS : OneType pg S) (e : Expr)
    (descending : Bool) {v w : Value} (hv : v ∈ S) (hw : w ∈ S) (id cursorID : Uuid) :
    (cursorTruth pg descending (boundOf w) cursorID (some v) (some (.uuid id)) = .tt ↔
      comparePosition pg ⟨e, descending, descending⟩ (w, cursorID) (v, id) = .lt) ∧
    cursorTruth pg descending (boundOf w) cursorID (some v) (some (.uuid id)) ≠ .err := by
  unfold boundOf comparePosition
  by_cases hw' : w = .null
  · rw [if_pos hw']
    by_cases hv' : v = .null
    · -- both null: the id decides
      have hcmp : OrderKey.compare pg ⟨e, descending, descending⟩ w v = .eq := by
        rw [hw', hv']
        rfl
      rw [hcmp]
      cases descending <;> simp only [cursorTruth, nullTruth, hv', tie_eq] <;>
        cases hid : compare cursorID.toNat id.toNat <;> decide
    · have hcmp : OrderKey.compare pg ⟨e, descending, descending⟩ w v =
          if descending then .lt else .gt := by
        rw [hw']
        exact OrderKey.compare_null_left hv'
      rw [hcmp]
      cases descending <;> simp only [cursorTruth, nullTruth, hv', tie_eq] <;>
        cases hid : compare cursorID.toNat id.toNat <;> decide
  · rw [if_neg hw']
    by_cases hv' : v = .null
    · have hcmp : OrderKey.compare pg ⟨e, descending, descending⟩ w v =
          if descending then .gt else .lt := by
        rw [hv']
        exact OrderKey.compare_null_right hw'
      have hunknown : ∀ o, strict₂ (compareOp pg o) (some .null) (some w) = .unknown :=
        fun o => rfl
      rw [hcmp, hv']
      cases descending <;> simp only [cursorTruth, nullTruth, tie_eq, hunknown] <;>
        cases hid : compare cursorID.toNat id.toNat <;> decide
    · obtain ⟨o, ho⟩ := Option.isSome_iff_exists.mp (hS w hw v hv hw' hv')
      have hvw := compareValues_swap hc ho
      have hgt : strict₂ (compareOp pg .gt) (some v) (some w) = .ofBool (Op.gt.holds o.swap) :=
        strict₂_compareOp_of_some rfl hvw
      have hlt : strict₂ (compareOp pg .lt) (some v) (some w) = .ofBool (Op.lt.holds o.swap) :=
        strict₂_compareOp_of_some rfl hvw
      have heq : strict₂ (compareOp pg .eq) (some v) (some w) = .ofBool (Op.eq.holds o.swap) :=
        strict₂_compareOp_of_some rfl hvw
      have hnull : nullTruth false (some v) = .ff := by simp [nullTruth, hv']
      have hcmp : OrderKey.compare pg ⟨e, descending, descending⟩ w v =
          if descending then o.swap else o := OrderKey.compare_of_ne_null hw' hv' ho
      rw [hcmp]
      cases descending <;> simp only [cursorTruth, tie_eq, hnull, hgt, hlt, heq] <;>
        cases o <;> cases hid : compare cursorID.toNat id.toNat <;> decide

end

end Metap.Query
