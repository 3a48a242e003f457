import Metap.Query.ParameterDiscipline

/-!
# Requests of one shape are planned to one text

`plan_sameText`: of two requests that differ in literals only, both are refused, or both are planned
to the same SQL text, with as many parameters.  The planners run in lockstep (`planList_alike`,
`planAggregate_alike`); what they share is the number of parameters bound so far, which is all that
a placeholder shows.
-/

namespace Metap.Query

/-- Decoded cursors have identifiers that parse. -/
theorem samePosition_of_rel {parseUuid : String → Option Uuid} {readCursor : String → Option Cursor}
    (hparse : ∀ s, isCursorUUID s = true → (parseUuid s).isSome = true) {raw raw' : String}
    (h : Option.Rel SameCursor (decodeCursor readCursor raw) (decodeCursor readCursor raw')) :
    SamePosition parseUuid readCursor raw raw' := by
  have hid : ∀ raw c, decodeCursor readCursor raw = some c → (parseUuid c.id).isSome = true :=
    fun raw c hc => hparse c.id (Option.filter_eq_some_iff.mp hc).2
  have hraw := hid raw
  have hraw' := hid raw'
  unfold SamePosition
  generalize decodeCursor readCursor raw = d at h hraw ⊢
  generalize decodeCursor readCursor raw' = d' at h hraw' ⊢
  cases h with
  | none => exact .none
  | some h => exact .some ⟨h, (hraw _ rfl).trans (hraw' _ rfl).symm⟩

/-- **Literals stay out of the text.**  Of two requests of one shape, list requests or
aggregations, both are refused, or both are planned to the same SQL text; only the bound values
differ.  The identifiers that a cursor's reader accepts are assumed to parse. -/
theorem plan_sameText (parseUuid : String → Option Uuid) (readCursor : String → Option Cursor)
    (hparse : ∀ s, isCursorUUID s = true → (parseUuid s).isSome = true)
    (registry : MetadataRegistry) (entityName : String) (ctx : RequestContext)
    (policies : List PolicyRow) :
    (∀ input input', SameListShape readCursor input input' →
      SameOutcome SamePlan (planList parseUuid readCursor registry entityName input ctx policies)
        (planList parseUuid readCursor registry entityName input' ctx policies)) ∧
    ∀ input input', SameAggregateShape input input' →
      SameOutcome (fun q q' => q.sql = q'.sql ∧ q.params.length = q'.params.length)
        (planAggregate parseUuid registry entityName input ctx policies)
        (planAggregate parseUuid registry entityName input' ctx policies) := by
  constructor
  · intro input input' h
    refine (planList_alike h ?_ registry entityName ctx policies).mono fun q q' hq => hq.1
    have hcursor := h.cursor
    generalize input.cursor = cursor at hcursor ⊢
    generalize input'.cursor = cursor' at hcursor ⊢
    cases hcursor with
    | none => exact .none
    | some hraw => exact .some (samePosition_of_rel hparse hraw)
  · intro input input' h
    exact (planAggregate_alike h parseUuid registry entityName ctx policies).mono
      fun q q' hq => hq.1

/-- A quoted literal and one that looks like SQL are planned to one text. -/
theorem plan_sameText_task :
    let plan := fun jql title => planList (fun _ => some 7) (fun _ => none) taskRegistry "app.task"
      { limit := 10, filters := [("title", title)], jql := some jql } taskContext taskPolicies
    let text := "title = 'x\\' OR true --' AND title != '$1'"
    (plan "title = 'a' AND title != 'b'" "c").isOk = true ∧
      SameOutcome SamePlan (plan "title = 'a' AND title != 'b'" "c") (plan text "' OR 1=1") := by
  refine ⟨by decide +kernel, ?_⟩
  refine (plan_sameText (fun _ => some 7) (fun _ => none) (fun _ _ => rfl) taskRegistry "app.task"
    taskContext taskPolicies).1 _ _ ?_
  refine ⟨rfl, rfl, .cons ⟨rfl, by decide⟩ .nil, .none, rfl, .some ?_⟩
  have hok : ∀ {x : Except QueryError (List JqlToken)} {ts}, x.toOption = some ts → x = .ok ts := by
    intro x ts h
    cases x with
    | error e => cases h
    | ok ts' => rw [Option.some.inj h]
  have htokens : jqlTokenize "title = 'a' AND title != 'b'" =
      .ok [.ident "title", .eq, .str "a", .kwAnd, .ident "title", .ne, .str "b"] :=
    hok (by decide_cbv)
  have htokens' : jqlTokenize "title = 'x\\' OR true --' AND title != '$1'" =
      .ok [.ident "title", .eq, .str "x' OR true --", .kwAnd, .ident "title", .ne, .str "$1"] :=
    hok (by decide_cbv)
  unfold SameJql
  rw [htokens, htokens']
  exact .ok (.cons (.same _) (.cons (.same _) (.cons (.str _ _) (.cons (.same _) (.cons (.same _)
    (.cons (.same _) (.cons (.str _ _) .nil)))))))

end Metap.Query
