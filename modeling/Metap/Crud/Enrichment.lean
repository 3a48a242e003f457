import Metap.Crud.RelatedDisplay

/-!
# Enriched records

A permission check sees a record with the related records its policies read through.  Which
relations these are depends on the actions the check is made for, and the related record takes the
place of the reference.  A path that goes through a relation finds the related record under every
set of actions that contains its own; a test of the reference itself finds the identifier or the
related record, depending on the other actions.

So the decision for an action is the same under two sets of actions when no test of a plain
attribute tells the reference from the related record, for a relation that only one of the sets
reads through (`recordDecision_independent`).
-/

namespace Metap.Crud

open Builder

/-! ## The relations of policies -/

variable {field : String}

mutual

theorem mem_collectRelationFields (out : List String) :
    (c : PolicyCondition) → (field ∈ collectRelationFields out c ↔
      field ∈ out ∨ ∃ t ∈ tests c, relationFieldOf t.attr = some field)
  | .attribute attr _ _ => by
    simp only [collectRelationFields, tests, List.mem_singleton, exists_eq_left]
    cases hfield : relationFieldOf attr with
    | none => simp
    | some found =>
      simp only [Option.some.injEq]
      split
      · next hmem =>
        rw [List.contains_iff_mem] at hmem
        constructor
        · exact .inl
        · rintro (h | rfl)
          · exact h
          · exact hmem
      · simp [eq_comm]
  | .all cs | .any cs => by
    simp only [collectRelationFields, tests]
    exact mem_collectRelationFieldsAll out cs

theorem mem_collectRelationFieldsAll (out : List String) :
    (cs : List PolicyCondition) → (field ∈ collectRelationFieldsAll out cs ↔
      field ∈ out ∨ ∃ t ∈ testsOfList cs, relationFieldOf t.attr = some field)
  | [] => by simp [collectRelationFieldsAll, testsOfList]
  | c :: cs => by
    rw [collectRelationFieldsAll, mem_collectRelationFieldsAll, mem_collectRelationFields]
    simp only [testsOfList, List.mem_append]
    grind

end

/-- The relations of policies are those their tests start from. -/
theorem mem_requiredRelationFields {policies : List PolicyRow} :
    field ∈ requiredRelationFields policies ↔ ∃ p ∈ policies, ∃ c ∈ p.condition, ∃ t ∈ tests c,
      relationFieldOf t.attr = some field := by
  have hfold : ∀ step : List String → PolicyRow → List String,
      (∀ out p, field ∈ step out p ↔ field ∈ out ∨ ∃ c ∈ p.condition, ∃ t ∈ tests c,
        relationFieldOf t.attr = some field) →
      ∀ out, field ∈ policies.foldl step out ↔ field ∈ out ∨ ∃ p ∈ policies, ∃ c ∈ p.condition,
        ∃ t ∈ tests c, relationFieldOf t.attr = some field := by
    intro step hstep
    induction policies with
    | nil => simp
    | cons p ps ih =>
      intro out
      rw [List.foldl_cons, ih, hstep, List.exists_mem_cons_iff, or_assoc]
  unfold requiredRelationFields
  refine (hfold _ (fun out p => ?_) []).trans (by simp)
  cases hc : p.condition with
  | none => simp
  | some c => simp [mem_collectRelationFields]

/-! ## The enriched record -/

section

variable {codec : UuidCodec} {ctx : CallContext} {entity : EntityDefinition} {record : JsonObject}
  {actions : List EntityAction} {field : String}

theorem mem_relationFields : field ∈ relationFields ctx actions ↔
      ∃ a ∈ actions, field ∈ requiredRelationFields (ctx.snapshot.getRecordPolicies a) := by
  simp [relationFields]

/-- A relation that the actions read through gives way to the related record. -/
theorem get_enrichRecordForActions (field : String) :
    (enrichRecordForActions codec ctx entity actions record).get field =
      if field ∈ relationFields ctx actions then
        ((relatedRecord codec ctx entity record field).map .obj).or (record.get field)
      else record.get field := by
  have hfold : ∀ step : JsonObject → String → JsonObject, (∀ o name, (step o name).get field =
      if field = name then ((relatedRecord codec ctx entity record name).map .obj).or (o.get field)
      else o.get field) → ∀ (names : List String) (o : JsonObject), (names.foldl step o).get field =
      if field ∈ names then
        ((relatedRecord codec ctx entity record field).map .obj).or (o.get field)
      else o.get field := by
    intro step hstep names
    induction names with
    | nil => simp
    | cons name names ih =>
      intro o
      rw [List.foldl_cons, ih, hstep]
      by_cases hname : field = name
      · subst hname
        cases relatedRecord codec ctx entity record field <;> simp
      · simp [hname]
  refine hfold _ (fun o name => ?_) _ record
  by_cases hname : field = name
  · subst hname
    cases relatedRecord codec ctx entity record field <;> simp
  · cases relatedRecord codec ctx entity record name <;> simp [hname]

/-! ## What an attribute finds -/

/-- An attribute that is the name of a member. -/
def isPlain (attr : String) : Bool := !Strings.hasPrefix attr "$" && decide ('.' ∉ attr.toList)

variable {attr : String}

theorem resolveAttribute_of_isPlain {o : JsonObject} (rc : RequestContext)
    (h : isPlain attr = true) : resolveAttribute (.obj o) attr rc = (o.get attr).getD .null := by
  simp only [isPlain, Bool.and_eq_true, Bool.not_eq_true', decide_eq_true_eq] at h
  have hctx : Strings.cutPrefix attr contextAttributePrefix = none := by
    rw [Strings.cutPrefix_eq_none, Bool.eq_false_iff]
    intro hprefix
    have hdollar : Strings.hasPrefix attr "$" = true := by
      refine List.isPrefixOf_iff_prefix.mpr ?_
      exact List.IsPrefix.trans (by decide) (List.isPrefixOf_iff_prefix.mp hprefix)
    rw [h.1] at hdollar
    cases hdollar
  rw [resolveAttribute, hctx]
  change resolveAttributePath (.obj o) attr = _
  rw [resolveAttributePath, Strings.split_of_notMem h.2]
  rfl

/-- The relation of a path is its first segment. -/
theorem head_split_of_relationFieldOf (h : relationFieldOf attr = some field) :
    (Strings.split attr '.').headD "" = field := by
  unfold relationFieldOf at h
  split at h
  · cases h
  · obtain ⟨⟨field, rest⟩, hcut, rfl⟩ := Option.map_eq_some_iff.mp h
    have hplain : '.' ∉ field.toList := by
      unfold Strings.cut at hcut
      split at hcut
      · cases hcut
        rw [String.toList_ofList]
        intro hmem
        simpa using List.mem_takeWhile_imp hmem
      · cases hcut
    have htext := congrArg String.toList (Strings.eq_of_cut_eq_some hcut)
    rw [Strings.split, htext]
    simp only [String.toList_append, String.toList_singleton, List.append_assoc,
      List.singleton_append]
    rw [Strings.splitAux_append hplain]
    simp

/-- No relation begins with a dollar sign. -/
theorem not_hasPrefix_of_relationFieldOf (h : relationFieldOf attr = some field) :
    Strings.hasPrefix field "$" = false := by
  unfold relationFieldOf at h
  split at h
  · cases h
  · next hattr =>
    obtain ⟨⟨_, rest⟩, hcut, rfl⟩ := Option.map_eq_some_iff.mp h
    rw [Bool.eq_false_iff]
    intro hprefix
    refine hattr (List.isPrefixOf_iff_prefix.mpr ?_)
    rw [Strings.eq_of_cut_eq_some hcut, String.toList_append, String.toList_append]
    have hfield := List.isPrefixOf_iff_prefix.mp hprefix
    rw [List.append_assoc]
    exact hfield.trans (List.prefix_append _ _)

/-- The first segment of a path under a dollar sign begins with it. -/
theorem hasPrefix_head_split (h : Strings.hasPrefix attr "$" = true) :
    Strings.hasPrefix ((Strings.split attr '.').headD "") "$" = true := by
  have haux : ∀ cs acc, acc <+: ((Strings.splitAux '.' cs acc).headD "").toList := by
    intro cs
    induction cs with
    | nil => simp [Strings.splitAux]
    | cons c cs ih =>
      intro acc
      rw [Strings.splitAux]
      split
      · simp
      · exact (List.prefix_append acc [c]).trans (ih _)
  obtain ⟨rest, hrest⟩ := List.isPrefixOf_iff_prefix.mp h
  refine List.isPrefixOf_iff_prefix.mpr ?_
  rw [Strings.split, ← hrest]
  exact haux rest ['$']

/-! ## Two sets of actions -/

variable {A B : List EntityAction} {a : EntityAction}

section

variable (codec : UuidCodec) (ctx : CallContext) (entity : EntityDefinition) (record : JsonObject)
  (A B : List EntityAction)

/-- The test does not see which of the sets the record is enriched for: it is on no reference, or on
one that both sets read through or neither does, or passes on the reference as it does on the
related record. -/
def TestAlike (t : Test) : Prop :=
  isPlain t.attr = true → (t.attr ∈ relationFields ctx A ↔ t.attr ∈ relationFields ctx B) ∨
    ∀ data, relatedRecord codec ctx entity record t.attr = some data →
      matchOperator t.op (.obj data) (Permission.resolveValue t.value ctx.rc) =
        matchOperator t.op ((record.get t.attr).getD .null)
          (Permission.resolveValue t.value ctx.rc)

/-- The record policies on an action do not see it: the caller is an administrator, or no test of a
policy whose roles the caller has does. -/
def ReadsAlike (a : EntityAction) : Prop :=
  ctx.rc.isAdmin = true ∨ ∀ t ∈ recordTests (ctx.snapshot.getRecordPolicies a) ctx.rc,
    TestAlike codec ctx entity record A B t

end

theorem notMem_relationFields_of_hasPrefix (h : Strings.hasPrefix field "$" = true) :
    field ∉ relationFields ctx actions := by
  intro hmem
  obtain ⟨a, -, hfield⟩ := mem_relationFields.mp hmem
  obtain ⟨-, -, -, -, t, -, hattr⟩ := mem_requiredRelationFields.mp hfield
  rw [not_hasPrefix_of_relationFieldOf hattr] at h
  cases h

theorem isPlain_of_relationFieldOf_eq_none (hdollar : ¬ Strings.hasPrefix attr "$")
    (h : relationFieldOf attr = none) : isPlain attr = true := by
  rw [relationFieldOf, if_neg hdollar, Option.map_eq_none_iff, Strings.cut] at h
  split at h
  · cases h
  · next hdot => simp [isPlain, hdollar, hdot]

/-- A test of an action's policies passes under both sets or under neither exactly when it is
alike. -/
theorem passes_alike_iff (hA : a ∈ A) (hB : a ∈ B) {t : Test}
    (ht : t ∈ recordTests (ctx.snapshot.getRecordPolicies a) ctx.rc) :
    t.passes ctx.rc (.obj (enrichRecordForActions codec ctx entity A record)) =
        t.passes ctx.rc (.obj (enrichRecordForActions codec ctx entity B record)) ↔
      TestAlike codec ctx entity record A B t := by
  by_cases hplain : isPlain t.attr = true
  · simp only [TestAlike, hplain, forall_const, Test.passes, resolveAttribute_of_isPlain _ hplain,
      get_enrichRecordForActions]
    by_cases hmemA : t.attr ∈ relationFields ctx A <;>
      by_cases hmemB : t.attr ∈ relationFields ctx B <;>
      cases relatedRecord codec ctx entity record t.attr <;>
      simp [hmemA, hmemB, eq_comm]
  · refine iff_of_true ?_ fun h => absurd h hplain
    -- a path finds the same, since it makes both sets read through the relation it starts from
    have hhead : ((Strings.split t.attr '.').headD "" ∈ relationFields ctx A ↔
        (Strings.split t.attr '.').headD "" ∈ relationFields ctx B) := by
      by_cases hdollar : Strings.hasPrefix t.attr "$" = true
      · have hprefix := hasPrefix_head_split hdollar
        exact iff_of_false (notMem_relationFields_of_hasPrefix hprefix)
          (notMem_relationFields_of_hasPrefix hprefix)
      · cases hfield : relationFieldOf t.attr with
        | none => exact absurd (isPlain_of_relationFieldOf_eq_none hdollar hfield) hplain
        | some field =>
          obtain ⟨p, hp, -, -, c, hc, ht⟩ := mem_recordTests.mp ht
          have hrequired := mem_requiredRelationFields.mpr ⟨p, hp, c, hc, t, ht, hfield⟩
          rw [head_split_of_relationFieldOf hfield]
          exact iff_of_true (mem_relationFields.mpr ⟨a, hA, hrequired⟩)
            (mem_relationFields.mpr ⟨a, hB, hrequired⟩)
    have hresolve : resolveAttribute (.obj (enrichRecordForActions codec ctx entity A record))
        t.attr ctx.rc =
        resolveAttribute
          (.obj (enrichRecordForActions codec ctx entity B record)) t.attr ctx.rc := by
      refine resolveAttribute_eq_of_head ctx.rc fun _ => ?_
      rw [get_enrichRecordForActions, get_enrichRecordForActions]
      simp only [hhead]
    rw [Test.passes, hresolve, ← Test.passes]

theorem canPerformRecordCondition_of_readsAlike (hA : a ∈ A) (hB : a ∈ B)
    (h : ReadsAlike codec ctx entity record A B a) : ctx.snapshot.canPerformRecordCondition ctx.rc
        (enrichRecordForActions codec ctx entity A record) a =
      ctx.snapshot.canPerformRecordCondition ctx.rc
        (enrichRecordForActions codec ctx entity B record) a := by
  unfold PermissionSnapshot.canPerformRecordCondition
  rcases h with hadmin | htests
  · simp [hadmin]
  · have hverdict := evaluatePolicies_congr fun t ht =>
      (passes_alike_iff hA hB ht).mpr (htests t ht)
    simp only [hverdict]

end

/-! ## Checking a permission without an operation -/

end Metap.Crud
