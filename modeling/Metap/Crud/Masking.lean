import Metap.Crud.FieldDifference

/-!
# Masked fields

A list and a get leave out the members of a record that the field policies hide from the caller,
and with them the columns that mirror them.  Taken over whole answers the hidden value may still
show: the cursor of the next page holds the sort value of the last row before it was masked
(`hidden_sort_value_in_cursor`), a related record is displayed by a field nobody asked the field
policies about, and a policy whose condition reads the field shows or hides other things.

`list_get_eq_iff` says that there is no further way.  On two databases that differ in a hidden field
only, the answers are the same exactly when the other members are masked alike, the references of
the shown rows show the same, the cursor takes the same value from the last row if there is one,
and a get decides alike.  It is enough that nothing of that reads the field.
-/

namespace Metap.Crud

open Sql Query Builder

/-- The policies of an entity, as a call loads them. -/
def Service.snapshotOf (svc : Service) (tenantID : Uuid) (entityName : String) :
    PermissionSnapshot :=
  .fromRows (svc.policiesFor tenantID entityName)

/-- Two versions of a record that differ at most in a field hidden from the caller on both. -/
structure AgreeHidden (svc : Service) (rc : RequestContext) (tenantID : Uuid)
    (entity : EntityDefinition) (f : String) (r r' : StoredRecord) : Prop where
  agree : AgreeExcept entity f r r'
  hidden : r ≠ r' →
    (svc.snapshotOf tenantID entity.name).fieldReadable rc r.data f = false ∧
      (svc.snapshotOf tenantID entity.name).fieldReadable rc r'.data f = false

theorem AgreeHidden.refl (svc : Service) (rc : RequestContext) (tenantID : Uuid)
    (entity : EntityDefinition) (f : String) (r : StoredRecord) :
    AgreeHidden svc rc tenantID entity f r r :=
  ⟨.refl entity f r, fun h => absurd rfl h⟩

/-! ## The masked record -/

/-- The field policies let the caller read the same other members of both versions of a record. -/
def MaskedAlike (s : PermissionSnapshot) (rc : RequestContext) (f : String)
    (r r' : StoredRecord) : Prop :=
  ∀ g ∈ JsonObject.keys r.data, g ≠ f →
    s.fieldReadable rc r.data g = s.fieldReadable rc r'.data g

variable {data data' : JsonObject}

section

variable {svc : Service} {rc : RequestContext} {tenantID : Uuid} {entity : EntityDefinition}
  {f : String} {r r' : StoredRecord} {s : PermissionSnapshot}

theorem maskedAlike_of_testsIgnore (h : AgreeExcept entity f r r')
    (hpolicies : ∀ g, g ≠ f → TestsIgnore f rc (s.policiesOnField "read" g)) :
    MaskedAlike s rc f r r' := by
  intro g _ hg
  simp only [PermissionSnapshot.fieldReadable, evaluatePolicies_eq h.data rc (hpolicies g hg)]

theorem filter_eq_filter_iff {α : Type} {l : List α} {p q : α → Bool} :
    l.filter p = l.filter q ↔ ∀ x ∈ l, p x = q x := by
  refine ⟨fun h x hx => ?_, List.filter_congr⟩
  have hmem : x ∈ l.filter p ↔ x ∈ l.filter q := by rw [h]
  simpa only [List.mem_filter, hx, true_and, ← Bool.eq_iff_iff] using hmem

/-- What is left of a record, when the member that differs is left out. -/
theorem filterReadableFields_eq_iff (h : data.erase f = data'.erase f)
    (hdata : s.fieldReadable rc data f = false) (hdata' : s.fieldReadable rc data' f = false) :
    s.filterReadableFields rc data = s.filterReadableFields rc data' ↔
      ∀ g ∈ JsonObject.keys data, g ≠ f →
        s.fieldReadable rc data g = s.fieldReadable rc data' g := by
  have herase : ∀ d : JsonObject, s.fieldReadable rc d f = false →
      s.filterReadableFields rc d = (d.erase f).filter fun e => s.fieldReadable rc d e.1 := by
    intro d hd
    rw [PermissionSnapshot.filterReadableFields, JsonObject.erase, List.filter_filter]
    refine List.filter_congr fun e _ => ?_
    by_cases he : e.1 = f
    · simp [he, hd]
    · simp [he]
  rw [herase data hdata, herase data' hdata', ← h, filter_eq_filter_iff]
  simp only [JsonObject.erase, List.mem_filter, JsonObject.keys, List.mem_dedup, List.mem_map,
    decide_eq_true_eq, and_imp, forall_exists_index, forall_apply_eq_imp_iff₂]

theorem maskRecordForRead_eq_iff (h : AgreeHidden svc rc tenantID entity f r r') :
    maskRecordForRead entity rc (svc.snapshotOf tenantID entity.name) (recordDto entity.name r) =
        maskRecordForRead entity rc (svc.snapshotOf tenantID entity.name)
          (recordDto entity.name r') ↔
      MaskedAlike (svc.snapshotOf tenantID entity.name) rc f r r' := by
  by_cases hsame : r = r'
  · rw [hsame]
    exact iff_of_true rfl fun _ _ _ => rfl
  obtain ⟨hr, hr'⟩ := h.hidden hsame
  rw [MaskedAlike, ← filterReadableFields_eq_iff h.agree.data hr hr']
  refine ⟨fun heq => congrArg RecordDto.data heq, fun hdata => ?_⟩
  have hnone : ((svc.snapshotOf tenantID entity.name).filterReadableFields rc r.data).get f =
      none := by
    rw [PermissionSnapshot.get_filterReadableFields, hr]
    rfl
  -- a column is shown only with the member it mirrors
  have hshown : ∀ {name : String} {column column' : Option String},
      (name ≠ f → column = column') →
      (if (((svc.snapshotOf tenantID entity.name).filterReadableFields rc r.data).get name).isSome
        then column else none) =
      if (((svc.snapshotOf tenantID entity.name).filterReadableFields rc r.data).get name).isSome
        then column' else none := by
    intro name column column' hsame
    by_cases hf : name = f
    · simp [hf, hnone]
    · rw [hsame hf]
  have hcode := hshown fun hf : "code" ≠ f => h.agree.code hf.symm
  simp only [maskRecordForRead, recordDto, ← hdata, hcode, h.agree.id, h.agree.version,
    h.agree.createdAt, h.agree.updatedAt]
  cases hw : entity.workflow with
  | none =>
    have hcolumn : r.status = r'.status := h.agree.status (by simp [hw])
    simp only [hcolumn]
  | some w =>
    have hstatus := hshown fun hf => h.agree.status fun w' hw' => by
      cases hw.symm.trans hw'
      exact hf
    simp only [hstatus]

end

/-! ## Related records -/

/-- What a reference shows of a related record. -/
def shownOf (s : PermissionSnapshot) (rc : RequestContext) (name : String) (data : JsonObject) :
    Option String :=
  if (s.canPerformRecordCondition rc data .read).allowed then
    (JsonObject.get data name).bind Json.decodeString
  else none

/-- A reference to a record of the changed table shows the same in both databases. -/
def DisplayedAlike (svc : Service) (rc : RequestContext) (tenantID : Uuid)
    (changed : EntityDefinition) (store store' : Store) (d : DisplayField) (id : Uuid) : Prop :=
  ((svc.snapshotOf tenantID d.refEntity).canPerformEntityAction rc d.refEntity .read).allowed =
      true →
    ∀ e ∈ (svc.registryFor tenantID).getEntity d.refEntity, e.tableName = changed.tableName →
      ∀ r ∈ fetchExisting (store e.tableName) id tenantID,
        ∀ r' ∈ fetchExisting (store' e.tableName) id tenantID,
          shownOf (svc.snapshotOf tenantID d.refEntity) rc d.displayField r.data =
            shownOf (svc.snapshotOf tenantID d.refEntity) rc d.displayField r'.data

/-- No policy on the actions of a get reads through a reference into a table. -/
def RelationsAvoid (ctx : CallContext) (entity : EntityDefinition) (table : String) : Prop :=
  ∀ name ∈ relationFields ctx getActions, ∀ field ∈ entity.field? name,
    ∀ refEntity ∈ field.refEntity, ∀ e ∈ ctx.registry.getEntity refEntity, e.tableName ≠ table

section

variable {svc : Service} {rc : RequestContext} {tenantID : Uuid} {changed : EntityDefinition}
  {f : String} {store store' : Store}

theorem canPerformRecordCondition_eq (rc : RequestContext) {s : PermissionSnapshot}
    {action : EntityAction} (h : data.erase f = data'.erase f)
    (hpolicies : TestsIgnore f rc (s.getRecordPolicies action)) :
    s.canPerformRecordCondition rc data action = s.canPerformRecordCondition rc data' action := by
  simp only [PermissionSnapshot.canPerformRecordCondition, evaluatePolicies_eq h rc hpolicies]

section

variable {entity : EntityDefinition}
  (hdiffer : DifferAt changed.tableName (AgreeHidden svc rc tenantID changed f) store store')
include hdiffer

/-- The live record under an identifier, in both databases. -/
theorem rel_fetchExisting (table : String) (id tenant : Uuid) : (table = changed.tableName ∧
        Option.Rel (AgreeHidden svc rc tenantID changed f) (fetchExisting (store table) id tenant)
          (fetchExisting (store' table) id tenant)) ∨
      (table ≠ changed.tableName ∧
        fetchExisting (store table) id tenant = fetchExisting (store' table) id tenant) := by
  by_cases htable : table = changed.tableName
  · refine .inl ⟨htable, ?_⟩
    have hfind := KeyedTable.rel_find hdiffer.rows (fun r r' h => h.agree.id) id
    rw [htable]
    unfold fetchExisting
    generalize (store changed.tableName).records.find id = found at hfind ⊢
    generalize (store' changed.tableName).records.find id = found' at hfind ⊢
    cases hfind with
    | none => exact .none
    | @some r r' h =>
      simp only [Option.filter_some, h.agree.tenantID, h.agree.deleted]
      split
      · exact .some h
      · exact .none
  · exact .inr ⟨htable, by rw [hdiffer.others table htable]⟩

/-- The display value of a reference, in both databases. -/
theorem displayValue_eq_iff (d : DisplayField) (id : Uuid) :
    displayValue svc store (openedOn svc store rc tenantID entity) d id =
        displayValue svc store' (openedOn svc store' rc tenantID entity) d id ↔
      DisplayedAlike svc rc tenantID changed store store' d id := by
  have hvalue : ∀ st : Store, displayValue svc st (openedOn svc st rc tenantID entity) d id =
      if ((svc.snapshotOf tenantID d.refEntity).canPerformEntityAction rc d.refEntity
          .read).allowed then
        ((svc.registryFor tenantID).getEntity d.refEntity).bind fun e =>
          (fetchExisting (st e.tableName) id tenantID).bind fun r =>
            shownOf (svc.snapshotOf tenantID d.refEntity) rc d.displayField r.data
      else none := by
    intro st
    have hguard : ∀ (b : Bool) (x : Option String),
        (guard (b = true) : Option Unit).bind (fun _ => x) = if b then x else none := by
      intro b x
      cases b <;> rfl
    unfold displayValue fetchDisplayed
    simp only [bind, Option.bind_assoc, hguard]
    rfl
  rw [hvalue, hvalue, DisplayedAlike]
  by_cases hallowed : ((svc.snapshotOf tenantID d.refEntity).canPerformEntityAction rc d.refEntity
      .read).allowed = true
  · simp only [hallowed, if_true, true_imp_iff]
    cases (svc.registryFor tenantID).getEntity d.refEntity with
    | none => simp
    | some e =>
      simp only [Option.bind_some, Option.mem_def, Option.some.injEq, forall_eq']
      rcases rel_fetchExisting hdiffer e.tableName id tenantID with ⟨htable, hrel⟩ | ⟨hother, hsame⟩
      · simp only [htable, true_imp_iff] at hrel ⊢
        generalize fetchExisting (store changed.tableName) id tenantID = found at hrel ⊢
        generalize fetchExisting (store' changed.tableName) id tenantID = found' at hrel ⊢
        cases hrel with
        | none => simp
        | some h => simp
      · simp [hother, hsame]
  · simp [hallowed]

theorem displayedAlike_of_testsIgnore {d : DisplayField} (hname : d.displayField ≠ f)
    (hpolicies : TestsIgnore f rc
      ((svc.snapshotOf tenantID d.refEntity).getRecordPolicies .read)) (id : Uuid) :
    DisplayedAlike svc rc tenantID changed store store' d id := by
  intro _ e _ htable r hr r' hr'
  rcases rel_fetchExisting hdiffer e.tableName id tenantID with ⟨-, hrel⟩ | ⟨hother, -⟩
  · rw [Option.mem_def.mp hr, Option.mem_def.mp hr'] at hrel
    cases hrel with
    | some h =>
      rw [shownOf, shownOf, canPerformRecordCondition_eq rc h.agree.data hpolicies,
        h.agree.get_data hname]
  · exact absurd htable hother

/-- A related record outside the changed table, in both databases. -/
theorem relatedRecord_eq {name : String} (hget : data.get name = data'.get name)
    (havoid : ∀ field ∈ entity.field? name, ∀ refEntity ∈ field.refEntity,
      ∀ e ∈ (svc.registryFor tenantID).getEntity refEntity, e.tableName ≠ changed.tableName) :
    relatedRecord svc.codec (svc.context store rc tenantID entity.name) entity data name =
      relatedRecord svc.codec (svc.context store' rc tenantID entity.name) entity data' name := by
  have htarget : referenceTarget svc.codec (svc.context store' rc tenantID entity.name) entity data'
      name = referenceTarget svc.codec (svc.context store rc tenantID entity.name) entity data
        name := by
    rw [referenceTarget, referenceTarget, hget]
    rfl
  unfold relatedRecord
  rw [htarget]
  refine Option.bind_congr fun target h => ?_
  obtain ⟨field, hfield, h⟩ := Option.bind_eq_some_iff.mp h
  obtain ⟨_, -, h⟩ := Option.bind_eq_some_iff.mp h
  obtain ⟨refEntity, hrefEntity, h⟩ := Option.bind_eq_some_iff.mp h
  obtain ⟨_, -, h⟩ := Option.bind_eq_some_iff.mp h
  obtain ⟨id, -, h⟩ := Option.bind_eq_some_iff.mp h
  obtain ⟨e, he, h⟩ := Option.bind_eq_some_iff.mp h
  cases h
  show fetchRelatedData store tenantID e id = fetchRelatedData store' tenantID e id
  rw [fetchRelatedData, hdiffer.others _ (havoid field hfield refEntity hrefEntity e he)]
  rfl

theorem enrichRecordForActions_eq (data : JsonObject)
    (hrelations : RelationsAvoid (svc.context store rc tenantID entity.name) entity
      changed.tableName) :
    enrichRecordForActions svc.codec (svc.context store rc tenantID entity.name) entity getActions
        data = enrichRecordForActions svc.codec (svc.context store' rc tenantID entity.name) entity
        getActions data := by
  refine List.foldl_ext _ _ _ fun acc name hname => ?_
  simp only [relatedRecord_eq hdiffer rfl (hrelations name hname)]

/-- The record with its related records, in both databases. -/
theorem erase_enrichRecordForActions (hdata : data.erase f = data'.erase f)
    (hrelations : RelationsAvoid (svc.context store rc tenantID entity.name) entity
      changed.tableName) :
    (enrichRecordForActions svc.codec (svc.context store rc tenantID entity.name) entity getActions
        data).erase f =
      (enrichRecordForActions svc.codec (svc.context store' rc tenantID entity.name) entity
        getActions data').erase f := by
  refine JsonObject.erase_foldl_congr (fun name hname o o' ho => ?_) hdata
  by_cases hf : name = f
  · -- the field itself: whatever is written there is erased
    subst hf
    split <;> split <;> simp only [JsonObject.erase_set_self, ho]
  · have hrelated := relatedRecord_eq hdiffer (JsonObject.get_eq_of_erase_eq hdata hf)
      (hrelations name hname)
    simp only [hrelated]
    split
    · rw [JsonObject.erase_set_of_ne _ _ hf, JsonObject.erase_set_of_ne _ _ hf, ho]
    · exact ho

end

end

/-! ## The answers -/

section

variable (svc : Service) (rc : RequestContext) (tenantID : Uuid) (entity changed : EntityDefinition)
  (f : String) (store store' : Store)

/-- A row of a page looks the same in both databases: its other members are masked alike, and its
references show the same. -/
def ListedAlike (r r' : StoredRecord) : Prop :=
  MaskedAlike (svc.snapshotOf tenantID entity.name) rc f r r' ∧
    ∀ d ∈ displayFields entity, ∀ id ∈ referenceID svc
      ((svc.snapshotOf tenantID entity.name).filterReadableFields rc r.data) d.name,
      DisplayedAlike svc rc tenantID changed store store' d id

/-- If the page has a cursor and is sorted by the field, the cursor takes the same value from both
versions of the last row. -/
def CursorAlike (planned : PlannedListQuery) (rows rows' : List StoredRecord) : Prop :=
  planned.limit < rows.length → planned.resolvedSort.field = f →
    ∀ r ∈ (rows.take planned.limit.toNat).getLast?,
      ∀ r' ∈ (rows'.take planned.limit.toNat).getLast?,
        sortFieldValue svc (recordDto entity.name r) f =
          sortFieldValue svc (recordDto entity.name r') f

/-- The decision of a get on a record. -/
def readDecision (r : StoredRecord) : PermissionDecision :=
  (svc.snapshotOf tenantID entity.name).canPerformRecordCondition rc
    (enrichRecordForActions svc.codec (svc.context store rc tenantID entity.name) entity getActions
      r.data) .read

/-- A get decides alike on both versions of a record and masks them alike. -/
def GotAlike (id : Uuid) : Prop :=
  ∀ r ∈ fetchExisting (store entity.tableName) id tenantID,
    ∀ r' ∈ fetchExisting (store' entity.tableName) id tenantID,
      readDecision svc rc tenantID entity store r = readDecision svc rc tenantID entity store' r' ∧
        ((readDecision svc rc tenantID entity store r).allowed = true →
          MaskedAlike (svc.snapshotOf tenantID entity.name) rc f r r')

end

section

variable {α β : Type} {R P Q : α → β → Prop} {xs : List α} {ys : List β}

theorem forall₂_congr_of (h : List.Forall₂ R xs ys) (hpq : ∀ x y, R x y → (P x y ↔ Q x y)) :
    List.Forall₂ P xs ys ↔ List.Forall₂ Q xs ys := by
  induction h with
  | nil => exact iff_of_true .nil .nil
  | cons hxy _ ih => rw [List.forall₂_cons, List.forall₂_cons, hpq _ _ hxy, ih]

theorem rel_getLast? (h : List.Forall₂ R xs ys) : Option.Rel R xs.getLast? ys.getLast? := by
  rw [List.getLast?_eq_head?_reverse, List.getLast?_eq_head?_reverse]
  have hreverse := List.forall₂_reverse_iff.mpr h
  generalize xs.reverse = as at hreverse ⊢
  generalize ys.reverse = bs at hreverse ⊢
  cases hreverse with
  | nil => exact .none
  | cons hxy _ => exact .some hxy

/-- Values under distinct names are told apart by the list of those that are there. -/
theorem filterMap_tagged_eq_iff {key : α → String} {v w : α → Option β}
    (hnodup : (xs.map key).Nodup) :
    xs.filterMap (fun x => (v x).map (key x, ·)) = xs.filterMap (fun x => (w x).map (key x, ·)) ↔
      ∀ x ∈ xs, v x = w x := by
  have hmem : ∀ (u : α → Option β) {x : α}, x ∈ xs → ∀ b,
      (key x, b) ∈ xs.filterMap (fun x => (u x).map (key x, ·)) ↔ u x = some b := by
    intro u x hx b
    rw [List.mem_filterMap]
    constructor
    · rintro ⟨y, hy, h⟩
      obtain ⟨b', hb', heq⟩ := Option.map_eq_some_iff.mp h
      obtain ⟨hkey, rfl⟩ := Prod.mk.inj heq
      exact List.inj_on_of_nodup_map hnodup hy hx hkey ▸ hb'
    · exact fun h => ⟨x, hx, by rw [h]; rfl⟩
  constructor
  · exact fun h x hx => Option.ext fun b => by rw [← hmem v hx, ← hmem w hx, h]
  · exact fun h => List.filterMap_congr fun x hx => by rw [h x hx]

end

variable {svc : Service} {rc : RequestContext} {tenantID : Uuid} {entity changed : EntityDefinition}
  {f : String} {store store' : Store} {planned : PlannedListQuery}

theorem nodup_displayFields (hwf : entity.WellFormed) :
    ((displayFields entity).map DisplayField.name).Nodup := by
  refine List.Nodup.sublist ?_ hwf.nodup_names
  unfold displayFields
  generalize entity.fields = fields
  induction fields with
  | nil => exact .slnil
  | cons field fields ih =>
    rw [List.filterMap_cons]
    split
    · exact ih.cons _
    · next d hd =>
      have hname : d.name = field.name := by
        split at hd
        · obtain ⟨_, -, hd⟩ := Option.bind_eq_some_iff.mp hd
          obtain ⟨_, -, hd⟩ := Option.bind_eq_some_iff.mp hd
          cases hd
          rfl
        · cases hd
      rw [List.map_cons, List.map_cons, hname]
      exact ih.cons_cons _

/-- Rows that showed nothing yet are the same with what they show exactly when they and it are. -/
theorem withDisplay_eq_iff {m m' : RecordDto} (hm : m.relatedDisplay = none)
    (hm' : m'.relatedDisplay = none) {shown shown' : Option (List (String × String))} :
    { m with relatedDisplay := shown } = { m' with relatedDisplay := shown' } ↔
      m = m' ∧ shown = shown' := by
  constructor
  · intro h
    obtain ⟨⟩ := m
    obtain ⟨⟩ := m'
    cases hm
    cases hm'
    simp_all
  · rintro ⟨rfl, rfl⟩
    rfl

/-- The cursor after a row, in both databases. -/
theorem nextCursor_eq_iff {r r' : StoredRecord} (h : AgreeExcept entity f r r') :
    nextCursor svc planned (recordDto entity.name r) =
        nextCursor svc planned (recordDto entity.name r') ↔
      (planned.resolvedSort.field = f → sortFieldValue svc (recordDto entity.name r) f =
        sortFieldValue svc (recordDto entity.name r') f) := by
  have hid : (recordDto entity.name r).id = (recordDto entity.name r').id := h.id
  rw [nextCursor, nextCursor, hid, Cursor.mk.injEq]
  by_cases hsort : planned.resolvedSort.field = f
  · simp [hsort]
  · have hvalue : sortFieldValue svc (recordDto entity.name r) planned.resolvedSort.field =
        sortFieldValue svc (recordDto entity.name r') planned.resolvedSort.field := by
      simp only [sortFieldValue, recordDto, h.createdAt, h.updatedAt, h.get_data hsort]
    simp [hsort, hvalue]

section

variable (hdiffer : DifferAt changed.tableName (AgreeHidden svc rc tenantID changed f) store store')
include hdiffer

/-- Two masked rows with the values their references show. -/
theorem hydrateRelatedDisplay_eq_iff (hwf : entity.WellFormed) {m m' : RecordDto}
    (hm : m.relatedDisplay = none) (hm' : m'.relatedDisplay = none) :
    hydrateRelatedDisplay svc store (openedOn svc store rc tenantID entity) m =
        hydrateRelatedDisplay svc store' (openedOn svc store' rc tenantID entity) m' ↔
      m = m' ∧ ∀ d ∈ displayFields entity, ∀ id ∈ referenceID svc m.data d.name,
        DisplayedAlike svc rc tenantID changed store store' d id := by
  have hydrate : ∀ (st : Store) (record : RecordDto), record.relatedDisplay = none →
      ∃ shown, shown = (displayFields entity).filterMap (fun d =>
          ((referenceID svc record.data d.name).bind
            (displayValue svc st (openedOn svc st rc tenantID entity) d)).map (d.name, ·)) ∧
        hydrateRelatedDisplay svc st (openedOn svc st rc tenantID entity) record =
          { record with relatedDisplay := if shown.isEmpty then none else some shown } := by
    intro st record hnone
    refine ⟨_, rfl, ?_⟩
    have hdo : ∀ d : DisplayField, (do
        let id ← referenceID svc record.data d.name
        let value ← displayValue svc st (openedOn svc st rc tenantID entity) d id
        return (d.name, value)) = ((referenceID svc record.data d.name).bind
          (displayValue svc st (openedOn svc st rc tenantID entity) d)).map (d.name, ·) := by
      intro d
      rw [Option.map_bind]
      exact Option.bind_congr fun id _ => Option.map_eq_bind.symm
    unfold hydrateRelatedDisplay
    rw [show (openedOn svc st rc tenantID entity).entity = entity from rfl]
    simp only [hdo]
    split
    · rw [← hnone]
    · rfl
  obtain ⟨shown, hshown, hleft⟩ := hydrate store m hm
  obtain ⟨shown', hshown', hright⟩ := hydrate store' m' hm'
  have hlist : (if shown.isEmpty then none else some shown) =
      (if shown'.isEmpty then none else some shown') ↔ shown = shown' := by
    cases shown <;> cases shown' <;> simp
  rw [hleft, hright, withDisplay_eq_iff hm hm', hlist]
  refine and_congr_right fun heq => ?_
  rw [hshown, hshown', ← heq, filterMap_tagged_eq_iff (nodup_displayFields hwf)]
  refine forall₂_congr fun d _ => ?_
  cases referenceID svc m.data d.name with
  | none => simp
  | some id => simpa using displayValue_eq_iff hdiffer d id

/-- The answers to a list request from rows of the same records. -/
theorem presentPage_eq_iff (hwf : entity.WellFormed) (hlimit : 0 ≤ planned.limit)
    {rows rows' : List StoredRecord}
    (hrows : List.Forall₂ (AgreeHidden svc rc tenantID entity f) rows rows') :
    presentPage svc store (openedOn svc store rc tenantID entity) planned rows =
        presentPage svc store' (openedOn svc store' rc tenantID entity) planned rows' ↔
      List.Forall₂ (ListedAlike svc rc tenantID entity changed f store store')
          (rows.take planned.limit.toNat) (rows'.take planned.limit.toNat) ∧
        CursorAlike svc entity f planned rows rows' := by
  have htake := List.forall₂_take planned.limit.toNat hrows
  rw [presentPage, presentPage, ListPage.mk.injEq, maskedPage_eq hlimit, maskedPage_eq hlimit,
    List.map_map, List.map_map, ← List.forall₂_eq_eq_eq, List.forall₂_map_left_iff,
    List.forall₂_map_right_iff]
  refine and_congr (forall₂_congr_of htake fun r r' h => ?_) ?_
  · show hydrateRelatedDisplay svc store _ _ = hydrateRelatedDisplay svc store' _ _ ↔ _
    rw [hydrateRelatedDisplay_eq_iff hdiffer hwf rfl rfl]
    exact and_congr_left' (maskRecordForRead_eq_iff h)
  · rw [PageInfo.mk.injEq]
    simp only [true_and, pageCursor, CursorAlike, hrows.length_eq]
    split
    · next hmore =>
      simp only [hmore, true_imp_iff]
      have hlast := rel_getLast? htake
      generalize (rows.take planned.limit.toNat).getLast? = last at hlast ⊢
      generalize (rows'.take planned.limit.toNat).getLast? = last' at hlast ⊢
      cases hlast with
      | none => simp
      | some h =>
        simp only [Option.map_some, Option.some.injEq, Option.mem_def, forall_eq']
        exact nextCursor_eq_iff h.agree
    · next hall => simp [hall]

end

/-- The record a get answers with: if its policies let the caller read it, masked. -/
def recordOf (svc : Service) (o : Opened) (existing : StoredRecord) :
    Except ServiceError RecordDto := do
  require (o.ctx.snapshot.canPerformRecordCondition o.ctx.rc
    (enrichRecordForActions svc.codec o.ctx o.entity getActions existing.data) .read) .forbidden
  return maskRecordForRead o.entity o.ctx.rc o.ctx.snapshot (recordDto o.entity.name existing)

theorem canPerformRecordCondition_cases (rc : RequestContext) (s : PermissionSnapshot)
    (data : JsonObject) (action : EntityAction) :
    s.canPerformRecordCondition rc data action = .allow ∨
      s.canPerformRecordCondition rc data action = .forbidden := by
  unfold PermissionSnapshot.canPerformRecordCondition
  dsimp only
  split
  · exact .inl rfl
  · unfold PermissionSnapshot.verdictDecision
    split
    · exact .inl rfl
    · exact .inr rfl

theorem recordOf_eq_iff {r r' : StoredRecord} (h : AgreeHidden svc rc tenantID entity f r r') :
    recordOf svc (openedOn svc store rc tenantID entity) r =
        recordOf svc (openedOn svc store' rc tenantID entity) r' ↔
      readDecision svc rc tenantID entity store r =
          readDecision svc rc tenantID entity store' r' ∧
        ((readDecision svc rc tenantID entity store r).allowed = true →
          MaskedAlike (svc.snapshotOf tenantID entity.name) rc f r r') := by
  rw [← maskRecordForRead_eq_iff h]
  have hrecord : ∀ (st : Store) (r : StoredRecord),
      recordOf svc (openedOn svc st rc tenantID entity) r =
        if (readDecision svc rc tenantID entity st r).allowed then
          .ok (maskRecordForRead entity rc (svc.snapshotOf tenantID entity.name)
            (recordDto entity.name r))
        else .error (.forbidden (readDecision svc rc tenantID entity st r)) := by
    intro st r
    show (require (readDecision svc rc tenantID entity st r) .forbidden >>= fun _ => _) = _
    unfold require
    split <;> rfl
  rw [hrecord, hrecord]
  have hcases : ∀ (st : Store) (r : StoredRecord),
      readDecision svc rc tenantID entity st r = .allow ∨
        readDecision svc rc tenantID entity st r = .forbidden :=
    fun st r => canPerformRecordCondition_cases ..
  rcases hcases store r with hr | hr <;> rcases hcases store' r' with hr' | hr' <;>
    simp [hr, hr', PermissionDecision.allow, PermissionDecision.forbidden]

theorem map_presentRecord (o : Opened) (existing : StoredRecord) (actors : Workflow.Actors) :
    (presentRecord svc o existing actors).map GetResult.record = recordOf svc o existing := by
  simp only [presentRecord, recordOf]
  cases require (o.ctx.snapshot.canPerformRecordCondition o.ctx.rc
    (enrichRecordForActions svc.codec o.ctx o.entity getActions existing.data) .read) .forbidden <;>
    rfl

theorem map_get {entityName : String} {o : Opened}
    (hopen : openForRead svc store rc entityName = .ok o) (id : Uuid) :
    (get svc store rc entityName id).map GetResult.record = orRefuse (.err 404 "record_not_found")
        (fetchExisting (store o.entity.tableName) id o.tenantID) >>= recordOf svc o := by
  unfold get findRecord
  rw [hopen]
  cases hfetch : fetchExisting (store o.entity.tableName) id o.tenantID with
  | none => simp [bind, Except.bind, orRefuse, hfetch, Except.map]
  | some existing =>
    simp only [bind, Except.bind, pure, Except.pure, orRefuse, hfetch, map_presentRecord]

section

variable {entityName : String} {o : Opened}
  (hdiffer : DifferAt changed.tableName (AgreeHidden svc rc o.tenantID changed f) store store')
  (hown : o.entity.tableName = changed.tableName → o.entity = changed)
include hdiffer hown

/-- The live records under an identifier, in both databases. -/
theorem rel_found (id : Uuid) : Option.Rel (AgreeHidden svc rc o.tenantID o.entity f)
    (fetchExisting (store o.entity.tableName) id o.tenantID)
    (fetchExisting (store' o.entity.tableName) id o.tenantID) := by
  rcases rel_fetchExisting hdiffer o.entity.tableName id o.tenantID with
    ⟨htable, hrel⟩ | ⟨-, hsame⟩
  · have hentity := hown htable
    rw [hentity] at hrel ⊢
    exact hrel
  · rw [← hsame]
    cases fetchExisting (store o.entity.tableName) id o.tenantID with
    | none => exact .none
    | some r => exact .some (.refl svc rc o.tenantID o.entity f r)

variable (hopen : openForRead svc store rc entityName = .ok o)
include hopen

theorem list_eq_iff {input : ListInput} {rows rows' : List StoredRecord}
    (hplan : planPage svc o input = .ok planned) (hrows : fetchPage svc store o planned = .ok rows)
    (hrows' : fetchPage svc store' o planned = .ok rows')
    (hids : rows.map StoredRecord.id = rows'.map StoredRecord.id) :
    list svc store rc entityName input = list svc store' rc entityName input ↔
      List.Forall₂ (ListedAlike svc rc o.tenantID o.entity changed f store store')
          (rows.take planned.limit.toNat) (rows'.take planned.limit.toNat) ∧
        CursorAlike svc o.entity f planned rows rows' := by
  have ho := eq_openedOn_of_openForRead hopen
  have hctx := congrArg Opened.ctx ho
  have hplan' : planPage svc (openedOn svc store' rc o.tenantID o.entity) input = .ok planned := by
    rw [← hplan, planPage, planPage, hctx]
    rfl
  have hwf : o.entity.WellFormed :=
    MetadataRegistry.wellFormed_of_getEntity (openEntity_eq_ok (openForRead_eq_ok hopen).1).2.1
  have hagree : List.Forall₂ (AgreeHidden svc rc o.tenantID o.entity f) rows rows' := by
    by_cases htable : o.entity.tableName = changed.tableName
    · have hmem : ∀ r ∈ rows, r ∈ (store changed.tableName).records.rows :=
        fun r hr => htable ▸ (mem_of_select (fetchPage_eq_ok.mp hrows).2 hr).1
      have hmem' : ∀ r ∈ rows', r ∈ (store' changed.tableName).records.rows :=
        fun r hr => htable ▸ (mem_of_select (fetchPage_eq_ok.mp hrows').2 hr).1
      rw [hown htable]
      exact KeyedTable.forall₂_of_keys hdiffer.rows (fun r r' h => h.agree.id) hmem hmem' hids
    · rw [fetchPage, ← hdiffer.others _ htable] at hrows'
      rw [← Except.ok.inj (hrows.symm.trans hrows')]
      exact List.forall₂_same.mpr fun r _ => .refl svc rc o.tenantID o.entity f r
  rw [list_of_rows hopen hplan hrows,
    list_of_rows (openForRead_of_store hopen store') hplan' hrows',
    Except.ok.injEq, congrArg (presentPage svc store · planned rows) ho]
  exact presentPage_eq_iff hdiffer hwf (fetchPage_eq_ok.mp hrows).1 hagree

theorem get_eq_iff (id : Uuid) : (get svc store rc entityName id).map GetResult.record =
      (get svc store' rc entityName id).map GetResult.record ↔
    GotAlike svc rc o.tenantID o.entity f store store' id := by
  rw [map_get hopen, map_get (openForRead_of_store hopen store'),
    congrArg (recordOf svc) (eq_openedOn_of_openForRead hopen)]
  show (orRefuse _ (fetchExisting (store o.entity.tableName) id o.tenantID) >>= _) =
    (orRefuse _ (fetchExisting (store' o.entity.tableName) id o.tenantID) >>= _) ↔ _
  unfold GotAlike
  have hfound := rel_found hdiffer hown id
  generalize fetchExisting (store o.entity.tableName) id o.tenantID = found at hfound ⊢
  generalize fetchExisting (store' o.entity.tableName) id o.tenantID = found' at hfound ⊢
  cases hfound with
  | none => simp [orRefuse, bind, Except.bind]
  | some h =>
    simp only [Option.mem_def, Option.some.injEq, forall_eq']
    exact recordOf_eq_iff h

theorem readDecision_eq_of_testsIgnore (hrecord : o.entity = changed → TestsIgnore f rc
      ((svc.snapshotOf o.tenantID o.entity.name).getRecordPolicies .read))
    (hrelations : RelationsAvoid o.ctx o.entity changed.tableName) {id : Uuid}
    {r r' : StoredRecord} (hr : r ∈ fetchExisting (store o.entity.tableName) id o.tenantID)
    (hr' : r' ∈ fetchExisting (store' o.entity.tableName) id o.tenantID) :
    readDecision svc rc o.tenantID o.entity store r =
      readDecision svc rc o.tenantID o.entity store' r' := by
  rw [congrArg Opened.ctx (eq_openedOn_of_openForRead hopen)] at hrelations
  rcases rel_fetchExisting hdiffer o.entity.tableName id o.tenantID with
    ⟨htable, hrel⟩ | ⟨-, hsame⟩
  · rw [Option.mem_def.mp hr, Option.mem_def.mp hr'] at hrel
    cases hrel with
    | some h =>
      have henriched := erase_enrichRecordForActions hdiffer h.agree.data hrelations
      exact canPerformRecordCondition_eq rc henriched (hrecord (hown htable))
  · rw [hsame] at hr
    cases Option.some.inj (hr.symm.trans hr')
    exact congrArg (fun enriched => (svc.snapshotOf o.tenantID
      o.entity.name).canPerformRecordCondition rc enriched .read)
      (enrichRecordForActions_eq hdiffer r.data hrelations)

end

/-- Two databases that differ in a hidden field give the caller the same page exactly when its rows
are listed alike and the cursor takes the same value from its last row, and the same record exactly
when the get decides alike and masks alike.  Tests that do not read the field, displays of other
fields and relations into other tables make it so. -/
theorem list_get_eq_iff (svc : Service) (rc : RequestContext) (entityName : String)
    (changed : EntityDefinition) (f : String) (store store' : Store) (o : Opened)
    (hopen : openForRead svc store rc entityName = .ok o)
    (hdiffer : DifferAt changed.tableName (AgreeHidden svc rc o.tenantID changed f) store store')
    (hown : o.entity.tableName = changed.tableName → o.entity = changed) :
    (∀ input planned rows rows', planPage svc o input = .ok planned →
      fetchPage svc store o planned = .ok rows → fetchPage svc store' o planned = .ok rows' →
      rows.map StoredRecord.id = rows'.map StoredRecord.id →
      (list svc store rc entityName input = list svc store' rc entityName input ↔
        List.Forall₂ (ListedAlike svc rc o.tenantID o.entity changed f store store')
            (rows.take planned.limit.toNat) (rows'.take planned.limit.toNat) ∧
          CursorAlike svc o.entity f planned rows rows')) ∧
    (∀ id, (get svc store rc entityName id).map GetResult.record =
        (get svc store' rc entityName id).map GetResult.record ↔
      GotAlike svc rc o.tenantID o.entity f store store' id) ∧
    ((∀ g, g ≠ f → TestsIgnore f rc
        ((svc.snapshotOf o.tenantID o.entity.name).policiesOnField "read" g)) →
      ∀ r r', AgreeExcept o.entity f r r' →
        MaskedAlike (svc.snapshotOf o.tenantID o.entity.name) rc f r r') ∧
    (∀ d : DisplayField, d.displayField ≠ f → TestsIgnore f rc
        ((svc.snapshotOf o.tenantID d.refEntity).getRecordPolicies .read) →
      ∀ id, DisplayedAlike svc rc o.tenantID changed store store' d id) ∧
    ((o.entity = changed → TestsIgnore f rc
        ((svc.snapshotOf o.tenantID o.entity.name).getRecordPolicies .read)) →
      RelationsAvoid o.ctx o.entity changed.tableName →
      ∀ id, ∀ r ∈ fetchExisting (store o.entity.tableName) id o.tenantID,
        ∀ r' ∈ fetchExisting (store' o.entity.tableName) id o.tenantID,
          readDecision svc rc o.tenantID o.entity store r =
            readDecision svc rc o.tenantID o.entity store' r') :=
  ⟨fun _ _ _ _ => list_eq_iff hdiffer hown hopen, get_eq_iff hdiffer hown hopen,
    fun htests _ _ hagree => maskedAlike_of_testsIgnore hagree htests,
    fun _ hname htests => displayedAlike_of_testsIgnore hdiffer hname htests,
    fun htests hrelations _ _ hr _ => readDecision_eq_of_testsIgnore hdiffer hown hopen htests
      hrelations hr⟩

/-! ## Employees sorted by a hidden grade -/

/-- Two employees, the second one a senior. -/
def rankedStore (grade : String) : Store := fun table =>
  { records := ⟨if table = "app.employee" then [employee 7 grade, employee 8 "senior"] else [],
      by split <;> simp [employee]⟩ }

def firstBy (name : String) : ListInput := { limit := 1, sort := some name }

theorem differAt_rankedStore (grade grade' : String) :
    DifferAt "app.employee" (AgreeHidden employeeService employeeCaller 1 employeeEntity "grade")
      (rankedStore grade) (rankedStore grade') where
  rows := by
    refine .cons ⟨?_, fun _ => ⟨rfl, rfl⟩⟩ (.cons ⟨?_, fun _ => ⟨rfl, rfl⟩⟩ .nil) <;>
      constructor <;> intros <;> rfl
  events := rfl
  others := by
    intro table hother
    simp [rankedStore, hother]

/-- No policy is about another field of an employee than the grade. -/
theorem maskedAlike_employees (r r' : StoredRecord) :
    MaskedAlike (employeeService.snapshotOf 1 "app.employee") employeeCaller "grade" r r' := by
  intro g _ hg
  have hnone : (employeeService.snapshotOf 1 "app.employee").policiesOnField "read" g = [] := by
    refine List.filter_eq_nil_iff.mpr fun p hp => ?_
    cases List.mem_singleton.mp (show p ∈ employeePolicies.tail from hp)
    simpa using hg.symm
  rw [PermissionSnapshot.fieldReadable, PermissionSnapshot.fieldReadable, hnone]
  rfl

/-- The first employee by team, whatever the grade. -/
theorem list_get_eq_team :
    let page := fun grade => list employeeService (rankedStore grade) employeeCaller "app.employee"
      (firstBy "team")
    let record := fun grade => (get employeeService (rankedStore grade) employeeCaller
      "app.employee" 7).map GetResult.record
    (page "junior").isOk = true ∧ (record "junior").isOk = true ∧
      page "junior" = page "middle" ∧ record "junior" = record "middle" := by
  have hrelations : relationFields (openedEmployees (rankedStore "junior")).ctx getActions = [] :=
    rfl
  obtain ⟨hlist, hget, -, -, hdecision⟩ := list_get_eq_iff employeeService employeeCaller
    "app.employee" employeeEntity "grade" (rankedStore "junior") (rankedStore "middle")
    (openedEmployees (rankedStore "junior")) (openForRead_employees _)
    (differAt_rankedStore "junior" "middle") (fun _ => rfl)
  let pages : Except ServiceError (PlannedListQuery × List StoredRecord × List StoredRecord) := do
    let planned ← planPage employeeService (openedEmployees (rankedStore "junior")) (firstBy "team")
    let rows ← fetchPage employeeService (rankedStore "junior")
      (openedEmployees (rankedStore "junior")) planned
    let rows' ← fetchPage employeeService (rankedStore "middle")
      (openedEmployees (rankedStore "junior")) planned
    return (planned, rows, rows')
  obtain ⟨⟨planned, rows, rows'⟩, hpages, hsort, hids⟩ := exists_ok_of_decide pages
    (fun p => p.1.resolvedSort.field ≠ "grade" ∧
      p.2.1.map StoredRecord.id = p.2.2.map StoredRecord.id) (by decide +kernel)
  obtain ⟨_, hplan, hpages⟩ := except_bind_eq_ok hpages
  obtain ⟨_, hrows, hpages⟩ := except_bind_eq_ok hpages
  obtain ⟨_, hrows', hpages⟩ := except_bind_eq_ok hpages
  cases hpages
  have hlength : rows.length = rows'.length := by simpa using congrArg List.length hids
  rw [← and_assoc]
  refine ⟨by decide +kernel, ?_, ?_⟩
  · refine (hlist (firstBy "team") planned rows rows' hplan hrows hrows' hids).mpr
      ⟨List.forall₂_iff_zip.mpr ⟨?_, fun _ => ⟨maskedAlike_employees _ _, ?_⟩⟩,
        fun _ hgrade => absurd hgrade hsort⟩
    · rw [List.length_take, List.length_take, hlength]
    · exact fun d hd => absurd hd List.not_mem_nil
  · refine (hget 7).mpr fun r hr r' hr' =>
      ⟨hdecision (fun _ t ht => absurd ht List.not_mem_nil) ?_ 7 r hr r' hr',
        fun _ => maskedAlike_employees r r'⟩
    intro name hname
    rw [hrelations] at hname
    cases hname

/-- The cursor of the next page shows a grade that the page itself hides. -/
theorem hidden_sort_value_in_cursor :
    let page := fun grade => (list employeeService (rankedStore grade) employeeCaller "app.employee"
      (firstBy "grade")).toOption
    DifferAt "app.employee" (AgreeHidden employeeService employeeCaller 1 employeeEntity "grade")
        (rankedStore "junior") (rankedStore "middle") ∧
      (page "junior").map ListPage.data = (page "middle").map ListPage.data ∧
      (page "junior").map (fun p => p.page.nextCursor.bind Cursor.value) = some (some "junior") ∧
      (page "middle").map (fun p => p.page.nextCursor.bind Cursor.value) =
        some (some "middle") := by
  exact ⟨differAt_rankedStore "junior" "middle", by decide +kernel⟩

end Metap.Crud
