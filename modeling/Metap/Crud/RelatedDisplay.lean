import Metap.Crud.Masking

/-!
# Display values of related records

A list shows, next to each reference, a member of the record it refers to.  The value is looked up
in one query for the whole page, so it does not come out of a get of the related record.
`hydrated_display_shown_iff` compares the two: the lookup asks whether the caller may read the
entity, whether the record is live and whether its record policies let it through, but it asks the
record policies about the bare record, does not ask the field policies, and shows a null member as
an empty text.
-/

namespace Metap.Crud

open Query Builder

/-- A get of a record succeeds and shows a member with the given text. -/
def GetShows (svc : Service) (store : Store) (rc : RequestContext) (entityName : String)
    (id : Uuid) (field v : String) : Prop :=
  ∃ result, get svc store rc entityName id = .ok result ∧
    JsonObject.get result.record.data field = some (.str v)

section

variable {svc : Service} {store : Store} {rc : RequestContext} {entityName : String}
  {o target : Opened} {t : StoredRecord} {id : Uuid}

theorem recordOf_eq_ok {dto : RecordDto} : recordOf svc o t = .ok dto ↔
      (o.ctx.snapshot.canPerformRecordCondition o.ctx.rc
        (enrichRecordForActions svc.codec o.ctx o.entity getActions t.data) .read).allowed = true ∧
      maskRecordForRead o.entity o.ctx.rc o.ctx.snapshot (recordDto o.entity.name t) = dto := by
  unfold recordOf require
  split
  · next hallowed => simp [hallowed, bind, Except.bind, pure, Except.pure]
  · next hallowed => simp [hallowed, bind, Except.bind]

/-- What a get of a live record shows. -/
theorem getShows_iff (hopen : openForRead svc store rc entityName = .ok target)
    (hfetch : fetchExisting (store target.entity.tableName) id target.tenantID = some t)
    (field v : String) : GetShows svc store rc entityName id field v ↔
      (target.ctx.snapshot.canPerformRecordCondition rc
        (enrichRecordForActions svc.codec target.ctx target.entity getActions t.data)
          .read).allowed = true ∧
      target.ctx.snapshot.fieldReadable rc t.data field = true ∧
      JsonObject.get t.data field = some (.str v) := by
  have hrc : target.ctx.rc = rc :=
    congrArg (fun o => o.ctx.rc) (eq_openedOn_of_openForRead hopen)
  have hget : (get svc store rc entityName id).map GetResult.record = recordOf svc target t := by
    rw [map_get hopen, hfetch]
    rfl
  have hmember : JsonObject.get (maskRecordForRead target.entity target.ctx.rc target.ctx.snapshot
      (recordDto target.entity.name t)).data field =
      if target.ctx.snapshot.fieldReadable rc t.data field then JsonObject.get t.data field
      else none := by
    rw [← hrc]
    exact PermissionSnapshot.get_filterReadableFields _ _ _ _
  constructor
  · rintro ⟨result, hresult, hshown⟩
    rw [hresult] at hget
    obtain ⟨hallowed, hmasked⟩ := recordOf_eq_ok.mp hget.symm
    rw [← hmasked, hmember] at hshown
    by_cases hreadable : target.ctx.snapshot.fieldReadable rc t.data field = true
    · rw [if_pos hreadable] at hshown
      exact ⟨hrc ▸ hallowed, hreadable, hshown⟩
    · rw [if_neg hreadable] at hshown
      cases hshown
  · rintro ⟨hallowed, hreadable, hshown⟩
    have hrecord := recordOf_eq_ok.mpr ⟨hrc.symm ▸ hallowed, rfl⟩
    rw [← hget] at hrecord
    cases hresult : get svc store rc entityName id with
    | error e =>
      rw [hresult] at hrecord
      cases hrecord
    | ok result =>
      rw [hresult] at hrecord
      refine ⟨result, hresult, ?_⟩
      rw [show result.record = _ from Except.ok.inj hrecord, hmember, if_pos hreadable, hshown]

end

/-! ## What a list displays -/

section

variable {svc : Service} {store : Store} {rc : RequestContext} {entityName : String} {o : Opened}

/-- A display value is that of a live record of an entity the caller may read. -/
theorem displayValue_eq_some (hopen : openForRead svc store rc entityName = .ok o)
    {d : DisplayField} {id : Uuid} {v : String} (h : displayValue svc store o d id = some v) :
    ∃ target t raw, openForRead svc store rc d.refEntity = .ok target ∧
      fetchExisting (store target.entity.tableName) id target.tenantID = some t ∧
      JsonObject.get t.data d.displayField = some raw ∧ raw.decodeString = some v := by
  obtain ⟨htenant, -, hctx⟩ := openEntity_eq_ok (openForRead_eq_ok hopen).1
  obtain ⟨t, hfetch, h⟩ := Option.bind_eq_some_iff.mp h
  obtain ⟨_, _, h⟩ := Option.bind_eq_some_iff.mp h
  obtain ⟨raw, hraw, hv⟩ := Option.bind_eq_some_iff.mp h
  obtain ⟨_, hread, hfetch⟩ := Option.bind_eq_some_iff.mp hfetch
  obtain ⟨e, hentity, hfetch⟩ := Option.bind_eq_some_iff.mp hfetch
  rw [hctx] at hread hentity
  refine ⟨openedOn svc store rc o.tenantID e, t, raw, ?_, hfetch, hraw, hv⟩
  refine openForRead_of_allowed htenant hentity ?_
  rw [MetadataRegistry.name_of_getEntity hentity]
  by_contra hrefused
  have hnone := hread.symm.trans (if_neg hrefused)
  cases hnone

/-- The fields of an entity have different names, so a display value has one source. -/
theorem displayField_unique {entity : EntityDefinition} (hwf : entity.WellFormed)
    {d d' : DisplayField} (hd : d ∈ displayFields entity) (hd' : d' ∈ displayFields entity)
    (hname : d.name = d'.name) : d = d' := by
  obtain ⟨field, hfield, h⟩ := List.mem_filterMap.mp hd
  obtain ⟨field', hfield', h'⟩ := List.mem_filterMap.mp hd'
  have hnameOf : ∀ {g : EntityField} {x : DisplayField}, (if g.kind = .reference then do
      let refEntity ← g.refEntity
      let displayField ← g.refDisplayField
      return ({ name := g.name, refEntity, displayField } : DisplayField)
      else none) = some x → x.name = g.name := by
    intro g x hx
    split at hx
    · obtain ⟨_, _, hx⟩ := Option.bind_eq_some_iff.mp hx
      obtain ⟨_, _, hx⟩ := Option.bind_eq_some_iff.mp hx
      cases hx
      rfl
    · cases hx
  have hsame : field = field' :=
    List.inj_on_of_nodup_map hwf.nodup_names hfield hfield'
      ((hnameOf h).symm.trans (hname.trans (hnameOf h')))
  rw [← hsame, h] at h'
  exact Option.some.inj h'

/-- A value a list displays for a reference, and what a get of the related record shows: they are
the same when the related record's policies let the caller read it with its own relations
resolved, its field policies let the caller read the displayed member, and the member is not
null. -/
theorem hydrated_display_shown_iff (svc : Service) (store : Store) (rc : RequestContext)
    (entityName : String) (o : Opened) (hopen : openForRead svc store rc entityName = .ok o)
    (record : RecordDto) (hbare : record.relatedDisplay = none) (d : DisplayField)
    (hd : d ∈ displayFields o.entity) (id : Uuid)
    (href : referenceID svc record.data d.name = some id) (v : String)
    (hv : (d.name, v) ∈ (hydrateRelatedDisplay svc store o record).relatedDisplay.getD []) :
    GetShows svc store rc d.refEntity id d.displayField v ↔
      ∃ target t, openForRead svc store rc d.refEntity = .ok target ∧
        fetchExisting (store target.entity.tableName) id target.tenantID = some t ∧
        (target.ctx.snapshot.canPerformRecordCondition rc
          (enrichRecordForActions svc.codec target.ctx target.entity getActions t.data)
            .read).allowed = true ∧
        target.ctx.snapshot.fieldReadable rc t.data d.displayField = true ∧
        JsonObject.get t.data d.displayField ≠ some .null := by
  obtain ⟨htenant, hentity, -⟩ := openEntity_eq_ok (openForRead_eq_ok hopen).1
  -- the value attached under the field's name is the display value of its reference
  have hvalue : displayValue svc store o d id = some v := by
    simp only [hydrateRelatedDisplay] at hv
    split at hv
    · rw [hbare] at hv
      cases hv
    · obtain ⟨d', hd', h⟩ := List.mem_filterMap.mp hv
      obtain ⟨id', href', h⟩ := Option.bind_eq_some_iff.mp h
      obtain ⟨v', hv', h⟩ := Option.bind_eq_some_iff.mp h
      obtain ⟨hname, rfl⟩ := Prod.mk.inj (Option.some.inj h)
      have hwf := MetadataRegistry.wellFormed_of_getEntity hentity
      obtain rfl := displayField_unique hwf hd' hd hname
      obtain rfl := Option.some.inj (href'.symm.trans href)
      exact hv'
  obtain ⟨target, t, raw, htarget, hfetch, hraw, hdecode⟩ := displayValue_eq_some hopen hvalue
  rw [getShows_iff htarget hfetch]
  constructor
  · rintro ⟨hallowed, hreadable, hshown⟩
    refine ⟨target, t, htarget, hfetch, hallowed, hreadable, ?_⟩
    rw [hshown]
    simp
  · rintro ⟨target', t', htarget', hfetch', hallowed, hreadable, hnull⟩
    obtain rfl := Except.ok.inj (htarget.symm.trans htarget')
    obtain rfl := Option.some.inj (hfetch.symm.trans hfetch')
    refine ⟨hallowed, hreadable, ?_⟩
    rw [hraw]
    cases raw with
    | str s => exact congrArg (fun s => some (JsonTree.str s)) (Option.some.inj hdecode)
    | null => exact absurd hraw hnull
    | _ => cases hdecode

end

/-! ## Badges that show their holder -/

/-- A badge refers to an employee, shown by one of its members. -/
def badgeEntity (shown : String) : EntityDefinition where
  name := "app.badge"
  tableName := "app.badge"
  fields :=
    [{ name := "holder", kind := .reference, refEntity := some "app.employee",
       refDisplayField := some shown }]

theorem badgeEntity_wellFormed (shown : String) : (badgeEntity shown).WellFormed where
  safe_table := (by decide : isSafeTableName "app.badge" = true)
  safe_names := by simp [badgeEntity]; decide
  nodup_names := by simp [badgeEntity]
  filters_known := by simp [badgeEntity]
  state_declared := by simp [badgeEntity]
  setFields_not_state := by simp [badgeEntity]
  state_not_system := by simp [badgeEntity]

def badgeService (shown : String) : Service :=
  { employeeService with
    registryFor := fun _ => ⟨[employeeEntity, badgeEntity shown], by
      simpa using ⟨employeeEntity_wellFormed, badgeEntity_wellFormed shown⟩⟩ }

def badge : StoredRecord where
  id := 9
  tenantID := 1
  data := [("holder", .str (UuidCodec.hex.format 7))]

def badgeStore : Store := fun table =>
  { records := ⟨if table = "app.employee" then [employee 7 "senior"] else [badge],
      by split <;> simp⟩ }

def openedBadges (shown : String) : Opened :=
  openedOn (badgeService shown) badgeStore employeeCaller 1 (badgeEntity shown)

def holderField (shown : String) : DisplayField where
  name := "holder"
  refEntity := "app.employee"
  displayField := shown

/-- The team of a badge's holder is shown by both. -/
theorem hydrated_display_shown_team :
    ("holder", "red") ∈ (hydrateRelatedDisplay (badgeService "team") badgeStore
        (openedBadges "team") (recordDto "app.badge" badge)).relatedDisplay.getD [] ∧
      GetShows (badgeService "team") badgeStore employeeCaller "app.employee" 7 "team" "red" := by
  have hdisplay : ("holder", "red") ∈ (hydrateRelatedDisplay (badgeService "team") badgeStore
      (openedBadges "team") (recordDto "app.badge" badge)).relatedDisplay.getD [] := by
    decide
  refine ⟨hdisplay, ?_⟩
  refine (hydrated_display_shown_iff (badgeService "team") badgeStore employeeCaller "app.badge"
    (openedBadges "team") rfl (recordDto "app.badge" badge) rfl (holderField "team") ?_ 7 ?_ "red"
    hdisplay).mpr ?_
  · exact List.mem_singleton.mpr rfl
  · decide
  · refine ⟨openedOn (badgeService "team") badgeStore employeeCaller 1 employeeEntity,
      employee 7 "senior", rfl, rfl, by decide⟩

/-- A list of badges shows the grade of their holder, which a get of the holder hides. -/
theorem display_shows_hidden_grade :
    ((list (badgeService "grade") badgeStore employeeCaller "app.badge"
        { limit := 10 }).map fun page =>
        page.data.map RecordDto.relatedDisplay).toOption = some [some [("holder", "senior")]] ∧
      ((get (badgeService "grade") badgeStore employeeCaller "app.employee" 7).map fun result =>
        JsonObject.get result.record.data "grade").toOption = some none ∧
      ¬GetShows (badgeService "grade") badgeStore employeeCaller "app.employee" 7 "grade"
        "senior" := by
  rw [← and_assoc]
  refine (and_iff_left_of_imp fun hboth => ?_).mpr (by decide +kernel)
  rintro ⟨result, hresult, hshown⟩
  rw [hresult] at hboth
  have hnone : JsonObject.get result.record.data "grade" = none := Option.some.inj hboth.2
  rw [hnone] at hshown
  cases hshown

end Metap.Crud
