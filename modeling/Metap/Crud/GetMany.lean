import Metap.Crud.FieldDifference

/-!
# Getting many records

`GetMany` asks for the rows and for the actors of their guards in one query each, presents every
row the caller may read, and orders what it has by the identifiers it was given.

`getMany_eq_get`: it answers what a `Get` of each identifier answers, without the refused ones.
-/

namespace Metap

namespace Workflow

/-- The last actors of several records, from one query; a record keeps its own rows. -/
def lastActorsBatch (codec : UuidCodec) (events : List WorkflowEvent) (tenantID : Uuid)
    (entity : String) (recordIDs : List Uuid) (recordID : Uuid) : Actors :=
  let rows := events.filter fun e =>
    e.tenantID = tenantID && e.entity = entity && recordIDs.contains e.recordID && e.actor.isSome
  latestActors codec (rows.filter fun e => e.recordID = recordID)

theorem lastActorsBatch_eq (codec : UuidCodec) (events : List WorkflowEvent) (tenantID : Uuid)
    (entity : String) {recordIDs : List Uuid} {recordID : Uuid} (h : recordID ∈ recordIDs) :
    lastActorsBatch codec events tenantID entity recordIDs recordID =
      lastActors codec events tenantID entity recordID := by
  unfold lastActorsBatch lastActors recordEvents
  dsimp only
  rw [List.filter_filter]
  refine congrArg _ (List.filter_congr fun e _ => ?_)
  by_cases hrecord : e.recordID = recordID <;> simp [hrecord, h]

end Workflow

namespace Crud

open Builder

structure GetManyResult where
  id : Uuid
  record : RecordDto
  capabilities : RecordCapabilities
  deriving DecidableEq

def fetchExistingBatch (db : Database) (ids : List Uuid) (tenantID : Uuid) : List StoredRecord :=
  db.records.rows.filter fun r => ids.contains r.id && (r.tenantID = tenantID && !r.deleted)

section

variable (svc : Service) (store : Store)

/-- One row of the batch: nothing, if the record policies hide it. -/
def presentOne (o : Opened) (record : StoredRecord) (actors : Workflow.Actors) :
    Option GetManyResult :=
  let enriched := enrichRecordForActions svc.codec o.ctx o.entity getActions record.data
  if (o.ctx.snapshot.canPerformRecordCondition o.ctx.rc enriched .read).allowed then
    some {
      id := record.id
      record := maskRecordForRead o.entity o.ctx.rc o.ctx.snapshot (recordDto o.entity.name record)
      capabilities := computeCapabilities o.entity o.ctx.rc o.ctx.snapshot enriched actors }
  else none

/-- The results by identifier, one row after the other. -/
def resultsByID (o : Opened) (actorsByRecord : Uuid → Workflow.Actors)
    (byID : Uuid → Option GetManyResult) (existing : List StoredRecord) :
    Uuid → Option GetManyResult :=
  existing.foldl (fun byID record =>
    match presentOne svc o record (actorsByRecord record.id) with
    | some result => Function.update byID record.id (some result)
    | none => byID) byID

def getMany (rc : RequestContext) (entityName : String) (ids : List Uuid) :
    Except ServiceError (List GetManyResult) := do
  let o ← openForRead svc store rc entityName
  if ids.isEmpty then return []
  let db := store o.entity.tableName
  let existing := fetchExistingBatch db ids o.tenantID
  let actorsByRecord :=
    if Workflow.usesWorkflowContext o.entity then
      Workflow.lastActorsBatch svc.codec db.events o.tenantID o.entity.name
        (existing.map StoredRecord.id)
    else fun _ => []
  return ids.filterMap (resultsByID svc o actorsByRecord (fun _ => none) existing)

end

variable {svc : Service} {o : Opened}

theorem presentOne_eq (record : StoredRecord) (actors : Workflow.Actors) :
    presentOne svc o record actors = (presentRecord svc o record actors).toOption.map
      fun r => ⟨record.id, r.record, r.capabilities⟩ := by
  unfold presentOne presentRecord require
  simp only
  split <;> rfl

theorem resultsByID_eq (actorsByRecord : Uuid → Workflow.Actors)
    (byID : Uuid → Option GetManyResult)
    {existing : List StoredRecord} (h : (existing.map StoredRecord.id).Nodup) (id : Uuid) :
    resultsByID svc o actorsByRecord byID existing id =
      ((existing.find? fun r => r.id = id).bind fun r =>
        presentOne svc o r (actorsByRecord id)).or (byID id) := by
  induction existing generalizing byID with
  | nil => rfl
  | cons record rest ih =>
    obtain ⟨hfresh, hrest⟩ := List.nodup_cons.mp h
    refine (ih _ hrest).trans ?_
    by_cases hid : record.id = id
    · -- no later row has the identifier
      have hnone : (rest.find? fun r => r.id = id) = none := by
        refine List.find?_eq_none.mpr fun r hr heq => hfresh ?_
        rw [hid, ← of_decide_eq_true heq]
        exact List.mem_map_of_mem hr
      subst hid
      cases hone : presentOne svc o record (actorsByRecord record.id) <;> simp [hnone, hone]
    · cases hone : presentOne svc o record (actorsByRecord record.id) <;>
        simp [hid, hone, Function.update_of_ne (Ne.symm hid)]

/-- The batch holds the row that a get of one of its identifiers fetches. -/
theorem find_fetchExistingBatch (db : Database) {ids : List Uuid} (tenantID : Uuid) {id : Uuid}
    (h : id ∈ ids) : ((fetchExistingBatch db ids tenantID).find? fun r => r.id = id) =
      fetchExisting db id tenantID := by
  have hdelete := db.records.find_delete
    (fun r => !(ids.contains r.id && (r.tenantID = tenantID && !r.deleted))) id
  simp only [KeyedTable.find, KeyedTable.delete, Bool.not_not] at hdelete
  refine hdelete.trans ?_
  unfold fetchExisting
  cases hfind : db.records.find id with
  | none => rw [← KeyedTable.find, hfind]; rfl
  | some r =>
    rw [← KeyedTable.find, hfind]
    have hid : r.id = id := KeyedTable.key_of_find hfind
    simp [Option.filter, hid, h]

theorem get_of_opened {store : Store} {rc : RequestContext} {entityName : String}
    (hopen : openForRead svc store rc entityName = .ok o) (id : Uuid) :
    get svc store rc entityName id = (do
      let existing ← orRefuse (.err 404 "record_not_found")
        (fetchExisting (store o.entity.tableName) id o.tenantID)
      presentRecord svc o existing (if Workflow.usesWorkflowContext o.entity then
        Workflow.lastActors svc.codec (store o.entity.tableName).events o.tenantID o.entity.name id
        else [])) := by
  unfold get findRecord
  rw [hopen]
  cases hfetch : fetchExisting (store o.entity.tableName) id o.tenantID <;>
    simp [hfetch, orRefuse, bind, Except.bind, pure, Except.pure]

/-- What `GetMany` answers to a caller who may read the entity. -/
theorem getMany_eq_get (svc : Service) (store : Store) (rc : RequestContext) (entityName : String)
    (o : Opened) (hopen : openForRead svc store rc entityName = .ok o) (ids : List Uuid) :
    getMany svc store rc entityName ids = .ok (ids.filterMap fun id =>
      (get svc store rc entityName id).toOption.map fun r => ⟨id, r.record, r.capabilities⟩) := by
  unfold getMany
  rw [hopen]
  by_cases hempty : ids.isEmpty
  · rw [List.isEmpty_iff.mp hempty]
    rfl
  refine (if_neg hempty).trans (congrArg _ (List.filterMap_congr fun id hid => ?_))
  have hnodup : ((fetchExistingBatch (store o.entity.tableName) ids o.tenantID).map
      StoredRecord.id).Nodup := (store o.entity.tableName).records.nodup.sublist
    (List.filter_sublist.map _)
  have hbatch := find_fetchExistingBatch (store o.entity.tableName) o.tenantID hid
  rw [resultsByID_eq _ _ hnodup, hbatch, Option.or_none]
  rw [get_of_opened hopen]
  cases hfetch : fetchExisting (store o.entity.tableName) id o.tenantID with
  | none => rfl
  | some existing =>
    rw [hfetch] at hbatch
    have hkey := List.find?_some hbatch
    have hactors := Workflow.lastActorsBatch_eq svc.codec (store o.entity.tableName).events
      o.tenantID o.entity.name
      (List.mem_map_of_mem (f := StoredRecord.id) (List.mem_of_find?_eq_some hbatch))
    obtain rfl : existing.id = id := by simpa using hkey
    refine (presentOne_eq existing _).trans ?_
    split
    · rw [hactors]
      rfl
    · rfl

/-- One employee, asked for twice and beside one that does not exist. -/
theorem getMany_eq_get_employees :
    getMany employeeService (employeeStore "junior") employeeCaller "app.employee" [8, 7, 7] =
      .ok ([8, 7, 7].filterMap fun id =>
        (get employeeService (employeeStore "junior") employeeCaller "app.employee" id).toOption.map
          fun r => ⟨id, r.record, r.capabilities⟩) :=
  getMany_eq_get employeeService (employeeStore "junior") employeeCaller "app.employee"
    (openedEmployees _) (openForRead_employees _) [8, 7, 7]

end Crud
end Metap
