import Metap.Crud.SystemFields

/-!
# Writes one after another

When calls on records do not overlap, a call loads and writes the same row.  A sequence of creates,
of such writes and of system writes is a run of the interleaved system in which nothing happens
between a call's load and its write (`run_of_sequence`), so what fails for sequences fails for it.

The modules on computed fields, mirror columns and valid documents argue from what a write does to
its row, for each of the three operations (`WriteEffect`).
-/

namespace Metap.Crud

open Transition Builder

section

variable (platform : Platform) (entity : EntityDefinition)

inductive SequenceEvent where
  | created (rawData : JsonObject) (row : StoredRecord)
  | wrote (w : Write platform entity)
  | system (patch : JsonObject) (row : StoredRecord)

/-- A record is created, a call loads and writes one, or the platform sets system fields. -/
inductive SequenceStep : Database → SequenceEvent platform entity → Database → Prop where
  | create {db : Database} (ctx : CallContext) (rawData : JsonObject) (newID : Uuid) (now : ℤ)
      {row : StoredRecord} (hrow : createRow platform entity ctx rawData newID now = .ok row)
      (hunique : platform.violates db.records.rows row = none)
      (hfresh : db.records.find row.id = none) :
      SequenceStep db (.created rawData row) { db with records := db.records.insert row hfresh }
  | write {db db' : Database} (call : Call) (env : CommitEnv) {p : Pending platform entity}
      {w : Write platform entity} (hload : load platform entity db call = .ok p)
      (hcommit : commit platform entity db p env = .ok (w, db')) :
      SequenceStep db (.wrote w) db'
  | system {db db' : Database} (tenantID id : Uuid) (fields : JsonObject) {patch : JsonObject}
      {row : StoredRecord}
      (hset : setSystemFields platform entity db tenantID id fields = .ok (patch, row, db')) :
      SequenceStep db (.system patch row) db'

end

section

variable {platform : Platform} {entity : EntityDefinition} {db db' : Database}

/-- A sequence is a run in which no call is under way between two writes. -/
theorem run_of_sequence {events : List (SequenceEvent platform entity)}
    (h : Run (SequenceStep platform entity) db events db') :
    ∃ es, Run (RecordStep platform entity) { db } es { db := db' } := by
  refine h.history
    (I := fun _ db' => ∃ es, Run (RecordStep platform entity) { db } es { db := db' })
    ⟨[], .nil _⟩ ?_
  rintro - db₁ e db₂ ⟨es, hrun⟩ hstep
  cases hstep with
  | create ctx rawData newID now hrow hunique hfresh =>
    exact ⟨_, .snoc hrun (.call (.create ctx rawData newID now hrow hunique hfresh))⟩
  | write call env hload hcommit =>
    exact ⟨_, .snoc (.snoc hrun (.call (.load call hload)))
      (.call (.commit [] [] _ env rfl hcommit))⟩
  | system tenantID id fields hset => exact ⟨_, .snoc hrun (.system tenantID id fields hset)⟩

/-! ## What a write does -/

/-- A transition leaves a member as it was loaded. -/
def Write.KeepsMember (w : Write platform entity) (k : String) : Prop :=
  ∀ action payload wf source t, w.pending.call.op = .transition action payload →
    entity.workflow = some wf →
    (w.replaced.data.get wf.stateField).bind Json.decodeString = some source →
    Workflow.findTransition entity action source = some t →
    transitionMember platform.codec entity wf t w.pending.call.ctx.rc w.replaced.data
      (payload.getD []) k = w.replaced.data.get k

/-- A write in a sequence is computed from the row it replaces. -/
theorem writeEffect_of_sequence {call : Call} {env : CommitEnv}
    {p : Pending platform entity} {w : Write platform entity}
    (hload : load platform entity db call = .ok p)
    (hcommit : commit platform entity db p env = .ok (w, db')) :
    WriteEffect w w.replaced.data ∧ db.records.find w.written.id = some w.replaced ∧
      db'.records = db.records.replace w.written := by
  have heffect := writeEffect_of_commit hcommit
  obtain ⟨hcall, -, hbase, -⟩ := load_eq_ok hload
  obtain ⟨hfind, -, -, hpending, -, hwritten, rfl⟩ := commit_eq_ok hcommit
  subst hpending
  have hsame : w.pending.base = w.replaced := by
    rw [hcall] at hfind
    exact Option.some.inj (hbase.symm.trans hfind)
  have hid : w.written.id = w.pending.call.id := by
    rw [hwritten, id_applyPatch, KeyedTable.key_of_find hfind]
  rw [hsame] at heffect
  exact ⟨heffect, hid ▸ hfind, rfl⟩

/-- What every row keeps that is created, written or set, every sequence keeps. -/
theorem rows_of_sequence {I : StoredRecord → Prop} {C : SequenceEvent platform entity → Prop}
    {events : List (SequenceEvent platform entity)}
    (hrun : Run (SequenceStep platform entity) db events db') (hactions : ∀ e ∈ events, C e)
    (hinit : ∀ row ∈ db.records.rows, I row)
    (hcreate : ∀ ctx rawData newID now row, C (.created rawData row) →
      createRow platform entity ctx rawData newID now = .ok row → I row)
    (hwrite : ∀ w : Write platform entity, C (.wrote w) → WriteEffect w w.replaced.data →
      I w.replaced → I w.written) (hsystem : ∀ fields patch row, C (.system patch row) →
      systemPatch platform entity fields = .ok patch → I row →
      I (withSystemFields platform row patch)) : ∀ row ∈ db'.records.rows, I row := by
  refine hrun.invariant (I := fun db => ∀ row ∈ db.records.rows, I row) (C := C) ?_ hactions hinit
  intro db e db' hC hstep h row hrow
  cases hstep with
  | create ctx rawData newID now hcreated hunique hfresh =>
    rcases List.mem_append.mp hrow with hrow | hrow
    · exact h row hrow
    · rw [List.mem_singleton.mp hrow]
      exact hcreate ctx rawData newID now _ hC hcreated
  | write call env hload hcommit =>
    obtain ⟨heffect, hfind, hrecords⟩ := writeEffect_of_sequence hload hcommit
    rw [hrecords] at hrow
    rcases KeyedTable.mem_rows_replace hrow with rfl | ⟨hrow, -⟩
    · exact hwrite _ hC heffect (h _ (KeyedTable.mem_of_find hfind))
    · exact h row hrow
  | system tenantID id fields hset =>
    obtain ⟨hpatch, hfind, rfl⟩ := setSystemFields_eq_ok hset
    rcases KeyedTable.mem_rows_replace hrow with rfl | ⟨hrow, -⟩
    · exact hsystem fields _ _ hC hpatch (h _ (KeyedTable.mem_of_find hfind))
    · exact h row hrow

end

end Metap.Crud
