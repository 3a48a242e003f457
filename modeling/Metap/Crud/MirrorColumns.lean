import Metap.Crud.ComputedFields

/-!
# Columns that mirror the document

A row repeats two members of its document as columns: `code`, and for an entity with a workflow the
state as `status`.  The three operations maintain them separately.  A transition changes `code` in
the document and not the column (`transition_leaves_code_behind`); a create takes a state the caller
supplies as it is, also when it is null, empty or no string; and a state field that is computed, or
a reference, is rewritten by an update that does not touch the status.

`columns_mirror_document` says when the columns agree: the state is an ordinary field, every create
that names it names a non-empty string, and no transition changes `code`.
-/

namespace Metap.Crud

open Transition

/-- The columns repeat the document. -/
structure Mirrors (entity : EntityDefinition) (row : StoredRecord) : Prop where
  code : ∀ text, row.data.get "code" = some (.str text) → row.code = some text
  status : ∀ w ∈ entity.workflow, ∃ state, state ≠ "" ∧
    row.data.get w.stateField = some (.str state) ∧ row.status = some state

section

variable {platform : Platform} {entity : EntityDefinition}

/-- What must not happen for the columns to agree. -/
def SequenceEvent.KeepsMirrors : SequenceEvent platform entity → Prop
  | .created rawData _ => ∀ w ∈ entity.workflow, ∀ v, rawData.get w.stateField = some v →
      ∃ state, state ≠ "" ∧ v = .str state
  | .wrote w => w.KeepsMember "code"
  | .system patch _ => patch.get "code" = none

/-- The columns agree, and a code that only the platform may write has no value. -/
structure MirrorInv (entity : EntityDefinition) (row : StoredRecord) : Prop where
  mirrors : Mirrors entity row
  unset : "code" ∈ systemFieldNames entity → row.data.get "code" = none

theorem codeOf_eq {data : JsonObject} {text : String} (h : data.get "code" = some (.str text)) :
    codeOf data = some text := by
  rw [codeOf, h]
  rfl

/-- An ordinary state goes through validation and recomputation as it is. -/
theorem get_state (hwf : entity.WellFormed) (hplain : PlainState entity) {w : EntityWorkflow}
    (hw : entity.workflow = some w) {raw data : JsonObject}
    (hdata : validatePayload platform.codec entity raw = .ok data) :
    data.get w.stateField = raw.get w.stateField ∧
      (recomputeFields platform.printer entity data).get w.stateField = raw.get w.stateField := by
  have hcanonical : ∀ v, canonicalMember platform.codec entity w.stateField v = v :=
    canonicalMember_of_not_reference fun f hf hname => (hplain w hw f hf hname).1
  have hget : data.get w.stateField = raw.get w.stateField := by
    rw [get_of_validatePayload hwf.nodup_names hdata]
    cases raw.get w.stateField with
    | none => rfl
    | some v => rw [Option.map_some, hcanonical]
  refine ⟨hget, ?_⟩
  rw [get_recomputeFields_of_not_computed fun f hf hname => (hplain w hw f hf hname).2, hget]

theorem mirrorInv_createRow (h : validate entity = []) (hplain : PlainState entity)
    {ctx : CallContext} {rawData : JsonObject} {newID : Uuid} {now : ℤ} {row : StoredRecord}
    (hkeeps : (SequenceEvent.created rawData row : SequenceEvent platform entity).KeepsMirrors)
    (hrow : createRow platform entity ctx rawData newID now = .ok row) : MirrorInv entity row := by
  have hwf := wellFormed_of_validate h
  refine ⟨?_, fun hk => get_created h hrow hk⟩
  obtain ⟨-, -, data, hdata, hrow, hcode, hstatus, -⟩ := createRow_spec hrow
  refine ⟨fun text htext => hcode.trans (codeOf_eq htext), fun w hw => ?_⟩
  have hstate := (get_state hwf hplain hw hdata).2
  rw [hrow, hstatus, Workflow.getInitialStatus, Option.mem_def.mp hw, Option.map_some, hstate]
  cases hraw : rawData.get w.stateField with
  | none =>
    refine ⟨w.initialState, (states_of_validate h w hw).1, ?_, rfl⟩
    simp [initState, Workflow.getInitialStatus, Option.mem_def.mp hw, hstate, hraw]
  | some v =>
    obtain ⟨state, hne, rfl⟩ := hkeeps w hw v hraw
    refine ⟨state, hne, ?_, rfl⟩
    rw [get_initState, hstate, hraw, Option.some_or]

theorem mirrorInv_written (h : validate entity = []) (hplain : PlainState entity)
    {w : Write platform entity} (hkeeps : (SequenceEvent.wrote w).KeepsMirrors)
    (heffect : WriteEffect w w.replaced.data) (hrow : MirrorInv entity w.replaced) :
    MirrorInv entity w.written := by
  have hwf := wellFormed_of_validate h
  cases heffect with
  | update rawData data hop hsystem hdata hwritten hcode hstatus =>
    refine ⟨⟨fun text htext => ?_, fun wf hwf' => ?_⟩, fun hk => ?_⟩
    · rw [hwritten, get_keepSystemFields] at htext
      split at htext
      · next hsys =>
        rw [hrow.unset hsys] at htext
        cases htext
      · rw [hcode, codeOf_eq htext]
    · obtain ⟨state, hne, hget, hcolumn⟩ := hrow.mirrors.status wf hwf'
      refine ⟨state, hne, ?_, hstatus.trans hcolumn⟩
      rw [hwritten, get_keepSystemFields, if_neg (hwf.state_not_system wf hwf'),
        (get_state hwf hplain hwf' hdata).2, get_keepState, Option.mem_def.mp hwf']
      simp [hget]
    · rw [hwritten, get_keepSystemFields, if_pos hk, hrow.unset hk]
  | transition action payload wf t nextData hop hwf' ht hfind hsource hdata hwritten hcode
      hstatus =>
    have hsame : w.written.data.get "code" = w.replaced.data.get "code" := by
      rw [hwritten, get_transitioned hwf.nodup_names hdata]
      exact hkeeps action payload wf t.source t hop hwf' hsource hfind
    refine ⟨⟨fun text htext => ?_, fun wf' hw => ?_⟩, fun hk => hsame.trans (hrow.unset hk)⟩
    · rw [hcode]
      exact hrow.mirrors.code text (hsame.symm.trans htext)
    · cases hwf'.symm.trans hw
      refine ⟨t.target, ((states_of_validate h wf hwf').2 t ht).2.1, ?_, hstatus⟩
      rw [hwritten, Workflow.get_applySetFields (hwf.setFields_not_state wf hwf' t ht),
        (get_state hwf hplain hwf' hdata).1]
      simp
  | delete hop hwritten hcode hstatus =>
    refine ⟨⟨?_, ?_⟩, ?_⟩ <;> rw [hwritten]
    · rw [hcode]
      exact hrow.mirrors.code
    · rw [hstatus]
      exact hrow.mirrors.status
    · exact hrow.unset

theorem mirrorInv_withSystemFields (h : validate entity = []) {fields patch : JsonObject}
    {row : StoredRecord}
    (hkeeps : (SequenceEvent.system patch row : SequenceEvent platform entity).KeepsMirrors)
    (hpatch : systemPatch platform entity fields = .ok patch) (hrow : MirrorInv entity row) :
    MirrorInv entity (withSystemFields platform row patch) := by
  have hwf := wellFormed_of_validate h
  have hcode : (withSystemFields platform row patch).data.get "code" = row.data.get "code" := by
    rw [withSystemFields, JsonObject.get_merge, show patch.get "code" = none from hkeeps,
      Option.none_or]
  refine ⟨⟨fun text htext => hrow.mirrors.code text (hcode.symm.trans htext), fun w hw => ?_⟩,
    fun hk => hcode.trans (hrow.unset hk)⟩
  have hnone : patch.get w.stateField = none := by
    by_contra hsome
    exact hwf.state_not_system w hw (mem_systemFieldNames_of_systemPatch hwf hpatch
      (Option.isSome_iff_ne_none.mpr hsome))
  obtain ⟨state, hne, hget, hcolumn⟩ := hrow.mirrors.status w hw
  refine ⟨state, hne, ?_, hcolumn⟩
  rw [withSystemFields, JsonObject.get_merge, hnone, Option.none_or, hget]

/-- In every sequence of writes from an empty table that meets the condition, the columns of every
record repeat its document. -/
theorem columns_mirror_document (h : validate entity = []) (hplain : PlainState entity)
    {db₀ db : Database} {events : List (SequenceEvent platform entity)}
    (hempty : db₀.records.rows = []) (hrun : Run (SequenceStep platform entity) db₀ events db)
    (hkeeps : ∀ e ∈ events, e.KeepsMirrors) : ∀ row ∈ db.records.rows, Mirrors entity row := by
  have hinv := rows_of_sequence (I := MirrorInv entity) hrun hkeeps (by simp [hempty])
    (fun _ _ _ _ _ hC hrow => mirrorInv_createRow h hplain hC hrow)
    (fun _ hC heffect hrow => mirrorInv_written h hplain hC heffect hrow)
    (fun _ _ _ hC hpatch hrow => mirrorInv_withSystemFields h hC hpatch hrow)
  exact fun row hrow => (hinv row hrow).mirrors

end

/-! ## A ticket with a code -/

def ticketEntity : EntityDefinition where
  name := "desk.tickets"
  tableName := "desk.tickets"
  fields := [{ name := "state", kind := .string }, { name := "code", kind := .string }]
  workflow := some {
    stateField := "state", initialState := "open"
    transitions := [{ action := "close", source := "open", target := "closed" }] }

def coded (code : String) : JsonObject := [("code", .str code)]

/-- A ticket that is created, given another code and closed. -/
theorem columns_mirror_document_closed : validate ticketEntity = [] ∧ PlainState ticketEntity ∧
    ∃ events db, Run (SequenceStep plainPlatform ticketEntity) noRecords events db ∧
      (∀ e ∈ events, e.KeepsMirrors) ∧ ∃ row ∈ db.records.rows,
        row.code = some "B" ∧ row.status = some "closed" ∧ Mirrors ticketEntity row := by
  have hvalid : validate ticketEntity = [] := by decide
  have hplain : PlainState ticketEntity := by
    rintro w ⟨⟩
    decide
  have hrun : ∃ events db, Run (SequenceStep plainPlatform ticketEntity) noRecords events db ∧
      (∀ e ∈ events, e.KeepsMirrors) ∧ ∃ row ∈ db.records.rows,
        row.code = some "B" ∧ row.status = some "closed" := by
    refine ⟨_, _, .snoc (.snoc (.snoc (.nil _) (.create keyAdmin (coded "A") 7 0 rfl rfl rfl))
      (.write (personCall (.update (coded "B"))) commitEnv rfl rfl))
      (.write { personCall (.transition "close" none) with expectedVersion := 2 }
        commitEnv rfl rfl),
      ?_, _, List.mem_singleton.mpr rfl, rfl, rfl⟩
    intro e he
    simp only [List.nil_append, List.cons_append, List.mem_cons, List.not_mem_nil, or_false] at he
    rcases he with rfl | rfl | rfl
    · rintro w ⟨⟩ v hv
      have hnone : (coded "A").get "state" = none := rfl
      cases hnone.symm.trans hv
    · intro action payload wf source t hop
      cases hop
    · rintro action payload wf source t ⟨⟩ ⟨⟩ ⟨⟩ ⟨⟩
      rfl
  obtain ⟨events, db, hrun, hkeeps, row, hrow, hcode, hstatus⟩ := hrun
  exact ⟨hvalid, hplain, events, db, hrun, hkeeps, row, hrow, hcode, hstatus,
    columns_mirror_document hvalid hplain rfl hrun hkeeps row hrow⟩

/-- A transition whose payload gives the ticket another code leaves the column behind. -/
theorem transition_leaves_code_behind : validate ticketEntity = [] ∧ PlainState ticketEntity ∧
    ∃ events db, Run (SequenceStep plainPlatform ticketEntity) noRecords events db ∧
      ∃ row ∈ db.records.rows, row.data.get "code" = some (.str "B") ∧ row.code = some "A" ∧
        ¬Mirrors ticketEntity row := by
  refine ⟨by decide, ?_, _, _,
    .snoc (.snoc (.nil _) (.create keyAdmin (coded "A") 7 0 rfl rfl rfl))
      (.write (personCall (.transition "close" (some (coded "B")))) commitEnv rfl rfl), _,
    List.mem_singleton.mpr rfl, rfl, rfl, fun hmirrors => ?_⟩
  · rintro w ⟨⟩
    decide
  · exact absurd (hmirrors.code "B" rfl) (by decide)

end Metap.Crud
