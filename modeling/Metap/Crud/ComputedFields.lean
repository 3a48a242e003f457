import Metap.Crud.Sequence

/-!
# Computed fields

A computed field is a text made from other fields of the record.  No text reads a computed field, so
filling them in is well defined (`recomputeFields_well_defined`).  Create and update fill them in;
a transition does not, although its payload, the fields it sets and the state it moves to may all be
read by the text, and neither does a system write.  A create fills it in before it puts the record
into its initial state.  So a computed field may fall behind (`transition_leaves_computed_behind`).

`computed_in_step` says when it cannot: if no transition changes a computed field or one of its
dependencies, no system write names a dependency, and no record is created without a state that is
one, then every computed field of every record is the text of the record's own data.
-/

namespace Metap.Crud

open Transition

/-! ## Texts -/

/-- A character of a template, or a token, in the template itself. -/
def pieceSource : Char ⊕ String → List Char
  | .inl c => [c]
  | .inr name => '{' :: (name.toList ++ ['}'])

/-- A piece in the text made from the template. -/
def pieceText (resolve : String → Option String) : Char ⊕ String → List Char
  | .inl c => [c]
  | .inr name => ((resolve name).getD "").toList

/-- From inside a token, the pieces begin with the token. -/
theorem exists_pieces (cs : List Char) (st : Option (List Char)) (hclosed : st.isSome → '}' ∈ cs) :
    ∃ pieces : List (Char ⊕ String),
      st.elim [] ('{' :: ·) ++ cs = pieces.flatMap pieceSource ∧
      tokenChars st cs = pieces.filterMap Sum.getRight? ∧
      ∀ resolve, renderChars resolve st cs = pieces.flatMap (pieceText resolve) := by
  induction cs generalizing st with
  | nil =>
    cases st with
    | none => exact ⟨[], by simp, by simp [tokenChars], by simp [renderChars]⟩
    | some name => simp at hclosed
  | cons c cs ih =>
    cases st with
    | none =>
      by_cases hopen : c = '{' ∧ '}' ∈ cs
      · obtain ⟨pieces, hsource, htokens, htext⟩ := ih (some []) fun _ => hopen.2
        exact ⟨pieces, by simpa [hopen.1] using hsource, by rw [tokenChars, if_pos hopen, htokens],
          fun resolve => by rw [renderChars, if_pos hopen, htext]⟩
      · obtain ⟨pieces, hsource, htokens, htext⟩ := ih none (by simp)
        exact ⟨.inl c :: pieces, by simpa [pieceSource] using hsource,
          by simpa [tokenChars, hopen, List.filterMap_cons] using htokens,
          fun resolve => by simp [renderChars, hopen, htext, pieceText]⟩
    | some name =>
      by_cases hclose : c = '}'
      · obtain ⟨pieces, hsource, htokens, htext⟩ := ih none (by simp)
        refine ⟨.inr (String.ofList name) :: pieces, ?_, by simp [tokenChars, hclose, htokens],
          fun resolve => by simp [renderChars, hclose, htext, pieceText]⟩
        simpa [pieceSource, hclose] using hsource
      · have hcs : '}' ∈ cs := by
          rcases List.mem_cons.mp (hclosed rfl) with h | h
          · exact absurd h.symm hclose
          · exact h
        obtain ⟨pieces, hsource, htokens, htext⟩ := ih (some (name ++ [c])) fun _ => hcs
        exact ⟨pieces, by simpa using hsource, by simpa [tokenChars, hclose] using htokens,
          fun resolve => by simp [renderChars, hclose, htext]⟩

/-- A template is made of characters and tokens; rendering replaces the tokens, in place. -/
theorem exists_expressionPieces (expression : String) : ∃ pieces : List (Char ⊕ String),
      expression.toList = pieces.flatMap pieceSource ∧
      expressionTokens expression = pieces.filterMap Sum.getRight? ∧
      ∀ resolve,
        (renderExpression expression resolve).toList = pieces.flatMap (pieceText resolve) := by
  obtain ⟨pieces, hsource, htokens, htext⟩ := exists_pieces expression.toList none (by simp)
  refine ⟨pieces, hsource, htokens, fun resolve => ?_⟩
  rw [renderExpression, String.toList_ofList, htext]

/-- A text is made of what its names resolve to. -/
theorem renderExpression_congr {expression : String} {resolve resolve' : String → Option String}
    (h : ∀ name ∈ expressionTokens expression, resolve name = resolve' name) :
    renderExpression expression resolve = renderExpression expression resolve' := by
  obtain ⟨pieces, -, htokens, htext⟩ := exists_expressionPieces expression
  rw [← String.toList_inj, htext, htext]
  refine List.flatMap_congr fun p hp => ?_
  cases p with
  | inl c => rfl
  | inr name =>
    have hname : name ∈ expressionTokens expression := by
      rw [htokens]
      exact List.mem_filterMap.mpr ⟨_, hp, rfl⟩
    rw [pieceText, pieceText, h name hname]

section

variable (printer : Printer) (entity : EntityDefinition)

/-- The text of a computed field over a document. -/
def computedText (c : ComputedSpec) (data : JsonObject) : String :=
  renderExpression c.expression fun name => (data.get name).map (computedTokenToString printer)

/-- Every computed field is the text of the document it is in. -/
def InStep (data : JsonObject) : Prop :=
  ∀ f ∈ entity.fields, ∀ c ∈ f.computed, data.get f.name = some (.str (computedText printer c data))

/-- The fields some computed field depends on. -/
def dependencies : List String :=
  entity.fields.flatMap fun f => (f.computed.map ComputedSpec.dependsOn).getD []

end

section

variable {platform : Platform} {printer : Printer} {entity : EntityDefinition} {c : ComputedSpec}
  {f : EntityField} {k : String}

theorem mem_computedFieldNames :
    k ∈ entity.computedFieldNames ↔ ∃ f ∈ entity.fields, ∃ c ∈ f.computed, f.name = k := by
  simp [EntityDefinition.computedFieldNames, Option.isSome_iff_exists, and_assoc]

theorem mem_dependencies (hf : f ∈ entity.fields) (hc : c ∈ f.computed) {name : String}
    (hname : name ∈ c.dependsOn) : name ∈ dependencies entity := by
  refine List.mem_flatMap.mpr ⟨f, hf, ?_⟩
  rw [Option.mem_def.mp hc]
  exact hname

theorem notMem_computedFieldNames (h : k ∉ entity.computedFieldNames) :
    ∀ f ∈ entity.fields, f.name = k → f.computed = none := fun f hf hname =>
  Option.eq_none_iff_forall_not_mem.mpr fun c hc =>
    h (mem_computedFieldNames.mpr ⟨f, hf, c, hc, hname⟩)

variable (h : validate entity = [])

section

include h

/-- What validation says of computed fields: they are texts, a text names its dependencies only, and
none of them is computed. -/
theorem computed_of_validate (hf : f ∈ entity.fields) (hc : c ∈ f.computed) :
    f.kind = .string ∧ (∀ name ∈ expressionTokens c.expression, name ∈ c.dependsOn) ∧
      ∀ name ∈ c.dependsOn, name ∉ entity.computedFieldNames := by
  have hissues := (validate_eq_nil h).2.1 f hf
  rw [computedIssues, Option.mem_def.mp hc] at hissues
  simp only [List.append_eq_nil_iff, List.flatMap_eq_nil_iff, issueIf_eq_nil] at hissues
  obtain ⟨⟨hkind, hdeps⟩, htokens⟩ := hissues
  refine ⟨by simpa using hkind.1.1, fun name hname => by simpa using htokens name hname,
    fun name hname hmem => ?_⟩
  have hdep := hdeps name hname
  unfold dependencyIssues at hdep
  split at hdep
  · cases hdep
  · rw [if_pos (List.contains_iff_mem.mpr hmem)] at hdep
    cases hdep

theorem notMem_computed_of_dependencies (hk : k ∈ dependencies entity) :
    k ∉ entity.computedFieldNames := by
  obtain ⟨f, hf, hk⟩ := List.mem_flatMap.mp hk
  cases hc : f.computed with
  | none =>
    rw [hc] at hk
    cases hk
  | some c =>
    rw [hc] at hk
    exact (computed_of_validate h hf hc).2.2 k hk

theorem computedText_congr (hf : f ∈ entity.fields) (hc : c ∈ f.computed) {data data' : JsonObject}
    (hagree : ∀ k ∈ dependencies entity, data'.get k = data.get k) :
    computedText printer c data' = computedText printer c data := by
  refine renderExpression_congr fun name hname => ?_
  have hdep := mem_dependencies hf hc ((computed_of_validate h hf hc).2.1 name hname)
  rw [hagree name hdep]

theorem InStep.congr {data data' : JsonObject} (hstep : InStep printer entity data)
    (hagree : ∀ k, k ∈ entity.computedFieldNames ∨ k ∈ dependencies entity →
        data'.get k = data.get k) :
    InStep printer entity data' := by
  intro f hf c hc
  have hname : f.name ∈ entity.computedFieldNames := mem_computedFieldNames.mpr ⟨f, hf, c, hc, rfl⟩
  rw [hagree f.name (.inl hname), hstep f hf c hc,
    computedText_congr h hf hc fun k hk => hagree k (.inr hk)]

/-- The field as the loop over the fields leaves it: later fields have other names, and no text
reads a computed field. -/
theorem get_foldl_recomputeField {fields : List EntityField}
    (hfields : ∀ f ∈ fields, f ∈ entity.fields) (hnodup : (fields.map EntityField.name).Nodup)
    (data : JsonObject) (hf : f ∈ fields) (hc : c ∈ f.computed) :
    (fields.foldl (recomputeField printer) data).get f.name =
      some (.str (computedText printer c data)) := by
  induction fields generalizing data with
  | nil => cases hf
  | cons g gs ih =>
    rw [List.map_cons, List.nodup_cons] at hnodup
    rw [List.foldl_cons]
    have hgs : ∀ f ∈ gs, f ∈ entity.fields := fun f hf => hfields f (List.mem_cons_of_mem _ hf)
    -- what a text reads is not what the loop writes
    have hkept : ∀ k ∈ dependencies entity, (recomputeField printer data g).get k = data.get k := by
      intro k hk
      have hplain := notMem_computed_of_dependencies h hk
      unfold recomputeField
      split
      · rfl
      · next cg hcg =>
        rw [JsonObject.get_set, if_neg]
        rintro rfl
        have hg := notMem_computedFieldNames hplain g (hfields g List.mem_cons_self) rfl
        rw [hg] at hcg
        cases hcg
    rcases List.mem_cons.mp hf with rfl | hf
    · have hlater : ∀ f' ∈ gs, f'.name = f.name → f'.computed = none :=
        fun f' hf' hname => absurd (List.mem_map.mpr ⟨f', hf', hname⟩) hnodup.1
      rw [get_foldl_recomputeField_of_not_computed hlater, recomputeField, Option.mem_def.mp hc]
      simp [computedText]
    · rw [ih hgs hnodup.2 _ hf, computedText_congr h (hgs f hf) hc hkept]

/-- In whatever order the fields are filled in, a computed field becomes its text over the document,
and the rest is kept. -/
theorem get_foldl_of_perm {fields : List EntityField} (hfields : fields.Perm entity.fields)
    (data : JsonObject) : (∀ f ∈ entity.fields, ∀ c ∈ f.computed,
      (fields.foldl (recomputeField printer) data).get f.name =
        some (.str (computedText printer c data))) ∧
    ∀ k, k ∉ entity.computedFieldNames →
      (fields.foldl (recomputeField printer) data).get k = data.get k := by
  have hnodup := (wellFormed_of_validate h).nodup_names
  refine ⟨fun f hf c hc => ?_, fun k hk => ?_⟩
  · exact get_foldl_recomputeField h (fun _ => hfields.mem_iff.mp)
      ((hfields.map _).nodup_iff.mpr hnodup) data (hfields.mem_iff.mpr hf) hc
  · exact get_foldl_recomputeField_of_not_computed
      (fun f hf => notMem_computedFieldNames hk f (hfields.mem_iff.mp hf)) data

theorem computedText_recomputeFields (hf : f ∈ entity.fields) (hc : c ∈ f.computed)
    (data : JsonObject) :
    computedText printer c (recomputeFields printer entity data) = computedText printer c data :=
  computedText_congr h hf hc fun k hk =>
    (get_foldl_of_perm h (.refl _) data).2 k (notMem_computed_of_dependencies h hk)

theorem inStep_recomputeFields (data : JsonObject) :
    InStep printer entity (recomputeFields printer entity data) := by
  intro f hf c hc
  rw [computedText_recomputeFields h hf hc]
  exact (get_foldl_of_perm h (.refl _) data).1 f hf c hc

theorem notMem_computed_of_system (hk : k ∈ systemFieldNames entity) :
    k ∉ entity.computedFieldNames := by
  intro hcomputed
  obtain ⟨f, hf, c, hc, hname⟩ := mem_computedFieldNames.mp hcomputed
  rw [computed_eq_none_of_system h hk f hf hname] at hc
  cases hc

end

/-- Filling in computed fields a second time changes nothing, the order of the fields does not
matter, a text depends on its dependencies only, and it is the template with the tokens replaced. -/
theorem recomputeFields_well_defined (printer : Printer) (entity : EntityDefinition)
    (h : validate entity = []) (data : JsonObject) :
    (∀ k, (recomputeFields printer entity (recomputeFields printer entity data)).get k =
      (recomputeFields printer entity data).get k) ∧
    (∀ fields : List EntityField, fields.Perm entity.fields → ∀ k,
      (recomputeFields printer { entity with fields } data).get k =
        (recomputeFields printer entity data).get k) ∧
    (∀ f ∈ entity.fields, ∀ c ∈ f.computed, ∀ data' : JsonObject,
      (∀ name ∈ c.dependsOn, data'.get name = data.get name) →
      (recomputeFields printer entity data').get f.name =
        (recomputeFields printer entity data).get f.name) ∧
    ∀ expression, ∃ pieces : List (Char ⊕ String),
      expression.toList = pieces.flatMap pieceSource ∧
      expressionTokens expression = pieces.filterMap Sum.getRight? ∧
      ∀ resolve,
        (renderExpression expression resolve).toList = pieces.flatMap (pieceText resolve) := by
  have hspec := @get_foldl_of_perm printer _ h _ (.refl _)
  refine ⟨fun k => ?_, fun fields hfields k => ?_, fun f hf c hc data' hagree => ?_,
    exists_expressionPieces⟩
  · by_cases hk : k ∈ entity.computedFieldNames
    · obtain ⟨f, hf, c, hc, rfl⟩ := mem_computedFieldNames.mp hk
      rw [recomputeFields, (hspec _).1 f hf c hc, computedText_recomputeFields h hf hc,
        recomputeFields, (hspec data).1 f hf c hc]
    · exact (hspec _).2 k hk
  · by_cases hk : k ∈ entity.computedFieldNames
    · obtain ⟨f, hf, c, hc, rfl⟩ := mem_computedFieldNames.mp hk
      exact ((get_foldl_of_perm h hfields data).1 f hf c hc).trans ((hspec data).1 f hf c hc).symm
    · exact ((get_foldl_of_perm h hfields data).2 k hk).trans ((hspec data).2 k hk).symm
  · have htext : computedText printer c data' = computedText printer c data := by
      refine renderExpression_congr fun name hname => ?_
      rw [hagree name ((computed_of_validate h hf hc).2.1 name hname)]
    rw [recomputeFields, (hspec data').1 f hf c hc, htext, recomputeFields,
      (hspec data).1 f hf c hc]

/-! ## Sequences of writes -/

/-- What must not happen for computed fields to stay in step. -/
def SequenceEvent.KeepsComputed : SequenceEvent platform entity → Prop
  | .created rawData _ => ∀ w ∈ entity.workflow, w.stateField ∈ dependencies entity →
      (rawData.get w.stateField).isSome
  | .wrote w => ∀ k, k ∈ entity.computedFieldNames ∨ k ∈ dependencies entity → w.KeepsMember k
  | .system patch _ => ∀ k ∈ dependencies entity, patch.get k = none

/-- Computed fields are in step, and none of them depends on a system field that has a value. -/
structure StepInv (printer : Printer) (entity : EntityDefinition) (row : StoredRecord) : Prop where
  inStep : InStep printer entity row.data
  unset : ∀ k ∈ systemFieldNames entity, k ∈ dependencies entity → row.data.get k = none

section

include h

theorem stepInv_createRow {ctx : CallContext} {rawData : JsonObject} {newID : Uuid} {now : ℤ}
    {row : StoredRecord}
    (hkeeps : (SequenceEvent.created rawData row : SequenceEvent platform entity).KeepsComputed)
    (hrow : createRow platform entity ctx rawData newID now = .ok row) :
    StepInv platform.printer entity row := by
  refine ⟨?_, fun k hk _ => get_created h hrow hk⟩
  have hwf := wellFormed_of_validate h
  obtain ⟨-, -, data, hdata, hrow, -⟩ := createRow_spec hrow
  have hstep : InStep platform.printer entity (recomputeFields platform.printer entity data) :=
    inStep_recomputeFields h data
  rw [hrow]
  refine hstep.congr h fun k hk => ?_
  rw [get_initState]
  cases hget : JsonObject.get (recomputeFields platform.printer entity data) k with
  | some v => rfl
  | none =>
    cases hw : entity.workflow with
    | none => rfl
    | some w =>
      rw [Option.bind_some, if_neg, Option.or_none]
      rintro rfl
      rcases hk with hk | hk
      · -- the state itself is computed
        obtain ⟨f, hf, c, hc, hname⟩ := mem_computedFieldNames.mp hk
        rw [← hname, hstep f hf c hc] at hget
        cases hget
      · have hgiven := hkeeps w hw hk
        rw [get_recomputeFields_of_not_computed
          (notMem_computedFieldNames (notMem_computed_of_dependencies h hk)),
          get_of_validatePayload hwf.nodup_names hdata, Option.map_eq_none_iff] at hget
        rw [hget] at hgiven
        cases hgiven

theorem stepInv_written {w : Write platform entity} (hkeeps : (SequenceEvent.wrote w).KeepsComputed)
    (heffect : WriteEffect w w.replaced.data) (hrow : StepInv platform.printer entity w.replaced) :
    StepInv platform.printer entity w.written := by
  have hwf := wellFormed_of_validate h
  cases heffect with
  | update rawData data hop hsystem hdata hwritten =>
    have hset : ∀ k ∈ systemFieldNames entity, w.written.data.get k = w.replaced.data.get k := by
      intro k hk
      rw [hwritten, get_keepSystemFields, if_pos hk]
    refine ⟨?_, fun k hk hdep => (hset k hk).trans (hrow.unset k hk hdep)⟩
    refine (inStep_recomputeFields h data).congr h fun k hk => ?_
    by_cases hsys : k ∈ systemFieldNames entity
    · have hdep := hk.resolve_left (notMem_computed_of_system h hsys)
      have hnone := hrow.unset k hsys hdep
      rw [hset k hsys, hnone, get_recomputeFields_of_not_computed
        (computed_eq_none_of_system h hsys), get_of_validatePayload hwf.nodup_names hdata,
        get_keepState, JsonObject.get_merge, get_eq_none_of_rejectSystemFields hsystem hsys, hnone]
      simp
    · rw [hwritten, get_keepSystemFields, if_neg hsys]
  | transition action payload wf t nextData hop hwf' ht hfind hsource hdata hwritten =>
    have hsame : ∀ k, k ∈ entity.computedFieldNames ∨ k ∈ dependencies entity →
        w.written.data.get k = w.replaced.data.get k := fun k hk => by
      rw [hwritten, get_transitioned hwf.nodup_names hdata]
      exact hkeeps k hk action payload wf t.source t hop hwf' hsource hfind
    exact ⟨hrow.inStep.congr h hsame,
      fun k hk hdep => (hsame k (.inr hdep)).trans (hrow.unset k hk hdep)⟩
  | delete hop hwritten =>
    refine ⟨?_, ?_⟩ <;> rw [hwritten]
    · exact hrow.inStep
    · exact hrow.unset

theorem stepInv_withSystemFields {fields patch : JsonObject} {row : StoredRecord}
    (hkeeps : (SequenceEvent.system patch row : SequenceEvent platform entity).KeepsComputed)
    (hpatch : systemPatch platform entity fields = .ok patch)
    (hrow : StepInv platform.printer entity row) :
    StepInv platform.printer entity (withSystemFields platform row patch) := by
  have hsame : ∀ k, k ∈ entity.computedFieldNames ∨ k ∈ dependencies entity →
      (withSystemFields platform row patch).data.get k = row.data.get k := by
    intro k hk
    have hnone : patch.get k = none := by
      rcases hk with hk | hk
      · by_contra hsome
        exact notMem_computed_of_system h (mem_systemFieldNames_of_systemPatch
          (wellFormed_of_validate h) hpatch (Option.isSome_iff_ne_none.mpr hsome)) hk
      · exact hkeeps k hk
    rw [withSystemFields, JsonObject.get_merge, hnone, Option.none_or]
  exact ⟨hrow.inStep.congr h hsame,
    fun k hk hdep => (hsame k (.inr hdep)).trans (hrow.unset k hk hdep)⟩

end

/-- In every sequence of writes from an empty table that meets the condition, every computed field
of every record is the text of the record's own data. -/
theorem computed_in_step (h : validate entity = []) {db₀ db : Database}
    {events : List (SequenceEvent platform entity)} (hempty : db₀.records.rows = [])
    (hrun : Run (SequenceStep platform entity) db₀ events db)
    (hkeeps : ∀ e ∈ events, e.KeepsComputed) :
    ∀ row ∈ db.records.rows, InStep platform.printer entity row.data := by
  have hinv := rows_of_sequence (I := StepInv platform.printer entity) hrun hkeeps
    (by simp [hempty])
    (fun _ _ _ _ _ hC hrow => stepInv_createRow h hC hrow)
    (fun _ hC heffect hrow => stepInv_written h hC heffect hrow)
    (fun _ _ _ hC hpatch hrow => stepInv_withSystemFields h hC hpatch hrow)
  exact fun row hrow => (hinv row hrow).inStep

end

/-! ## A person with a label -/

def labelField : EntityField where
  name := "label"
  kind := .string
  computed := some { expression := "\x7bfirst\x7d", dependsOn := ["first"] }

def personEntity : EntityDefinition where
  name := "crm.people"
  tableName := "crm.people"
  fields := [{ name := "state", kind := .string }, { name := "first", kind := .string },
    labelField]
  workflow := some {
    stateField := "state", initialState := "active"
    transitions := [{ action := "retire", source := "active", target := "retired" }] }

def named (first : String) : JsonObject := [("first", .str first)]

theorem recomputeFields_well_defined_label : validate personEntity = [] ∧
    (recomputeFields plainPlatform.printer personEntity
      (recomputeFields plainPlatform.printer personEntity (named "Ann"))).get "label" =
        some (.str "Ann") := by
  have hvalid : validate personEntity = [] := by decide
  have hdefined := recomputeFields_well_defined plainPlatform.printer personEntity hvalid
    (named "Ann")
  exact ⟨hvalid, (hdefined.1 "label").trans rfl⟩

def personCall (op : Operation) : Call where
  ctx := keyAdmin
  id := 7
  expectedVersion := 1
  op := op

def noRecords : Database where
  records := .empty

/-- An update fills the label in again. -/
theorem computed_in_step_renamed : validate personEntity = [] ∧
    ∃ events db, Run (SequenceStep plainPlatform personEntity) noRecords events db ∧
      (∀ e ∈ events, e.KeepsComputed) ∧ ∃ row ∈ db.records.rows,
        row.data.get "label" = some (.str "Bea") ∧
        InStep plainPlatform.printer personEntity row.data := by
  have hvalid : validate personEntity = [] := by decide
  have hrun : ∃ events db, Run (SequenceStep plainPlatform personEntity) noRecords events db ∧
      (∀ e ∈ events, e.KeepsComputed) ∧
      ∃ row ∈ db.records.rows, row.data.get "label" = some (.str "Bea") := by
    refine ⟨_, _, .snoc (.snoc (.nil _) (.create keyAdmin (named "Ann") 7 0 rfl rfl rfl))
      (.write (personCall (.update (named "Bea"))) commitEnv rfl rfl), ?_, _,
      List.mem_singleton.mpr rfl, rfl⟩
    intro e he
    simp only [List.nil_append, List.cons_append, List.mem_cons, List.not_mem_nil, or_false] at he
    rcases he with rfl | rfl
    · rintro w ⟨⟩ hdep
      exact absurd hdep (by decide)
    · intro k _ action payload wf source t hop
      cases hop
  obtain ⟨events, db, hrun, hkeeps, row, hrow, hlabel⟩ := hrun
  exact ⟨hvalid, events, db, hrun, hkeeps, row, hrow, hlabel,
    computed_in_step hvalid rfl hrun hkeeps row hrow⟩

/-- A transition whose payload renames the person leaves the label behind. -/
theorem transition_leaves_computed_behind : validate personEntity = [] ∧
    ∃ events db, Run (SequenceStep plainPlatform personEntity) noRecords events db ∧
      ∃ row ∈ db.records.rows, row.data.get "first" = some (.str "Bea") ∧
        row.data.get "label" = some (.str "Ann") ∧
        ¬InStep plainPlatform.printer personEntity row.data := by
  refine ⟨by decide, _, _, .snoc (.snoc (.nil _) (.create keyAdmin (named "Ann") 7 0 rfl rfl rfl))
    (.write (personCall (.transition "retire" (some (named "Bea")))) commitEnv rfl rfl), _,
    List.mem_singleton.mpr rfl, rfl, rfl, fun hstep => ?_⟩
  have hlabel := hstep labelField (by simp [personEntity]) _ rfl
  revert hlabel
  decide

end Metap.Crud
