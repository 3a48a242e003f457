import Metap.Reconciler.Execute

/-!
# Running a plan

A plan is made from a view of the table and run on the table as it is by then.  `Fits` says when the
two go together, `Executable` what the statements need beyond that: `execAll_phases` takes a plan
that fits through its phases, exactly when it is executable, and `matches_of_execAll` says that
afterwards nothing is left to plan.
-/

namespace Metap.Reconciler

open AssocList

/-! ## Nothing left to plan -/

/-- The actual schema has all that is desired, as it is desired, and no index, foreign key or unique
constraint beyond that. -/
structure Matches (desired actual : PhysicalSchema) : Prop where
  columns : ∀ n ∈ desired.columns, n ∈ actual.columns
  synced : ∀ n ∈ desired.columns, syncSpec desired actual n = none
  indexes : ∀ n spec, desired.indexes.lookup n = some spec →
    ∃ idx, actual.indexes.lookup n = some idx ∧ idx.valid = true ∧ indexMatches idx spec = true
  indexes_only : ∀ n ∈ actual.indexes, n ∈ desired.indexes ∨ n ∈ actual.uniques
  foreignKeys : ∀ n spec, desired.foreignKeys.lookup n = some spec →
    ∃ fk, actual.foreignKeys.lookup n = some fk ∧ fkMatches fk spec = true ∧ fk.validated = true
  foreignKeys_only : ∀ n ∈ actual.foreignKeys, n ∈ desired.foreignKeys
  uniques : ∀ n spec, desired.uniques.lookup n = some spec →
    ∃ uq, actual.uniques.lookup n = some uq ∧ uq.columns = spec.columns
  uniques_only : ∀ n ∈ actual.uniques, n ∈ desired.uniques

section

variable {α : Type} {m : Specs α} {p : String → Bool}

theorem filter_sortedKeys_eq_nil : (sortedKeys m).filter p = [] ↔ ∀ n ∈ m, p n = false := by
  simp [List.filter_eq_nil_iff, mem_sortedKeys]

theorem entriesOf_filter_eq_nil :
    entriesOf m ((sortedKeys m).filter p) = [] ↔ ∀ n ∈ m, p n = false := by
  rw [← filter_sortedKeys_eq_nil]
  refine ⟨fun h => ?_, fun h => by rw [h]; rfl⟩
  refine List.eq_nil_iff_forall_not_mem.mpr fun n hn => ?_
  obtain ⟨a, ha⟩ := Option.isSome_iff_exists.mp
    (AList.lookup_isSome.mpr (mem_sortedKeys.mp (List.mem_of_mem_filter hn)))
  have hmem : (n, a) ∈ entriesOf m ((sortedKeys m).filter p) := mem_entriesOf.mpr ⟨hn, ha⟩
  rw [h] at hmem
  cases hmem

theorem mem_iff_lookup {n : String} : n ∈ m ↔ ∃ a, m.lookup n = some a := by
  rw [← AList.lookup_isSome, Option.isSome_iff_exists]

end

/-- Everything wanted is there and unchanged. -/
theorem forall_unchanged_iff {α : Type} (desired actual : Specs α) (bad : α → α → Bool) :
    (∀ n ∈ desired, n ∈ actual ∧ ((desired.lookup n).any fun spec =>
        (actual.lookup n).any fun old => bad old spec) = false) ↔
      ∀ n spec, desired.lookup n = some spec →
        ∃ old, actual.lookup n = some old ∧ bad old spec = false := by
  constructor
  · intro h n spec hspec
    obtain ⟨hmem, hsame⟩ := h n (mem_iff_lookup.mpr ⟨spec, hspec⟩)
    obtain ⟨old, hold⟩ := mem_iff_lookup.mp hmem
    exact ⟨old, hold, by simpa [hspec, hold] using hsame⟩
  · intro h n hn
    obtain ⟨spec, hspec⟩ := mem_iff_lookup.mp hn
    obtain ⟨old, hold, hsame⟩ := h n spec hspec
    exact ⟨mem_iff_lookup.mpr ⟨old, hold⟩, by simp [hspec, hold, hsame]⟩

theorem phases_eq_nil_iff {desired actual : PhysicalSchema} :
    phases desired actual = [] ↔ Matches desired actual := by
  have hindex := forall_unchanged_iff desired.indexes actual.indexes
    fun idx spec => !idx.valid || !indexMatches idx spec
  have hfk := forall_unchanged_iff desired.foreignKeys actual.foreignKeys
    fun fk spec => !fkMatches fk spec
  have huq := forall_unchanged_iff desired.uniques actual.uniques
    fun uq spec => uq.columns ≠ spec.columns
  simp only [phases, List.append_eq_nil_iff, List.map_eq_nil_iff, addedColumns, syncedColumns,
    droppedFks, droppedUniques, droppedIndexes, builtIndexes, addedUniques, addedFks, validatedFks,
    entriesOf_filter_eq_nil, filter_sortedKeys_eq_nil, List.filterMap_eq_nil_iff, mem_sortedKeys,
    Bool.or_eq_false_iff, decide_eq_false_iff_not, not_and_or, not_not]
  constructor
  · rintro ⟨hadd, hsync, -, ⟨-, hfks⟩, ⟨-, huqs⟩, ⟨-, hidxs⟩, hbuild, haddUq, -, hvalidate⟩
    refine ⟨hadd, hsync, fun n spec hn => ?_, hidxs, fun n spec hn => ?_, hfks, fun n spec hn => ?_,
      huqs⟩
    · obtain ⟨idx, hidx, hgood⟩ := hindex.mp hbuild n spec hn
      exact ⟨idx, hidx, by simpa using hgood⟩
    · obtain ⟨fk, hfk, hgood⟩ := hfk.mp (fun n hn => (hvalidate n hn).1) n spec hn
      have hvalid := (hvalidate n (mem_iff_lookup.mpr ⟨spec, hn⟩)).2
      rw [hfk] at hvalid
      exact ⟨fk, hfk, by simpa using hgood, by simpa using hvalid⟩
    · obtain ⟨uq, huq, hgood⟩ := huq.mp haddUq n spec hn
      exact ⟨uq, huq, by simpa using hgood⟩
  · intro h
    have hindexes := hindex.mpr fun n spec hn =>
      (h.indexes n spec hn).imp fun idx hidx => ⟨hidx.1, by simp [hidx.2]⟩
    have hfks := hfk.mpr fun n spec hn =>
      (h.foreignKeys n spec hn).imp fun fk hfk => ⟨hfk.1, by simp [hfk.2]⟩
    have huqs := huq.mpr fun n spec hn =>
      (h.uniques n spec hn).imp fun uq huq => ⟨huq.1, by simp [huq.2]⟩
    refine ⟨h.columns, h.synced, h.synced, ⟨fun n hn => (hfks n hn).2, h.foreignKeys_only⟩,
      ⟨fun n hn => (huqs n hn).2, h.uniques_only⟩, ⟨fun n hn => (hindexes n hn).2, h.indexes_only⟩,
      hindexes, huqs, hfks, fun n hn => ⟨hfks n hn, ?_⟩⟩
    obtain ⟨spec, hspec⟩ := mem_iff_lookup.mp hn
    obtain ⟨fk, hfk, -, hvalid⟩ := h.foreignKeys n spec hspec
    simp [hfk, hvalid]

/-! ## What a plan needs of the table it is run on -/

/-- What a compiled schema looks like. -/
structure Desired (desired : PhysicalSchema) : Prop where
  framework : ∀ n ∈ frameworkColumnNames, n ∈ desired.columns
  origin : ∀ n spec, desired.columns.lookup n = some spec →
    spec.origin = if n ∈ frameworkColumnNames then .framework else .generated n true
  /-- A unique index is partial. -/
  unique_where : ∀ n spec, desired.indexes.lookup n = some spec → spec.unique = true →
    spec.whereClause ≠ ""
  fk_column : ∀ n spec, desired.foreignKeys.lookup n = some spec → spec.column ∈ desired.columns
  uniques : desired.uniques = ∅

/-- A plan made from a view of the table fits the table it is run on, when what it leaves alone is
there as desired and what it does not know of is not in its way.  The view need not be that of the
table: the table may have changed since. -/
structure Fits (desired view : PhysicalSchema) (db : Database) (t : Table) : Prop where
  columns : ∀ n ∈ desired.columns, n ∈ view.columns → n ∈ t.columns
  source : ∀ n s, syncSpec desired view n = some s → s.sourceField = n
  synced : ∀ n ∈ desired.columns, n ∉ frameworkColumnNames → syncSpec desired view n = none →
    db.completed (backfillOpID desired.table n) = true ∧ n ∈ t.triggers
  uniques : ∀ n ∈ t.uniques, n ∈ view.uniques
  index_matches : ∀ n spec idx, desired.indexes.lookup n = some spec →
    t.indexes.lookup n = some idx → n ∉ t.uniques → indexChanged desired view n = false →
    idx.valid = true ∧ indexMatches idx spec = true
  index_kept : ∀ n ∈ desired.indexes, n ∈ view.indexes → indexChanged desired view n = false →
    n ∈ t.indexes ∧ n ∉ t.uniques
  index_dropped : ∀ n ∈ t.indexes, n ∉ desired.indexes → n ∉ t.uniques →
    n ∈ view.indexes ∧ n ∉ view.uniques
  fk_kept : ∀ n spec, desired.foreignKeys.lookup n = some spec → n ∈ view.foreignKeys →
    fkChanged desired view n = false → ∃ fk, t.foreignKeys.lookup n = some fk ∧
      fkMatches fk spec = true ∧ (n ∈ validatedFks desired view ∨ fk.validated = true)
  fk_dropped : ∀ n ∈ t.foreignKeys, n ∉ desired.foreignKeys →
    n ∈ view.foreignKeys ∨ n ∈ view.uniques
  /-- No two constraints of the view share a name. -/
  apart : ∀ n ∈ view.foreignKeys, n ∉ view.uniques

/-- What a plan needs beyond that. -/
structure Executable (desired view : PhysicalSchema) (db : Database) (t : Table) : Prop where
  /-- A row that is backfilled fires no trigger whose column is missing. -/
  triggers : (∃ s ∈ syncedColumns desired view,
      db.rowsLeft (backfillOpID desired.table s.column) = true) →
    ∀ field ∈ t.triggers, field ∈ t.columns ∨ field ∈ desired.columns
  /-- An index is built from columns that are there or desired. -/
  index_columns : ∀ n ∈ builtIndexes desired view, ∀ spec, desired.indexes.lookup n = some spec →
    ∀ column ∈ spec.columns, column ∈ t.columns ∨ column ∈ desired.columns
  /-- A foreign key that is added without dropping one of its name is not there. -/
  fresh : ∀ n ∈ desired.foreignKeys, n ∉ view.foreignKeys → n ∉ view.uniques → n ∉ t.foreignKeys

/-! ## The table after each stretch of a plan -/

section

variable (pg : Rendering) (desired view : PhysicalSchema)

/-- With the missing columns and the sync triggers. -/
def prepare (t : Table) : Table :=
  { t with
    columns := addAll t.columns
      ((entriesOf desired.columns (addedColumns desired view)).map storeColumn)
    triggers := insertAll t.triggers ((syncedColumns desired view).map SyncSpec.trigger) }

/-- Without the constraints of the dropped foreign keys and unique constraints. -/
def dropped : List String := droppedFks desired view ++ droppedUniques desired view

/-- Without what is dropped. -/
def clear (t : Table) : Table :=
  let t' := (dropped desired view).foldl Table.dropConstraint t
  { t' with indexes := eraseAll t'.indexes (droppedIndexes desired view) }

/-- With the indexes and the foreign keys. -/
def build (t : Table) : Table :=
  { t with
    indexes := addAll t.indexes
      ((entriesOf desired.indexes (builtIndexes desired view)).map pg.storeEntry)
    foreignKeys := (validatedFks desired view).foldl validateFk (insertAll t.foreignKeys
      ((entriesOf desired.foreignKeys (addedFks desired view)).map unvalidatedEntry)) }

/-- The table a plan leads to. -/
def planned (t : Table) : Table :=
  build pg desired view (clear desired view (prepare desired view t))

/-- The ledger entries of the backfills. -/
def backfillOpIDs : List String :=
  (syncedColumns desired view).map fun s => backfillOpID desired.table s.column

end

section

variable {pg : Rendering} {desired view : PhysicalSchema} {db db' : Database} {t : Table}
  {n : String} {s : SyncSpec}

/-- Where the source of a synchronised column comes from. -/
theorem syncSpec_eq_some (h : syncSpec desired view n = some s) :
    s.column = n ∧ ∃ spec, desired.columns.lookup n = some spec ∧
      ((∃ b, spec.origin = .generated s.sourceField b) ∨
        ∃ actual, view.columns.lookup n = some actual ∧
          actual.origin = .generated s.sourceField false) := by
  unfold syncSpec at h
  split at h
  · cases h
  · next spec hspec =>
    split at h
    · split at h
      · next sourceField b horigin =>
        cases h
        exact ⟨rfl, spec, hspec, .inl ⟨b, horigin⟩⟩
      · cases h
    · next actual hactual =>
      split at h
      · next sourceField horigin =>
        cases h
        exact ⟨rfl, spec, hspec, .inr ⟨actual, hactual, horigin⟩⟩
      · cases h

theorem column_of_syncSpec (h : syncSpec desired view n = some s) :
    s.column = n ∧ n ∈ desired.columns := by
  obtain ⟨hcolumn, spec, hspec, -⟩ := syncSpec_eq_some h
  exact ⟨hcolumn, mem_iff_lookup.mpr ⟨spec, hspec⟩⟩

theorem mem_syncedColumns :
    s ∈ syncedColumns desired view ↔ ∃ n, syncSpec desired view n = some s := by
  simp only [syncedColumns, List.mem_filterMap, mem_sortedKeys]
  exact exists_congr fun n => and_iff_right_of_imp fun hspec => (column_of_syncSpec hspec).2

theorem backfillOpID_injective {table a b : String}
    (h : backfillOpID table a = backfillOpID table b) : a = b := by
  rw [backfillOpID, backfillOpID, String.append_right_inj] at h
  exact h

theorem nodup_backfillOpIDs : (backfillOpIDs desired view).Nodup := by
  have hcolumns : ((syncedColumns desired view).map SyncSpec.column).Nodup := by
    refine (nodup_sortedKeys desired.columns).sublist ?_
    unfold syncedColumns
    induction sortedKeys desired.columns with
    | nil => exact List.Sublist.refl _
    | cons n names ih =>
      rw [List.filterMap_cons]
      cases hspec : syncSpec desired view n with
      | none => exact ih.cons n
      | some s =>
        rw [List.map_cons, (column_of_syncSpec hspec).1]
        exact ih.cons_cons n
  have hids : backfillOpIDs desired view =
      ((syncedColumns desired view).map SyncSpec.column).map (backfillOpID desired.table) := by
    rw [backfillOpIDs, List.map_map]
    rfl
  rw [hids]
  exact hcolumns.map fun a b => backfillOpID_injective

theorem mem_addedColumns :
    n ∈ addedColumns desired view ↔ n ∈ desired.columns ∧ n ∉ view.columns := by
  simp [addedColumns, mem_sortedKeys]

theorem mem_columns_prepare (h : Fits desired view db t) :
    n ∈ (prepare desired view t).columns ↔ n ∈ t.columns ∨ n ∈ desired.columns := by
  have hkeys : ((entriesOf desired.columns (addedColumns desired view)).map storeColumn).map
      Prod.fst = (entriesOf desired.columns (addedColumns desired view)).map Prod.fst := by
    rw [List.map_map]
    rfl
  rw [prepare, mem_addAll, hkeys, mem_keys_entriesOf, mem_addedColumns]
  constructor
  · rintro (hold | ⟨-, hwanted⟩)
    · exact .inl hold
    · exact .inr hwanted
  · rintro (hold | hwanted)
    · exact .inl hold
    · by_cases hview : n ∈ view.columns
      · exact .inl (h.columns n hwanted hview)
      · exact .inr ⟨⟨hwanted, hview⟩, hwanted⟩

theorem mem_triggers_prepare (h : Fits desired view db t) : n ∈ (prepare desired view t).triggers ↔
      (∃ s, syncSpec desired view n = some s) ∨ n ∈ t.triggers := by
  rw [prepare, mem_insertAll, List.map_map, List.mem_map]
  refine or_congr_left ⟨?_, ?_⟩
  · rintro ⟨s, hs, rfl⟩
    obtain ⟨column, hspec⟩ := mem_syncedColumns.mp hs
    rw [show (Prod.fst ∘ SyncSpec.trigger) s = column from h.source column s hspec]
    exact ⟨s, hspec⟩
  · exact fun ⟨s, hspec⟩ => ⟨s, mem_syncedColumns.mpr ⟨n, hspec⟩, h.source n s hspec⟩

theorem mem_of_any {α : Type} {desired actual : Specs α} {bad : α → α → Bool}
    (h : ((desired.lookup n).any fun spec =>
    (actual.lookup n).any fun old => bad old spec) = true) : n ∈ desired ∧ n ∈ actual := by
  obtain ⟨spec, hspec, hactual⟩ := (Option.any_eq_true _ _).mp h
  obtain ⟨old, hold, -⟩ := (Option.any_eq_true _ _).mp hactual
  exact ⟨mem_iff_lookup.mpr ⟨spec, hspec⟩, mem_iff_lookup.mpr ⟨old, hold⟩⟩

theorem mem_dropped (hd : Desired desired) : n ∈ dropped desired view ↔
    fkChanged desired view n = true ∨ (n ∈ view.foreignKeys ∧ n ∉ desired.foreignKeys) ∨
      n ∈ view.uniques := by
  have hnone : ∀ n, n ∉ desired.uniques := by
    intro n
    rw [hd.uniques]
    exact AList.notMem_empty n
  simp only [dropped, droppedFks, droppedUniques, List.mem_append, List.mem_filter, mem_sortedKeys,
    decide_eq_true_eq, hnone, false_and, false_or, not_false_eq_true, and_true, or_assoc]
  exact or_congr_left ⟨fun h => h.2, fun h => ⟨(mem_of_any h).1, h⟩⟩

/-- Of what the view has no foreign key of, unique constraints are dropped. -/
theorem mem_dropped_of_notMem (hd : Desired desired) (hview : n ∉ view.foreignKeys) :
    n ∈ dropped desired view ↔ n ∈ view.uniques := by
  rw [mem_dropped hd, or_iff_right fun h : fkChanged desired view n = true =>
    hview (mem_of_any h).2, or_iff_right fun h => hview h.1]

theorem mem_droppedIndexes : n ∈ droppedIndexes desired view ↔
    indexChanged desired view n = true ∨
      n ∈ view.indexes ∧ n ∉ desired.indexes ∧ n ∉ view.uniques := by
  simp only [droppedIndexes, List.mem_append, List.mem_filter, mem_sortedKeys, decide_eq_true_eq]
  exact or_congr_left ⟨fun h => h.2, fun h => ⟨(mem_of_any h).1, h⟩⟩

theorem nodup_droppedIndexes : (droppedIndexes desired view).Nodup := by
  refine List.nodup_append.mpr ⟨(nodup_sortedKeys _).filter _, (nodup_sortedKeys _).filter _, ?_⟩
  rintro a ha b hb rfl
  simp only [List.mem_filter, mem_sortedKeys, decide_eq_true_eq] at ha hb
  exact hb.2.1 ha.1

theorem mem_builtIndexes : n ∈ builtIndexes desired view ↔
    n ∈ desired.indexes ∧ (n ∉ view.indexes ∨ indexChanged desired view n = true) := by
  simp [builtIndexes, mem_sortedKeys]

theorem mem_addedFks : n ∈ addedFks desired view ↔
    n ∈ desired.foreignKeys ∧ (n ∉ view.foreignKeys ∨ fkChanged desired view n = true) := by
  simp [addedFks, mem_sortedKeys]

theorem mem_validatedFks_of_added (h : n ∈ addedFks desired view) :
    n ∈ validatedFks desired view := by
  obtain ⟨hwanted, hadded⟩ := mem_addedFks.mp h
  simp only [validatedFks, List.mem_filter, mem_sortedKeys, Bool.or_eq_true, decide_eq_true_eq]
  exact ⟨hwanted, .inl hadded⟩

theorem nodup_validatedFks : (validatedFks desired view).Nodup := (nodup_sortedKeys _).filter _

theorem mem_of_validated (h : n ∈ validatedFks desired view) : n ∈ desired.foreignKeys :=
  mem_sortedKeys.mp (List.mem_of_mem_filter h)

theorem clear_frame (desired view : PhysicalSchema) (t : Table) :
    (clear desired view t).columns = t.columns ∧ (clear desired view t).triggers = t.triggers := by
  obtain ⟨hcolumns, htriggers, -⟩ := dropConstraints_spec (dropped desired view) t
  exact ⟨hcolumns, htriggers⟩

theorem lookup_indexes_build (t : Table) (n : String) :
    (build pg desired view t).indexes.lookup n = (t.indexes.lookup n).or
      (if n ∈ builtIndexes desired view then (desired.indexes.lookup n).map pg.storeIndex
        else none) := by
  refine (lookup_addAll _ _ n).trans (congrArg _ ?_)
  refine (lookup_map_val pg.storeIndex _ n).trans ?_
  rw [lookup_entriesOf]
  split <;> rfl

theorem lookup_foreignKeys_build (t : Table) (n : String) :
    (build pg desired view t).foreignKeys.lookup n = if n ∈ addedFks desired view then
        (desired.foreignKeys.lookup n).map fun spec => spec.unvalidated.asValidated
      else if n ∈ validatedFks desired view then (t.foreignKeys.lookup n).map FkSpec.asValidated
      else t.foreignKeys.lookup n := by
  have hadded : (insertAll t.foreignKeys ((entriesOf desired.foreignKeys
      (addedFks desired view)).map unvalidatedEntry)).lookup n =
      if n ∈ addedFks desired view then (desired.foreignKeys.lookup n).map FkSpec.unvalidated
      else t.foreignKeys.lookup n := by
    rw [lookup_insertAll]
    · rw [show unvalidatedEntry = fun e : String × FkSpec => (e.1, e.2.unvalidated) from rfl,
        lookup_map_val, lookup_entriesOf]
      split
      · next hmem =>
        obtain ⟨spec, hspec⟩ := mem_iff_lookup.mp (mem_addedFks.mp hmem).1
        rw [hspec]
        rfl
      · rfl
    · rw [List.map_map]
      exact nodup_keys_entriesOf ((nodup_sortedKeys _).filter _)
  refine (lookup_validateAll nodup_validatedFks _ n).trans ?_
  rw [hadded]
  by_cases hmem : n ∈ addedFks desired view
  · rw [if_pos (mem_validatedFks_of_added hmem), if_pos hmem, if_pos hmem, Option.map_map]
    rfl
  · rw [if_neg hmem, if_neg hmem]

/-! ## Running a plan -/

theorem completed_completeAll (db : Database) (opIDs : List String) (opID : String) :
    (db.completeAll opIDs).completed opID = true ↔ opID ∈ opIDs ∨ db.completed opID = true := by
  induction opIDs generalizing db with
  | nil => simp [Database.completeAll]
  | cons id opIDs ih =>
    rw [Database.completeAll, List.foldl_cons, ← Database.completeAll, ih, List.mem_cons]
    by_cases hid : opID = id
    · simp [hid, Database.complete]
    · simp [hid, Database.complete]

theorem table_withTable (db : Database) (t : Table) : (db.withTable t).table = some t := rfl

theorem completeAll_withTable (db : Database) (t : Table) (opIDs : List String) :
    (db.withTable t).completeAll opIDs = (db.completeAll opIDs).withTable t := by
  induction opIDs generalizing db with
  | nil => rfl
  | cons id opIDs ih => exact ih (db.complete id)

theorem execAll_prepare (ht : db.table = some t) (rest : List DdlOp) :
    execAll pg db ((entriesOf desired.columns (addedColumns desired view)).map addColumnOp ++
      ((syncedColumns desired view).map syncOp ++ rest)) =
      execAll pg (db.withTable (prepare desired view t)) rest := by
  rw [execAll_append, execAll_addColumns _ ht, Option.bind_some, execAll_append,
    execAll_syncOps _ rfl, Option.bind_some]
  rfl

theorem execAll_build (hd : Desired desired) (ht : db.table = some t)
    (hvalidated : ∀ n ∈ validatedFks desired view, n ∈ insertAll t.foreignKeys
      ((entriesOf desired.foreignKeys (addedFks desired view)).map unvalidatedEntry)) :
    execAll pg db ((entriesOf desired.indexes (builtIndexes desired view)).map createIndexOp ++
      ((entriesOf desired.uniques (addedUniques desired view)).map addUniqueOp ++
      ((entriesOf desired.foreignKeys (addedFks desired view)).map addFkOp ++
      (validatedFks desired view).map .validateForeignKey))) = some db' ↔
      (∀ e ∈ entriesOf desired.indexes (builtIndexes desired view),
        ∀ column ∈ e.2.columns, column ∈ t.columns) ∧
      (∀ e ∈ entriesOf desired.foreignKeys (addedFks desired view), t.canAddFk e) ∧
      db' = db.withTable (build pg desired view t) := by
  have hnone : entriesOf desired.uniques (addedUniques desired view) = [] := by
    rw [addedUniques, hd.uniques]
    rfl
  have hnodup : ∀ {α : Type} (m : Specs α) (p : String → Bool),
      ((entriesOf m ((sortedKeys m).filter p)).map Prod.fst).Nodup :=
    fun m p => nodup_keys_entriesOf ((nodup_sortedKeys m).filter p)
  rw [hnone, List.map_nil, List.nil_append, execAll_append, Option.bind_eq_some_iff]
  constructor
  · rintro ⟨db₁, hindexes, hrest⟩
    obtain ⟨hcolumns, rfl⟩ := (execAll_createIndexes (hnodup _ _) ht).mp hindexes
    rw [execAll_append, Option.bind_eq_some_iff] at hrest
    obtain ⟨db₂, hfks, hvalidate⟩ := hrest
    obtain ⟨hcan, rfl⟩ := (execAll_addFks (hnodup _ _) rfl).mp hfks
    obtain ⟨-, rfl⟩ := (execAll_validateFks nodup_validatedFks rfl).mp hvalidate
    exact ⟨hcolumns, hcan, rfl⟩
  · rintro ⟨hcolumns, hcan, rfl⟩
    refine ⟨_, (execAll_createIndexes (hnodup _ _) ht).mpr ⟨hcolumns, rfl⟩, ?_⟩
    rw [execAll_append, Option.bind_eq_some_iff]
    refine ⟨_, (execAll_addFks (hnodup _ _) (table_withTable _ _)).mpr ⟨hcan, rfl⟩, ?_⟩
    exact (execAll_validateFks nodup_validatedFks rfl).mpr ⟨hvalidated, rfl⟩

section

variable (hd : Desired desired) (h : Fits desired view db t)

include hd h

/-- After the drops no unique constraint is left, and of the rest what the plan keeps. -/
theorem lookup_clear (n : String) :
    (clear desired view (prepare desired view t)).foreignKeys.lookup n =
        (if n ∈ dropped desired view then none else t.foreignKeys.lookup n) ∧
      (clear desired view (prepare desired view t)).uniques.lookup n = none ∧
      (clear desired view (prepare desired view t)).indexes.lookup n =
        if n ∈ droppedIndexes desired view ∨ n ∈ t.uniques then none else t.indexes.lookup n := by
  obtain ⟨-, -, hlookup⟩ := dropConstraints_spec (dropped desired view) (prepare desired view t)
  obtain ⟨hfk, huq, hidx⟩ := hlookup n
  have hunique : n ∈ t.uniques → n ∈ dropped desired view :=
    fun hmem => (mem_dropped hd).mpr (.inr (.inr (h.uniques n hmem)))
  refine ⟨hfk, huq.trans ?_, ?_⟩
  · split
    · rfl
    · next hkept => exact AList.lookup_eq_none.mpr fun hmem => hkept (hunique hmem)
  · refine (lookup_eraseAll _ _ n).trans ?_
    rw [hidx]
    by_cases hdropped : n ∈ droppedIndexes desired view
    · rw [if_pos hdropped, if_pos (.inl hdropped)]
    · rw [if_neg hdropped]
      refine if_congr ⟨fun hboth => .inr hboth.2, fun hor => ?_⟩ rfl rfl
      have hmem := hor.resolve_left hdropped
      exact ⟨hunique hmem, hmem⟩

/-- The backfills go through when no trigger is in the way. -/
theorem canBackfill_prepare :
    (∀ s ∈ syncedColumns desired view, (prepare desired view t).canBackfill s.column
        (db.rowsLeft (backfillOpID desired.table s.column))) ↔
      ((∃ s ∈ syncedColumns desired view,
          db.rowsLeft (backfillOpID desired.table s.column) = true) →
        ∀ field ∈ t.triggers, field ∈ t.columns ∨ field ∈ desired.columns) := by
  constructor
  · rintro hall ⟨s, hs, hrows⟩ field hfield
    refine (mem_columns_prepare h).mp ((hall s hs).2 hrows field ?_)
    exact (mem_triggers_prepare h).mpr (.inr hfield)
  · intro htriggers s hs
    obtain ⟨n, hspec⟩ := mem_syncedColumns.mp hs
    obtain ⟨rfl, hcolumn⟩ := column_of_syncSpec hspec
    refine ⟨fun c hc => (mem_columns_prepare h).mpr (.inr ?_), fun hrows field hfield => ?_⟩
    · simp only [batchColumns, List.mem_cons, List.not_mem_nil, or_false] at hc
      rcases hc with rfl | rfl | rfl | rfl
      · exact hd.framework _ (by decide)
      · exact hd.framework _ (by decide)
      · exact hd.framework _ (by decide)
      · exact hcolumn
    · rw [mem_columns_prepare h]
      rcases (mem_triggers_prepare h).mp hfield with ⟨s', hs'⟩ | hold
      · exact .inr (column_of_syncSpec hs').2
      · exact htriggers ⟨s, hs, hrows⟩ field hold

/-- The foreign keys can be added when none of a new one's name is there. -/
theorem canAddFk_clear : (∀ e ∈ entriesOf desired.foreignKeys (addedFks desired view),
        (clear desired view (prepare desired view t)).canAddFk e) ↔
      ∀ n ∈ desired.foreignKeys, n ∉ view.foreignKeys → n ∉ view.uniques → n ∉ t.foreignKeys := by
  constructor
  · intro hall n hwanted hview huq hfk
    obtain ⟨spec, hspec⟩ := mem_iff_lookup.mp hwanted
    obtain ⟨-, hgone, -⟩ := hall (n, spec)
      (mem_entriesOf.mpr ⟨mem_addedFks.mpr ⟨hwanted, .inl hview⟩, hspec⟩)
    have hlookup := (lookup_clear hd h n).1
    rw [if_neg fun hmem => huq ((mem_dropped_of_notMem hd hview).mp hmem)] at hlookup
    rw [← AList.lookup_isSome, ← hlookup] at hfk
    exact hgone (AList.lookup_isSome.mp hfk)
  · rintro hfresh ⟨n, spec⟩ he
    obtain ⟨hadded, hspec⟩ := mem_entriesOf.mp he
    obtain ⟨hfk, huq, -⟩ := lookup_clear hd h n
    refine ⟨?_, AList.lookup_eq_none.mp (hfk.trans ?_), AList.lookup_eq_none.mp huq⟩
    · rw [(clear_frame desired view _).1]
      exact (mem_columns_prepare h).mpr (.inr (hd.fk_column n spec hspec))
    · split
      · rfl
      · next hkeeps =>
        obtain ⟨hwanted, hview | hchanged⟩ := mem_addedFks.mp hadded
        · rw [mem_dropped_of_notMem hd hview] at hkeeps
          exact AList.lookup_eq_none.mpr (hfresh n hwanted hview hkeeps)
        · exact absurd ((mem_dropped hd).mpr (.inl hchanged)) hkeeps

/-- A foreign key that is wanted and not added stays. -/
theorem lookup_kept_fk {spec : FkSpec} (hspec : desired.foreignKeys.lookup n = some spec)
    (hadded : n ∉ addedFks desired view) :
    ∃ fk, (clear desired view (prepare desired view t)).foreignKeys.lookup n = some fk ∧
      fkMatches fk spec = true ∧ (n ∈ validatedFks desired view ∨ fk.validated = true) := by
  have hwanted : n ∈ desired.foreignKeys := mem_iff_lookup.mpr ⟨spec, hspec⟩
  rw [mem_addedFks] at hadded
  push Not at hadded
  obtain ⟨hview, hsame⟩ := hadded hwanted
  obtain ⟨fk, hfk, hgood⟩ := h.fk_kept n spec hspec hview (by simpa using hsame)
  have hkept : n ∉ dropped desired view := by
    rw [mem_dropped hd]
    rintro (hchanged | ⟨-, hunwanted⟩ | hunique)
    · exact hsame hchanged
    · exact hunwanted hwanted
    · exact h.apart n hview hunique
  exact ⟨fk, by rw [(lookup_clear hd h n).1, if_neg hkept, hfk], hgood⟩

/-- What is to be validated is there by then. -/
theorem mem_foreignKeys_of_validated (hn : n ∈ validatedFks desired view) :
    n ∈ insertAll (clear desired view (prepare desired view t)).foreignKeys
      ((entriesOf desired.foreignKeys (addedFks desired view)).map unvalidatedEntry) := by
  rw [mem_insertAll, List.map_map]
  have hwanted := mem_of_validated hn
  by_cases hadded : n ∈ addedFks desired view
  · exact .inl (mem_keys_entriesOf.mpr ⟨hadded, hwanted⟩)
  · obtain ⟨spec, hspec⟩ := mem_iff_lookup.mp hwanted
    obtain ⟨fk, hfk, -⟩ := lookup_kept_fk hd h hspec hadded
    exact .inr (mem_iff_lookup.mpr ⟨fk, hfk⟩)

theorem execAll_clear (rest : List DdlOp) : execAll pg (db'.withTable (prepare desired view t))
      ((droppedFks desired view).map .dropForeignKey ++
      ((droppedUniques desired view).map .dropUnique ++
      ((droppedIndexes desired view).map .dropIndexConcurrently ++ rest))) =
      execAll pg (db'.withTable (clear desired view (prepare desired view t))) rest := by
  have hdrop : ∀ (db : Database) (t : Table), db.table = some t → ∀ name,
      exec pg db (.dropForeignKey name) = some (db.withTable (t.dropConstraint name)) ∧
        exec pg db (.dropUnique name) = some (db.withTable (t.dropConstraint name)) := by
    intro db t ht name
    simp [exec, ht, Table.exec, Database.withTable]
  have hindexes : execAll pg (db'.withTable ((dropped desired view).foldl Table.dropConstraint
      (prepare desired view t))) ((droppedIndexes desired view).map .dropIndexConcurrently) =
      some (db'.withTable (clear desired view (prepare desired view t))) := by
    refine (execAll_dropIndexes nodup_droppedIndexes rfl).mpr ⟨fun name _ => ?_, rfl⟩
    exact AList.lookup_eq_none.mp (lookup_clear hd h name).2.1
  rw [dropped, List.foldl_append] at hindexes
  rw [execAll_append, execAll_map_total _ (fun db t ht name => (hdrop db t ht name).1) rfl rfl,
    Option.bind_some, execAll_append,
    execAll_map_total _ (fun db t ht name => (hdrop db t ht name).2) rfl rfl,
    Option.bind_some, execAll_append]
  exact congrArg (fun o => Option.bind o _) hindexes

/-- A plan that fits runs to its end exactly when it is executable. -/
theorem execAll_phases (ht : db.table = some t) : execAll pg db (phases desired view) = some db' ↔
      Executable desired view db t ∧
        db' = (db.completeAll (backfillOpIDs desired view)).withTable
          (planned pg desired view t) := by
  have hindexes : (∀ e ∈ entriesOf desired.indexes (builtIndexes desired view),
      ∀ column ∈ e.2.columns, column ∈ (clear desired view (prepare desired view t)).columns) ↔
      ∀ n ∈ builtIndexes desired view, ∀ spec, desired.indexes.lookup n = some spec →
        ∀ column ∈ spec.columns, column ∈ t.columns ∨ column ∈ desired.columns := by
    rw [(clear_frame desired view _).1]
    simp only [mem_columns_prepare h, mem_entriesOf, Prod.forall]
    exact ⟨fun hall n hn spec hspec => hall n spec ⟨hn, hspec⟩,
      fun hall n spec hboth => hall n hboth.1 spec hboth.2⟩
  have hkeys := canAddFk_clear hd h
  have hvalidated := fun n => mem_foreignKeys_of_validated (n := n) hd h
  rw [phases, execAll_prepare ht, execAll_append, Option.bind_eq_some_iff]
  constructor
  · rintro ⟨db₁, hfilled, hrest⟩
    obtain ⟨hcan, rfl⟩ :=
      (execAll_backfills nodup_backfillOpIDs (table_withTable _ _)).mp hfilled
    rw [completeAll_withTable, execAll_clear hd h] at hrest
    obtain ⟨hcolumns, hfks, rfl⟩ := (execAll_build hd (table_withTable _ _) hvalidated).mp hrest
    exact ⟨⟨(canBackfill_prepare hd h).mp hcan, hindexes.mp hcolumns,
      hkeys.mp hfks⟩, rfl⟩
  · rintro ⟨⟨htriggers, hcolumns, hfresh⟩, rfl⟩
    refine ⟨_, (execAll_backfills nodup_backfillOpIDs (table_withTable _ _)).mpr
      ⟨(canBackfill_prepare hd h).mpr htriggers, rfl⟩, ?_⟩
    rw [completeAll_withTable, execAll_clear hd h]
    exact (execAll_build hd (table_withTable _ _) hvalidated).mpr ⟨hindexes.mpr hcolumns,
      hkeys.mpr hfresh, rfl⟩

end

/-! ## Nothing is left to plan afterwards -/

theorem lookup_columns_introspectTable (db : Database) (table : String) (t : Table) (n : String) :
    (introspectTable db table t).columns.lookup n =
      (t.columns.lookup n).map (introspectColumn db t table n) :=
  lookup_mapVals _ _ _

theorem mem_columns_introspectTable {table : String} :
    n ∈ (introspectTable db table t).columns ↔ n ∈ t.columns := by
  rw [← AList.lookup_isSome, ← AList.lookup_isSome, lookup_columns_introspectTable,
    Option.isSome_map]

/-- A column that is there is left alone exactly when it is the framework's, or has its trigger and
its backfill done. -/
theorem syncSpec_introspectTable (hn : n ∈ desired.columns) (ht : n ∈ t.columns) :
    syncSpec desired (introspectTable db desired.table t) n = none ↔
      n ∈ frameworkColumnNames ∨
        db.completed (backfillOpID desired.table n) = true ∧ n ∈ t.triggers := by
  obtain ⟨spec, hspec⟩ := mem_iff_lookup.mp hn
  obtain ⟨c, hc⟩ := mem_iff_lookup.mp ht
  have hactual : (introspectTable db desired.table t).columns.lookup n =
      some (introspectColumn db t desired.table n c) := by
    rw [lookup_columns_introspectTable, hc]
    rfl
  simp only [syncSpec, hspec, hactual, introspectColumn]
  by_cases hframework : n ∈ frameworkColumnNames
  · simp [hframework]
  · rw [if_neg (by simpa using hframework)]
    cases hcompleted : db.completed (backfillOpID desired.table n) with
    | false => simp [hframework]
    | true =>
      by_cases htrigger : n ∈ t.triggers
      · simp [htrigger]
      · simp [htrigger, hframework]

theorem indexMatches_storeIndex (pg : Rendering) (spec : IndexSpec) :
    indexMatches (pg.storeIndex spec) spec = true := by
  have hwhere : whereClauseMatches (pg.render spec.whereClause) spec.whereClause = true := by
    unfold whereClauseMatches
    by_cases hempty : spec.whereClause = ""
    · simp [hempty, (pg.render_eq_empty "").mpr rfl]
    · have hrender : pg.render spec.whereClause ≠ "" :=
        fun h => hempty ((pg.render_eq_empty _).mp h)
      simp [hempty, hrender, pg.normalizeExpr_render]
  simp [indexMatches, Rendering.storeIndex, pg.normalizeExpr_render, hwhere]

theorem fkMatches_stored (spec : FkSpec) : fkMatches spec.unvalidated.asValidated spec = true ∧
      spec.unvalidated.asValidated.validated = true := by
  simp [fkMatches, FkSpec.unvalidated, FkSpec.asValidated]

variable (hd : Desired desired) (h : Fits desired view db t)

include hd h

section

variable (pg)

theorem uniques_planned (n : String) : n ∉ (planned pg desired view t).uniques :=
  AList.lookup_eq_none.mp (lookup_clear hd h n).2.1

theorem indexes_planned {spec : IndexSpec} (hspec : desired.indexes.lookup n = some spec) :
    ∃ idx, (planned pg desired view t).indexes.lookup n = some idx ∧ idx.valid = true ∧
      indexMatches idx spec = true := by
  have hwanted : n ∈ desired.indexes := mem_iff_lookup.mpr ⟨spec, hspec⟩
  have hclear := (lookup_clear hd h n).2.2
  rw [planned, lookup_indexes_build]
  by_cases hgone : n ∈ droppedIndexes desired view ∨ n ∈ t.uniques
  · -- what was dropped under the name is built again
    have hbuilt : n ∈ builtIndexes desired view := by
      refine mem_builtIndexes.mpr ⟨hwanted, ?_⟩
      by_contra hkept
      push Not at hkept
      obtain ⟨-, hunique⟩ := h.index_kept n hwanted hkept.1 (by simpa using hkept.2)
      rcases mem_droppedIndexes.mp (hgone.resolve_right hunique) with hchanged | ⟨-, hunwanted, -⟩
      · exact hkept.2 hchanged
      · exact hunwanted hwanted
    rw [hclear, if_pos hgone, Option.none_or, if_pos hbuilt, hspec]
    exact ⟨_, rfl, rfl, indexMatches_storeIndex pg spec⟩
  · rw [hclear, if_neg hgone]
    push Not at hgone
    have hsame : indexChanged desired view n = false := by
      rw [Bool.eq_false_iff]
      exact fun hchanged => hgone.1 (mem_droppedIndexes.mpr (.inl hchanged))
    cases hidx : t.indexes.lookup n with
    | some idx => exact ⟨idx, rfl, h.index_matches n spec idx hspec hidx hgone.2 hsame⟩
    | none =>
      have hbuilt : n ∈ builtIndexes desired view := by
        refine mem_builtIndexes.mpr ⟨hwanted, .inl fun hview => ?_⟩
        exact AList.lookup_eq_none.mp hidx (h.index_kept n hwanted hview hsame).1
      rw [if_pos hbuilt, hspec]
      exact ⟨_, rfl, rfl, indexMatches_storeIndex pg spec⟩

theorem mem_indexes_planned (hn : n ∈ (planned pg desired view t).indexes) :
    n ∈ desired.indexes := by
  by_contra hunwanted
  have hbuilt : n ∉ builtIndexes desired view := fun hb => hunwanted (mem_builtIndexes.mp hb).1
  obtain ⟨idx, hidx⟩ := mem_iff_lookup.mp hn
  rw [planned, lookup_indexes_build, if_neg hbuilt, Option.or_none,
    (lookup_clear hd h n).2.2] at hidx
  split at hidx
  · cases hidx
  · next hkept =>
    push Not at hkept
    obtain ⟨hview, hunique⟩ :=
      h.index_dropped n (mem_iff_lookup.mpr ⟨idx, hidx⟩) hunwanted hkept.2
    exact hkept.1 (mem_droppedIndexes.mpr (.inr ⟨hview, hunwanted, hunique⟩))

theorem foreignKeys_planned {spec : FkSpec} (hspec : desired.foreignKeys.lookup n = some spec) :
    ∃ fk, (planned pg desired view t).foreignKeys.lookup n = some fk ∧
      fkMatches fk spec = true ∧ fk.validated = true := by
  rw [planned, lookup_foreignKeys_build]
  by_cases hadded : n ∈ addedFks desired view
  · rw [if_pos hadded, hspec]
    exact ⟨_, rfl, fkMatches_stored spec⟩
  · obtain ⟨fk, hfk, hmatch, hvalid⟩ := lookup_kept_fk hd h hspec hadded
    rw [if_neg hadded, hfk]
    split
    · exact ⟨_, rfl, hmatch, rfl⟩
    · next hleft => exact ⟨_, rfl, hmatch, hvalid.resolve_left hleft⟩

theorem mem_foreignKeys_planned (hn : n ∈ (planned pg desired view t).foreignKeys) :
    n ∈ desired.foreignKeys := by
  by_contra hunwanted
  have hadded : n ∉ addedFks desired view := fun ha => hunwanted (mem_addedFks.mp ha).1
  have hvalidated : n ∉ validatedFks desired view := fun hv => hunwanted (mem_of_validated hv)
  obtain ⟨fk, hfk⟩ := mem_iff_lookup.mp hn
  rw [planned, lookup_foreignKeys_build, if_neg hadded, if_neg hvalidated,
    (lookup_clear hd h n).1] at hfk
  split at hfk
  · cases hfk
  · next hkept =>
    refine hkept ((mem_dropped hd).mpr (.inr ?_))
    rcases h.fk_dropped n (mem_iff_lookup.mpr ⟨fk, hfk⟩) hunwanted with hview | hunique
    · exact .inl ⟨hview, hunwanted⟩
    · exact .inr hunique

end

/-- A plan that fits leaves what is desired and nothing else. -/
theorem matches_of_execAll
    (ht : db.table = some t) (hexec : execAll pg db (phases desired view) = some db') :
    ∃ t', db'.table = some t' ∧ Matches desired (introspectTable db' desired.table t') := by
  obtain ⟨-, rfl⟩ := (execAll_phases hd h ht).mp hexec
  refine ⟨planned pg desired view t, rfl, ?_⟩
  have hcolumns : ∀ n ∈ desired.columns, n ∈ (planned pg desired view t).columns := by
    intro n hn
    rw [planned, build, (clear_frame desired view _).1]
    exact (mem_columns_prepare h).mpr (.inr hn)
  have htriggers : (planned pg desired view t).triggers = (prepare desired view t).triggers :=
    (clear_frame desired view _).2
  refine
    { columns := fun n hn => mem_columns_introspectTable.mpr (hcolumns n hn)
      synced := fun n hn => (syncSpec_introspectTable hn (hcolumns n hn)).mpr ?_
      indexes := fun n spec hspec => indexes_planned pg hd h hspec
      indexes_only := fun n hn => .inl (mem_indexes_planned pg hd h hn)
      foreignKeys := fun n spec hspec => foreignKeys_planned pg hd h hspec
      foreignKeys_only := fun n hn => mem_foreignKeys_planned pg hd h hn
      uniques := fun n spec hspec => ?_
      uniques_only := fun n hn => absurd hn (uniques_planned pg hd h n) }
  · by_cases hframework : n ∈ frameworkColumnNames
    · exact .inl hframework
    · right
      rw [htriggers, mem_triggers_prepare h]
      refine (and_congr_left' (completed_completeAll _ _ _)).mpr ?_
      cases hspec : syncSpec desired view n with
      | none =>
        obtain ⟨hcompleted, htrigger⟩ := h.synced n hn hframework hspec
        exact ⟨.inr hcompleted, .inr htrigger⟩
      | some s =>
        refine ⟨.inl (List.mem_map.mpr ⟨s, mem_syncedColumns.mpr ⟨n, hspec⟩, ?_⟩), .inl ⟨s, rfl⟩⟩
        rw [(column_of_syncSpec hspec).1]
  · rw [hd.uniques] at hspec
    cases hspec

end

end Metap.Reconciler
