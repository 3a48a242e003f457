import Metap.Reconciler.PlanRun

/-!
# Convergence

A reconcile is to lead to a table that has nothing left to reconcile, from whatever table there is.
The plan made from the table's own view fits the table, so all depends on its statements going
through.  Two of them may not.  A searchable field gets no column unless it is unique, even when it
is stored in one, but the index of a unique constraint names the column
(`searched_constraint_fails`); and a backfill fires the sync triggers of the table, also those left
over from columns that are gone. `converges_iff` says that nothing else is in the way.
-/

namespace Metap.Reconciler

open AssocList

/-! ## The compiled schema -/

theorem lookup_baseColumns (entity : EntityDefinition) (n : String) :
    (baseSchema entity).columns.lookup n = frameworkColumns.lookup n := by
  refine (lookup_insertAll ∅ (by decide) n).trans ?_
  rw [AList.lookup_empty, Option.or_none]

theorem mem_of_lookup_eq_some {β : Type} {entries : List (String × β)} {n : String} {b : β}
    (h : entries.lookup n = some b) : (n, b) ∈ entries := by
  obtain ⟨front, rest, rfl, -⟩ := List.lookup_eq_some_iff.mp h
  exact List.mem_append_right _ List.mem_cons_self

theorem lookup_frameworkColumns {n : String} {spec : ColumnSpec}
    (h : frameworkColumns.lookup n = some spec) :
    n ∈ frameworkColumnNames ∧ spec.origin = .framework := by
  have hmem := mem_of_lookup_eq_some h
  have horigin : ∀ e ∈ frameworkColumns, e.2.origin = .framework := by decide
  exact ⟨List.mem_map_of_mem hmem, horigin _ hmem⟩

theorem isSome_lookup_frameworkColumns :
    ∀ n ∈ frameworkColumnNames, (frameworkColumns.lookup n).isSome = true := by
  decide

variable {e : String × IndexSpec} {f : EntityField}

/-- An index that is unique covers live rows only. -/
theorem whereClause_of_unique {entity : EntityDefinition}
    (he : e ∈ indexEntries entity) (hunique : e.2.unique = true) : e.2.whereClause = liveRows := by
  have hfield : ∀ (f : EntityField) (expr : String) (lead : Bool),
      (fieldIndex entity.name f expr lead).2.unique = true →
      (fieldIndex entity.name f expr lead).2.whereClause = liveRows := by
    intro f expr lead hf
    exact if_pos hf
  rcases List.mem_cons.mp he with rfl | he
  · cases hunique
  · rcases List.mem_append.mp he with he | he
    · obtain ⟨f, -, he⟩ := List.mem_flatMap.mp he
      rcases mem_fieldEntries he with rfl | ⟨he, -⟩
      · unfold searchIndex at hunique
        split at hunique
        · cases hunique
        · cases hunique
      · obtain ⟨lead, rfl⟩ := mem_storedEntries he
        exact hfield f _ lead hunique
    · obtain ⟨c, -, rfl⟩ := List.mem_map.mp he
      rfl

section

variable {entity : EntityDefinition} {desired : PhysicalSchema} (h : validate entity = [])
  (hcompile : compile entity = .ok desired)

include hcompile

theorem uniques_of_compile : desired.uniques = ∅ := by
  obtain ⟨schemaName, -, -, -, rfl⟩ := compile_eq_ok hcompile
  rfl

include h

/-- A column of the compiled table is a field's, which no column of the framework has the name of,
or the framework's. -/
theorem lookup_columns_cases {n : String} {spec : ColumnSpec}
    (hspec : desired.columns.lookup n = some spec) :
    (∃ f ∈ entity.fields, f.name = n ∧ compilesColumn f = true ∧ spec = generatedColumn f ∧
      n ∉ frameworkColumnNames) ∨ frameworkColumns.lookup n = some spec := by
  obtain ⟨schemaName, -, -, hcollides, -⟩ := compile_eq_ok hcompile
  rw [lookup_columns_of_compile hcompile (wellFormed_of_validate h).nodup_names,
    lookup_baseColumns] at hspec
  cases hfield : entity.field? n with
  | none =>
    simp only [hfield] at hspec
    exact .inr hspec
  | some f =>
    simp only [hfield] at hspec
    obtain ⟨hf, hname⟩ := EntityDefinition.mem_of_field?_eq_some hfield
    by_cases hcompiles : compilesColumn f = true
    · rw [if_pos hcompiles] at hspec
      refine .inl ⟨f, hf, hname, hcompiles, (Option.some.inj hspec).symm, fun hframework => ?_⟩
      rw [← hname] at hframework
      have hmirror := hcollides f hf (by simpa using hframework)
      unfold compilesColumn at hcompiles
      rw [hmirror] at hcompiles
      simp at hcompiles
    · rw [if_neg hcompiles] at hspec
      exact .inr hspec

theorem mem_columns_of_compile {n : String} : n ∈ desired.columns ↔
    n ∈ frameworkColumnNames ∨ ∃ f ∈ entity.fields, f.name = n ∧ compilesColumn f = true := by
  have hwf := wellFormed_of_validate h
  constructor
  · intro hn
    obtain ⟨spec, hspec⟩ := mem_iff_lookup.mp hn
    rcases lookup_columns_cases h hcompile hspec with ⟨f, hf, hname, hcompiles, -⟩ | hframework
    · exact .inr ⟨f, hf, hname, hcompiles⟩
    · exact .inl (lookup_frameworkColumns hframework).1
  · rw [← AList.lookup_isSome, lookup_columns_of_compile hcompile hwf.nodup_names,
      lookup_baseColumns]
    rintro (hframework | ⟨f, hf, rfl, hcompiles⟩)
    · have hbase := isSome_lookup_frameworkColumns n hframework
      split
      · split
        · rfl
        · exact hbase
      · exact hbase
    · rw [hwf.field?_eq_some hf]
      simp [hcompiles]

theorem desired_of_compile : Desired desired := by
  refine ⟨?_, ?_, ?_, ?_, uniques_of_compile hcompile⟩
  · exact fun n hn => (mem_columns_of_compile h hcompile).mpr (.inl hn)
  · intro n spec hspec
    rcases lookup_columns_cases h hcompile hspec with
      ⟨f, -, hname, -, rfl, hframework⟩ | hframework
    · rw [if_neg hframework, ← hname]
      rfl
    · obtain ⟨hname, horigin⟩ := lookup_frameworkColumns hframework
      rw [if_pos hname, horigin]
  · intro n spec hspec hunique
    rw [indexes_of_compile hcompile] at hspec
    rcases mem_of_lookup_insertAll hspec with hentry | hempty
    · rw [whereClause_of_unique hentry hunique]
      decide
    · cases hempty
  · intro n spec hspec
    obtain ⟨-, -, f, hf, target, htarget, rfl⟩ := of_lookup_foreignKeys hcompile hspec
    exact (mem_columns_of_compile h hcompile).mpr
      (.inr ⟨f, hf, rfl, (keyTarget_eq_some.mp htarget).1.1⟩)

end

/-! ## The columns an index names -/

theorem scanNames_literal {text : List Char} (h : '\'' ∉ text) (rest : List Char) :
    scanNames .literal (text ++ '\'' :: rest) = scanNames (.code []) rest := by
  induction text with
  | nil => rw [List.nil_append, scanNames, if_pos rfl]
  | cons c cs ih =>
    rw [List.mem_cons, not_or] at h
    rw [List.cons_append, scanNames, if_neg (Ne.symm h.1), ih h.2]

theorem scanNames_quoted {name : List Char} (h : '"' ∉ name) (start rest : List Char) :
    scanNames (.quoted start) (name ++ '"' :: rest) =
      .quoted (String.ofList (start ++ name)) :: scanNames (.code []) rest := by
  induction name generalizing start with
  | nil => rw [List.nil_append, scanNames, if_pos rfl, List.append_nil]
  | cons c cs ih =>
    rw [List.mem_cons, not_or] at h
    rw [List.cons_append, scanNames, if_neg (Ne.symm h.1), ih h.2, List.append_assoc]
    rfl

/-- A piece of an expression that names some columns, wherever it stands. -/
def Names (piece : String) (columns : List String) : Prop :=
  ∀ rest, (scanNames (.code []) (piece.toList ++ rest)).filterMap SqlName.column? =
    columns ++ (scanNames (.code []) rest).filterMap SqlName.column?

namespace Names

variable {a b : String} {columns columns' : List String}

theorem append (ha : Names a columns) (hb : Names b columns') :
    Names (a ++ b) (columns ++ columns') := by
  intro rest
  rw [String.toList_append, List.append_assoc, ha, hb, List.append_assoc]

theorem namedColumns_eq (ha : Names a columns) : namedColumns a = columns := by
  have h := ha []
  rw [List.append_nil] at h
  rw [namedColumns, h]
  exact List.append_nil _

theorem empty : Names "" [] := fun _ => rfl

theorem column {name : String} (h : '"' ∉ name.toList) :
    Names (columnIndexExpression name) [name] := by
  intro rest
  have htext : (columnIndexExpression name).toList ++ rest =
      '"' :: (name.toList ++ '"' :: rest) := by
    simp [columnIndexExpression]
  rw [htext]
  change (scanNames (.quoted []) (name.toList ++ '"' :: rest)).filterMap _ = _
  rw [scanNames_quoted h, List.nil_append, String.ofList_toList]
  rfl

/-- A member of `data`; the name in the literal counts for nothing. -/
theorem member {name : String} (h : '\'' ∉ name.toList) :
    Names ("(data ->> '" ++ name ++ "')") ["data"] := by
  intro rest
  have htext : ("(data ->> '" ++ name ++ "')").toList ++ rest =
      "(data ->> '".toList ++ (name.toList ++ '\'' :: (")".toList ++ rest)) := by
    simp
  rw [htext]
  change "data" :: (scanNames .literal (name.toList ++ '\'' :: (")".toList ++ rest))).filterMap _ =
    _
  rw [scanNames_literal h]
  rfl

/-- No type is named as a column is. -/
theorem cast (kind : FieldKind) : Names ("::" ++ fieldKindSQLType kind ++ ")") [] := by
  intro rest
  cases kind <;> rfl

theorem intercalate {α : Type} {xs : List α} {expr column : α → String}
    (h : ∀ x ∈ xs, Names (expr x) [column x]) :
    Names (", ".intercalate (xs.map expr)) (xs.map column) := by
  have hcomma : Names ", " [] := fun _ => rfl
  induction xs with
  | nil => exact empty
  | cons x xs ih =>
    obtain ⟨hx, hxs⟩ := List.forall_mem_cons.mp h
    cases xs with
    | nil =>
      rw [List.map_singleton, String.intercalate_singleton]
      exact hx
    | cons y ys =>
      rw [List.map_cons, List.map_cons, String.intercalate_cons_cons, List.map_cons]
      exact (hx.append hcomma).append (ih hxs)

end Names

/-- The column the expression of a field is computed from. -/
def fieldColumn (f : EntityField) : String := if fieldHasRealColumn f then f.name else "data"

theorem names_memberIndexExpression (h : '\'' ∉ f.name.toList) :
    Names (memberIndexExpression f) ["data"] := by
  have hparen : Names "(" [] := fun _ => rfl
  have hcast : Names ("((data ->> '" ++ f.name ++ "')::" ++ fieldKindSQLType f.kind ++ ")")
      ["data"] := by
    have htext : "((data ->> '" ++ f.name ++ "')::" ++ fieldKindSQLType f.kind ++ ")" =
        "(" ++ ("(data ->> '" ++ f.name ++ "')") ++ ("::" ++ fieldKindSQLType f.kind ++ ")") :=
      String.toList_inj.mp (by simp)
    rw [htext]
    exact (hparen.append (Names.member h)).append (Names.cast f.kind)
  unfold memberIndexExpression
  split
  · exact Names.member h
  · exact Names.member h
  · exact hcast

theorem names_fieldIndexExpression (h : isSafeFieldName f.name = true) :
    Names (fieldIndexExpression f) [fieldColumn f] := by
  unfold fieldIndexExpression fieldColumn
  split
  · exact Names.column (notMem_of_isSafeFieldName h (by decide))
  · exact names_memberIndexExpression (notMem_of_isSafeFieldName h (by decide))

/-- The tenant's column, where an index leads with it. -/
def tenantColumns (lead : Bool) : List String := if lead then ["tenant_id"] else []

theorem names_withTenantPrefix {expr : String} {columns : List String} (h : Names expr columns)
    (lead : Bool) : Names (withTenantPrefix expr lead) (tenantColumns lead ++ columns) := by
  have htenant : Names (tenantColumnExpr ++ ", ") ["tenant_id"] := fun _ => rfl
  cases lead with
  | false => exact h
  | true => exact htenant.append h

theorem namedColumns_liveRows : namedColumns liveRows = ["deleted"] := by decide

theorem namedColumns_empty : namedColumns "" = [] := by decide

theorem columns_searchIndex {entityName : String} (h : isSafeFieldName f.name = true) :
    (searchIndex entityName f).2.columns = ["data"] := by
  have hmember := Names.member (notMem_of_isSafeFieldName h (d := '\'') (by decide))
  have hvector : Names "to_tsvector('simple', " [] := fun _ => rfl
  have hclose : Names ")" [] := fun _ => rfl
  unfold searchIndex IndexSpec.columns
  split
  · have htext : "to_tsvector('simple', (data ->> '" ++ f.name ++ "'))" =
        "to_tsvector('simple', " ++ ("(data ->> '" ++ f.name ++ "')") ++ ")" :=
      String.toList_inj.mp (by simp)
    rw [htext, ((hvector.append hmember).append hclose).namedColumns_eq, namedColumns_empty]
    rfl
  · have htext : ("(data ->> '" ++ f.name ++ "') gin_trgm_ops").toList =
        ("(data ->> '" ++ f.name ++ "')").toList ++ " gin_trgm_ops".toList := by
      simp
    rw [namedColumns, htext, hmember, namedColumns_empty, List.append_nil]
    rfl

section

variable {entity : EntityDefinition} (h : validate entity = [])

include h

theorem columns_constraintIndex {c : EntityUniqueConstraint} (hc : c ∈ entity.uniqueConstraints) :
    (constraintIndex entity c).2.columns = tenantColumns (resolveUniqueScope c.scope = .tenant) ++
        (c.fields.filterMap entity.field?).map fieldColumn ++ ["deleted"] := by
  have hsafe : ∀ f ∈ c.fields.filterMap entity.field?,
      Names (fieldIndexExpression f) [fieldColumn f] := by
    intro f hf
    obtain ⟨name, -, hfield⟩ := List.mem_filterMap.mp hf
    refine names_fieldIndexExpression ((wellFormed_of_validate h).safe_names f ?_)
    exact (EntityDefinition.mem_of_field?_eq_some hfield).1
  simp only [constraintIndex, IndexSpec.columns, map_constraintExpression h hc]
  rw [(names_withTenantPrefix (Names.intercalate hsafe) _).namedColumns_eq, namedColumns_liveRows]

theorem mem_columns_constraintIndex {c : EntityUniqueConstraint}
    (hc : c ∈ entity.uniqueConstraints) (hf : f ∈ entity.fields) (hname : f.name ∈ c.fields)
    (hreal : fieldHasRealColumn f = true) : f.name ∈ (constraintIndex entity c).2.columns := by
  rw [columns_constraintIndex h hc]
  refine List.mem_append_left _ (List.mem_append_right _ (List.mem_map.mpr ⟨f, ?_, ?_⟩))
  · exact List.mem_filterMap.mpr ⟨f.name, hname, (wellFormed_of_validate h).field?_eq_some hf⟩
  · rw [fieldColumn, if_pos hreal]

/-- Only the index of a constraint names a column that is not compiled. -/
theorem column_of_indexEntries {e : String × IndexSpec} (he : e ∈ indexEntries entity)
    {column : String} (hcolumn : column ∈ e.2.columns) : column ∈ frameworkColumnNames ∨
      (∃ f ∈ entity.fields, f.name = column ∧ compilesColumn f = true) ∨
      ∃ c ∈ entity.uniqueConstraints, e = constraintIndex entity c ∧ ∃ f ∈ entity.fields,
        f.name ∈ c.fields ∧ fieldHasRealColumn f = true ∧ f.name = column := by
  have hwf := wellFormed_of_validate h
  have hframework : ∀ lead, ∀ n ∈ tenantColumns lead, n ∈ frameworkColumnNames := by
    intro lead n hn
    cases lead with
    | false => cases hn
    | true =>
      rw [List.mem_singleton.mp hn]
      decide
  rcases List.mem_cons.mp he with rfl | he
  · have hcolumns : IndexSpec.columns { expression := tenantColumnExpr } = ["tenant_id"] :=
      by decide
    rw [hcolumns] at hcolumn
    exact .inl (hframework true column hcolumn)
  · rcases List.mem_append.mp he with he | he
    · obtain ⟨f, hf, he⟩ := List.mem_flatMap.mp he
      have hsafe := hwf.safe_names f hf
      rcases mem_fieldEntries he with rfl | ⟨he, -, hcompiles⟩
      · rw [columns_searchIndex hsafe, List.mem_singleton] at hcolumn
        rw [hcolumn]
        exact .inl (by decide)
      · obtain ⟨lead, rfl⟩ := mem_storedEntries he
        have hnames := (names_withTenantPrefix (names_fieldIndexExpression hsafe) lead)
        simp only [fieldIndex, IndexSpec.columns, hnames.namedColumns_eq, List.mem_append,
          List.mem_singleton, or_assoc] at hcolumn
        rcases hcolumn with htenant | hvalue | hwhere
        · exact .inl (hframework lead column htenant)
        · unfold fieldColumn at hvalue
          split at hvalue
          · next hreal => exact .inr (.inl ⟨f, hf, hvalue.symm, hcompiles hreal⟩)
          · rw [hvalue]
            exact .inl (by decide)
        · split at hwhere
          · rw [namedColumns_liveRows, List.mem_singleton] at hwhere
            rw [hwhere]
            exact .inl (by decide)
          · rw [namedColumns_empty] at hwhere
            cases hwhere
    · obtain ⟨c, hc, rfl⟩ := List.mem_map.mp he
      rw [columns_constraintIndex h hc, List.mem_append, List.mem_append, List.mem_singleton]
        at hcolumn
      rcases hcolumn with (htenant | hvalue) | hwhere
      · exact .inl (hframework _ column htenant)
      · obtain ⟨f, hf, rfl⟩ := List.mem_map.mp hvalue
        obtain ⟨name, hname, hfield⟩ := List.mem_filterMap.mp hf
        obtain ⟨hf, rfl⟩ := EntityDefinition.mem_of_field?_eq_some hfield
        unfold fieldColumn
        split
        · next hreal => exact .inr (.inr ⟨c, hc, rfl, f, hf, hname, hreal, rfl⟩)
        · exact .inl (by decide)
      · rw [hwhere]
        exact .inl (by decide)

end

/-! ## The view of the table itself -/

/-- A unique constraint is backed by an index of its name on the whole table, and no foreign key has
its name. -/
structure Table.WellFormed (t : Table) : Prop where
  backed : ∀ n ∈ t.uniques, ∃ idx, t.indexes.lookup n = some idx ∧ idx.unique = true ∧
    idx.whereClause = ""
  apart : ∀ n ∈ t.foreignKeys, n ∉ t.uniques

section

variable {desired : PhysicalSchema} {db : Database} {t : Table}

/-- Every generated column comes from the field of its name. -/
def SelfNamed (columns : Specs ColumnSpec) : Prop :=
  ∀ n spec sourceField backfilled, columns.lookup n = some spec →
    spec.origin = .generated sourceField backfilled → sourceField = n

theorem selfNamed_introspectTable (db : Database) (table : String) (t : Table) :
    SelfNamed (introspectTable db table t).columns := by
  intro n spec sourceField backfilled hspec horigin
  rw [lookup_columns_introspectTable, Option.map_eq_some_iff] at hspec
  obtain ⟨c, -, rfl⟩ := hspec
  unfold introspectColumn at horigin
  dsimp only at horigin
  split at horigin
  · cases horigin
  · exact (ColumnOrigin.generated.inj horigin).1.symm

theorem selfNamed_empty : SelfNamed ∅ := by
  intro n spec sourceField backfilled hspec
  cases hspec

variable {n : String}

theorem source_of_syncSpec (hd : Desired desired) {view : PhysicalSchema}
    (hview : SelfNamed view.columns) {s : SyncSpec} (h : syncSpec desired view n = some s) :
    s.sourceField = n := by
  obtain ⟨-, spec, hspec, ⟨_, horigin⟩ | ⟨actual, hactual, horigin⟩⟩ := syncSpec_eq_some h
  · rw [hd.origin n spec hspec] at horigin
    split at horigin
    · cases horigin
    · exact (ColumnOrigin.generated.inj horigin).1.symm
  · exact hview n actual _ false hactual horigin

/-- The desired index does not match one that backs a unique constraint. -/
theorem indexChanged_of_backed (hd : Desired desired) (hwf : t.WellFormed) {table : String}
    (hn : n ∈ desired.indexes) (hunique : n ∈ t.uniques) :
    indexChanged desired (introspectTable db table t) n = true := by
  obtain ⟨spec, hspec⟩ := mem_iff_lookup.mp hn
  obtain ⟨idx, hidx, huq, hwhere⟩ := hwf.backed n hunique
  have hdiffers : indexMatches idx spec = false := by
    unfold indexMatches
    cases hspecUnique : spec.unique with
    | false => simp [huq]
    | true =>
      have hpartial := hd.unique_where n spec hspec hspecUnique
      simp [whereClauseMatches, hwhere, hpartial]
  simp [indexChanged, hspec, introspectTable, hidx, hdiffers]

/-- A column that is not there is synchronised, unless it is the framework's. -/
theorem syncSpec_of_missing (hd : Desired desired) {view : PhysicalSchema}
    (hn : n ∈ desired.columns) (hframework : n ∉ frameworkColumnNames) (hview : n ∉ view.columns) :
    syncSpec desired view n ≠ none := by
  obtain ⟨spec, hspec⟩ := mem_iff_lookup.mp hn
  have horigin := hd.origin n spec hspec
  rw [if_neg hframework] at horigin
  simp [syncSpec, hspec, AList.lookup_eq_none.mpr hview, horigin]

/-- A plan made from the table as it is fits it. -/
theorem fits_introspectTable (hd : Desired desired) (hwf : t.WellFormed) :
    Fits desired (introspectTable db desired.table t) db t where
  columns n _ hn := mem_columns_introspectTable.mp hn
  source n s h := source_of_syncSpec hd (selfNamed_introspectTable db desired.table t) h
  synced n hn hframework hsync := by
    by_cases ht : n ∈ t.columns
    · exact ((syncSpec_introspectTable hn ht).mp hsync).resolve_left hframework
    · refine absurd hsync (syncSpec_of_missing hd hn hframework fun hview => ht ?_)
      exact mem_columns_introspectTable.mp hview
  uniques n hn := hn
  index_matches n spec idx hspec hidx _ hsame := by
    simp only [indexChanged, hspec, introspectTable, hidx, Option.any_some, Bool.or_eq_false_iff]
      at hsame
    exact ⟨by simpa using hsame.1, by simpa using hsame.2⟩
  index_kept n hn hview hsame := by
    refine ⟨hview, fun hunique => ?_⟩
    rw [indexChanged_of_backed hd hwf hn hunique] at hsame
    cases hsame
  index_dropped n hn _ hunique := ⟨hn, hunique⟩
  fk_kept n spec hspec hview hsame := by
    obtain ⟨fk, hfk⟩ := mem_iff_lookup.mp hview
    have hfk : t.foreignKeys.lookup n = some fk := hfk
    simp only [fkChanged, hspec, introspectTable, hfk, Option.any_some] at hsame
    refine ⟨fk, hfk, by simpa using hsame, ?_⟩
    by_cases hvalid : fk.validated = true
    · exact .inr hvalid
    · left
      simp only [validatedFks, List.mem_filter, mem_sortedKeys, introspectTable, hfk,
        Option.any_some, Bool.or_eq_true]
      exact ⟨mem_iff_lookup.mpr ⟨spec, hspec⟩, .inr (by simpa using hvalid)⟩
  fk_dropped n hn _ := .inl hn
  apart := hwf.apart

theorem mem_columns_new : n ∈ Table.new.columns ↔ n ∈ frameworkColumnNames := by
  have hkeys : Table.new.columns.keys = frameworkColumnNames.reverse := by decide
  rw [AList.mem_keys, hkeys, List.mem_reverse]

/-- So does a plan made without a table fit a new one. -/
theorem fits_new (hd : Desired desired) : Fits desired (emptySchema desired.table) db .new where
  columns n _ hn := absurd hn (AList.notMem_empty n)
  source n s h := source_of_syncSpec hd selfNamed_empty h
  synced n hn hframework hsync :=
    absurd hsync (syncSpec_of_missing hd hn hframework (AList.notMem_empty n))
  uniques n hn := absurd hn (AList.notMem_empty n)
  index_matches n spec idx _ hidx := by cases hidx
  index_kept n _ hview := absurd hview (AList.notMem_empty n)
  index_dropped n hn := absurd hn (AList.notMem_empty n)
  fk_kept n spec _ hview := absurd hview (AList.notMem_empty n)
  fk_dropped n hn := absurd hn (AList.notMem_empty n)
  apart n hn := absurd hn (AList.notMem_empty n)

/-! ## When a reconcile converges -/

/-- The plan for the table runs to its end and leaves nothing to plan. -/
def Converges (pg : Rendering) (desired : PhysicalSchema) (db : Database) : Prop :=
  ∃ db', execAll pg db (diff desired (introspect db desired.table) []) = some db' ∧
    diff desired (introspect db' desired.table) [] = []

theorem diff_nil_renames (desired : PhysicalSchema) (actual : Option PhysicalSchema) :
    diff desired actual [] =
      createOps actual ++ phases desired (actual.getD (emptySchema desired.table)) := by
  rw [diff_eq]
  rfl

theorem diff_eq_nil_iff {db : Database} {desired : PhysicalSchema} :
    diff desired (introspect db desired.table) [] = [] ↔
      ∃ t, db.table = some t ∧ Matches desired (introspectTable db desired.table t) := by
  rw [diff_nil_renames, List.append_eq_nil_iff, phases_eq_nil_iff]
  cases ht : db.table with
  | none | some t => simp [introspect, ht, createOps]

/-- The database once the table is there. -/
def Database.withNewTable (db : Database) : Database :=
  match db.table with
  | some _ => db
  | none => { db with table := some .new, rowsLeft := fun _ => false }

/-- The view a reconcile has of the table. -/
def Database.view (db : Database) (table : String) : PhysicalSchema :=
  (introspect db table).getD (emptySchema table)

theorem execAll_diff (pg : Rendering) (desired : PhysicalSchema) (db : Database) :
    execAll pg db (diff desired (introspect db desired.table) []) =
      execAll pg db.withNewTable (phases desired (db.view desired.table)) := by
  rw [diff_nil_renames]
  cases ht : db.table with
  | none =>
    have hcreate : createOps (introspect db desired.table) = [.createTable] := by
      simp [introspect, ht, createOps]
    have hcreated : exec pg db .createTable = some db.withNewTable := by
      simp [exec, ht, Database.withNewTable]
    rw [hcreate, List.singleton_append, execAll_cons, hcreated]
    rfl
  | some t =>
    have hcreate : createOps (introspect db desired.table) = [] := by
      simp [introspect, ht, createOps]
    have hthere : db.withNewTable = db := by simp [Database.withNewTable, ht]
    rw [hcreate, hthere]
    rfl

theorem withNewTable_cases (db : Database) : ∃ t, db.withNewTable.table = some t ∧
    (db.table = some t ∧ db.withNewTable = db ∨
      db.table = none ∧ t = .new ∧ db.withNewTable.rowsLeft = fun _ => false) := by
  cases ht : db.table with
  | none => exact ⟨.new, by simp [Database.withNewTable, ht], .inr ⟨rfl, rfl, by
      simp [Database.withNewTable, ht]⟩⟩
  | some t =>
    have hthere : db.withNewTable = db := by simp [Database.withNewTable, ht]
    exact ⟨t, by rw [hthere, ht], .inl ⟨rfl, hthere⟩⟩

theorem view_of_some (ht : db.table = some t) (table : String) :
    db.view table = introspectTable db table t := by
  simp [Database.view, introspect, ht]

theorem view_of_none (ht : db.table = none) (table : String) :
    db.view table = emptySchema table := by
  simp [Database.view, introspect, ht]

theorem fits_view (hd : Desired desired) (hwf : ∀ t, db.table = some t → t.WellFormed)
    (ht : db.withNewTable.table = some t) :
    Fits desired (db.view desired.table) db.withNewTable t := by
  obtain ⟨t', ht', ⟨hsome, hsame⟩ | ⟨hnone, rfl, -⟩⟩ := withNewTable_cases db
  · cases ht'.symm.trans ht
    rw [view_of_some hsome, hsame]
    exact fits_introspectTable hd (hwf t hsome)
  · cases ht'.symm.trans ht
    rw [view_of_none hnone]
    exact fits_new hd

theorem converges_iff_executable (hd : Desired desired)
    (hwf : ∀ t, db.table = some t → t.WellFormed) (ht : db.withNewTable.table = some t)
    (pg : Rendering) : Converges pg desired db ↔
      Executable desired (db.view desired.table) db.withNewTable t := by
  have hfits := fits_view hd hwf ht
  unfold Converges
  rw [execAll_diff]
  constructor
  · rintro ⟨db', hexec, -⟩
    exact ((execAll_phases hd hfits ht).mp hexec).1
  · intro hcan
    have hexec : execAll pg db.withNewTable (phases desired (db.view desired.table)) = some _ :=
      (execAll_phases hd hfits ht).mpr ⟨hcan, rfl⟩
    exact ⟨_, hexec, diff_eq_nil_iff.mpr (matches_of_execAll hd hfits ht hexec)⟩

end

/-- What a table and an entity must be like for a reconcile to converge: no unique constraint whose
index is to be built has a field that is stored in a column but searched instead of given one,
unless the column is there; and no backfill meets a trigger on a column that is neither there nor
desired. -/
structure Reconcilable (entity : EntityDefinition) (desired : PhysicalSchema) (db : Database) :
    Prop where
  constraints : ∀ c ∈ entity.uniqueConstraints,
    desired.indexes.lookup (constraintIndex entity c).1 = some (constraintIndex entity c).2 →
    (constraintIndex entity c).1 ∈ builtIndexes desired (db.view desired.table) →
    ∀ f ∈ entity.fields, f.name ∈ c.fields → fieldHasRealColumn f = true →
      boolOrFalse f.searchable = true → boolOrFalse f.unique = true ∨ f.name ∈ mirrorColumns ∨
        ∃ t, db.table = some t ∧ f.name ∈ t.columns
  triggers : ∀ t, db.table = some t →
    (∃ s ∈ syncedColumns desired (db.view desired.table),
      db.rowsLeft (backfillOpID desired.table s.column) = true) →
    ∀ field ∈ t.triggers, field ∈ t.columns ∨ field ∈ desired.columns

section

variable {entity : EntityDefinition} {desired : PhysicalSchema} {db : Database} {t : Table}
  (h : validate entity = []) (hcompile : compile entity = .ok desired)

include h hcompile

/-- A field that is stored in a column and has none compiled is searched and not unique. -/
theorem compiled_or_searched {f : EntityField} (hf : f ∈ entity.fields)
    (hreal : fieldHasRealColumn f = true) :
    f.name ∈ desired.columns ↔ (boolOrFalse f.searchable = true →
      boolOrFalse f.unique = true ∨ f.name ∈ mirrorColumns) := by
  have hwf := wellFormed_of_validate h
  obtain ⟨schemaName, -, -, hcollides, -⟩ := compile_eq_ok hcompile
  rw [mem_columns_of_compile h hcompile]
  constructor
  · rintro (hframework | ⟨g, hg, hname, hcompiles⟩) hsearch
    · exact .inr (by simpa using hcollides f hf (by simpa using hframework))
    · rw [List.inj_on_of_nodup_map hwf.nodup_names hg hf hname] at hcompiles
      simp only [compilesColumn, hsearch, Bool.not_true, Bool.false_or,
        Bool.and_eq_true] at hcompiles
      exact .inl hcompiles.2
  · intro hsearch
    by_cases hmirror : f.name ∈ mirrorColumns
    · left
      have hsub : ∀ n ∈ mirrorColumns, n ∈ frameworkColumnNames := by decide
      exact hsub _ hmirror
    · refine .inr ⟨f, hf, rfl, ?_⟩
      cases hs : boolOrFalse f.searchable with
      | false => simp [compilesColumn, hreal, hmirror, hs]
      | true =>
        have hunique := (hsearch hs).resolve_right hmirror
        simp [compilesColumn, hreal, hmirror, hunique]

/-- The columns of the indexes that are built. -/
theorem index_columns_iff (ht : db.withNewTable.table = some t) :
    (∀ n ∈ builtIndexes desired (db.view desired.table), ∀ spec,
      desired.indexes.lookup n = some spec →
      ∀ column ∈ spec.columns, column ∈ t.columns ∨ column ∈ desired.columns) ↔
    ∀ c ∈ entity.uniqueConstraints,
      desired.indexes.lookup (constraintIndex entity c).1 = some (constraintIndex entity c).2 →
      (constraintIndex entity c).1 ∈ builtIndexes desired (db.view desired.table) →
      ∀ f ∈ entity.fields, f.name ∈ c.fields → fieldHasRealColumn f = true →
        boolOrFalse f.searchable = true → boolOrFalse f.unique = true ∨ f.name ∈ mirrorColumns ∨
          ∃ t, db.table = some t ∧ f.name ∈ t.columns := by
  have hd := desired_of_compile h hcompile
  have hthere : ∀ n, n ∈ t.columns ∨ n ∈ desired.columns ↔
      n ∈ desired.columns ∨ ∃ t, db.table = some t ∧ n ∈ t.columns := by
    intro n
    obtain ⟨t', ht', ⟨hsome, -⟩ | ⟨hnone, rfl, -⟩⟩ := withNewTable_cases db
    · cases ht'.symm.trans ht
      simp [hsome, or_comm]
    · cases ht'.symm.trans ht
      simpa [hnone] using fun hn => hd.framework n (mem_columns_new.mp hn)
  constructor
  · intro hcolumns c hc hlookup hbuilt f hf hname hreal hsearch
    have hcolumn := mem_columns_constraintIndex h hc hf hname hreal
    rcases (hthere _).mp (hcolumns _ hbuilt _ hlookup f.name hcolumn) with hwanted | hthere
    · exact ((compiled_or_searched h hcompile hf hreal).mp hwanted hsearch).imp_right .inl
    · exact .inr (.inr hthere)
  · intro hconstraints n hbuilt spec hlookup column hcolumn
    have hentry := hlookup
    rw [indexes_of_compile hcompile] at hentry
    have hentry := (mem_of_lookup_insertAll hentry).resolve_right (by simp)
    rcases column_of_indexEntries h hentry hcolumn with
      hframework | hcompiled | ⟨c, hc, heq, f, hf, hname, hreal, rfl⟩
    · exact .inr ((mem_columns_of_compile h hcompile).mpr (.inl hframework))
    · exact .inr ((mem_columns_of_compile h hcompile).mpr (.inr hcompiled))
    · obtain rfl : n = (constraintIndex entity c).1 := congrArg Prod.fst heq
      obtain rfl : spec = (constraintIndex entity c).2 := congrArg Prod.snd heq
      rw [hthere, compiled_or_searched h hcompile hf hreal, or_iff_not_imp_left]
      intro hwanted
      push Not at hwanted
      obtain ⟨hsearch, hunique, hmirror⟩ := hwanted
      exact ((hconstraints c hc hlookup hbuilt f hf hname hreal hsearch).resolve_left
        hunique).resolve_left hmirror

theorem executable_iff (ht : db.withNewTable.table = some t) :
    Executable desired (db.view desired.table) db.withNewTable t ↔
      Reconcilable entity desired db := by
  obtain ⟨t', ht', hcases⟩ := withNewTable_cases db
  cases ht'.symm.trans ht
  constructor
  · intro hcan
    refine ⟨(index_columns_iff h hcompile ht).mp hcan.index_columns, fun t' hsome hrows => ?_⟩
    rcases hcases with ⟨hsome', hsame⟩ | ⟨hnone, -, -⟩
    · cases hsome.symm.trans hsome'
      have htriggers := hcan.triggers
      rw [hsame] at htriggers
      exact htriggers hrows
    · cases hsome.symm.trans hnone
  · intro hrec
    refine ⟨?_, (index_columns_iff h hcompile ht).mpr hrec.constraints, ?_⟩
    · rcases hcases with ⟨hsome, hsame⟩ | ⟨-, -, hrows⟩
      · rw [hsame]
        exact hrec.triggers t hsome
      · rintro ⟨s, -, hleft⟩
        rw [hrows] at hleft
        cases hleft
    · intro n _ hview _ hfk
      rcases hcases with ⟨hsome, -⟩ | ⟨-, rfl, -⟩
      · rw [view_of_some hsome] at hview
        exact hview hfk
      · exact absurd hfk (AList.notMem_empty n)

/-- A reconcile converges exactly when the columns of the unique constraints are there and no
trigger is in the way of a backfill. -/
theorem converges_iff (hwf : ∀ t, db.table = some t → t.WellFormed) (pg : Rendering) :
    Converges pg desired db ↔ Reconcilable entity desired db := by
  obtain ⟨t, ht, -⟩ := withNewTable_cases db
  exact (converges_iff_executable (desired_of_compile h hcompile) hwf ht pg).trans
    (executable_iff h hcompile ht)

end

/-! ### Items on shelves -/

/-- What the database makes of the expressions of `placedItem`. -/
def respellings : List (String × String) :=
  [(tenantColumnExpr, "tenant_id"), (liveRows, "(deleted = false)"),
    ("\"tenant_id\", \"shelf\", ((data ->> 'slot')::text)",
      "tenant_id, shelf, ((data ->> 'slot'::text))")]

/-- A database that respells those. -/
def respelling : Rendering where
  render expr := (respellings.lookup expr).getD expr
  renamed _ _ expr := expr
  normalizeExpr_render expr := by
    have hsame : ∀ p ∈ respellings, normalizeExpr p.2 = normalizeExpr p.1 := by decide +kernel
    cases hfound : respellings.lookup expr with
    | none => rfl
    | some text => exact hsame (expr, text) (mem_of_lookup_eq_some hfound)
  render_eq_empty expr := by
    have hnone : ∀ p ∈ respellings, p.1 ≠ "" ∧ p.2 ≠ "" := by decide
    cases hfound : respellings.lookup expr with
    | none => rfl
    | some text =>
      obtain ⟨hexpr, htext⟩ := hnone (expr, text) (mem_of_lookup_eq_some hfound)
      exact iff_of_false htext hexpr

/-- A database without the table. -/
def noTable : Database where
  table := none
  completed _ := false
  rowsLeft _ := false

def itemEntity (fields : List EntityField) (constraints : List EntityUniqueConstraint) :
    EntityDefinition where
  name := "shop.items"
  tableName := "entities.shop_items"
  fields := fields
  uniqueConstraints := constraints

/-- An item whose shelf, stored in a column, and slot are unique together. -/
def placedItem (searchable : Bool) : EntityDefinition :=
  itemEntity [{ name := "shelf", kind := .string, storage := some .column,
                searchable := some searchable }, { name := "slot", kind := .string }]
    [{ fields := ["shelf", "slot"] }]

theorem converges_iff_placed : validate (placedItem false) = [] ∧
    ∃ desired, compile (placedItem false) = .ok desired ∧ Converges respelling desired noTable := by
  have hvalid : validate (placedItem false) = [] := by decide
  obtain ⟨desired, hcompile⟩ : ∃ desired, compile (placedItem false) = .ok desired := ⟨_, rfl⟩
  refine ⟨hvalid, desired, hcompile, ?_⟩
  refine (converges_iff hvalid hcompile (fun t ht => ?_) respelling).mpr ⟨?_, fun t ht => ?_⟩
  · cases ht
  · intro c _ _ _ f hf _ _ hsearch
    simp only [placedItem, itemEntity, List.mem_cons, List.not_mem_nil, or_false] at hf
    rcases hf with rfl | rfl
    · cases hsearch
    · cases hsearch
  · cases ht

/-- With the shelf searchable, no reconcile of a new table converges: the index of the constraint is
to be built on a column that is never added. -/
theorem searched_constraint_fails : validate (placedItem true) = [] ∧
    ∃ desired, compile (placedItem true) = .ok desired ∧
      ∀ pg, execAll pg noTable (diff desired (introspect noTable desired.table) []) = none := by
  refine ⟨by decide, _, rfl, fun pg => ?_⟩
  rfl

end Metap.Reconciler
