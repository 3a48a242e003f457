import Metap.Reconciler.Diff

/-!
# Executing a plan

What a database holds for the table of an entity, what the catalog says of it, and what each
operation of a plan does to it.  An operation whose statement fails, because what it needs is not
there or is there already, has no result.
-/

namespace Metap.Reconciler

/-! ## The names in an expression -/

inductive SqlName where
  | quoted (name : String)
  | word (name : String)
  deriving DecidableEq, Repr

inductive ScanMode where
  | code (word : List Char)
  | literal
  | quoted (name : List Char)

def flushWord (word : List Char) : List SqlName :=
  if word.isEmpty then [] else [.word (String.ofList word)]

/-- The quoted names and the words of an expression, outside its literals. -/
def scanNames : ScanMode → List Char → List SqlName
  | .code word, [] => flushWord word
  | .literal, [] => []
  | .quoted _, [] => []
  | .code word, c :: cs =>
    if c = '\'' then flushWord word ++ scanNames .literal cs
    else if c = '"' then flushWord word ++ scanNames (.quoted []) cs
    else if isCastChar c then scanNames (.code (word ++ [c])) cs
    else flushWord word ++ scanNames (.code []) cs
  | .literal, c :: cs => if c = '\'' then scanNames (.code []) cs else scanNames .literal cs
  | .quoted name, c :: cs =>
    if c = '"' then .quoted (String.ofList name) :: scanNames (.code []) cs
    else scanNames (.quoted (name ++ [c])) cs

/-- The column a name stands for, if any: functions, types and operator classes are words too. -/
def SqlName.column? : SqlName → Option String
  | quoted name => some name
  | word name => if frameworkColumnNames.contains name then some name else none

def namedColumns (sql : String) : List String :=
  (scanNames (.code []) sql.toList).filterMap SqlName.column?

/-- The columns an index is built from. -/
def IndexSpec.columns (spec : IndexSpec) : List String :=
  namedColumns spec.expression ++ namedColumns spec.whereClause

/-! ## The database -/

structure StoredColumn where
  sqlType : String
  nullable : Bool
  deriving DecidableEq, Repr

structure Table where
  columns : Specs StoredColumn := ∅
  indexes : Specs IndexSpec := ∅
  foreignKeys : Specs FkSpec := ∅
  uniques : Specs UniqueSpec := ∅
  /-- The fields that have a sync trigger, with the type of its cast. -/
  triggers : Specs String := ∅

structure Database where
  table : Option Table
  /-- The backfills the ledger has as completed. -/
  completed : String → Bool
  /-- The backfills that have rows left to update. -/
  rowsLeft : String → Bool

/-- How the database gives back the expression of an index. -/
structure Rendering where
  render : String → String
  /-- The text after a column was renamed. -/
  renamed : String → String → String → String
  normalizeExpr_render : ∀ expr, normalizeExpr (render expr) = normalizeExpr expr
  render_eq_empty : ∀ expr, render expr = "" ↔ expr = ""

/-- A column that is not one of the framework's counts as generated from the field of its name. -/
def introspectColumn (db : Database) (t : Table) (table name : String) (c : StoredColumn) :
    ColumnSpec where
  sqlType := c.sqlType
  nullable := c.nullable
  origin :=
    if frameworkColumnNames.contains name then .framework
    else .generated name (db.completed (backfillOpID table name) && decide (name ∈ t.triggers))

def introspectTable (db : Database) (table : String) (t : Table) : PhysicalSchema where
  table
  columns := AssocList.mapVals (introspectColumn db t table) t.columns
  indexes := t.indexes
  foreignKeys := t.foreignKeys
  uniques := t.uniques

def introspect (db : Database) (table : String) : Option PhysicalSchema :=
  db.table.map (introspectTable db table)

/-! ## Operations -/

def storeColumn (e : String × ColumnSpec) : String × StoredColumn := (e.1, ⟨e.2.sqlType, true⟩)

def Table.new : Table where
  columns := frameworkColumns.foldl
    (fun columns c => columns.insert c.1 ⟨c.2.sqlType, c.2.nullable⟩) ∅

def Rendering.storeIndex (pg : Rendering) (spec : IndexSpec) : IndexSpec :=
  { spec with
    expression := pg.render spec.expression
    valid := true
    whereClause := pg.render spec.whereClause }

def FkSpec.unvalidated (fk : FkSpec) : FkSpec := { fk with validated := false }

def FkSpec.asValidated (fk : FkSpec) : FkSpec := { fk with validated := true }

/-- The index that backs a unique constraint. -/
def Rendering.uniqueIndex (pg : Rendering) (spec : UniqueSpec) : IndexSpec where
  expression := pg.render (", ".intercalate (spec.columns.map columnIndexExpression))
  unique := true

/-- `DROP CONSTRAINT IF EXISTS`, which takes the index of a unique constraint with it. -/
def Table.dropConstraint (t : Table) (name : String) : Table :=
  { t with
    foreignKeys := t.foreignKeys.erase name
    uniques := t.uniques.erase name
    indexes := if name ∈ t.uniques then t.indexes.erase name else t.indexes }

def renameIn (renameFrom renameTo column : String) : String :=
  if column = renameFrom then renameTo else column

/-- A renamed column is renamed wherever the database refers to it, which the body of a trigger
does not count as. -/
def Table.rename (pg : Rendering) (t : Table) (renameFrom renameTo : String) (c : StoredColumn) :
    Table :=
  { t with
    columns := (t.columns.erase renameFrom).insert renameTo c
    indexes := AssocList.mapVals (fun _ idx => { idx with
      expression := pg.renamed renameFrom renameTo idx.expression
      whereClause := pg.renamed renameFrom renameTo idx.whereClause }) t.indexes
    foreignKeys := AssocList.mapVals (fun _ fk => { fk with
      column := renameIn renameFrom renameTo fk.column }) t.foreignKeys
    uniques := AssocList.mapVals (fun _ uq => { uq with
      columns := uq.columns.map (renameIn renameFrom renameTo) }) t.uniques }

/-- The operations on a table, backfills apart. -/
def Table.exec (pg : Rendering) (t : Table) : DdlOp → Option Table
  | .createTable => some t
  | .renameColumn renameFrom renameTo =>
    if renameTo ∈ t.columns then none
    else (t.columns.lookup renameFrom).map (t.rename pg renameFrom renameTo)
  | .addColumn name spec =>
    some { t with
      columns :=
        if name ∈ t.columns then t.columns
        else t.columns.insert name (storeColumn (name, spec)).2 }
  | .addSyncTrigger field sqlType => some { t with triggers := t.triggers.insert field sqlType }
  | .backfillColumn _ _ _ _ => some t
  | .createIndexConcurrently name spec =>
    if ∀ column ∈ spec.columns, column ∈ t.columns then
      some { t with
        indexes :=
          if name ∈ t.indexes then t.indexes else t.indexes.insert name (pg.storeIndex spec) }
    else none
  | .dropIndexConcurrently name =>
    if name ∈ t.uniques then none else some { t with indexes := t.indexes.erase name }
  | .addForeignKeyNotValid name spec =>
    if spec.column ∈ t.columns ∧ name ∉ t.foreignKeys ∧ name ∉ t.uniques then
      some { t with foreignKeys := t.foreignKeys.insert name spec.unvalidated }
    else none
  | .validateForeignKey name =>
    (t.foreignKeys.lookup name).map fun fk =>
      { t with foreignKeys := t.foreignKeys.insert name fk.asValidated }
  | .dropForeignKey name => some (t.dropConstraint name)
  | .addUnique name spec =>
    if (∀ column ∈ spec.columns, column ∈ t.columns) ∧ name ∉ t.uniques ∧ name ∉ t.foreignKeys ∧
        name ∉ t.indexes then
      some { t with
        uniques := t.uniques.insert name spec
        indexes := t.indexes.insert name (pg.uniqueIndex spec) }
    else none
  | .dropUnique name => some (t.dropConstraint name)

/-- The columns a batch of a backfill reads and writes. -/
def batchColumns (column : String) : List String := ["id", "tenant_id", "data", column]

/-- A batch that updates a row fires every sync trigger of the table, and fails on one whose column
is not there. -/
def Table.canBackfill (t : Table) (column : String) (rowsLeft : Bool) : Prop :=
  (∀ c ∈ batchColumns column, c ∈ t.columns) ∧
    (rowsLeft = true → ∀ field ∈ t.triggers.keys, field ∈ t.columns)

instance (t : Table) (column : String) (rowsLeft : Bool) :
    Decidable (t.canBackfill column rowsLeft) :=
  inferInstanceAs (Decidable (_ ∧ _))

def Database.complete (db : Database) (opID : String) : Database :=
  { db with
    completed := Function.update db.completed opID true
    rowsLeft := Function.update db.rowsLeft opID false }

/-- An operation of a plan; nothing but the creation of the table goes without the table. -/
def exec (pg : Rendering) (db : Database) : DdlOp → Option Database
  | .createTable =>
    if db.table.isSome then some db
    else some { db with table := some .new, rowsLeft := fun _ => false }
  | .backfillColumn opID column _ _ =>
    db.table.bind fun t =>
      if t.canBackfill column (db.rowsLeft opID) then some (db.complete opID) else none
  | op => db.table.bind fun t => (t.exec pg op).map fun t' => { db with table := some t' }

def execAll (pg : Rendering) (db : Database) (ops : List DdlOp) : Option Database :=
  ops.foldlM (exec pg) db

/-! ## The phases of a plan -/

section

variable {pg : Rendering} {db : Database} {t : Table}

theorem execAll_nil : execAll pg db [] = some db := rfl

theorem execAll_cons (op : DdlOp) (ops : List DdlOp) :
    execAll pg db (op :: ops) = (exec pg db op).bind fun db' => execAll pg db' ops :=
  List.foldlM_cons

theorem execAll_append (ops ops' : List DdlOp) :
    execAll pg db (ops ++ ops') = (execAll pg db ops).bind fun db' => execAll pg db' ops' :=
  List.foldlM_append

def Database.withTable (db : Database) (t : Table) : Database := { db with table := some t }

variable {db' : Database} {t' : Table} {β : Type} {names : List String}

/-- A phase: operations that each need something of the table, which the others do not touch. -/
theorem execAll_map_iff (key : β → String) (pre : Table → β → Prop)
    (f : Table → β → Table) {op : β → DdlOp} {bs : List β}
    (hop : ∀ (db : Database) (t : Table), db.table = some t → ∀ b db',
      exec pg db (op b) = some db' ↔ pre t b ∧ db' = db.withTable (f t b))
    (hframe : ∀ t b b', key b' ≠ key b → (pre (f t b) b' ↔ pre t b'))
    (hnodup : (bs.map key).Nodup) (ht : db.table = some t) (hfold : bs.foldl f t = t') :
    execAll pg db (bs.map op) = some db' ↔ (∀ b ∈ bs, pre t b) ∧ db' = db.withTable t' := by
  subst hfold
  induction bs generalizing db t with
  | nil =>
    have hdb : db.withTable t = db := by rw [Database.withTable, ← ht]
    simp [execAll_nil, hdb, eq_comm]
  | cons b bs ih =>
    rw [List.map_cons, List.nodup_cons] at hnodup
    rw [List.map_cons, execAll_cons, Option.bind_eq_some_iff, List.forall_mem_cons, List.foldl_cons]
    have hrest : (∀ b' ∈ bs, pre (f t b) b') ↔ ∀ b' ∈ bs, pre t b' := by
      refine forall₂_congr fun b' hb' => hframe t b b' fun h => hnodup.1 ?_
      rw [← h]
      exact List.mem_map_of_mem hb'
    constructor
    · rintro ⟨db₁, hfirst, htail⟩
      obtain ⟨hpre, rfl⟩ := (hop db t ht b db₁).mp hfirst
      obtain ⟨hpres, rfl⟩ := (ih hnodup.2 rfl).mp htail
      exact ⟨⟨hpre, hrest.mp hpres⟩, rfl⟩
    · rintro ⟨⟨hpre, hpres⟩, rfl⟩
      exact ⟨_, (hop db t ht b _).mpr ⟨hpre, rfl⟩,
        (ih hnodup.2 rfl).mpr ⟨hrest.mpr hpres, rfl⟩⟩

/-- A phase of operations that cannot fail on a table. -/
theorem execAll_map_total (f : Table → β → Table) {op : β → DdlOp} {bs : List β}
    (hop : ∀ (db : Database) (t : Table), db.table = some t → ∀ b, exec pg db (op b) = some
      (db.withTable (f t b))) (ht : db.table = some t) (hfold : bs.foldl f t = t') :
    execAll pg db (bs.map op) = some (db.withTable t') := by
  subst hfold
  induction bs generalizing db t with
  | nil => rw [List.map_nil, execAll_nil, List.foldl_nil, Database.withTable, ← ht]
  | cons b bs ih =>
    rw [List.map_cons, execAll_cons, hop db t ht b, Option.bind_some, ih rfl]
    rfl

/-! Most phases change one part of the table. -/

theorem execAll_addColumns (es : List (String × ColumnSpec)) (ht : db.table = some t) :
    execAll pg db (es.map addColumnOp) = some (db.withTable
      { t with columns := AssocList.addAll t.columns (es.map storeColumn) }) := by
  rw [AssocList.addAll, List.foldl_map]
  refine execAll_map_total (fun t e => { t with columns :=
      if e.1 ∈ t.columns then t.columns else t.columns.insert e.1 (storeColumn e).2 })
    ?_ ht (List.foldl_hom (fun columns => { t with columns }) fun _ _ => rfl)
  intro db t ht e
  simp [exec, addColumnOp, ht, Table.exec, Database.withTable]

def SyncSpec.trigger (s : SyncSpec) : String × String := (s.sourceField, s.sqlType)

theorem execAll_syncOps (ss : List SyncSpec) (ht : db.table = some t) :
    execAll pg db (ss.map syncOp) = some (db.withTable
      { t with triggers := AssocList.insertAll t.triggers (ss.map SyncSpec.trigger) }) := by
  rw [AssocList.insertAll, List.foldl_map]
  refine execAll_map_total
    (fun t s => { t with triggers := t.triggers.insert s.sourceField s.sqlType }) ?_ ht
    (List.foldl_hom (fun triggers => { t with triggers }) fun _ _ => rfl)
  intro db t ht s
  simp [exec, syncOp, ht, Table.exec, Database.withTable]

/-- The ledger after some backfills. -/
def Database.completeAll (db : Database) (opIDs : List String) : Database :=
  opIDs.foldl Database.complete db

theorem execAll_backfills {table : String} {ss : List SyncSpec}
    (hnodup : (ss.map fun s => backfillOpID table s.column).Nodup) (ht : db.table = some t) :
    execAll pg db (ss.map (backfillOp table)) = some db' ↔
      (∀ s ∈ ss, t.canBackfill s.column (db.rowsLeft (backfillOpID table s.column))) ∧
        db' = db.completeAll (ss.map fun s => backfillOpID table s.column) := by
  induction ss generalizing db with
  | nil => simp [execAll_nil, Database.completeAll, eq_comm]
  | cons s ss ih =>
    rw [List.map_cons, List.nodup_cons] at hnodup
    have hrest : ∀ s' ∈ ss, (db.complete (backfillOpID table s.column)).rowsLeft
        (backfillOpID table s'.column) = db.rowsLeft (backfillOpID table s'.column) := by
      intro s' hs'
      refine Function.update_of_ne (fun h => hnodup.1 ?_) _ _
      exact List.mem_map.mpr ⟨s', hs', h⟩
    have hop : exec pg db (backfillOp table s) =
        if t.canBackfill s.column (db.rowsLeft (backfillOpID table s.column)) then
          some (db.complete (backfillOpID table s.column)) else none := by
      simp only [exec, backfillOp, ht, Option.bind_some]
    rw [List.map_cons, execAll_cons, hop, List.forall_mem_cons]
    by_cases hcan : t.canBackfill s.column (db.rowsLeft (backfillOpID table s.column))
    · rw [if_pos hcan, Option.bind_some]
      simp only [hcan, true_and]
      refine (@ih (db.complete _) hnodup.2 ht).trans
        (and_congr (forall₂_congr fun s' hs' => ?_) Iff.rfl)
      rw [hrest s' hs']
    · rw [if_neg hcan]
      simp [hcan]

/-- What is left after dropping constraints: their names are gone, and the indexes of those that
were unique constraints. -/
theorem dropConstraints_spec (names : List String) (t : Table) :
    let t' := names.foldl Table.dropConstraint t
    t'.columns = t.columns ∧ t'.triggers = t.triggers ∧ ∀ k,
      t'.foreignKeys.lookup k = (if k ∈ names then none else t.foreignKeys.lookup k) ∧
      t'.uniques.lookup k = (if k ∈ names then none else t.uniques.lookup k) ∧
      t'.indexes.lookup k = if k ∈ names ∧ k ∈ t.uniques then none else t.indexes.lookup k := by
  induction names generalizing t with
  | nil => simp
  | cons name names ih =>
    obtain ⟨hcolumns, htriggers, hlookup⟩ := ih (t.dropConstraint name)
    refine ⟨hcolumns, htriggers, fun k => ?_⟩
    obtain ⟨hfks, huniques, hindexes⟩ := hlookup k
    rw [List.foldl_cons, hfks, huniques, hindexes]
    by_cases hk : k = name
    · subst hk
      have herased : k ∉ t.uniques.erase k := fun h => (AList.mem_erase.mp h).1 rfl
      simp only [Table.dropConstraint, AList.lookup_erase, herased, List.mem_cons_self, ite_self,
        and_false, if_false, if_true, true_and]
      by_cases huq : k ∈ t.uniques <;> simp [huq]
    · have hother : k ∈ t.uniques.erase name ↔ k ∈ t.uniques := by
        simp [AList.mem_erase, hk]
      have hindex : (if name ∈ t.uniques then t.indexes.erase name else t.indexes).lookup k =
          t.indexes.lookup k := by
        split
        · exact AList.lookup_erase_ne hk
        · rfl
      simp only [Table.dropConstraint, AList.lookup_erase_ne hk, hother, hindex, List.mem_cons, hk,
        false_or, true_and]

theorem execAll_dropIndexes (hnodup : names.Nodup) (ht : db.table = some t) :
    execAll pg db (names.map .dropIndexConcurrently) = some db' ↔
      (∀ name ∈ names, name ∉ t.uniques) ∧ db' = db.withTable
        { t with indexes := AssocList.eraseAll t.indexes names } := by
  refine execAll_map_iff id (fun t name => name ∉ t.uniques)
    (fun t name => { t with indexes := t.indexes.erase name }) ?_ (fun _ _ _ _ => Iff.rfl)
    (by simpa using hnodup) ht (List.foldl_hom (fun indexes => { t with indexes }) fun _ _ => rfl)
  intro db t ht name db'
  simp only [exec, ht, Option.bind_some, Table.exec]
  by_cases h : name ∈ t.uniques <;> simp [h, Database.withTable, eq_comm]

def Rendering.storeEntry (pg : Rendering) (e : String × IndexSpec) : String × IndexSpec :=
  (e.1, pg.storeIndex e.2)

theorem execAll_createIndexes {es : List (String × IndexSpec)}
    (hnodup : (es.map Prod.fst).Nodup) (ht : db.table = some t) :
    execAll pg db (es.map createIndexOp) = some db' ↔
      (∀ e ∈ es, ∀ column ∈ e.2.columns, column ∈ t.columns) ∧ db' = db.withTable
        { t with indexes := AssocList.addAll t.indexes (es.map pg.storeEntry) } := by
  rw [AssocList.addAll, List.foldl_map]
  refine execAll_map_iff Prod.fst (fun t e => ∀ column ∈ e.2.columns, column ∈ t.columns)
    (fun t e => { t with indexes :=
      if e.1 ∈ t.indexes then t.indexes else t.indexes.insert e.1 (pg.storeIndex e.2) })
    ?_ (fun _ _ _ _ => Iff.rfl) hnodup ht
    (List.foldl_hom (fun indexes => { t with indexes }) fun _ _ => rfl)
  intro db t ht e db'
  simp only [exec, createIndexOp, ht, Option.bind_some, Table.exec]
  by_cases h : ∀ column ∈ e.2.columns, column ∈ t.columns
  · rw [if_pos h, Option.map_some, Option.some_inj]
    exact ⟨fun heq => ⟨h, heq.symm⟩, fun heq => heq.2.symm⟩
  · rw [if_neg h]
    exact iff_of_false (by simp) fun heq => h heq.1

def unvalidatedEntry (e : String × FkSpec) : String × FkSpec := (e.1, e.2.unvalidated)

/-- A foreign key can be added: its column is there, and no constraint of its name. -/
def Table.canAddFk (t : Table) (e : String × FkSpec) : Prop :=
  e.2.column ∈ t.columns ∧ e.1 ∉ t.foreignKeys ∧ e.1 ∉ t.uniques

theorem execAll_addFks {es : List (String × FkSpec)}
    (hnodup : (es.map Prod.fst).Nodup) (ht : db.table = some t) :
    execAll pg db (es.map addFkOp) = some db' ↔
      (∀ e ∈ es, t.canAddFk e) ∧ db' = db.withTable
        { t with foreignKeys := AssocList.insertAll t.foreignKeys (es.map unvalidatedEntry) } := by
  rw [AssocList.insertAll, List.foldl_map]
  refine execAll_map_iff Prod.fst Table.canAddFk
    (fun t e => { t with foreignKeys := t.foreignKeys.insert e.1 e.2.unvalidated }) ?_ ?_ hnodup ht
    (List.foldl_hom (fun foreignKeys => { t with foreignKeys }) fun _ _ => rfl)
  · intro db t ht e db'
    simp only [exec, addFkOp, ht, Option.bind_some, Table.exec, Table.canAddFk]
    split
    · next h => simp [h, Database.withTable, eq_comm]
    · next h => simpa using fun hcolumn hfk huq => absurd ⟨hcolumn, hfk, huq⟩ h
  · intro t e e' hne
    simp [Table.canAddFk, AList.mem_insert, hne]

/-- The foreign keys with one of them validated. -/
def validateFk (fks : Specs FkSpec) (name : String) : Specs FkSpec :=
  match fks.lookup name with
  | some fk => fks.insert name fk.asValidated
  | none => fks

theorem lookup_validateFk (fks : Specs FkSpec) (name k : String) : (validateFk fks name).lookup k =
      if k = name then (fks.lookup k).map FkSpec.asValidated else fks.lookup k := by
  unfold validateFk
  by_cases hk : k = name
  · subst hk
    rw [if_pos rfl]
    cases hfk : fks.lookup k with
    | none => exact hfk
    | some fk => exact AList.lookup_insert _
  · rw [if_neg hk]
    cases fks.lookup name with
    | none => rfl
    | some fk => exact AList.lookup_insert_ne hk

theorem lookup_validateAll (hnodup : names.Nodup) (fks : Specs FkSpec) (k : String) :
    (names.foldl validateFk fks).lookup k =
      if k ∈ names then (fks.lookup k).map FkSpec.asValidated else fks.lookup k := by
  induction names generalizing fks with
  | nil => simp
  | cons name names ih =>
    rw [List.nodup_cons] at hnodup
    rw [List.foldl_cons, ih hnodup.2, lookup_validateFk]
    by_cases hk : k = name
    · subst hk
      simp [hnodup.1]
    · simp [hk]

theorem execAll_validateFks (hnodup : names.Nodup) (ht : db.table = some t) :
    execAll pg db (names.map .validateForeignKey) = some db' ↔
      (∀ name ∈ names, name ∈ t.foreignKeys) ∧ db' = db.withTable
        { t with foreignKeys := names.foldl validateFk t.foreignKeys } := by
  refine execAll_map_iff id (fun t name => name ∈ t.foreignKeys)
    (fun t name => { t with foreignKeys := validateFk t.foreignKeys name }) ?_ ?_
    (by simpa using hnodup) ht
    (List.foldl_hom (fun foreignKeys => { t with foreignKeys }) fun _ _ => rfl)
  · intro db t ht name db'
    simp only [exec, ht, Option.bind_some, Table.exec, validateFk]
    cases hfk : t.foreignKeys.lookup name with
    | none => simp [AList.lookup_eq_none.mp hfk]
    | some fk =>
      have hmem : name ∈ t.foreignKeys := AList.lookup_isSome.mp (by rw [hfk]; rfl)
      simp [hmem, Database.withTable, eq_comm]
  · intro t name name' hne
    rw [← AList.lookup_isSome, ← AList.lookup_isSome, lookup_validateFk,
      if_neg (show name' ≠ name from hne)]

end

end Metap.Reconciler
