import Metap.Framework.StableSort
import Metap.Reconciler.Compile

/-!
# The plan of a reconcile

`diff` compares the schema an entity is compiled to with the schema its table has, and lists the
operations that lead from the one to the other, sorted so that what an operation rests on comes
before it.  `diff_eq` takes the plan apart: for each kind of operation, in the order in which they
are run, the names that get one.
-/

namespace Metap.Reconciler

/-! ## Expressions -/

/-- What a cast has in its type name. -/
def isCastChar (c : Char) : Bool := c.isAlphanum || c = '_'

/-- Up to the parenthesis that closes the given number of open ones. -/
def skipParens : ℕ → List Char → List Char
  | 0, cs => cs
  | _ + 1, [] => []
  | depth + 1, c :: cs =>
    if c = '(' then skipParens (depth + 2) cs
    else if c = ')' then skipParens depth cs
    else skipParens (depth + 1) cs

/-- What follows a cast: its type name and the arguments of the type are dropped. -/
def skipCast (cs : List Char) : List Char :=
  match cs.dropWhile isCastChar with
  | '(' :: rest => skipParens 1 rest
  | rest => rest

theorem length_skipParens (depth : ℕ) (cs : List Char) :
    (skipParens depth cs).length ≤ cs.length := by
  induction cs generalizing depth with
  | nil => cases depth <;> simp [skipParens]
  | cons c cs ih =>
    cases depth with
    | zero => simp [skipParens]
    | succ depth =>
      unfold skipParens
      split
      · exact (ih _).trans (Nat.le_succ _)
      · split
        · exact (ih _).trans (Nat.le_succ _)
        · exact (ih _).trans (Nat.le_succ _)

theorem length_skipCast (cs : List Char) : (skipCast cs).length ≤ cs.length := by
  have hdrop := List.length_dropWhile_le isCastChar cs
  unfold skipCast
  split
  · next rest hrest =>
    rw [hrest, List.length_cons] at hdrop
    exact (length_skipParens 1 rest).trans (by omega)
  · exact hdrop

def stripTypeCasts : List Char → List Char
  | [] => []
  | [c] => [c]
  | c :: d :: cs =>
    if c = ':' ∧ d = ':' then stripTypeCasts (skipCast cs) else c :: stripTypeCasts (d :: cs)
  termination_by cs => cs.length
  decreasing_by
  · have := length_skipCast cs
    simp only [List.length_cons]
    omega
  · simp

/-- Lower case, without casts, quotes and parentheses, and with single spaces. -/
def normalizeExpr (expr : String) : String :=
  let lowercased := (stripTypeCasts expr.toList).map Char.toLower
  let bare := lowercased.filter fun c => !(c = '"' || c = '(' || c = ')')
  " ".intercalate (Strings.fields (String.ofList bare))

/-! ## Operations -/

inductive DdlOp where
  | createTable
  | renameColumn (renameFrom renameTo : String)
  | addColumn (columnName : String) (columnSpec : ColumnSpec)
  | addSyncTrigger (syncField syncSQLType : String)
  | backfillColumn (opID column sourceField sqlType : String)
  | createIndexConcurrently (indexName : String) (indexSpec : IndexSpec)
  | dropIndexConcurrently (indexName : String)
  | addForeignKeyNotValid (fkName : String) (fkSpec : FkSpec)
  | validateForeignKey (fkName : String)
  | dropForeignKey (fkName : String)
  | addUnique (uniqueName : String) (uniqueSpec : UniqueSpec)
  | dropUnique (uniqueName : String)
  deriving DecidableEq, Repr

/-- The order of execution: what is dropped goes before what is created. -/
def DdlOp.rank : DdlOp → ℕ
  | createTable => 0
  | renameColumn _ _ => 1
  | addColumn _ _ => 2
  | addSyncTrigger _ _ => 3
  | backfillColumn _ _ _ _ => 4
  | dropForeignKey _ => 5
  | dropUnique _ => 6
  | dropIndexConcurrently _ => 7
  | createIndexConcurrently _ _ => 8
  | addUnique _ _ => 9
  | addForeignKeyNotValid _ _ => 10
  | validateForeignKey _ => 11

def topoSort (ops : List DdlOp) : List DdlOp := StableSort.sortByRank DdlOp.rank ops

def sortedKeys {α : Type} (m : Specs α) : List String := m.keys.insertionSort (· ≤ ·)

variable {α : Type} {ops : List DdlOp}

theorem mem_sortedKeys {m : Specs α} {name : String} : name ∈ sortedKeys m ↔ name ∈ m :=
  (List.perm_insertionSort _ _).mem_iff

theorem nodup_sortedKeys (m : Specs α) : (sortedKeys m).Nodup :=
  (List.perm_insertionSort _ _).nodup_iff.mpr m.nodupKeys

/-! ## The parts of a plan -/

def backfillOpID (table column : String) : String := "backfill:" ++ table ++ ":" ++ column

def pushSyncAndBackfill (table column sourceField sqlType : String) : List DdlOp :=
  [.addSyncTrigger sourceField sqlType,
   .backfillColumn (backfillOpID table column) column sourceField sqlType]

/-- A rename is skipped when its target is there or not wanted, or its source is not there. -/
def applyRename (desired columns : Specs ColumnSpec) (rn : String × String) :
    Specs ColumnSpec × List DdlOp :=
  match columns.lookup rn.1 with
  | none => (columns, [])
  | some spec =>
    if rn.2 ∈ columns ∨ rn.2 ∉ desired then (columns, [])
    else ((columns.erase rn.1).insert rn.2 spec, [.renameColumn rn.1 rn.2])

def applyRenames (desired : Specs ColumnSpec) :
    Specs ColumnSpec → List (String × String) → Specs ColumnSpec × List DdlOp
  | columns, [] => (columns, [])
  | columns, rn :: rns =>
    let first := applyRename desired columns rn
    let rest := applyRenames desired first.1 rns
    (rest.1, first.2 ++ rest.2)

/-- A missing column is added; a generated one that is not backfilled is synchronised again. -/
def columnOps (table : String) (desired actual : Specs ColumnSpec) (name : String) : List DdlOp :=
  match desired.lookup name with
  | none => []
  | some spec =>
    match actual.lookup name with
    | none =>
      .addColumn name spec ::
        match spec.origin with
        | .generated sourceField _ => pushSyncAndBackfill table name sourceField spec.sqlType
        | _ => []
    | some actualSpec =>
      match actualSpec.origin with
      | .generated sourceField false => pushSyncAndBackfill table name sourceField spec.sqlType
      | _ => []

def whereClauseMatches (actual desired : String) : Bool :=
  if actual = "" ∧ desired = "" then true
  else if actual = "" ∨ desired = "" then false
  else normalizeExpr actual = normalizeExpr desired

def indexMatches (actual desired : IndexSpec) : Bool :=
  normalizeExpr actual.expression = normalizeExpr desired.expression &&
    actual.unique = desired.unique && actual.using = desired.using &&
    whereClauseMatches actual.whereClause desired.whereClause

def indexOps (desired actual : Specs IndexSpec) (name : String) : List DdlOp :=
  match desired.lookup name with
  | none => []
  | some spec =>
    match actual.lookup name with
    | none => [.createIndexConcurrently name spec]
    | some actualIdx =>
      if !actualIdx.valid || !indexMatches actualIdx spec then
        [.dropIndexConcurrently name, .createIndexConcurrently name spec]
      else []

/-- An index nobody wants is dropped, unless it belongs to a constraint. -/
def dropIndexOps (desired : Specs IndexSpec) (uniques : Specs UniqueSpec) (name : String) :
    List DdlOp :=
  if name ∉ desired ∧ name ∉ uniques then [.dropIndexConcurrently name] else []

def fkMatches (actual desired : FkSpec) : Bool :=
  actual.column = desired.column && actual.refTable = desired.refTable &&
    actual.refColumn = desired.refColumn && actual.onDelete = desired.onDelete

def fkOps (desired actual : Specs FkSpec) (name : String) : List DdlOp :=
  match desired.lookup name with
  | none => []
  | some spec =>
    match actual.lookup name with
    | none => [.addForeignKeyNotValid name spec, .validateForeignKey name]
    | some actualFk =>
      if !fkMatches actualFk spec then
        [.dropForeignKey name, .addForeignKeyNotValid name spec, .validateForeignKey name]
      else if !actualFk.validated then [.validateForeignKey name]
      else []

def dropFkOps (desired : Specs FkSpec) (name : String) : List DdlOp :=
  if name ∉ desired then [.dropForeignKey name] else []

def uniqueOps (desired actual : Specs UniqueSpec) (name : String) : List DdlOp :=
  match desired.lookup name with
  | none => []
  | some spec =>
    match actual.lookup name with
    | none => [.addUnique name spec]
    | some actualUq =>
      if actualUq.columns ≠ spec.columns then [.dropUnique name, .addUnique name spec] else []

def dropUniqueOps (desired : Specs UniqueSpec) (name : String) : List DdlOp :=
  if name ∉ desired then [.dropUnique name] else []

/-- The operations, before they are sorted, once the renames are made. -/
def schemaOps (desired actual : PhysicalSchema) : List DdlOp :=
  (sortedKeys desired.columns).flatMap (columnOps desired.table desired.columns actual.columns) ++
    (sortedKeys desired.indexes).flatMap (indexOps desired.indexes actual.indexes) ++
    (sortedKeys actual.indexes).flatMap (dropIndexOps desired.indexes actual.uniques) ++
    (sortedKeys desired.foreignKeys).flatMap (fkOps desired.foreignKeys actual.foreignKeys) ++
    (sortedKeys actual.foreignKeys).flatMap (dropFkOps desired.foreignKeys) ++
    (sortedKeys desired.uniques).flatMap (uniqueOps desired.uniques actual.uniques) ++
    (sortedKeys actual.uniques).flatMap (dropUniqueOps desired.uniques)

def emptySchema (table : String) : PhysicalSchema := { table }

def diff (desired : PhysicalSchema) (actual : Option PhysicalSchema)
    (renames : List (String × String)) : List DdlOp :=
  let create := if actual.isNone then [DdlOp.createTable] else []
  let actualCopy := actual.getD (emptySchema desired.table)
  let renamed := applyRenames desired.columns actualCopy.columns renames
  topoSort (create ++ renamed.2 ++ schemaOps desired { actualCopy with columns := renamed.1 })

/-! ## The phases of a plan -/

/-- A column to be synchronised and backfilled. -/
structure SyncSpec where
  column : String
  sourceField : String
  sqlType : String
  deriving DecidableEq, Repr

section

variable (desired actual : PhysicalSchema)

def addedColumns : List String := (sortedKeys desired.columns).filter fun n => n ∉ actual.columns

/-- What a column is synchronised from: a new column as desired, an old one as it says itself. -/
def syncSpec (name : String) : Option SyncSpec :=
  match desired.columns.lookup name with
  | none => none
  | some spec =>
    match actual.columns.lookup name with
    | none =>
      match spec.origin with
      | .generated sourceField _ => some ⟨name, sourceField, spec.sqlType⟩
      | _ => none
    | some actualSpec =>
      match actualSpec.origin with
      | .generated sourceField false => some ⟨name, sourceField, spec.sqlType⟩
      | _ => none

def syncedColumns : List SyncSpec :=
  (sortedKeys desired.columns).filterMap (syncSpec desired actual)

/-- A wanted index that is there, but broken or another one. -/
def indexChanged (name : String) : Bool :=
  (desired.indexes.lookup name).any fun spec =>
    (actual.indexes.lookup name).any fun idx => !idx.valid || !indexMatches idx spec

def builtIndexes : List String :=
  (sortedKeys desired.indexes).filter fun n =>
    decide (n ∉ actual.indexes) || indexChanged desired actual n

def droppedIndexes : List String :=
  (sortedKeys desired.indexes).filter (indexChanged desired actual) ++
    (sortedKeys actual.indexes).filter fun n => n ∉ desired.indexes ∧ n ∉ actual.uniques

def fkChanged (name : String) : Bool :=
  (desired.foreignKeys.lookup name).any fun spec =>
    (actual.foreignKeys.lookup name).any fun fk => !fkMatches fk spec

def addedFks : List String :=
  (sortedKeys desired.foreignKeys).filter fun n =>
    decide (n ∉ actual.foreignKeys) || fkChanged desired actual n

def droppedFks : List String :=
  (sortedKeys desired.foreignKeys).filter (fkChanged desired actual) ++
    (sortedKeys actual.foreignKeys).filter fun n => n ∉ desired.foreignKeys

def validatedFks : List String :=
  (sortedKeys desired.foreignKeys).filter fun n =>
    decide (n ∉ actual.foreignKeys) || fkChanged desired actual n ||
      (actual.foreignKeys.lookup n).any fun fk => !fk.validated

def uniqueChanged (name : String) : Bool :=
  (desired.uniques.lookup name).any fun spec =>
    (actual.uniques.lookup name).any fun uq => uq.columns ≠ spec.columns

def addedUniques : List String :=
  (sortedKeys desired.uniques).filter fun n =>
    decide (n ∉ actual.uniques) || uniqueChanged desired actual n

def droppedUniques : List String :=
  (sortedKeys desired.uniques).filter (uniqueChanged desired actual) ++
    (sortedKeys actual.uniques).filter fun n => n ∉ desired.uniques

end

def addColumnOp (e : String × ColumnSpec) : DdlOp := .addColumn e.1 e.2

def syncOp (s : SyncSpec) : DdlOp := .addSyncTrigger s.sourceField s.sqlType

def backfillOp (table : String) (s : SyncSpec) : DdlOp :=
  .backfillColumn (backfillOpID table s.column) s.column s.sourceField s.sqlType

def createIndexOp (e : String × IndexSpec) : DdlOp := .createIndexConcurrently e.1 e.2

def addFkOp (e : String × FkSpec) : DdlOp := .addForeignKeyNotValid e.1 e.2

def addUniqueOp (e : String × UniqueSpec) : DdlOp := .addUnique e.1 e.2

/-- The operations after the table is there and the renames are made, phase by phase. -/
def phases (desired actual : PhysicalSchema) : List DdlOp :=
  (AssocList.entriesOf desired.columns (addedColumns desired actual)).map addColumnOp ++
    ((syncedColumns desired actual).map syncOp ++
    ((syncedColumns desired actual).map (backfillOp desired.table) ++
    ((droppedFks desired actual).map .dropForeignKey ++
    ((droppedUniques desired actual).map .dropUnique ++
    ((droppedIndexes desired actual).map .dropIndexConcurrently ++
    ((AssocList.entriesOf desired.indexes (builtIndexes desired actual)).map createIndexOp ++
    ((AssocList.entriesOf desired.uniques (addedUniques desired actual)).map addUniqueOp ++
    ((AssocList.entriesOf desired.foreignKeys (addedFks desired actual)).map addFkOp ++
    (validatedFks desired actual).map .validateForeignKey))))))))

/-- The operations of a rank. -/
def ofRank (r : ℕ) (ops : List DdlOp) : List DdlOp := ops.filter fun op => op.rank = r

theorem ofRank_append (r : ℕ) (ops ops' : List DdlOp) :
    ofRank r (ops ++ ops') = ofRank r ops ++ ofRank r ops' :=
  List.filter_append _ _

theorem ofRank_flatMap (r : ℕ) (names : List String) (g : String → List DdlOp) :
    ofRank r (names.flatMap g) = names.flatMap fun n => ofRank r (g n) :=
  List.filter_flatMap

theorem ofRank_of_rank {k : ℕ} (h : ∀ op ∈ ops, op.rank = k) (r : ℕ) :
    ofRank r ops = if k = r then ops else [] := by
  unfold ofRank
  split
  · next hk => exact List.filter_eq_self.mpr fun op hop => by simp [h op hop, hk]
  · next hk => exact List.filter_eq_nil_iff.mpr fun op hop => by simp [h op hop, hk]

/-- Operations of one kind have one rank. -/
theorem ofRank_map {f : α → DdlOp} {k : ℕ} (hf : ∀ x, (f x).rank = k) (r : ℕ) (xs : List α) :
    ofRank r (xs.map f) = if k = r then xs.map f else [] :=
  ofRank_of_rank (List.forall_mem_map.mpr fun x _ => hf x) r

/-! The operations for one name, kind by kind. -/

/-- The entry of a name, if the condition holds. -/
def entryIf {α : Type} (m : Specs α) (p : String → Bool) (name : String) : Option (String × α) :=
  if p name then (m.lookup name).map fun a => (name, a) else none

theorem filterMap_entryIf (m : Specs α) (p : String → Bool) (names : List String) :
    names.filterMap (entryIf m p) = AssocList.entriesOf m (names.filter p) := by
  rw [AssocList.entriesOf, List.filterMap_filter]
  rfl

/-- What is wanted is added when it is not there, and dropped and added when it has changed. -/
theorem replaceOps_eq {desired actual : Specs α} {changed : α → α → Bool} {drop : String → DdlOp}
    {add : String × α → DdlOp} {name : String} (hunwanted : desired.lookup name = none → ops = [])
    (hnew : ∀ spec, desired.lookup name = some spec → actual.lookup name = none →
      ops = [add (name, spec)])
    (hold : ∀ spec old, desired.lookup name = some spec → actual.lookup name = some old →
      ops = if changed old spec then [drop name, add (name, spec)] else []) :
    ops = (Option.guard (fun n => (desired.lookup n).any fun spec =>
        (actual.lookup n).any fun old => changed old spec) name).toList.map drop ++
      (entryIf desired (fun n => decide (n ∉ actual) || (desired.lookup n).any fun spec =>
        (actual.lookup n).any fun old => changed old spec) name).toList.map add := by
  cases hdesired : desired.lookup name with
  | none => simp [hunwanted hdesired, Option.guard, entryIf, hdesired]
  | some spec =>
    cases hactual : actual.lookup name with
    | none =>
      have hmem : name ∉ actual := AList.lookup_eq_none.mp hactual
      simp [hnew spec hdesired hactual, Option.guard, entryIf, hdesired, hactual, hmem]
    | some old =>
      have hmem : name ∈ actual := AList.lookup_isSome.mp (by rw [hactual]; rfl)
      rw [hold spec old hdesired hactual]
      cases hchanged : changed old spec <;>
        simp [Option.guard, entryIf, hdesired, hactual, hmem, hchanged]

section

variable (desired actual : PhysicalSchema)

theorem columnOps_eq (name : String) : columnOps desired.table desired.columns actual.columns name =
      (entryIf desired.columns (fun n => n ∉ actual.columns) name).toList.map addColumnOp ++
      ((syncSpec desired actual name).toList.map syncOp ++
        (syncSpec desired actual name).toList.map (backfillOp desired.table)) := by
  unfold columnOps syncSpec entryIf
  cases desired.columns.lookup name with
  | none => simp
  | some spec =>
    cases hactual : actual.columns.lookup name with
    | none =>
      have hmem : name ∉ actual.columns := AList.lookup_eq_none.mp hactual
      cases horigin : spec.origin <;>
        simp [hmem, horigin, pushSyncAndBackfill, addColumnOp, syncOp, backfillOp]
    | some actualSpec =>
      have hmem : name ∈ actual.columns := AList.lookup_isSome.mp (by rw [hactual]; rfl)
      simp only [hmem, not_true, decide_false, Bool.false_eq_true, if_false]
      split <;> simp [pushSyncAndBackfill, syncOp, backfillOp]

theorem indexOps_eq (name : String) : indexOps desired.indexes actual.indexes name =
    (Option.guard (indexChanged desired actual) name).toList.map .dropIndexConcurrently ++
    (entryIf desired.indexes (fun n => decide (n ∉ actual.indexes) || indexChanged desired actual n)
      name).toList.map createIndexOp := by
  refine replaceOps_eq (fun hdesired => ?_) ?_ ?_
  · simp only [indexOps, hdesired]
  · intro spec hdesired hactual
    simp only [indexOps, hdesired, hactual, createIndexOp]
  · intro spec idx hdesired hactual
    simp only [indexOps, hdesired, hactual, createIndexOp]

theorem uniqueOps_eq (name : String) : uniqueOps desired.uniques actual.uniques name =
    (Option.guard (uniqueChanged desired actual) name).toList.map .dropUnique ++
    (entryIf desired.uniques (fun n =>
        decide (n ∉ actual.uniques) || uniqueChanged desired actual n)
      name).toList.map addUniqueOp := by
  refine replaceOps_eq (fun hdesired => ?_) ?_ ?_
  · simp only [uniqueOps, hdesired]
  · intro spec hdesired hactual
    simp only [uniqueOps, hdesired, hactual, addUniqueOp]
  · intro spec uq hdesired hactual
    simp only [uniqueOps, hdesired, hactual, addUniqueOp, decide_eq_true_eq]

/-- A foreign key is validated also when it is there as wanted. -/
def fkValidated (name : String) : Bool :=
  decide (name ∉ actual.foreignKeys) || fkChanged desired actual name ||
    (actual.foreignKeys.lookup name).any fun fk => !fk.validated

theorem fkOps_eq {name : String} (hname : name ∈ desired.foreignKeys) :
    fkOps desired.foreignKeys actual.foreignKeys name =
      (Option.guard (fkChanged desired actual) name).toList.map .dropForeignKey ++
      ((entryIf desired.foreignKeys
        (fun n => decide (n ∉ actual.foreignKeys) || fkChanged desired actual n)
        name).toList.map addFkOp ++
      (Option.guard (fkValidated desired actual) name).toList.map .validateForeignKey) := by
  obtain ⟨spec, hspec⟩ := Option.isSome_iff_exists.mp (AList.lookup_isSome.mpr hname)
  unfold fkOps entryIf fkValidated fkChanged
  rw [hspec]
  cases hactual : actual.foreignKeys.lookup name with
  | none =>
    have hmem : name ∉ actual.foreignKeys := AList.lookup_eq_none.mp hactual
    simp [Option.guard, hspec, hactual, hmem, addFkOp]
  | some fk =>
    have hmem : name ∈ actual.foreignKeys := AList.lookup_isSome.mp (by rw [hactual]; rfl)
    cases hmatches : fkMatches fk spec <;> cases hvalid : fk.validated <;>
      simp [Option.guard, hspec, hactual, hmem, hmatches, hvalid, addFkOp]

theorem dropOps_eq {p : Prop} [Decidable p] (op : String → DdlOp) (name : String) :
    (if p then [op name] else []) = (Option.guard (fun _ => decide p) name).toList.map op := by
  by_cases hp : p <;> simp [Option.guard, hp]

theorem flatMap_toList_map {α β : Type} (o : String → Option α) (f : α → β) (names : List String) :
    (names.flatMap fun n => (o n).toList.map f) = (names.filterMap o).map f := by
  rw [List.filterMap_eq_flatMap_toList, List.map_flatMap]

theorem filterMap_guard (p : String → Bool) (names : List String) :
    names.filterMap (fun n => Option.guard (fun _ => p n) n) = names.filter p :=
  congrFun List.filterMap_eq_filter names

/-- The operations of a rank, rank by rank, are the phases; there are none of the ranks before. -/
theorem ofRank_schemaOps :
    ofRank 0 (schemaOps desired actual) = [] ∧ ofRank 1 (schemaOps desired actual) = [] ∧
    ofRank 2 (schemaOps desired actual) ++ (ofRank 3 (schemaOps desired actual) ++
      (ofRank 4 (schemaOps desired actual) ++ (ofRank 5 (schemaOps desired actual) ++
      (ofRank 6 (schemaOps desired actual) ++ (ofRank 7 (schemaOps desired actual) ++
      (ofRank 8 (schemaOps desired actual) ++ (ofRank 9 (schemaOps desired actual) ++
      (ofRank 10 (schemaOps desired actual) ++ ofRank 11 (schemaOps desired actual))))))))) =
        phases desired actual := by
  have hfks : (sortedKeys desired.foreignKeys).flatMap
      (fkOps desired.foreignKeys actual.foreignKeys) = (sortedKeys desired.foreignKeys).flatMap _ :=
    List.flatMap_congr fun n hn => fkOps_eq desired actual (mem_sortedKeys.mp hn)
  have hnil : ∀ names : List String, names.flatMap (fun _ => ([] : List DdlOp)) = [] :=
    fun names => List.flatMap_eq_nil_iff.mpr fun _ _ => rfl
  simp only [schemaOps, hfks, columnOps_eq, indexOps_eq, uniqueOps_eq, dropIndexOps, dropFkOps,
    dropUniqueOps, dropOps_eq DdlOp.dropIndexConcurrently, dropOps_eq DdlOp.dropForeignKey,
    dropOps_eq DdlOp.dropUnique, ofRank_append, ofRank_flatMap,
    ofRank_map (f := addColumnOp) (k := 2) fun _ => rfl,
    ofRank_map (f := syncOp) (k := 3) fun _ => rfl,
    ofRank_map (f := backfillOp desired.table) (k := 4) fun _ => rfl,
    ofRank_map (f := DdlOp.dropForeignKey) (k := 5) fun _ => rfl,
    ofRank_map (f := DdlOp.dropUnique) (k := 6) fun _ => rfl,
    ofRank_map (f := DdlOp.dropIndexConcurrently) (k := 7) fun _ => rfl,
    ofRank_map (f := createIndexOp) (k := 8) fun _ => rfl,
    ofRank_map (f := addUniqueOp) (k := 9) fun _ => rfl,
    ofRank_map (f := addFkOp) (k := 10) fun _ => rfl,
    ofRank_map (f := DdlOp.validateForeignKey) (k := 11) fun _ => rfl,
    Nat.reduceEqDiff, if_true, if_false, List.nil_append, List.append_nil, hnil, true_and]
  simp only [flatMap_toList_map, filterMap_entryIf, filterMap_guard, List.filterMap_eq_filter,
    ← List.map_append]
  rfl

end

/-! ## The plan -/

theorem rank_lt (op : DdlOp) : op.rank < 12 := by
  cases op <;> simp [DdlOp.rank]

theorem rank_applyRenames (desired columns : Specs ColumnSpec) (renames : List (String × String)) :
    ∀ op ∈ (applyRenames desired columns renames).2, op.rank = 1 := by
  induction renames generalizing columns with
  | nil => simp [applyRenames]
  | cons rn renames ih =>
    intro op hop
    rcases List.mem_append.mp hop with hop | hop
    · unfold applyRename at hop
      split at hop
      · cases hop
      · split at hop
        · cases hop
        · simp only [List.mem_singleton] at hop
          simp [hop, DdlOp.rank]
    · exact ih _ op hop

/-- The schema a plan is made against: the table's, or an empty one, with its columns renamed. -/
def planBase (desired : PhysicalSchema) (actual : Option PhysicalSchema)
    (renames : List (String × String)) : PhysicalSchema :=
  let actualCopy := actual.getD (emptySchema desired.table)
  { actualCopy with columns := (applyRenames desired.columns actualCopy.columns renames).1 }

def createOps (actual : Option PhysicalSchema) : List DdlOp :=
  if actual.isNone then [.createTable] else []

def renameOps (desired : PhysicalSchema) (actual : Option PhysicalSchema)
    (renames : List (String × String)) : List DdlOp :=
  (applyRenames desired.columns (actual.getD (emptySchema desired.table)).columns renames).2

/-- A plan creates the table, renames columns, and then goes through the phases. -/
theorem diff_eq (desired : PhysicalSchema) (actual : Option PhysicalSchema)
    (renames : List (String × String)) :
    diff desired actual renames = createOps actual ++ (renameOps desired actual renames ++
      phases desired (planBase desired actual renames)) := by
  have hcreate : ∀ op ∈ createOps actual, op.rank = 0 := by
    intro op hop
    unfold createOps at hop
    split at hop
    · simp only [List.mem_singleton] at hop
      simp [hop, DdlOp.rank]
    · cases hop
  have hrename : ∀ op ∈ renameOps desired actual renames, op.rank = 1 :=
    rank_applyRenames _ _ _
  have hdiff : diff desired actual renames = topoSort (createOps actual ++
      renameOps desired actual renames ++
        schemaOps desired (planBase desired actual renames)) := rfl
  have hsort : ∀ ops, topoSort ops = ofRank 0 ops ++ (ofRank 1 ops ++ (ofRank 2 ops ++
      (ofRank 3 ops ++ (ofRank 4 ops ++ (ofRank 5 ops ++ (ofRank 6 ops ++ (ofRank 7 ops ++
      (ofRank 8 ops ++ (ofRank 9 ops ++ (ofRank 10 ops ++ ofRank 11 ops)))))))))) := by
    intro ops
    rw [topoSort, StableSort.sortByRank_eq_byRank fun op _ => rank_lt op]
    simp only [StableSort.byRank, List.range_succ, List.range_zero, List.nil_append,
      List.flatMap_append, List.flatMap_cons, List.flatMap_nil, List.append_nil, List.append_assoc]
    rfl
  obtain ⟨hzero, hone, hphases⟩ := ofRank_schemaOps desired (planBase desired actual renames)
  rw [hdiff, hsort, ← hphases]
  simp only [ofRank_append, ofRank_of_rank hcreate, ofRank_of_rank hrename, hzero, hone,
    Nat.reduceEqDiff, if_true, if_false, List.append_nil, List.nil_append]

end Metap.Reconciler
