import Metap.Reconciler.Convergence

/-!
# Sync triggers and renames

A sync trigger belongs to a field: it writes the column of the field's name from the member of that
name.  (Triggers are told apart by their fields, as they are by their names while these fit into the
limit of the database.)  A renamed column keeps the origin it had under its old name, and the
database does not look into the bodies of triggers.  So after a rename the trigger of the old name
writes a column that is gone, and nothing writes the new one (`rename_orphans_trigger`).
`triggersConsistent_iff` says when a plan leaves the triggers in order.
-/

namespace Metap.Reconciler

open AssocList

/-- The trigger of a field writes the column of its name, from the member of its name. -/
def Table.Syncs (t : Table) (field column source : String) : Prop :=
  field ∈ t.triggers ∧ column = field ∧ source = field

/-- Every trigger writes a column that is there, and every generated column has one trigger that
writes it, from the field it is to come from. -/
structure TriggersConsistent (desired : PhysicalSchema) (t : Table) : Prop where
  assigned : ∀ field column source, t.Syncs field column source → column ∈ t.columns
  written : ∀ n spec sourceField backfilled, desired.columns.lookup n = some spec →
    spec.origin = .generated sourceField backfilled →
    (∃! field, ∃ source, t.Syncs field n source) ∧
      ∀ field source, t.Syncs field n source → source = sourceField

theorem triggersConsistent_iff_mem {desired : PhysicalSchema} {t : Table} :
    TriggersConsistent desired t ↔ (∀ field ∈ t.triggers, field ∈ t.columns) ∧
      ∀ n spec sourceField backfilled, desired.columns.lookup n = some spec →
        spec.origin = .generated sourceField backfilled → n ∈ t.triggers ∧ sourceField = n := by
  constructor
  · intro h
    refine ⟨fun field hfield => h.assigned field field field ⟨hfield, rfl, rfl⟩, ?_⟩
    intro n spec sourceField backfilled hspec horigin
    obtain ⟨⟨field, ⟨source, hmem, hcolumn, hsource⟩, -⟩, hwritten⟩ :=
      h.written n spec sourceField backfilled hspec horigin
    rw [hcolumn, ← hwritten field source ⟨hmem, hcolumn, hsource⟩]
    exact ⟨hmem, hsource⟩
  · rintro ⟨hassigned, hwritten⟩
    refine ⟨?_, ?_⟩
    · rintro field column source ⟨hmem, rfl, -⟩
      exact hassigned column hmem
    · intro n spec sourceField backfilled hspec horigin
      obtain ⟨hmem, rfl⟩ := hwritten n spec sourceField backfilled hspec horigin
      refine ⟨⟨sourceField, ⟨sourceField, hmem, rfl, rfl⟩, ?_⟩, ?_⟩
      · rintro field ⟨source, -, rfl, -⟩
        rfl
      · rintro field source ⟨-, rfl, rfl⟩
        rfl

/-! ## What a plan does to columns and triggers -/

section

variable {pg : Rendering} {db db' : Database} {t : Table}

/-- Dropping, building and validating touches neither columns nor triggers. -/
theorem Table.exec_keeps {op : DdlOp} {t' : Table} (hop : 5 ≤ op.rank)
    (hexec : t.exec pg op = some t') : t'.columns = t.columns ∧ t'.triggers = t.triggers := by
  cases op with
  | createTable | renameColumn _ _ | addColumn _ _ | addSyncTrigger _ _ | backfillColumn _ _ _ _ =>
    simp [DdlOp.rank] at hop
  | createIndexConcurrently _ _ | addForeignKeyNotValid _ _ | addUnique _ _ =>
    obtain ⟨-, heq⟩ := Option.ite_none_right_eq_some.mp hexec
    cases heq
    exact ⟨rfl, rfl⟩
  | dropIndexConcurrently name =>
    obtain ⟨-, heq⟩ := Option.ite_none_left_eq_some.mp hexec
    cases heq
    exact ⟨rfl, rfl⟩
  | validateForeignKey name =>
    obtain ⟨fk, -, rfl⟩ := Option.map_eq_some_iff.mp hexec
    exact ⟨rfl, rfl⟩
  | dropForeignKey _ | dropUnique _ =>
    cases hexec
    exact ⟨rfl, rfl⟩

/-- After the renames, an operation may add the column or the trigger it says, and nothing else. -/
theorem exec_frame {op : DdlOp} (hop : 2 ≤ op.rank) (ht : db.table = some t)
    (hexec : exec pg db op = some db') : ∃ t', db'.table = some t' ∧
      (∀ k, k ∈ t'.columns ↔ k ∈ t.columns ∨ ∃ spec, op = .addColumn k spec) ∧
      ∀ k, k ∈ t'.triggers ↔ k ∈ t.triggers ∨ ∃ sqlType, op = .addSyncTrigger k sqlType := by
  have hkeeps : 5 ≤ op.rank → exec pg db op = (t.exec pg op).map db.withTable →
      ∃ t', db'.table = some t' ∧ t'.columns = t.columns ∧ t'.triggers = t.triggers := by
    intro hrank heq
    rw [heq, Option.map_eq_some_iff] at hexec
    obtain ⟨t', ht', rfl⟩ := hexec
    exact ⟨t', rfl, Table.exec_keeps hrank ht'⟩
  cases op with
  | createTable | renameColumn _ _ => simp [DdlOp.rank] at hop
  | addColumn name spec =>
    simp only [exec, ht, Option.bind_some, Table.exec, Option.map_some, Option.some.injEq] at hexec
    subst hexec
    refine ⟨_, rfl, fun k => ?_, fun k => by simp⟩
    split
    · next hmem =>
      refine ⟨.inl, fun h => h.elim id ?_⟩
      rintro ⟨_, heq⟩
      cases heq
      exact hmem
    · simp only [AList.mem_insert, DdlOp.addColumn.injEq]
      rw [or_comm]
      refine or_congr_right ⟨fun h => ⟨spec, h.symm, rfl⟩, fun h => h.choose_spec.1.symm⟩
  | addSyncTrigger field sqlType =>
    simp only [exec, ht, Option.bind_some, Table.exec, Option.map_some, Option.some.injEq] at hexec
    subst hexec
    refine ⟨_, rfl, fun k => by simp, fun k => ?_⟩
    simp only [AList.mem_insert, DdlOp.addSyncTrigger.injEq]
    rw [or_comm]
    exact or_congr_right ⟨fun h => ⟨sqlType, h.symm, rfl⟩, fun h => h.choose_spec.1.symm⟩
  | backfillColumn opID column sourceField sqlType =>
    simp only [exec, ht, Option.bind_some] at hexec
    obtain ⟨-, heq⟩ := Option.ite_none_right_eq_some.mp hexec
    cases heq
    exact ⟨t, ht, fun k => by simp, fun k => by simp⟩
  | _ =>
    obtain ⟨t', ht', hcolumns, htriggers⟩ :=
      hkeeps (by simp [DdlOp.rank]) (by simp only [exec, ht, Option.bind_some]; rfl)
    exact ⟨t', ht', fun k => by simp [hcolumns], fun k => by simp [htriggers]⟩

theorem execAll_frame {ops : List DdlOp} (hops : ∀ op ∈ ops, 2 ≤ op.rank) (ht : db.table = some t)
    (hexec : execAll pg db ops = some db') : ∃ t', db'.table = some t' ∧
      (∀ k, k ∈ t'.columns ↔ k ∈ t.columns ∨ ∃ spec, .addColumn k spec ∈ ops) ∧
      ∀ k, k ∈ t'.triggers ↔ k ∈ t.triggers ∨ ∃ sqlType, .addSyncTrigger k sqlType ∈ ops := by
  induction ops generalizing db t with
  | nil =>
    cases hexec
    exact ⟨t, ht, fun k => by simp, fun k => by simp⟩
  | cons op ops ih =>
    rw [execAll_cons, Option.bind_eq_some_iff] at hexec
    obtain ⟨db₁, hfirst, hrest⟩ := hexec
    obtain ⟨hop, hops⟩ := List.forall_mem_cons.mp hops
    obtain ⟨t₁, ht₁, hcolumns₁, htriggers₁⟩ := exec_frame hop ht hfirst
    obtain ⟨t', ht', hcolumns, htriggers⟩ := ih hops ht₁ hrest
    refine ⟨t', ht', fun k => ?_, fun k => ?_⟩
    · rw [hcolumns, hcolumns₁]
      simp only [List.mem_cons, exists_or, eq_comm, or_assoc]
    · rw [htriggers, htriggers₁]
      simp only [List.mem_cons, exists_or, eq_comm, or_assoc]

/-- The renames of a plan lead to the columns the plan goes on with, and leave the triggers. -/
theorem execAll_renames {desired columns : Specs ColumnSpec} {renames : List (String × String)}
    (hkeys : ∀ k, k ∈ t.columns ↔ k ∈ columns) (ht : db.table = some t)
    (hexec : execAll pg db (applyRenames desired columns renames).2 = some db') :
    ∃ t', db'.table = some t' ∧
      (∀ k, k ∈ t'.columns ↔ k ∈ (applyRenames desired columns renames).1) ∧
      t'.triggers = t.triggers := by
  induction renames generalizing db t columns with
  | nil =>
    cases hexec
    exact ⟨t, ht, hkeys, rfl⟩
  | cons rn renames ih =>
    change execAll pg db ((applyRename desired columns rn).2 ++ _) = some db' at hexec
    rw [execAll_append, Option.bind_eq_some_iff] at hexec
    obtain ⟨db₁, hfirst, hrest⟩ := hexec
    have hone : ∃ t₁, db₁.table = some t₁ ∧
        (∀ k, k ∈ t₁.columns ↔ k ∈ (applyRename desired columns rn).1) ∧
        t₁.triggers = t.triggers := by
      unfold applyRename at hfirst ⊢
      split at hfirst
      · cases hfirst
        exact ⟨t, ht, hkeys, rfl⟩
      · next spec hspec =>
        split at hfirst
        · next hskip =>
          cases hfirst
          rw [if_pos hskip]
          exact ⟨t, ht, hkeys, rfl⟩
        · next hgo =>
          rw [if_neg hgo]
          rw [execAll_cons, Option.bind_eq_some_iff] at hfirst
          obtain ⟨db₂, hrename, hend⟩ := hfirst
          cases hend
          simp only [exec, ht, Option.bind_some, Table.exec] at hrename
          obtain ⟨t₁, hrenamed, rfl⟩ := Option.map_eq_some_iff.mp hrename
          obtain ⟨-, hfound⟩ := Option.ite_none_left_eq_some.mp hrenamed
          obtain ⟨c, -, rfl⟩ := Option.map_eq_some_iff.mp hfound
          refine ⟨_, rfl, fun k => ?_, rfl⟩
          simp only [Table.rename, AList.mem_insert, AList.mem_erase, hkeys]
    obtain ⟨t₁, ht₁, hkeys₁, htriggers₁⟩ := hone
    obtain ⟨t', ht', hkeys', htriggers'⟩ := ih hkeys₁ ht₁ hrest
    exact ⟨t', ht', hkeys', htriggers'.trans htriggers₁⟩

end

section

variable {desired view : PhysicalSchema}

theorem rank_phases : ∀ op ∈ phases desired view, 2 ≤ op.rank := by
  intro op hop
  simp only [phases, List.mem_append, List.mem_map] at hop
  rcases hop with ⟨e, -, rfl⟩ | ⟨e, -, rfl⟩ | ⟨e, -, rfl⟩ | ⟨e, -, rfl⟩ | ⟨e, -, rfl⟩ |
    ⟨e, -, rfl⟩ |
    ⟨e, -, rfl⟩ | ⟨e, -, rfl⟩ | ⟨e, -, rfl⟩ | ⟨e, -, rfl⟩ <;>
  simp [DdlOp.rank, addColumnOp, syncOp, backfillOp, createIndexOp, addUniqueOp, addFkOp]

theorem addColumn_mem_phases {k : String} :
    (∃ spec, .addColumn k spec ∈ phases desired view) ↔ k ∈ desired.columns ∧ k ∉ view.columns := by
  simp only [phases, List.mem_append, List.mem_map, addColumnOp, syncOp, backfillOp, createIndexOp,
    addUniqueOp, addFkOp, reduceCtorEq, and_false, exists_false, or_false, DdlOp.addColumn.injEq]
  rw [← mem_addedColumns]
  constructor
  · rintro ⟨spec, e, he, rfl, -⟩
    exact (mem_entriesOf.mp he).1
  · intro hadded
    obtain ⟨spec, hspec⟩ := mem_iff_lookup.mp (mem_addedColumns.mp hadded).1
    exact ⟨spec, (k, spec), mem_entriesOf.mpr ⟨hadded, hspec⟩, rfl, rfl⟩

theorem addSyncTrigger_mem_phases {k : String} :
    (∃ sqlType, .addSyncTrigger k sqlType ∈ phases desired view) ↔
      ∃ n s, syncSpec desired view n = some s ∧ s.sourceField = k := by
  simp only [phases, List.mem_append, List.mem_map, addColumnOp, syncOp, backfillOp, createIndexOp,
    addUniqueOp, addFkOp, reduceCtorEq, and_false, exists_false, or_false, false_or,
    DdlOp.addSyncTrigger.injEq]
  constructor
  · rintro ⟨sqlType, s, hs, hsource, -⟩
    obtain ⟨n, hspec⟩ := mem_syncedColumns.mp hs
    exact ⟨n, s, hspec, hsource⟩
  · rintro ⟨n, s, hspec, hsource⟩
    exact ⟨s.sqlType, s, mem_syncedColumns.mpr ⟨n, hspec⟩, hsource, rfl⟩

end

/-! ## When the triggers stay in order -/

/-- The triggers a table has, or none without a table. -/
def Database.triggers (db : Database) : List String :=
  (db.table.map fun t => t.triggers.keys).getD []

/-- What the renames must leave: `view` is the table's after the renames. -/
structure TriggersKept (desired view : PhysicalSchema) (triggers : List String) : Prop where
  /-- Every generated column comes from the field of its name. -/
  own : ∀ n spec sourceField backfilled, desired.columns.lookup n = some spec →
    spec.origin = .generated sourceField backfilled → sourceField = n
  /-- A generated column that is in place under another origin, as a renamed one is, has a trigger
  of its name, or gets one for the sake of another column. -/
  renamed : ∀ n spec sourceField backfilled actual, desired.columns.lookup n = some spec →
    spec.origin = .generated sourceField backfilled → view.columns.lookup n = some actual →
    (∀ b, actual.origin ≠ .generated n b) →
    n ∈ triggers ∨ ∃ m s, syncSpec desired view m = some s ∧ s.sourceField = n
  /-- No trigger is left on a column that is renamed away. -/
  left : ∀ field ∈ triggers, field ∈ view.columns ∨ field ∈ desired.columns
  /-- No trigger is made again for the name a column is renamed away from. -/
  resynced : ∀ n ∈ desired.columns, ∀ actual sourceField, view.columns.lookup n = some actual →
    actual.origin = .generated sourceField false →
    sourceField ∈ view.columns ∨ sourceField ∈ desired.columns

section

variable {pg : Rendering} {desired view : PhysicalSchema} {db db' : Database}
  {renames : List (String × String)} {t t' : Table}

/-- A renamed column keeps its specification. -/
theorem forall_applyRenames {wanted columns : Specs ColumnSpec} {P : ColumnSpec → Prop}
    (h : ∀ k spec, columns.lookup k = some spec → P spec) (renames : List (String × String)) :
    ∀ k spec, (applyRenames wanted columns renames).1.lookup k = some spec → P spec := by
  induction renames generalizing columns with
  | nil => exact h
  | cons rn renames ih =>
    refine ih fun k spec hspec => ?_
    unfold applyRename at hspec
    split at hspec
    · exact h k spec hspec
    · next old hold =>
      split at hspec
      · exact h k spec hspec
      · by_cases hk : k = rn.2
        · rw [hk, AList.lookup_insert] at hspec
          cases hspec
          exact h _ _ hold
        · rw [AList.lookup_insert_ne hk] at hspec
          by_cases hgone : k = rn.1
          · rw [hgone, AList.lookup_erase] at hspec
            cases hspec
          · rw [AList.lookup_erase_ne hgone] at hspec
            exact h k spec hspec

theorem applyRenames_empty (wanted : Specs ColumnSpec) (renames : List (String × String)) :
    applyRenames wanted ∅ renames = (∅, []) := by
  induction renames with
  | nil => rfl
  | cons rn renames ih =>
    have hskip : applyRename wanted ∅ rn = (∅, []) := rfl
    simp only [applyRenames, hskip, ih, List.append_nil]

theorem columns_planBase_none (desired : PhysicalSchema) (renames : List (String × String)) :
    (planBase desired none renames).columns = ∅ :=
  congrArg Prod.fst (applyRenames_empty desired.columns renames)

/-- A column that counts as backfilled under its own name has its trigger. -/
theorem trigger_of_backfilled (ht : db.table = some t) {n : String} {actual : ColumnSpec}
    (hactual : (planBase desired (introspect db desired.table) renames).columns.lookup n =
      some actual) (horigin : actual.origin = .generated n true) : n ∈ t.triggers := by
  have hview : introspect db desired.table = some (introspectTable db desired.table t) :=
    congrArg (Option.map _) ht
  rw [hview] at hactual
  obtain ⟨o, c, rfl⟩ : ∃ o c, actual = introspectColumn db t desired.table o c := by
    refine forall_applyRenames
      (P := fun spec => ∃ o c, spec = introspectColumn db t desired.table o c)
      (fun k spec hspec => ?_) renames n actual hactual
    obtain ⟨c, -, rfl⟩ :=
      Option.map_eq_some_iff.mp ((lookup_columns_introspectTable db desired.table t k).symm.trans
        hspec)
    exact ⟨k, c, rfl⟩
  unfold introspectColumn at horigin
  dsimp only at horigin
  split at horigin
  · cases horigin
  · obtain ⟨rfl, hdone⟩ := ColumnOrigin.generated.inj horigin
    rw [Bool.and_eq_true, decide_eq_true_eq] at hdone
    exact hdone.2

/-- Without a table there are neither triggers nor columns to rename. -/
theorem planBase_of_no_table (ht : db.table = none)
    (hview : view = planBase desired (introspect db desired.table) renames) :
    db.triggers = [] ∧ ∀ k, k ∉ view.columns := by
  have hactual : introspect db desired.table = none := congrArg (Option.map _) ht
  refine ⟨by simp [Database.triggers, ht], fun k => ?_⟩
  rw [hview, hactual, columns_planBase_none]
  exact AList.notMem_empty k

/-- Where the renames leave room for it, a generated column has its trigger or gets one. -/
theorem TriggersKept.trigger
    (hview : view = planBase desired (introspect db desired.table) renames)
    (hkept : TriggersKept desired view db.triggers) {n : String} {spec : ColumnSpec} {b : Bool}
    (hspec : desired.columns.lookup n = some spec) (horigin : spec.origin = .generated n b) :
    n ∈ db.triggers ∨ ∃ m s, syncSpec desired view m = some s ∧ s.sourceField = n := by
  cases hactual : view.columns.lookup n with
  | none =>
    have hsync : syncSpec desired view n = some ⟨n, n, spec.sqlType⟩ := by
      simp [syncSpec, hspec, hactual, horigin]
    exact .inr ⟨n, _, hsync, rfl⟩
  | some actual =>
    by_cases hplain : ∀ b, actual.origin ≠ .generated n b
    · exact hkept.renamed n spec n b actual hspec horigin hactual hplain
    · push Not at hplain
      obtain ⟨done, hdone⟩ := hplain
      cases done with
      | false =>
        have hsync : syncSpec desired view n = some ⟨n, n, spec.sqlType⟩ := by
          simp [syncSpec, hspec, hactual, hdone]
        exact .inr ⟨n, _, hsync, rfl⟩
      | true =>
        cases ht : db.table with
        | none =>
          exact absurd (mem_iff_lookup.mpr ⟨actual, hactual⟩) ((planBase_of_no_table ht hview).2 n)
        | some t =>
          rw [hview] at hactual
          have htrigger := trigger_of_backfilled ht hactual hdone
          left
          simpa [Database.triggers, ht, ← AList.mem_keys] using htrigger

/-- The columns and triggers a plan leaves. -/
theorem plan_frame (hexec : execAll pg db (diff desired (introspect db desired.table) renames) =
      some db') (ht' : db'.table = some t')
    (hview : view = planBase desired (introspect db desired.table) renames) :
    (∀ k, k ∈ t'.columns ↔ (k ∈ view.columns ∨ k ∈ desired.columns) ∨
      db.table = none ∧ k ∈ frameworkColumnNames) ∧
    ∀ k, k ∈ t'.triggers ↔ k ∈ db.triggers ∨
      ∃ n s, syncSpec desired view n = some s ∧ s.sourceField = k := by
  rw [diff_eq, ← hview] at hexec
  cases ht : db.table with
  | none =>
    have hactual : introspect db desired.table = none := congrArg (Option.map _) ht
    have hrenames : renameOps desired none renames = [] :=
      congrArg Prod.snd (applyRenames_empty desired.columns renames)
    have hcolumns : view.columns = ∅ := by
      rw [hview, hactual, columns_planBase_none]
    have hcreated : exec pg db .createTable =
        some { db with table := some .new, rowsLeft := fun _ => false } := by
      simp [exec, ht]
    rw [hactual, hrenames, List.nil_append, createOps, if_pos Option.isNone_none,
      List.singleton_append, execAll_cons, hcreated, Option.bind_some] at hexec
    obtain ⟨t'', ht'', hcols, htrigs⟩ := execAll_frame rank_phases rfl hexec
    cases ht''.symm.trans ht'
    refine ⟨fun k => ?_, fun k => ?_⟩
    · rw [hcols, mem_columns_new, addColumn_mem_phases, hcolumns]
      simp [AList.notMem_empty, or_comm]
    · rw [htrigs, addSyncTrigger_mem_phases]
      refine or_congr_left (iff_of_false (AList.notMem_empty k) ?_)
      simp [Database.triggers, ht]
  | some t =>
    have hactual : introspect db desired.table = some (introspectTable db desired.table t) :=
      congrArg (Option.map _) ht
    rw [hactual, createOps, if_neg (by simp), List.nil_append, execAll_append,
      Option.bind_eq_some_iff] at hexec
    obtain ⟨db₁, hrenames, hphases⟩ := hexec
    obtain ⟨t₁, ht₁, hkeys, htriggers⟩ :=
      execAll_renames (fun k => mem_columns_introspectTable.symm) ht hrenames
    have hcolumns : ∀ k, k ∈ t₁.columns ↔ k ∈ view.columns := by
      rw [hview, hactual]
      exact hkeys
    obtain ⟨t'', ht'', hcols, htrigs⟩ := execAll_frame rank_phases ht₁ hphases
    cases ht''.symm.trans ht'
    refine ⟨fun k => ?_, fun k => ?_⟩
    · rw [hcols, hcolumns, addColumn_mem_phases]
      by_cases hk : k ∈ view.columns <;> simp [hk]
    · rw [htrigs, addSyncTrigger_mem_phases, htriggers]
      refine or_congr_left ?_
      simp [Database.triggers, ht, AList.mem_keys]

end

/-- A plan that runs to its end leaves the triggers in order exactly when the renames leave room for
them. -/
theorem triggersConsistent_iff {pg : Rendering} {desired : PhysicalSchema} {db db' : Database}
    {renames : List (String × String)} {t' : Table}
    (hexec : execAll pg db (diff desired (introspect db desired.table) renames) = some db')
    (ht' : db'.table = some t') :
    TriggersConsistent desired t' ↔
      TriggersKept desired (planBase desired (introspect db desired.table) renames)
        db.triggers := by
  obtain ⟨view, hview⟩ : ∃ view, view = planBase desired (introspect db desired.table) renames :=
    ⟨_, rfl⟩
  obtain ⟨hcolumns, htriggers⟩ := plan_frame hexec ht' hview
  rw [triggersConsistent_iff_mem, ← hview]
  constructor
  · rintro ⟨hassigned, hwritten⟩
    refine ⟨fun n spec sourceField b hspec horigin =>
      (hwritten n spec sourceField b hspec horigin).2, ?_, ?_, ?_⟩
    · intro n spec sourceField b actual hspec horigin _ _
      exact (htriggers n).mp (hwritten n spec sourceField b hspec horigin).1
    · intro field hfield
      refine ((hcolumns field).mp (hassigned field
        ((htriggers field).mpr (.inl hfield)))).resolve_right fun habsent => ?_
      rw [(planBase_of_no_table habsent.1 hview).1] at hfield
      cases hfield
    · intro n hn actual sourceField hactual horigin
      obtain ⟨spec, hspec⟩ := mem_iff_lookup.mp hn
      have hsync : syncSpec desired view n = some ⟨n, sourceField, spec.sqlType⟩ := by
        simp [syncSpec, hspec, hactual, horigin]
      have hmem := hassigned sourceField ((htriggers sourceField).mpr (.inr ⟨n, _, hsync, rfl⟩))
      refine ((hcolumns sourceField).mp hmem).resolve_right fun habsent => ?_
      exact (planBase_of_no_table habsent.1 hview).2 n (mem_iff_lookup.mpr ⟨actual, hactual⟩)
  · intro hkept
    refine ⟨fun field hfield => (hcolumns field).mpr (.inl ?_),
      fun n spec sourceField b hspec horigin => ?_⟩
    · rcases (htriggers field).mp hfield with hold | ⟨n, s, hsync, rfl⟩
      · exact hkept.left field hold
      · have hn := (column_of_syncSpec hsync).2
        obtain ⟨-, spec, hspec, ⟨b, horigin⟩ | ⟨actual, hactual, horigin⟩⟩ := syncSpec_eq_some hsync
        · exact .inr ((hkept.own n spec _ b hspec horigin).symm ▸ hn)
        · exact hkept.resynced n hn actual _ hactual horigin
    · have hown := hkept.own n spec sourceField b hspec horigin
      subst hown
      exact ⟨(htriggers sourceField).mpr (hkept.trigger hview hspec horigin), rfl⟩

/-! ### Items with a serial number -/

def storedField (name : String) : EntityField where
  name
  kind := .string
  storage := some .column

/-- An item with its serial number in a column. -/
def serialItem : EntityDefinition := itemEntity [storedField "serial"] []

/-- The table of items with a number in a column, backfilled and kept in step, and with the triggers
of the given fields. -/
def numberedItems (triggers : List String) : Database where
  table := some
    { Table.new with
      columns := Table.new.columns.insert "sku" ⟨"text", true⟩
      triggers := insertAll ∅ (triggers.map fun field => (field, "text")) }
  completed opID := opID = backfillOpID "entities.shop_items" "sku"
  rowsLeft _ := false

/-- An item with a serial number beside another one. -/
def renumberedItem : EntityDefinition := itemEntity [storedField "serial", storedField "sku"] []

/-- The number is called serial number from now on, a name whose trigger is there already, and
another number takes its place: the triggers are in order. -/
theorem triggersConsistent_iff_renumbered : ∃ desired, compile renumberedItem = .ok desired ∧
    ∃ db' t', execAll respelling (numberedItems ["sku", "serial"])
      (diff desired (introspect (numberedItems ["sku", "serial"]) desired.table)
        [("sku", "serial")]) = some db' ∧
      db'.table = some t' ∧ .renameColumn "sku" "serial" ∈ diff desired
        (introspect (numberedItems ["sku", "serial"]) desired.table) [("sku", "serial")] ∧
      TriggersConsistent desired t' := by
  have hvalid : validate renumberedItem = [] := by decide
  obtain ⟨desired, hcompile, hview, hrenamed, db', t', hexec, ht'⟩ :
      ∃ desired, compile renumberedItem = .ok desired ∧
      (∀ e ∈ (planBase desired (introspect (numberedItems ["sku", "serial"]) desired.table)
        [("sku", "serial")]).columns.entries,
        e.2.origin = .framework ∨ e.2.origin = .generated "sku" true) ∧
      .renameColumn "sku" "serial" ∈ diff desired
        (introspect (numberedItems ["sku", "serial"]) desired.table) [("sku", "serial")] ∧
      ∃ db' t', execAll respelling (numberedItems ["sku", "serial"])
        (diff desired (introspect (numberedItems ["sku", "serial"]) desired.table)
          [("sku", "serial")]) = some db' ∧ db'.table = some t' :=
    ⟨_, rfl, by decide, by decide, _, _, rfl, rfl⟩
  have hd := desired_of_compile hvalid hcompile
  refine ⟨desired, hcompile, db', t', hexec, ht', hrenamed,
    (triggersConsistent_iff hexec ht').mpr ⟨?_, ?_, ?_, ?_⟩⟩
  · intro n spec sourceField backfilled hspec horigin
    rw [hd.origin n spec hspec] at horigin
    split at horigin
    · cases horigin
    · exact (ColumnOrigin.generated.inj horigin).1.symm
  · intro n spec sourceField backfilled actual hspec horigin _ _
    rcases lookup_columns_cases hvalid hcompile hspec with ⟨f, hf, rfl, -⟩ | hframework
    · simp only [renumberedItem, itemEntity, List.mem_cons, List.not_mem_nil, or_false] at hf
      rcases hf with rfl | rfl
      · exact .inl (by decide)
      · exact .inl (by decide)
    · rw [(lookup_frameworkColumns hframework).2] at horigin
      cases horigin
  · intro field hfield
    have hboth : ∀ field ∈ (numberedItems ["sku", "serial"]).triggers,
        ∃ f ∈ renumberedItem.fields, f.name = field ∧ compilesColumn f = true := by decide
    exact .inr ((mem_columns_of_compile hvalid hcompile).mpr (.inr (hboth field hfield)))
  · intro n _ actual sourceField hactual horigin
    rcases hview _ (AList.mem_lookup_iff.mp hactual) with hframework | hsku
    · rw [hframework] at horigin
      cases horigin
    · rw [hsku] at horigin
      cases horigin

/-- The number is called serial number from now on: the trigger writes a column that is gone, and
none writes the new one. -/
theorem rename_orphans_trigger : ∃ desired, compile serialItem = .ok desired ∧
    ∃ db' t', execAll respelling (numberedItems ["sku"])
      (diff desired (introspect (numberedItems ["sku"]) desired.table) [("sku", "serial")]) =
        some db' ∧ db'.table = some t' ∧ "sku" ∈ t'.triggers ∧ "sku" ∉ t'.columns ∧
      "serial" ∈ t'.columns ∧ "serial" ∉ t'.triggers ∧ ¬TriggersConsistent desired t' := by
  refine ⟨_, rfl, _, _, rfl, rfl, by decide, by decide, by decide, by decide, fun h => ?_⟩
  exact absurd (h.assigned "sku" "sku" "sku" ⟨by decide, rfl, rfl⟩) (by decide)

end Metap.Reconciler
