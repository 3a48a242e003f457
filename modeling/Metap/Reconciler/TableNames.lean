import Metap.Reconciler.Compile

/-!
# Tables of their own

The table of an entity is named after it, with underscores for the dots; its indexes and the
functions of its triggers are named after the table and a field.  Neither keeps names apart: `a.b_c`
and `a_b.c` have one table (`registered_entities_share_table`), and two entities with tables of
their own may share an index and a function.  The registry checks names only, so two entities may
also be given one table outright.

`tables_distinct_iff` says exactly when the tables are distinct, and gives a rule under which
nothing is shared: no table name followed by an underscore begins with another one.
-/

namespace Metap.Reconciler

/-! ## Names that resemble each other -/

def mangleChar (c : Char) : Char := if c = '.' then '_' else c

/-- Two names that differ at most in where they have dots and where underscores. -/
def Resembles (a b : String) : Prop :=
  List.Forall₂ (fun c d => c = d ∨ (c ∈ ['.', '_'] ∧ d ∈ ['.', '_'])) a.toList b.toList

instance (a b : String) : Decidable (Resembles a b) := inferInstanceAs (Decidable (List.Forall₂ ..))

theorem mangleChar_eq_iff {c d : Char} :
    mangleChar c = mangleChar d ↔ c = d ∨ (c ∈ ['.', '_'] ∧ d ∈ ['.', '_']) := by
  simp only [mangleChar, List.mem_cons, List.not_mem_nil, or_false]
  grind

theorem toList_tableNameFor (name : String) :
    (tableNameFor name).toList = name.toList.map mangleChar := by
  simp [tableNameFor, mangleChar]

theorem tableNameFor_eq_iff {a b : String} : tableNameFor a = tableNameFor b ↔ Resembles a b := by
  have hlists : ∀ cs ds : List Char, cs.map mangleChar = ds.map mangleChar ↔
      List.Forall₂ (fun c d => c = d ∨ (c ∈ ['.', '_'] ∧ d ∈ ['.', '_'])) cs ds := by
    intro cs
    induction cs with
    | nil => simp
    | cons c cs ih =>
      intro ds
      cases ds with
      | nil => simp
      | cons d ds =>
        rw [List.map_cons, List.map_cons, List.cons.injEq, mangleChar_eq_iff, ih,
          List.forall₂_cons]
  rw [← String.toList_inj, toList_tableNameFor, toList_tableNameFor]
  exact hlists a.toList b.toList

theorem qualifiedTableNameIn_eq_iff {a b schema : String} :
    qualifiedTableNameIn a schema = qualifiedTableNameIn b schema ↔ Resembles a b := by
  rw [qualifiedTableNameIn, qualifiedTableNameIn, String.append_right_inj, tableNameFor_eq_iff]

/-! ## Trigger functions -/

/-- What stands after the last dot. -/
def bareTable (table : String) : String :=
  String.ofList (table.toList.reverse.takeWhile (· ≠ '.')).reverse

/-- The function that keeps a column in step; its name has no schema. -/
def syncFunctionName (table field : String) : String := "sync_" ++ bareTable table ++ "_" ++ field

theorem bareTable_qualifiedTableNameIn (name schema : String) :
    bareTable (qualifiedTableNameIn name schema) = tableNameFor name := by
  have hdots : ∀ c ∈ (tableNameFor name).toList.reverse, decide (c ≠ '.') = true := by
    intro c hc
    rw [List.mem_reverse, toList_tableNameFor] at hc
    obtain ⟨d, -, rfl⟩ := List.mem_map.mp hc
    unfold mangleChar
    split <;> simp_all
  rw [bareTable, qualifiedTableNameIn, String.toList_append, String.toList_append,
    List.reverse_append, List.reverse_append, List.takeWhile_append_of_pos hdots]
  simp

/-! ## Names as the database keeps them -/

variable {front : List Char} {n : ℕ} {i : String × IndexSpec}

theorem takeBytes_append (h : String.utf8Len front ≤ n) (rest : List Char) :
    takeBytes n (front ++ rest) = front ++ takeBytes (n - String.utf8Len front) rest := by
  induction front generalizing n with
  | nil => rfl
  | cons c cs ih =>
    rw [String.utf8Len] at h ⊢
    rw [List.cons_append, takeBytes, if_pos (by omega), ih (by omega), List.cons_append,
      Nat.sub_sub, Nat.add_comm]

theorem storedName_of_le {name : String} (h : name.utf8ByteSize ≤ maxIdentifierBytes) :
    storedName name = name := by
  rw [← String.ofList_toList (s := name), String.utf8ByteSize_ofList] at h
  have hall := takeBytes_append h []
  rw [List.append_nil] at hall
  rw [storedName, hall]
  simp [takeBytes]

/-- What a text begins with is kept if it fits. -/
theorem isPrefix_takeBytes {text : List Char} (h : front <+: text)
    (hfits : String.utf8Len front ≤ n) : front <+: takeBytes n text := by
  obtain ⟨rest, rfl⟩ := h
  rw [takeBytes_append hfits]
  exact List.prefix_append _ _

theorem isPrefix_storedName {name : String} (h : front <+: name.toList)
    (hfits : String.utf8Len front ≤ maxIdentifierBytes) : front <+: (storedName name).toList := by
  rw [storedName, String.toList_ofList]
  exact isPrefix_takeBytes h hfits

/-- The same for a text that is cut to make room for a suffix. -/
theorem isPrefix_cut {text suffix : String} (h : front <+: text.toList)
    (hfits : String.utf8Len front ≤ maxIdentifierBytes - n) (hsuffix : suffix.utf8ByteSize = n) :
    front <+: (String.ofList
      (takeBytes (maxIdentifierBytes - suffix.utf8ByteSize) text.toList) ++ suffix).toList := by
  rw [hsuffix, String.toList_append, String.toList_ofList]
  exact (isPrefix_takeBytes h hfits).trans (List.prefix_append _ _)

/-! ## The names an entity takes -/

/-- The relations an entity has in the schema of its table: the table and its indexes. -/
def relationNames (entity : EntityDefinition) : List String :=
  bareTable entity.tableName :: (indexEntries entity).map Prod.fst

def functionNames (entity : EntityDefinition) : List String :=
  (entity.fields.filter compilesColumn).map fun f => syncFunctionName entity.tableName f.name

/-- Two entities of one schema share no relation and no function. -/
def Isolated (e e' : EntityDefinition) : Prop :=
  (∀ n ∈ relationNames e, ∀ n' ∈ relationNames e', storedName n ≠ storedName n') ∧
    ∀ n ∈ functionNames e, ∀ n' ∈ functionNames e', storedName n ≠ storedName n'

def indexKinds : List String := ["idx", "uniq", "gin", "trgm"]

/-- What the names of an entity's indexes and functions begin with, after their kind. -/
def stem (entityName : String) : List Char := (tableNameFor entityName ++ "_").toList

/-- A name short enough to be kept whole in the name of every index, and not taken for one. -/
def PlainName (entityName : String) : Prop :=
  (tableNameFor entityName).utf8ByteSize ≤ 48 ∧
    ∀ kind ∈ indexKinds, ¬(kind ++ "_").toList <+: (tableNameFor entityName).toList

instance (entityName : String) : Decidable (PlainName entityName) :=
  inferInstanceAs (Decidable (_ ∧ _))

theorem utf8Len_stem {entityName : String} (h : PlainName entityName) :
    String.utf8Len (stem entityName) ≤ 49 := by
  have hsize := h.1
  rw [← String.ofList_toList (s := tableNameFor entityName), String.utf8ByteSize_ofList] at hsize
  rw [stem, String.toList_append, String.utf8Len_append]
  have hlast : String.utf8Len "_".toList = 1 := by decide
  omega

theorem utf8Size_of_mem_hex8 {n : UInt32} {c : Char} (h : c ∈ (hex8 n).toList) :
    c.utf8Size = 1 := by
  have hdigit : ∀ d < 16, (Nat.digitChar d).utf8Size = 1 := by decide
  have hloop : ∀ (fuel n : ℕ) (ds : List Char), (∀ c ∈ ds, c.utf8Size = 1) →
      ∀ c ∈ Nat.toDigitsCore 16 fuel n ds, c.utf8Size = 1 := by
    intro fuel
    induction fuel with
    | zero => exact fun _ ds h => h
    | succ fuel ih =>
      intro n ds h
      have hcons : ∀ c ∈ Nat.digitChar (n % 16) :: ds, c.utf8Size = 1 := by
        simpa [hdigit _ (Nat.mod_lt n (by decide))] using h
      unfold Nat.toDigitsCore
      dsimp only
      split
      · exact hcons
      · exact ih _ _ hcons
  rw [hex8, String.toList_ofList, List.mem_append] at h
  rcases h with h | h
  · rw [List.eq_of_mem_replicate h]
    rfl
  · exact hloop _ _ [] (by simp) c h

theorem length_hex8 (n : UInt32) : (hex8 n).toList.length = 8 := by
  have hle : (Nat.toDigits 16 n.toNat).length ≤ 8 := by
    rw [Nat.length_toDigits_le_iff (by decide) (by decide)]
    exact n.toNat_lt
  rw [hex8, String.toList_ofList, List.length_append, List.length_replicate]
  omega

theorem utf8ByteSize_hex8 (n : UInt32) : (hex8 n).utf8ByteSize = 8 := by
  have hlen : ∀ cs : List Char, (∀ c ∈ cs, c.utf8Size = 1) → String.utf8Len cs = cs.length := by
    intro cs
    induction cs with
    | nil => exact fun _ => rfl
    | cons c cs ih =>
      intro h
      rw [String.utf8Len, ih fun d hd => h d (List.mem_cons_of_mem _ hd), h c List.mem_cons_self,
        List.length_cons]
  rw [← String.ofList_toList (s := hex8 n), String.utf8ByteSize_ofList,
    hlen _ fun c hc => utf8Size_of_mem_hex8 hc, length_hex8]

theorem stem_isPrefix_compositeUniqueIndexName {entityName : String} (h : PlainName entityName)
    (fields : List String) :
    "uniq_".toList ++ stem entityName <+: (compositeUniqueIndexName entityName fields).toList := by
  have hfits : String.utf8Len ("uniq_".toList ++ stem entityName) ≤ maxIdentifierBytes - 9 := by
    have hstem := utf8Len_stem h
    have hkind : String.utf8Len "uniq_".toList = 5 := by decide
    rw [String.utf8Len_append, maxIdentifierBytes]
    omega
  have hfull : "uniq_".toList ++ stem entityName <+:
      ("uniq_" ++ tableNameFor entityName ++ "_" ++ "_".intercalate fields).toList := by
    refine ⟨("_".intercalate fields).toList, ?_⟩
    simp only [stem, String.toList_append, List.append_assoc]
  unfold compositeUniqueIndexName
  dsimp only
  split
  · exact hfull
  · refine isPrefix_cut hfull hfits ?_
    rw [String.utf8ByteSize_append, utf8ByteSize_hex8]
    rfl

theorem stem_isPrefix_indexName (entityName fieldName kind : String) :
    (kind ++ "_").toList ++ stem entityName <+: (indexName entityName fieldName kind).toList := by
  refine ⟨fieldName.toList, ?_⟩
  simp only [indexName, stem, String.toList_append, List.append_assoc]

/-- The indexes of an entity are named by kind, table and field. -/
theorem name_of_mem_indexEntries {entity : EntityDefinition} (h : i ∈ indexEntries entity) :
    (∃ kind ∈ indexKinds, ∃ fieldName, i.1 = indexName entity.name fieldName kind) ∨
      ∃ fields, i.1 = compositeUniqueIndexName entity.name fields := by
  rw [indexEntries, List.mem_cons, List.mem_append] at h
  rcases h with rfl | h | h
  · exact .inl ⟨"idx", by decide, "tenant_id", rfl⟩
  · obtain ⟨field, -, hi⟩ := List.mem_flatMap.mp h
    left
    rcases mem_fieldEntries hi with rfl | ⟨hi, -⟩
    · unfold searchIndex
      split
      · exact ⟨"gin", by decide, field.name, rfl⟩
      · exact ⟨"trgm", by decide, field.name, rfl⟩
    · obtain ⟨lead, rfl⟩ := mem_storedEntries hi
      cases hunique : boolOrFalse field.unique
      · exact ⟨"idx", by decide, field.name, by simp [fieldIndex, hunique]⟩
      · exact ⟨"uniq", by decide, field.name, by simp [fieldIndex, hunique]⟩
  · obtain ⟨c, -, rfl⟩ := List.mem_map.mp h
    exact .inr ⟨c.fields, fst_constraintIndex entity c⟩

/-- The stored name of an index begins with its kind and the stem of its entity. -/
theorem stem_isPrefix_of_mem_indexEntries {entity : EntityDefinition}
    (hplain : PlainName entity.name) (h : i ∈ indexEntries entity) :
    ∃ kind ∈ indexKinds, (kind ++ "_").toList ++ stem entity.name <+: (storedName i.1).toList := by
  have hfits : ∀ kind ∈ indexKinds,
      String.utf8Len ((kind ++ "_").toList ++ stem entity.name) ≤ maxIdentifierBytes := by
    intro kind hkind
    have hstem := utf8Len_stem hplain
    have hshort : ∀ kind ∈ indexKinds, String.utf8Len (kind ++ "_").toList ≤ 5 := by decide
    have hkind := hshort kind hkind
    rw [String.utf8Len_append, maxIdentifierBytes]
    omega
  rcases name_of_mem_indexEntries h with ⟨kind, hkind, fieldName, hname⟩ | ⟨fields, hname⟩
  · refine ⟨kind, hkind, isPrefix_storedName ?_ (hfits kind hkind)⟩
    rw [hname]
    exact stem_isPrefix_indexName _ _ _
  · refine ⟨"uniq", by decide, isPrefix_storedName ?_ (hfits "uniq" (by decide))⟩
    rw [hname]
    exact stem_isPrefix_compositeUniqueIndexName hplain fields

/-- One text does not begin with two kinds. -/
theorem comparable_of_isPrefix {kind kind' : String} (hkind : kind ∈ indexKinds)
    (hkind' : kind' ∈ indexKinds) {front' text : List Char}
    (h : (kind ++ "_").toList ++ front <+: text) (h' : (kind' ++ "_").toList ++ front' <+: text) :
    front <+: front' ∨ front' <+: front := by
  have hkinds := List.prefix_or_prefix_of_prefix h h'
  revert hkinds
  simp only [indexKinds, List.mem_cons, List.not_mem_nil, or_false] at hkind hkind'
  rcases hkind with rfl | rfl | rfl | rfl <;> rcases hkind' with rfl | rfl | rfl | rfl <;> simp

/-! ## Registries -/

/-- Neither stem begins with the other. -/
def StemsApart (e e' : EntityDefinition) : Prop :=
  ¬stem e.name <+: stem e'.name ∧ ¬stem e'.name <+: stem e.name

instance (e e' : EntityDefinition) : Decidable (StemsApart e e') :=
  inferInstanceAs (Decidable (_ ∧ _))

theorem isolated_of_stemsApart {e e' : EntityDefinition} {schema : String}
    (he : e.tableName = qualifiedTableNameIn e.name schema)
    (he' : e'.tableName = qualifiedTableNameIn e'.name schema) (hplain : PlainName e.name)
    (hplain' : PlainName e'.name) (h : StemsApart e e') : Isolated e e' := by
  have hnot : ¬(stem e.name <+: stem e'.name ∨ stem e'.name <+: stem e.name) := not_or.mpr h
  have htable : ∀ {name : String}, PlainName name →
      storedName (tableNameFor name) = tableNameFor name :=
    fun h => storedName_of_le (h.1.trans (by decide))
  -- a table is not taken for an index
  have hmixed : ∀ {a b : EntityDefinition}, PlainName a.name → PlainName b.name →
      ∀ i ∈ indexEntries b, tableNameFor a.name ≠ storedName i.1 := by
    intro a b ha hb i hi heq
    obtain ⟨kind, hkind, hstem⟩ := stem_isPrefix_of_mem_indexEntries hb hi
    rw [← heq] at hstem
    exact ha.2 kind hkind ((List.prefix_append _ _).trans hstem)
  constructor
  · intro n hn n' hn' heq
    rw [relationNames, he, bareTable_qualifiedTableNameIn, List.mem_cons] at hn
    rw [relationNames, he', bareTable_qualifiedTableNameIn, List.mem_cons] at hn'
    rcases hn with rfl | hn <;> rcases hn' with rfl | hn'
    · rw [htable hplain, htable hplain'] at heq
      exact h.1 (by rw [stem, stem, heq])
    · obtain ⟨i, hi, rfl⟩ := List.mem_map.mp hn'
      rw [htable hplain] at heq
      exact hmixed hplain hplain' i hi heq
    · obtain ⟨i, hi, rfl⟩ := List.mem_map.mp hn
      rw [htable hplain'] at heq
      exact hmixed hplain' hplain i hi heq.symm
    · obtain ⟨i, hi, rfl⟩ := List.mem_map.mp hn
      obtain ⟨i', hi', rfl⟩ := List.mem_map.mp hn'
      obtain ⟨kind, hkind, hstem⟩ := stem_isPrefix_of_mem_indexEntries hplain hi
      obtain ⟨kind', hkind', hstem'⟩ := stem_isPrefix_of_mem_indexEntries hplain' hi'
      rw [← heq] at hstem'
      exact hnot (comparable_of_isPrefix hkind hkind' hstem hstem')
  · have hfunction : ∀ {name : String} (field : String), PlainName name →
        "sync_".toList ++ stem name <+:
          (storedName (syncFunctionName (qualifiedTableNameIn name schema) field)).toList := by
      intro name field hplain
      refine isPrefix_storedName ⟨field.toList, ?_⟩ ?_
      · simp only [syncFunctionName, bareTable_qualifiedTableNameIn, stem, String.toList_append,
          List.append_assoc]
      · have hstem := utf8Len_stem hplain
        have hkind : String.utf8Len "sync_".toList = 5 := by decide
        rw [String.utf8Len_append, maxIdentifierBytes]
        omega
    intro n hn n' hn' heq
    obtain ⟨f, -, rfl⟩ := List.mem_map.mp hn
    obtain ⟨f', -, rfl⟩ := List.mem_map.mp hn'
    rw [he, he'] at heq
    have hfront := hfunction f'.name hplain'
    rw [← heq] at hfront
    have hcomparable := List.prefix_or_prefix_of_prefix (hfunction f.name hplain) hfront
    rw [List.prefix_append_right_inj, List.prefix_append_right_inj] at hcomparable
    exact hnot hcomparable

/-- The names that give one table are those that resemble each other; so the entities of a registry
that have the tables of their names have distinct ones exactly when no two names resemble each
other.  They share nothing else in the database if no stem begins with another and the names are
plain. -/
theorem tables_distinct_iff (a b schema : String) (registry : MetadataRegistry)
    (htables : ∀ e ∈ registry.entities, e.tableName = qualifiedTableNameIn e.name schema) :
    (tableNameFor a = tableNameFor b ↔ Resembles a b) ∧
    (qualifiedTableNameIn a schema = qualifiedTableNameIn b schema ↔ Resembles a b) ∧
    ((registry.entities.map EntityDefinition.tableName).Nodup ↔
      registry.entities.Pairwise fun e e' => ¬Resembles e.name e'.name) ∧
    ((∀ e ∈ registry.entities, PlainName e.name) → registry.entities.Pairwise StemsApart →
      registry.entities.Pairwise Isolated) := by
  refine ⟨tableNameFor_eq_iff, qualifiedTableNameIn_eq_iff, ?_, ?_⟩
  · rw [List.nodup_iff_pairwise_ne, List.pairwise_map]
    refine List.Pairwise.iff_of_mem ?_
    intro e e' he he'
    rw [htables e he, htables e' he', Ne, qualifiedTableNameIn_eq_iff]
  · intro hplain hstems
    refine hstems.imp_of_mem ?_
    intro e e' he he' hstem
    exact isolated_of_stemsApart (htables e he) (htables e' he') (hplain e he) (hplain e' he') hstem

/-! ## Entities that share names -/

/-- An entity with the table of its name. -/
def namedEntity (name : String) (fields : List EntityField) : EntityDefinition where
  name
  tableName := qualifiedTableNameFor name
  fields

def labelField : EntityField where
  name := "label"
  kind := .string

theorem tables_distinct_iff_unrelated :
    ∃ registry, MetadataRegistry.registerAll
        [namedEntity "crm.leads" [labelField], namedEntity "hr.staff" [labelField]] = .ok registry ∧
      tableNameFor "crm.leads" ≠ tableNameFor "hr.staff" ∧
      (registry.entities.map EntityDefinition.tableName).Nodup ∧
      registry.entities.Pairwise Isolated := by
  obtain ⟨registry, hregistry⟩ := MetadataRegistry.registerAll_iff.mpr
    (show (∀ e ∈ [namedEntity "crm.leads" [labelField], namedEntity "hr.staff" [labelField]],
      validate e = []) ∧ _ from ⟨by decide, by decide⟩)
  have hentities := MetadataRegistry.entities_of_registerAll hregistry
  obtain ⟨hnames, -, htables, hisolated⟩ := tables_distinct_iff "crm.leads" "hr.staff" entitySchema
    registry (by rw [hentities]; decide)
  refine ⟨registry, hregistry, mt hnames.mp (by decide), htables.mpr ?_, hisolated ?_ ?_⟩
  · rw [hentities]
    decide
  · rw [hentities]
    decide
  · rw [hentities]
    decide

/-- Two registered entities with one table. -/
theorem registered_entities_share_table :
    (∃ registry, MetadataRegistry.registerAll
      [namedEntity "a.b_c" [labelField], namedEntity "a_b.c" [labelField]] = .ok registry) ∧
    tableNameFor "a.b_c" = tableNameFor "a_b.c" ∧
    (namedEntity "a.b_c" [labelField]).tableName = (namedEntity "a_b.c" [labelField]).tableName ∧
    (compile (namedEntity "a.b_c" [labelField])).map PhysicalSchema.table =
      .ok "entities.a_b_c" ∧
    (compile (namedEntity "a_b.c" [labelField])).map PhysicalSchema.table =
      .ok "entities.a_b_c" := by
  refine ⟨MetadataRegistry.registerAll_iff.mpr ⟨by decide, by decide⟩, by decide, by decide,
    ?_, ?_⟩ <;> decide

end Metap.Reconciler
