import Metap.Framework.Layers
import Metap.Metadata.Entity
import Metap.Reconciler.Orchestrator

/-!
# Waves of a claimed batch

The entities a worker has claimed are reconciled in waves, so that the table a reference points to
is there before the reference.  Within a tenant the waves are the layers of the reference graph;
across tenants they are merged, the first waves of all tenants first.

`topoSortWaves_spec`: every claimed row is in one wave; the rows a row refers to are in earlier
waves, unless its references lead into a cycle, and then it is in its tenant's last wave.
-/

namespace Metap.Reconciler

/-- A claimed entity with its definition. -/
structure ClaimedPair where
  claimed : ClaimedEntity
  entity : EntityDefinition

namespace ClaimedPair

def name (p : ClaimedPair) : String := p.claimed.entityName

def tenant (p : ClaimedPair) : Uuid := p.claimed.tenantID

def refersTo (p : ClaimedPair) (target : String) : Bool :=
  p.entity.fields.any fun f => f.kind = .reference && f.refEntity = some target

end ClaimedPair

/-! ## One tenant -/

/-- The pair kept under a name; a later one replaces an earlier one. -/
def pairNamed (items : List ClaimedPair) (name : String) : Option ClaimedPair :=
  items.reverse.find? fun p => p.name = name

/-- The entity of that name refers to another one of the batch. -/
def dependsOn (items : List ClaimedPair) (name target : String) : Bool :=
  target ≠ name && (items.map ClaimedPair.name).contains target &&
    (pairNamed items name).any fun p => p.refersTo target

/-- The waves of one tenant, each in the order of the names. -/
def tenantWaves (items : List ClaimedPair) : List (List ClaimedEntity) :=
  (Layers.layers (dependsOn items) (items.map ClaimedPair.name).dedup).map fun wave =>
    (wave.mergeSort fun a b => a ≤ b).filterMap fun name =>
      (pairNamed items name).map ClaimedPair.claimed

section

variable {items : List ClaimedPair} {p : ClaimedPair}

/-- Every name of the tenant is in a layer. -/
theorem exists_layer (hp : p ∈ items) :
    ∃ i, p.name ∈ (Layers.layers (dependsOn items) (items.map ClaimedPair.name)).getD i [] := by
  have hname : p.name ∈ items.map ClaimedPair.name := List.mem_map_of_mem hp
  have hflat := (Layers.flatten_layers_perm (dependsOn items) _).mem_iff.mpr hname
  obtain ⟨wave, hwave, hname⟩ := List.mem_flatten.mp hflat
  obtain ⟨i, hi⟩ := List.mem_iff_getElem?.mp hwave
  exact ⟨i, by rwa [List.getD_eq_getElem?_getD, hi]⟩

variable (hnodup : (items.map ClaimedPair.name).Nodup)

include hnodup

theorem pairNamed_name (hp : p ∈ items) : pairNamed items p.name = some p := by
  have hsome : (pairNamed items p.name).isSome := by
    rw [pairNamed, List.find?_isSome]
    exact ⟨p, List.mem_reverse.mpr hp, decide_eq_true rfl⟩
  obtain ⟨q, hq⟩ := Option.isSome_iff_exists.mp hsome
  have hmem := List.mem_reverse.mp (List.mem_of_find?_eq_some hq)
  have hname := List.find?_some hq
  rw [decide_eq_true_eq] at hname
  rw [hq, List.inj_on_of_nodup_map hnodup hmem hp hname]

theorem dependsOn_iff {q : ClaimedPair} (hp : p ∈ items) (hq : q ∈ items) :
    dependsOn items p.name q.name = true ↔ q.name ≠ p.name ∧ p.refersTo q.name = true := by
  have hmem : q.name ∈ items.map ClaimedPair.name := List.mem_map_of_mem hq
  simp [dependsOn, pairNamed_name hnodup hp, hmem]

theorem filterMap_pairNamed : (items.map ClaimedPair.name).filterMap (fun name =>
      (pairNamed items name).map ClaimedPair.claimed) = items.map ClaimedPair.claimed := by
  rw [List.filterMap_map, ← List.filterMap_eq_map]
  refine List.filterMap_congr fun p hp => ?_
  simp [pairNamed_name hnodup hp]

/-- Every row of the tenant is in one wave. -/
theorem flatten_tenantWaves_perm :
    (tenantWaves items).flatten.Perm (items.map ClaimedPair.claimed) := by
  have hwaves : ∀ layers : List (List String),
      ((layers.map fun wave => (wave.mergeSort fun a b => a ≤ b).filterMap fun name =>
        (pairNamed items name).map ClaimedPair.claimed).flatten).Perm
      (layers.flatten.filterMap fun name => (pairNamed items name).map ClaimedPair.claimed) := by
    intro layers
    induction layers with
    | nil => exact .nil
    | cons wave layers ih =>
      rw [List.map_cons, List.flatten_cons, List.flatten_cons, List.filterMap_append]
      exact ((List.mergeSort_perm _ _).filterMap _).append ih
  have hlayers := Layers.flatten_layers_perm (dependsOn items) (items.map ClaimedPair.name)
  rw [← filterMap_pairNamed hnodup, tenantWaves, List.dedup_eq_self.mpr hnodup]
  exact (hwaves _).trans (hlayers.filterMap _)

theorem mem_tenantWaves (hp : p ∈ items) {i : ℕ} : p.claimed ∈ (tenantWaves items).getD i [] ↔
      p.name ∈ (Layers.layers (dependsOn items) (items.map ClaimedPair.name)).getD i [] := by
  have hwave : ∀ wave : List String, (∀ name ∈ wave, name ∈ items.map ClaimedPair.name) →
      (p.claimed ∈ (wave.mergeSort fun a b => a ≤ b).filterMap (fun name =>
        (pairNamed items name).map ClaimedPair.claimed) ↔ p.name ∈ wave) := by
    intro wave hnames
    rw [List.mem_filterMap]
    constructor
    · rintro ⟨name, hname, hclaimed⟩
      rw [List.mem_mergeSort] at hname
      obtain ⟨q, hq, rfl⟩ := List.mem_map.mp (hnames name hname)
      rw [pairNamed_name hnodup hq, Option.map_some, Option.some.injEq] at hclaimed
      rwa [ClaimedPair.name, ← hclaimed]
    · intro hname
      refine ⟨p.name, List.mem_mergeSort.mpr hname, ?_⟩
      rw [pairNamed_name hnodup hp, Option.map_some]
  rw [tenantWaves, List.dedup_eq_self.mpr hnodup]
  simp only [List.getD_eq_getElem?_getD, List.getElem?_map]
  cases hlayer : (Layers.layers (dependsOn items) (items.map ClaimedPair.name))[i]? with
  | none => simp
  | some wave =>
    refine hwave wave fun name hname => ?_
    have hflat := List.mem_flatten_of_mem (List.mem_of_getElem? hlayer) hname
    exact (Layers.flatten_layers_perm _ _).mem_iff.mp hflat

end

/-! ## All tenants -/

/-- The waves of several tenants, merged by number. -/
def mergeWaves (perTenant : List (List (List ClaimedEntity))) : List (List ClaimedEntity) :=
  let waveCount := (perTenant.map List.length).foldl max 0
  (List.range waveCount).map fun i => perTenant.flatMap fun waves => waves.getD i []

/-- The tenants in the order in which they are met. -/
def tenantOrder (entities : List ClaimedPair) : List Uuid :=
  entities.foldl (fun order p =>
    if order.contains p.tenant then order else order ++ [p.tenant]) []

def ofTenant (entities : List ClaimedPair) (tenantID : Uuid) : List ClaimedPair :=
  entities.filter fun p => p.tenant = tenantID

def topoSortWaves (entities : List ClaimedPair) : List (List ClaimedEntity) :=
  mergeWaves ((tenantOrder entities).map fun tenantID => tenantWaves (ofTenant entities tenantID))

theorem tenantOrder_spec (entities : List ClaimedPair) : (tenantOrder entities).Nodup ∧
    ∀ tenantID, tenantID ∈ tenantOrder entities ↔ ∃ p ∈ entities, p.tenant = tenantID := by
  have hloop : ∀ (es : List ClaimedPair) (order : List Uuid), order.Nodup →
      (es.foldl (fun order p =>
        if order.contains p.tenant then order else order ++ [p.tenant]) order).Nodup ∧
      ∀ tenantID, tenantID ∈ es.foldl (fun order p =>
          if order.contains p.tenant then order else order ++ [p.tenant]) order ↔
        tenantID ∈ order ∨ ∃ p ∈ es, p.tenant = tenantID := by
    intro es
    induction es with
    | nil => simp
    | cons p es ih =>
      intro order horder
      rw [List.foldl_cons]
      split
      · next hmem =>
        rw [List.contains_iff_mem] at hmem
        refine ⟨(ih order horder).1, fun tenantID => ?_⟩
        rw [(ih order horder).2]
        grind
      · next hmem =>
        rw [List.contains_iff_mem] at hmem
        have hnew : (order ++ [p.tenant]).Nodup := by
          rw [List.nodup_append']
          exact ⟨horder, List.nodup_singleton _, by simpa using hmem⟩
        refine ⟨(ih _ hnew).1, fun tenantID => ?_⟩
        rw [(ih _ hnew).2]
        grind
  have hall := hloop entities [] List.nodup_nil
  refine ⟨hall.1, fun tenantID => (hall.2 tenantID).trans ?_⟩
  simp

/-- A list is the union of its parts by tenant. -/
theorem flatMap_ofTenant_perm {entities : List ClaimedPair} {tenants : List Uuid}
    (hnodup : tenants.Nodup) (hall : ∀ p ∈ entities, p.tenant ∈ tenants) :
    (tenants.flatMap (ofTenant entities)).Perm entities := by
  induction tenants generalizing entities with
  | nil =>
    cases entities with
    | nil => exact .nil
    | cons p _ => exact absurd (hall p List.mem_cons_self) List.not_mem_nil
  | cons t tenants ih =>
    obtain ⟨ht, hnodup⟩ := List.nodup_cons.mp hnodup
    have hrest : (tenants.flatMap (ofTenant
        (entities.filter fun p => !decide (p.tenant = t)))).Perm _ := ih hnodup ?_
    · have hsame : tenants.flatMap (ofTenant (entities.filter fun p => !decide (p.tenant = t))) =
          tenants.flatMap (ofTenant entities) := by
        refine List.flatMap_congr fun u hu => ?_
        rw [ofTenant, ofTenant, List.filter_filter]
        refine List.filter_congr fun p _ => ?_
        by_cases hp : p.tenant = u
        · have hut : u ≠ t := fun h => ht (h ▸ hu)
          simp [hp, hut]
        · simp [hp]
      rw [hsame] at hrest
      rw [List.flatMap_cons]
      exact (hrest.append_left _).trans (List.filter_append_perm _ _)
    · intro p hp
      rw [List.mem_filter] at hp
      have hmem := List.mem_cons.mp (hall p hp.1)
      exact hmem.resolve_left (by simpa using hp.2)

variable {perTenant : List (List (List ClaimedEntity))}

theorem le_waveCount {waves : List (List ClaimedEntity)} (h : waves ∈ perTenant) :
    waves.length ≤ (perTenant.map List.length).foldl max 0 := by
  have hloop : ∀ (ns : List ℕ) (m : ℕ), m ≤ ns.foldl max m ∧ ∀ n ∈ ns, n ≤ ns.foldl max m := by
    intro ns
    induction ns with
    | nil => simp
    | cons n ns ih =>
      intro m
      have hrest := ih (max m n)
      rw [List.foldl_cons]
      refine ⟨(le_max_left m n).trans hrest.1, ?_⟩
      rw [List.forall_mem_cons]
      exact ⟨(le_max_right m n).trans hrest.1, hrest.2⟩
  exact (hloop _ 0).2 _ (List.mem_map_of_mem h)

theorem mem_mergeWaves {c : ClaimedEntity} {i : ℕ} :
    c ∈ (mergeWaves perTenant).getD i [] ↔ ∃ waves ∈ perTenant, c ∈ waves.getD i [] := by
  unfold mergeWaves
  simp only [List.getD_eq_getElem?_getD, List.getElem?_map]
  rcases Nat.lt_or_ge i ((perTenant.map List.length).foldl max 0) with hi | hi
  · rw [List.getElem?_range hi]
    simp
  · rw [List.getElem?_eq_none (by simpa using hi)]
    simp only [Option.map_none, Option.getD_none, List.not_mem_nil, false_iff, not_exists, not_and]
    intro waves hwaves
    rw [List.getElem?_eq_none ((le_waveCount hwaves).trans hi)]
    simp

/-- Merging keeps every row of every tenant. -/
theorem flatten_mergeWaves_perm (perTenant : List (List (List ClaimedEntity))) :
    (mergeWaves perTenant).flatten.Perm (perTenant.flatMap List.flatten) := by
  have hone : ∀ (n : ℕ) (waves : List (List ClaimedEntity)), waves.length ≤ n →
      (List.range n).flatMap (fun i => waves.getD i []) = waves.flatten := by
    intro n
    induction n with
    | zero =>
      intro waves h
      rw [List.length_eq_zero_iff.mp (Nat.le_zero.mp h)]
      rfl
    | succ n ih =>
      intro waves h
      rw [List.range_succ_eq_map, List.flatMap_cons, List.flatMap_map]
      cases waves with
      | nil => simp
      | cons w ws =>
        have hrest := ih ws (by simpa using h)
        simpa using hrest
  have hmerge : ∀ (n : ℕ) (perTenant : List (List (List ClaimedEntity))),
      (∀ waves ∈ perTenant, waves.length ≤ n) →
      ((List.range n).flatMap fun i => perTenant.flatMap fun waves => waves.getD i []).Perm
        (perTenant.flatMap List.flatten) := by
    intro n perTenant
    induction perTenant with
    | nil => simp
    | cons waves perTenant ih =>
      intro h
      obtain ⟨hwaves, hrest⟩ := List.forall_mem_cons.mp h
      simp only [List.flatMap_cons]
      refine (List.flatMap_append_perm _ _ _).symm.trans ?_
      rw [hone n waves hwaves]
      exact (ih hrest).append_left _
  rw [mergeWaves, ← List.flatMap_def]
  exact hmerge _ perTenant fun waves hwaves => le_waveCount hwaves

/-! ## The waves of a batch -/

/-- A row refers to another row of its tenant. -/
def ClaimedPair.RefersTo (p q : ClaimedPair) : Prop :=
  q.tenant = p.tenant ∧ q.name ≠ p.name ∧ p.refersTo q.name = true

/-- The references of a row lead into a cycle of other rows of its tenant. -/
def ReachesCycle (entities : List ClaimedPair) (p : ClaimedPair) : Prop :=
  Layers.ReachesCycle (dependsOn (ofTenant entities p.tenant))
    ((ofTenant entities p.tenant).map ClaimedPair.name) p.name

theorem topoSortWaves_spec {entities : List ClaimedPair}
    (hnodup : (entities.map fun p => p.claimed.key).Nodup) :
    (topoSortWaves entities).flatten.Perm (entities.map ClaimedPair.claimed) ∧
    ∀ p ∈ entities, ∃ j, p.claimed ∈ (topoSortWaves entities).getD j [] ∧
      (¬ReachesCycle entities p → ∀ q ∈ entities, p.RefersTo q →
        ∃ i < j, q.claimed ∈ (topoSortWaves entities).getD i []) ∧
      (ReachesCycle entities p → ∀ q ∈ entities, q.tenant = p.tenant →
        ∃ i ≤ j, q.claimed ∈ (topoSortWaves entities).getD i []) := by
  obtain ⟨htenants, htenant⟩ := tenantOrder_spec entities
  have hnames : ∀ tenantID, ((ofTenant entities tenantID).map ClaimedPair.name).Nodup := by
    intro tenantID
    have hkeys : ((ofTenant entities tenantID).map fun p => p.claimed.key).Nodup :=
      hnodup.sublist (List.filter_sublist.map _)
    have hpairs : (ofTenant entities tenantID).map (fun p => p.claimed.key) =
        ((ofTenant entities tenantID).map ClaimedPair.name).map fun name => (tenantID, name) := by
      rw [List.map_map]
      refine List.map_congr_left fun p hp => ?_
      have hp := of_decide_eq_true (List.mem_filter.mp hp).2
      rw [← hp]
      rfl
    rw [hpairs] at hkeys
    exact hkeys.of_map _
  have hmem : ∀ {p q : ClaimedPair}, q ∈ entities → q.tenant = p.tenant →
      q ∈ ofTenant entities p.tenant :=
    fun hq htenant => List.mem_filter.mpr ⟨hq, decide_eq_true htenant⟩
  -- the waves of a tenant are found in the merged ones under the same numbers
  have hmerged : ∀ {p q : ClaimedPair} {i : ℕ}, p ∈ entities → q ∈ ofTenant entities p.tenant →
      q.name ∈ (Layers.layers (dependsOn (ofTenant entities p.tenant))
        ((ofTenant entities p.tenant).map ClaimedPair.name)).getD i [] →
      q.claimed ∈ (topoSortWaves entities).getD i [] := by
    intro p q i hp hq hname
    refine mem_mergeWaves.mpr ⟨tenantWaves (ofTenant entities p.tenant), ?_,
      (mem_tenantWaves (hnames _) hq).mpr hname⟩
    exact List.mem_map_of_mem ((htenant _).mpr ⟨p, hp, rfl⟩)
  constructor
  · refine (flatten_mergeWaves_perm _).trans ?_
    have hparts := (flatMap_ofTenant_perm htenants fun p hp => (htenant _).mpr ⟨p, hp, rfl⟩).map
      ClaimedPair.claimed
    rw [List.map_flatMap] at hparts
    rw [List.flatMap_map]
    exact (List.Perm.flatMap_left _ fun t _ => flatten_tenantWaves_perm (hnames t)).trans hparts
  · intro p hp
    have hself := hmem hp rfl
    obtain ⟨j, hj⟩ := exists_layer hself
    refine ⟨j, hmerged hp hself hj, fun hfree q hq hrefers => ?_, fun hcycle q hq hsame => ?_⟩
    · have hq := hmem hq hrefers.1
      obtain ⟨i, hi, hqi⟩ := Layers.mem_earlier_of_dep hj (List.mem_map_of_mem hq)
        ((dependsOn_iff (hnames _) hself hq).mpr hrefers.2)
        (mt Layers.trapped_iff_reaches_cycle.mp hfree)
      exact ⟨i, hi, hmerged hp hq hqi⟩
    · have hq := hmem hq hsame
      obtain ⟨i, hqi⟩ := exists_layer hq
      have hlast := Layers.last_of_trapped hj (Layers.trapped_iff_reaches_cycle.mpr hcycle)
      refine ⟨i, ?_, hmerged hp hq hqi⟩
      by_contra hlate
      rw [List.getD_eq_default _ _ (by omega)] at hqi
      cases hqi

/-! ## A batch of two -/

def customerPair : ClaimedPair where
  claimed := ⟨1, "crm.customers", 1⟩
  entity := { name := "crm.customers", tableName := "entities.crm_customers" }

def orderPair : ClaimedPair where
  claimed := ⟨1, "crm.orders", 1⟩
  entity :=
    { name := "crm.orders"
      tableName := "entities.crm_orders"
      fields := [{ name := "customer", kind := .reference, refEntity := some "crm.customers" }] }

/-- An order comes after the customer it refers to, in whatever order they were claimed. -/
theorem topoSortWaves_spec_orders :
    ([orderPair, customerPair].map fun p => p.claimed.key).Nodup ∧
    (topoSortWaves [orderPair, customerPair]).flatten.Perm
      [orderPair.claimed, customerPair.claimed] ∧
    ∃ i j, i < j ∧ customerPair.claimed ∈ (topoSortWaves [orderPair, customerPair]).getD i [] ∧
      orderPair.claimed ∈ (topoSortWaves [orderPair, customerPair]).getD j [] := by
  have hnodup : ([orderPair, customerPair].map fun p => p.claimed.key).Nodup := by decide
  have hitems : ofTenant [orderPair, customerPair] orderPair.tenant =
      [orderPair, customerPair] := rfl
  have hfree : ¬ReachesCycle [orderPair, customerPair] orderPair := by
    unfold ReachesCycle
    rw [hitems]
    intro hcycle
    obtain ⟨target, hedge, hnext⟩ := hcycle.next
    obtain ⟨target', hedge', -⟩ := hnext.next
    have hboth := (by decide : ∀ target ∈ ["crm.orders", "crm.customers"],
      dependsOn [orderPair, customerPair] "crm.orders" target = true →
        ∀ target' ∈ ["crm.orders", "crm.customers"],
          dependsOn [orderPair, customerPair] target target' = false)
    have hnone := hboth target hedge.2.1 hedge.2.2 target' hedge'.2.1
    rw [hedge'.2.2] at hnone
    cases hnone
  obtain ⟨hperm, hwaves⟩ := topoSortWaves_spec hnodup
  obtain ⟨j, hj, hearlier, -⟩ := hwaves orderPair (by simp)
  obtain ⟨i, hi, hcustomer⟩ := hearlier hfree customerPair (by simp) ⟨rfl, by decide, by decide⟩
  exact ⟨hnodup, hperm, i, j, hi, hcustomer, hj⟩

end Metap.Reconciler
