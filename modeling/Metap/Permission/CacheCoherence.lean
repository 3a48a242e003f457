import Metap.Framework.Transition
import Metap.Permission.PolicyCache

/-!
# Policy changes and the cache

A load asks the cache, and when that does not answer reads the store and writes what it read to the
cache.  A creation or a synchronisation writes the store and then invalidates the cache; a deletion
invalidates first.  The steps of any number of them interleave (`CacheStep`).

A load must observe every mutation that had returned before it began.  What is cached as a
nonempty list is never read back (`decodePolicies_encodePolicies`), so only an empty list can be
stale: `policy_changes_observed_iff` says that all is observed exactly when no load caches an empty
list after a mutation has returned that gave the entity a policy it still has.
-/

namespace Metap

def policiesCacheKey (entity : String) : String := "policies:" ++ entity

structure RoleActionGrant where
  role : Option String
  action : String

/-- What a mutation did: the policies of an entity that it added and removed. -/
structure PolicyChange where
  tenantID : Uuid
  entity : String
  added : List Uuid := []
  removed : List Uuid := []

/-- A load after the cache has not answered; `seen` are the changes that had returned when it
began. -/
inductive PolicyLoad where
  | missed (tenantID : Uuid) (entity : String) (seen : List PolicyChange)
  | read (tenantID : Uuid) (entity : String) (seen : List PolicyChange)
      (rows : List StoredPolicy)

/-- A mutation between two of its steps. -/
inductive PolicyMutation where
  /-- Written to the store; the invalidation is to come. -/
  | committed (change : PolicyChange)
  /-- A deletion that has looked up the entity of its policy. -/
  | deleting (tenantID id : Uuid) (entity : Option String)
  | invalidated (tenantID id : Uuid)

/-- What a load returned, with the changes it had to observe and the policies removed by then. -/
structure LoadedPolicies where
  tenantID : Uuid
  entity : String
  rows : List StoredPolicy
  seen : List PolicyChange
  gone : List Uuid

structure CacheState where
  table : PolicyTable
  cache : Uuid → String → Option Json := fun _ _ => none
  loads : ℕ → Option PolicyLoad := fun _ => none
  mutations : ℕ → Option PolicyMutation := fun _ => none
  /-- The changes whose mutation has returned. -/
  finished : List PolicyChange := []
  /-- The policies that have been removed. -/
  gone : List Uuid := []
  returned : List LoadedPolicies := []

inductive CacheEvent where
  | load (pid : ℕ) (tenantID : Uuid) (entity : String)
  | read (pid : ℕ)
  /-- The load writes the cache and returns; `overlooked` is what it then hides. -/
  | set (pid : ℕ) (overlooked : List Uuid)
  | create (pid : ℕ) (row : StoredPolicy)
  | sync (pid : ℕ) (tenantID : Uuid) (entity : String) (grants : List (Uuid × RoleActionGrant))
      (createdBy : Option Uuid)
  | invalidate (pid : ℕ)
  | listForDelete (pid : ℕ) (tenantID id : Uuid)
  | invalidateForDelete (pid : ℕ)
  | delete (pid : ℕ)

namespace CacheState

variable (s : CacheState)

def setLoad (pid : ℕ) (load : Option PolicyLoad) : CacheState :=
  { s with loads := Function.update s.loads pid load }

def setMutation (pid : ℕ) (mutation : Option PolicyMutation) : CacheState :=
  { s with mutations := Function.update s.mutations pid mutation }

def setCache (tenantID : Uuid) (entity : String) (value : Option Json) : CacheState :=
  { s with cache := fun t k =>
      if t = tenantID ∧ k = policiesCacheKey entity then value else s.cache t k }

/-- A load returns some rows. -/
def answer (tenantID : Uuid) (entity : String) (seen : List PolicyChange)
    (rows : List StoredPolicy) : CacheState :=
  { s with returned := s.returned ++ [{ tenantID, entity, rows, seen, gone := s.gone }] }

/-- The identifiers of the rows that satisfy a condition. -/
def idsWhere (p : StoredPolicy → Bool) : List Uuid := (s.table.rows.filter p).map StoredPolicy.id

/-- Remove the rows that satisfy a condition. -/
def remove (p : StoredPolicy → Bool) : CacheState :=
  { s with table := s.table.delete p, gone := s.gone ++ s.idsWhere p }

/-- Insert a row under an identifier that was never in use. -/
def insert (row : StoredPolicy) : Option CacheState :=
  if h : s.table.find row.id = none then
    if row.id ∈ s.gone then none else some { s with table := s.table.insert row h }
  else none

/-- The policies that returned mutations have added to an entity and that are still there. -/
def added (tenantID : Uuid) (entity : String) : List Uuid :=
  ((s.finished.filter fun c => c.tenantID = tenantID && c.entity = entity).flatMap
    PolicyChange.added).filter fun id => id ∉ s.gone

/-- What caching some rows hides: an empty list hides the policies that are there. -/
def overlooked (tenantID : Uuid) (entity : String) (rows : List StoredPolicy) : List Uuid :=
  if rows = [] then s.added tenantID entity else []

end CacheState

/-- A policy that the simple editor manages: it allows, on the entity, without a condition. -/
def isBasicShaped (tenantID : Uuid) (entity : String) (row : StoredPolicy) : Bool :=
  row.tenantID = tenantID && row.entity = entity && row.condition.isNone && row.field = "" &&
    row.subject = "context" && row.effect = .allow

/-- The policy of a grant; a grant without a role is for everyone. -/
def grantRow (tenantID : Uuid) (entity : String) (createdBy : Option Uuid)
    (grant : Uuid × RoleActionGrant) : StoredPolicy where
  id := grant.1
  tenantID
  entity
  action := grant.2.action
  subject := "context"
  roles := grant.2.role.toList
  hasRoles := grant.2.role.isSome
  createdBy

section

variable (codec : UuidCodec)

def CacheState.next (s : CacheState) : CacheEvent → Option CacheState
  | .load pid tenantID entity =>
    if (s.loads pid).isSome then none
    else
      match (s.cache tenantID (policiesCacheKey entity)).bind (decodePolicies codec) with
      | some rows => some (s.answer tenantID entity s.finished rows)
      | none => some (s.setLoad pid (some (.missed tenantID entity s.finished)))
  | .read pid =>
    match s.loads pid with
    | some (.missed tenantID entity seen) =>
      some (s.setLoad pid (some (.read tenantID entity seen
        (s.table.loadAllPolicies tenantID entity))))
    | _ => none
  | .set pid overlooked =>
    match s.loads pid with
    | some (.read tenantID entity seen rows) =>
      if overlooked = s.overlooked tenantID entity rows then
        some (((s.setCache tenantID entity (some (encodePolicies codec rows))).setLoad pid
          none).answer tenantID entity seen rows)
      else none
    | _ => none
  | .create pid row =>
    if (s.mutations pid).isSome then none
    else (s.insert row).map fun s => s.setMutation pid (some (.committed
      { tenantID := row.tenantID, entity := row.entity, added := [row.id] }))
  | .sync pid tenantID entity grants createdBy =>
    if (s.mutations pid).isSome then none
    else
      let rows := grants.map (grantRow tenantID entity createdBy)
      (rows.foldlM CacheState.insert (s.remove (isBasicShaped tenantID entity))).map fun s' =>
        s'.setMutation pid (some (.committed
          { tenantID, entity, added := rows.map StoredPolicy.id
            removed := s.idsWhere (isBasicShaped tenantID entity) }))
  | .invalidate pid =>
    match s.mutations pid with
    | some (.committed change) =>
      some { (s.setCache change.tenantID change.entity none).setMutation pid none with
        finished := s.finished ++ [change] }
    | _ => none
  | .listForDelete pid tenantID id =>
    if (s.mutations pid).isSome then none
    else
      let found := s.table.rows.find? fun r => r.tenantID = tenantID && r.id = id
      some (s.setMutation pid (some (.deleting tenantID id (found.map StoredPolicy.entity))))
  | .invalidateForDelete pid =>
    match s.mutations pid with
    | some (.deleting tenantID id none) =>
        some (s.setMutation pid (some (.invalidated tenantID id)))
    | some (.deleting tenantID id (some entity)) =>
      some ((s.setCache tenantID entity none).setMutation pid (some (.invalidated tenantID id)))
    | _ => none
  | .delete pid =>
    match s.mutations pid with
    | some (.invalidated tenantID id) =>
      let p := fun r : StoredPolicy => r.tenantID = tenantID && r.id = id
      let changes := (s.table.rows.filter p).map fun r =>
        { tenantID, entity := r.entity, removed := [id] }
      some { (s.remove p).setMutation pid none with finished := s.finished ++ changes }
    | _ => none

def CacheStep (s : CacheState) (e : CacheEvent) (s' : CacheState) : Prop :=
  s.next codec e = some s'

end

/-! ## What a load must observe -/

/-- Rows show a change: what it removed is not among them, and what it added is, unless it has been
removed since. -/
def Shows (gone : List Uuid) (rows : List StoredPolicy) (change : PolicyChange) : Prop :=
  (∀ id ∈ change.removed, id ∉ rows.map StoredPolicy.id) ∧
    ∀ id ∈ change.added, id ∈ rows.map StoredPolicy.id ∨ id ∈ gone

/-- Rows of an entity show all changes of the entity in a list. -/
def ShowsAll (tenantID : Uuid) (entity : String) (gone : List Uuid) (rows : List StoredPolicy)
    (changes : List PolicyChange) : Prop :=
  ∀ c ∈ changes, c.tenantID = tenantID → c.entity = entity → Shows gone rows c

/-- Every load that has returned observed the changes that had returned before it began, and so
would a load that is answered by the cache now. -/
def ChangesObserved (codec : UuidCodec) (s : CacheState) : Prop :=
  (∀ r ∈ s.returned, ShowsAll r.tenantID r.entity r.gone r.rows r.seen) ∧
    ∀ tenantID entity rows,
      (s.cache tenantID (policiesCacheKey entity)).bind (decodePolicies codec) = some rows →
      ShowsAll tenantID entity s.gone rows s.finished

/-- Nothing that a mutation has added and returned is hidden by what a load caches. -/
def CacheEvent.HidesNothing : CacheEvent → Prop
  | .set _ overlooked => overlooked = []
  | _ => True

/-- No call has been made. -/
def CacheState.Untouched (s : CacheState) : Prop := s = { table := s.table }

/-! ## The store -/

/-- A change is in the store: what it removed is gone, and what it added is there or gone. -/
def InStore (s : CacheState) (c : PolicyChange) : Prop :=
  (∀ id ∈ c.removed, id ∈ s.gone) ∧
    ∀ id ∈ c.added, id ∈ s.gone ∨
      ∃ row, s.table.find id = some row ∧ row.tenantID = c.tenantID ∧ row.entity = c.entity

/-- A removed policy never comes back: identifiers are not used twice. -/
def GoneAbsent (s : CacheState) : Prop := ∀ id ∈ s.gone, s.table.find id = none

/-- Rows stay unless they are removed. -/
structure Evolves (s s' : CacheState) : Prop where
  gone : s.gone ⊆ s'.gone
  table : ∀ id row, s.table.find id = some row → id ∈ s'.gone ∨ s'.table.find id = some row

namespace Evolves

variable {s s' s'' : CacheState} {c : PolicyChange}

theorem of_same (htable : s'.table = s.table) (hgone : s'.gone = s.gone) : Evolves s s' where
  gone := by rw [hgone]; exact List.Subset.refl _
  table id row h := by rw [htable]; exact .inr h

theorem trans (h : Evolves s s') (h' : Evolves s' s'') : Evolves s s'' where
  gone := List.Subset.trans h.gone h'.gone
  table id row hrow := by
    rcases h.table id row hrow with hgone | hrow'
    · exact .inl (h'.gone hgone)
    · exact h'.table id row hrow'

theorem inStore (h : Evolves s s') (hc : InStore s c) : InStore s' c := by
  refine ⟨fun id hid => h.gone (hc.1 id hid), fun id hid => ?_⟩
  rcases hc.2 id hid with hgone | ⟨row, hrow, hkey⟩
  · exact .inl (h.gone hgone)
  · rcases h.table id row hrow with hgone | hrow'
    · exact .inl hgone
    · exact .inr ⟨row, hrow', hkey⟩

end Evolves

section

variable {s s' : CacheState}

theorem mem_idsWhere {p : StoredPolicy → Bool} {id : Uuid} :
    id ∈ s.idsWhere p ↔ ∃ row, s.table.find id = some row ∧ p row := by
  simp only [CacheState.idsWhere, List.mem_map, List.mem_filter]
  constructor
  · rintro ⟨row, ⟨hrow, hp⟩, rfl⟩
    exact ⟨row, KeyedTable.find_of_mem hrow, hp⟩
  · rintro ⟨row, hrow, hp⟩
    exact ⟨row, ⟨KeyedTable.mem_of_find hrow, hp⟩, KeyedTable.key_of_find hrow⟩

theorem evolves_remove (p : StoredPolicy → Bool) : Evolves s (s.remove p) where
  gone := List.subset_append_left _ _
  table id row hrow := by
    by_cases hp : p row = true
    · exact .inl (List.mem_append_right _ (mem_idsWhere.mpr ⟨row, hrow, hp⟩))
    · refine .inr ?_
      change (s.table.delete p).find id = some row
      rw [KeyedTable.find_delete, hrow, Option.filter_some_pos (by simp [hp])]

theorem goneAbsent_remove (h : GoneAbsent s) (p : StoredPolicy → Bool) :
    GoneAbsent (s.remove p) := by
  intro id hid
  change (s.table.delete p).find id = none
  rw [KeyedTable.find_delete]
  rcases List.mem_append.mp hid with hid | hid
  · rw [h id hid, Option.filter_none]
  · obtain ⟨row, hrow, hp⟩ := mem_idsWhere.mp hid
    rw [hrow, Option.filter_some_neg (by simp [hp])]

theorem insert_eq_some {row : StoredPolicy} (h : s.insert row = some s') :
    row.id ∉ s.gone ∧ ∃ hfree, s' = { s with table := s.table.insert row hfree } := by
  unfold CacheState.insert at h
  split at h
  · next hfree =>
    split at h
    · cases h
    · next hnew =>
      cases h
      exact ⟨hnew, hfree, rfl⟩
  · cases h

/-- Insertions change only the table, keep what is there and put every row in. -/
theorem insertAll_eq_some {rows : List StoredPolicy}
    (h : rows.foldlM CacheState.insert s = some s') (habsent : GoneAbsent s) :
    (∃ table, s' = { s with table }) ∧ Evolves s s' ∧ GoneAbsent s' ∧
      ∀ row ∈ rows, row.id ∈ s'.gone ∨ s'.table.find row.id = some row := by
  induction rows generalizing s with
  | nil =>
    cases h
    exact ⟨⟨_, rfl⟩, .of_same rfl rfl, habsent, by simp⟩
  | cons row rows ih =>
    rw [List.foldlM_cons] at h
    obtain ⟨u, hrow, hrest⟩ := Option.bind_eq_some_iff.mp h
    obtain ⟨hnew, hfree, rfl⟩ := insert_eq_some hrow
    have hfind := s.table.find_insert row hfree
    have hevolves : Evolves s { s with table := s.table.insert row hfree } := by
      refine ⟨List.Subset.refl _, fun id r hr => .inr ?_⟩
      have hne : id ≠ row.id := fun heq => by
        rw [heq, hfree] at hr
        cases hr
      change (s.table.insert row hfree).find id = some r
      rw [hfind, if_neg hne, hr]
    have habsent' : GoneAbsent { s with table := s.table.insert row hfree } := by
      intro id hid
      have hne : id ≠ row.id := fun heq => hnew (heq ▸ hid)
      change (s.table.insert row hfree).find id = none
      rw [hfind, if_neg hne, habsent id hid]
    obtain ⟨⟨table, htable⟩, hevolves', habsent'', hrows⟩ := ih hrest habsent'
    refine ⟨⟨table, htable⟩, hevolves.trans hevolves', habsent'', fun r hr => ?_⟩
    rcases List.mem_cons.mp hr with rfl | hr
    · refine hevolves'.table r.id r ?_
      change (s.table.insert r hfree).find r.id = some r
      rw [hfind, if_pos rfl]
    · exact hrows r hr

end

/-! ## The invariant -/

variable {changes : List PolicyChange} {entity : String} {tenantID : Uuid}

theorem ShowsAll.mono {gone gone' : List Uuid} {rows : List StoredPolicy} (hgone : gone ⊆ gone')
    (h : ShowsAll tenantID entity gone rows changes) :
    ShowsAll tenantID entity gone' rows changes := by
  intro c hc htenant hentity
  obtain ⟨hremoved, hadded⟩ := h c hc htenant hentity
  exact ⟨hremoved, fun id hid => (hadded id hid).imp_right fun hid => hgone hid⟩

/-- What the store has shows a change that is in it. -/
theorem showsAll_loadAllPolicies {s : CacheState} (habsent : GoneAbsent s) (tenantID : Uuid)
    (entity : String) (hchanges : ∀ c ∈ changes, InStore s c) :
    ShowsAll tenantID entity s.gone (s.table.loadAllPolicies tenantID entity) changes := by
  intro c hc htenant hentity
  obtain ⟨hremoved, hadded⟩ := hchanges c hc
  refine ⟨fun id hid hmem => ?_, fun id hid => ?_⟩
  · obtain ⟨row, hrow, hkey⟩ := List.mem_map.mp hmem
    have hnone := KeyedTable.find_eq_none_iff.mp (habsent id (hremoved id hid))
    exact hnone row (List.mem_of_mem_filter hrow) hkey
  · rcases hadded id hid with hgone | ⟨row, hrow, htenant', hentity'⟩
    · exact .inr hgone
    · refine .inl (List.mem_map.mpr ⟨row, ?_, KeyedTable.key_of_find hrow⟩)
      refine List.mem_filter.mpr ⟨KeyedTable.mem_of_find hrow, ?_⟩
      simp [htenant', htenant, hentity', hentity]

section

variable (codec : UuidCodec)

structure CacheInvariant (s : CacheState) : Prop where
  observed : ChangesObserved codec s
  cached : ∀ tenantID key value, s.cache tenantID key = some value →
    ∃ rows, value = encodePolicies codec rows
  missed : ∀ pid tenantID entity seen, s.loads pid = some (.missed tenantID entity seen) →
    seen ⊆ s.finished
  read : ∀ pid tenantID entity seen rows, s.loads pid = some (.read tenantID entity seen rows) →
    ShowsAll tenantID entity s.gone rows seen
  finished : ∀ c ∈ s.finished, InStore s c
  committed : ∀ pid c, s.mutations pid = some (.committed c) → InStore s c
  absent : GoneAbsent s

variable {codec} {s s' : CacheState} {rows : List StoredPolicy} {pid : ℕ}

theorem cacheInvariant_of_untouched (h : s.Untouched) : CacheInvariant codec s := by
  rw [h]
  constructor <;> simp [ChangesObserved, GoneAbsent]

/-- The mutations after one is set. -/
theorem setMutation_eq_committed {pid' : ℕ} {m : Option PolicyMutation} {c : PolicyChange}
    (h : (s.setMutation pid m).mutations pid' = some (.committed c)) :
    m = some (.committed c) ∨ s.mutations pid' = some (.committed c) :=
  (Transition.of_update_eq_some h).imp And.right And.right

theorem cache_setCache_none {tenantID' : Uuid} {key : String} {value : Json}
    (h : (s.setCache tenantID entity none).cache tenantID' key = some value) :
    s.cache tenantID' key = some value := by
  change (if _ then none else s.cache tenantID' key) = some value at h
  split at h
  · cases h
  · exact h

theorem setLoad_eq_some {pid' : ℕ} {l : Option PolicyLoad} {load : PolicyLoad}
    (h : (s.setLoad pid l).loads pid' = some load) : l = some load ∨ s.loads pid' = some load :=
  (Transition.of_update_eq_some h).imp And.right And.right

theorem policiesCacheKey_inj {entity' : String}
    (h : policiesCacheKey entity = policiesCacheKey entity') : entity = entity' := by
  have hlist := congrArg String.toList h
  simp only [policiesCacheKey, String.toList_append, List.append_cancel_left_eq] at hlist
  exact String.toList_inj.mp hlist

/-- Nothing is hidden by an empty list exactly when it shows all changes that have returned. -/
theorem added_eq_nil_iff (tenantID : Uuid) (entity : String) :
    s.added tenantID entity = [] ↔ ShowsAll tenantID entity s.gone [] s.finished := by
  simp only [CacheState.added, List.filter_eq_nil_iff, List.mem_flatMap, List.mem_filter, ShowsAll,
    Shows]
  grind

/-- A load that hides something leaves the next one a stale answer. -/
theorem overlooked_eq_nil_of_shown
    (h : ∀ rows', ((s.setCache tenantID entity (some (encodePolicies codec rows))).cache tenantID
        (policiesCacheKey entity)).bind (decodePolicies codec) = some rows' →
      ShowsAll tenantID entity s.gone rows' s.finished) :
    s.overlooked tenantID entity rows = [] := by
  unfold CacheState.overlooked
  split
  · next hrows =>
    refine (added_eq_nil_iff tenantID entity).mpr (h [] ?_)
    change ((if _ then _ else _ : Option Json).bind _) = _
    rw [if_pos ⟨rfl, rfl⟩, Option.bind_some, decodePolicies_encodePolicies, if_pos hrows]
  · rfl

theorem next_set_eq_some {overlooked : List Uuid}
    (hstep : s.next codec (.set pid overlooked) = some s') :
    ∃ tenantID entity seen rows, s.loads pid = some (.read tenantID entity seen rows) ∧
      overlooked = s.overlooked tenantID entity rows ∧
      s' = ((s.setCache tenantID entity (some (encodePolicies codec rows))).setLoad pid
        none).answer tenantID entity seen rows := by
  simp only [CacheState.next] at hstep
  split at hstep
  · next tenantID entity seen rows hpid =>
    split at hstep
    · next hoverlooked =>
      cases hstep
      exact ⟨tenantID, entity, seen, rows, hpid, hoverlooked, rfl⟩
    · cases hstep
  · cases hstep

section

variable (h : CacheInvariant codec s)

include h

/-- A cached text that reads is that of an empty list. -/
theorem CacheInvariant.hit_eq_nil {key : String}
    (hhit : (s.cache tenantID key).bind (decodePolicies codec) = some rows) : rows = [] := by
  obtain ⟨value, hvalue, hdecode⟩ := Option.bind_eq_some_iff.mp hhit
  obtain ⟨written, rfl⟩ := h.cached tenantID key value hvalue
  rw [decodePolicies_encodePolicies] at hdecode
  split at hdecode
  · exact (Option.some.inj hdecode).symm
  · cases hdecode

/-- A step of a mutation keeps the invariant: rows stay or are gone, cached texts stay or are
dropped, a change that commits is in the store, and one that returns is also shown by the cache. -/
theorem CacheInvariant.mutate {m : Option PolicyMutation} {new : List PolicyChange}
    (hevolves : Evolves s s') (habsent : GoneAbsent s') (hloads : s'.loads = s.loads)
    (hreturned : s'.returned = s.returned)
    (hmutations : s'.mutations = (s.setMutation pid m).mutations)
    (hfinished : s'.finished = s.finished ++ new)
    (hcache : ∀ tenantID key value, s'.cache tenantID key = some value →
      s.cache tenantID key = some value) (hcommitted : ∀ c, m = some (.committed c) → InStore s' c)
    (hnew : ∀ c ∈ new, InStore s' c ∧
      ∀ rows, (s'.cache c.tenantID (policiesCacheKey c.entity)).bind (decodePolicies codec) =
        some rows → Shows s'.gone rows c) : CacheInvariant codec s' where
  observed := by
    refine ⟨by rw [hreturned]; exact h.observed.1, ?_⟩
    intro tenantID entity rows hhit c hc htenant hentity
    rw [hfinished, List.mem_append] at hc
    rcases hc with hc | hc
    · obtain ⟨value, hvalue, hdecode⟩ := Option.bind_eq_some_iff.mp hhit
      have hbefore := h.observed.2 tenantID entity rows
        (Option.bind_eq_some_iff.mpr ⟨value, hcache _ _ _ hvalue, hdecode⟩)
      exact hbefore.mono hevolves.gone c hc htenant hentity
    · subst htenant hentity
      exact (hnew c hc).2 rows hhit
  cached tenantID key value hvalue := h.cached tenantID key value (hcache _ _ _ hvalue)
  missed pid tenantID entity seen hload := by
    rw [hloads] at hload
    rw [hfinished]
    exact List.subset_append_of_subset_left _ (h.missed pid tenantID entity seen hload)
  read pid tenantID entity seen rows hload := by
    rw [hloads] at hload
    exact (h.read pid tenantID entity seen rows hload).mono hevolves.gone
  finished c hc := by
    rw [hfinished, List.mem_append] at hc
    exact hc.elim (fun hc => hevolves.inStore (h.finished c hc)) fun hc => (hnew c hc).1
  committed pid c hc := by
    rw [hmutations] at hc
    exact (setMutation_eq_committed hc).elim (hcommitted c) fun hc =>
      hevolves.inStore (h.committed pid c hc)
  absent := habsent

theorem CacheInvariant.create {row : StoredPolicy}
    (hstep : s.next codec (.create pid row) = some s') : CacheInvariant codec s' := by
  simp only [CacheState.next] at hstep
  split at hstep
  · cases hstep
  · obtain ⟨u, hinsert, rfl⟩ := Option.map_eq_some_iff.mp hstep
    have hfold : [row].foldlM CacheState.insert s = some u := by
      rw [List.foldlM_cons, hinsert]
      rfl
    obtain ⟨⟨table, rfl⟩, hevolves, habsent, hrow⟩ := insertAll_eq_some hfold h.absent
    refine h.mutate (hevolves.trans (.of_same rfl rfl)) habsent rfl rfl rfl
      (List.append_nil _).symm (fun _ _ _ hvalue => hvalue) ?_ nofun
    rintro c ⟨⟩
    refine ⟨by simp, fun id hid => ?_⟩
    rw [List.mem_singleton.mp hid]
    exact (hrow row (List.mem_singleton_self row)).imp_right fun hfind => ⟨row, hfind, rfl, rfl⟩

theorem CacheInvariant.sync {grants : List (Uuid × RoleActionGrant)} {createdBy : Option Uuid}
    (hstep : s.next codec (.sync pid tenantID entity grants createdBy) = some s') :
    CacheInvariant codec s' := by
  simp only [CacheState.next] at hstep
  split at hstep
  · cases hstep
  · obtain ⟨u, hfold, rfl⟩ := Option.map_eq_some_iff.mp hstep
    obtain ⟨⟨table, rfl⟩, hevolves, habsent, hrows⟩ :=
      insertAll_eq_some hfold (goneAbsent_remove h.absent _)
    refine h.mutate ((evolves_remove _).trans (hevolves.trans (.of_same rfl rfl))) habsent rfl rfl
      rfl (List.append_nil _).symm (fun _ _ _ hvalue => hvalue) ?_ nofun
    rintro c ⟨⟩
    refine ⟨fun id hid => List.mem_append_right _ hid, fun id hid => ?_⟩
    obtain ⟨row, hrow, rfl⟩ := List.mem_map.mp hid
    obtain ⟨grant, -, rfl⟩ := List.mem_map.mp hrow
    exact (hrows _ hrow).imp_right fun hfind => ⟨_, hfind, rfl, rfl⟩

theorem CacheInvariant.invalidate
    (hstep : s.next codec (.invalidate pid) = some s') : CacheInvariant codec s' := by
  simp only [CacheState.next] at hstep
  split at hstep
  · next change hpid =>
    cases hstep
    refine h.mutate (.of_same rfl rfl) h.absent rfl rfl rfl rfl
      (fun _ _ _ hvalue => cache_setCache_none hvalue) nofun fun c hc => ?_
    rw [List.mem_singleton.mp hc]
    -- the entry of the change's own entity has just been dropped
    refine ⟨h.committed pid change hpid, fun rows hhit => ?_⟩
    simp [CacheState.setCache, CacheState.setMutation] at hhit
  · cases hstep

theorem CacheInvariant.listForDelete {id : Uuid}
    (hstep : s.next codec (.listForDelete pid tenantID id) = some s') :
    CacheInvariant codec s' := by
  simp only [CacheState.next] at hstep
  split at hstep
  · cases hstep
  · cases hstep
    exact h.mutate (.of_same rfl rfl) h.absent rfl rfl rfl (List.append_nil _).symm
      (fun _ _ _ hvalue => hvalue) nofun nofun

theorem CacheInvariant.invalidateForDelete
    (hstep : s.next codec (.invalidateForDelete pid) = some s') : CacheInvariant codec s' := by
  simp only [CacheState.next] at hstep
  split at hstep
  · cases hstep
    exact h.mutate (.of_same rfl rfl) h.absent rfl rfl rfl (List.append_nil _).symm
      (fun _ _ _ hvalue => hvalue) nofun nofun
  · cases hstep
    exact h.mutate (.of_same rfl rfl) h.absent rfl rfl rfl (List.append_nil _).symm
      (fun _ _ _ hvalue => cache_setCache_none hvalue) nofun nofun
  · cases hstep

/-- A deletion drops the cached text before it deletes; a text written in between may be stale, but
one that reads is empty and shows no policy that was deleted. -/
theorem CacheInvariant.delete
    (hstep : s.next codec (.delete pid) = some s') : CacheInvariant codec s' := by
  simp only [CacheState.next] at hstep
  split at hstep
  · next tenantID id hpid =>
    cases hstep
    refine h.mutate ((evolves_remove _).trans (.of_same rfl rfl)) (goneAbsent_remove h.absent _)
      rfl rfl rfl rfl (fun _ _ _ hvalue => hvalue) nofun fun c hc => ?_
    obtain ⟨row, hrow, rfl⟩ := List.mem_map.mp hc
    refine ⟨⟨fun removed hremoved => ?_, by simp⟩, fun rows hhit => ?_⟩
    · rw [List.mem_singleton.mp hremoved]
      refine List.mem_append_right _ (List.mem_map.mpr ⟨row, hrow, ?_⟩)
      have hp := List.of_mem_filter hrow
      simp only [Bool.and_eq_true, decide_eq_true_eq] at hp
      exact hp.2
    · rw [h.hit_eq_nil hhit]
      exact ⟨by simp, by simp⟩
  · cases hstep

/-! ## The steps of a load -/

/-- A load goes on: it holds only changes that have returned, and rows that show them. -/
theorem CacheInvariant.setLoad (pid : ℕ) {load : Option PolicyLoad}
    (hmissed : ∀ tenantID entity seen, load = some (.missed tenantID entity seen) →
      seen ⊆ s.finished)
    (hread : ∀ tenantID entity seen rows, load = some (.read tenantID entity seen rows) →
      ShowsAll tenantID entity s.gone rows seen) : CacheInvariant codec (s.setLoad pid load) :=
  { h with
    missed pid' tenantID entity seen hload :=
      (setLoad_eq_some hload).elim (hmissed tenantID entity seen)
        (h.missed pid' tenantID entity seen)
    read pid' tenantID entity seen rows hload :=
      (setLoad_eq_some hload).elim (hread tenantID entity seen rows)
        (h.read pid' tenantID entity seen rows) }

theorem CacheInvariant.answer {seen : List PolicyChange}
    (hshows : ShowsAll tenantID entity s.gone rows seen) :
    CacheInvariant codec (s.answer tenantID entity seen rows) := by
  refine { h with observed := ⟨fun r hr => ?_, h.observed.2⟩ }
  rcases List.mem_append.mp hr with hr | hr
  · exact h.observed.1 r hr
  · rw [List.mem_singleton.mp hr]
    exact hshows

/-- A load that hides nothing keeps the invariant when it writes the cache. -/
theorem CacheInvariant.setCache (hnothing : s.overlooked tenantID entity rows = []) :
    CacheInvariant codec (s.setCache tenantID entity (some (encodePolicies codec rows))) := by
  refine { h with
    observed := ⟨h.observed.1, fun tenantID' entity' rows' hhit => ?_⟩
    cached := fun tenantID' key value hvalue => ?_ }
  · change ((if _ then _ else _ : Option Json).bind _) = _ at hhit
    split at hhit
    · next hkey =>
      obtain ⟨rfl, hkey⟩ := hkey
      cases policiesCacheKey_inj hkey
      rw [Option.bind_some, decodePolicies_encodePolicies] at hhit
      split at hhit
      · next hrows =>
        cases hhit
        rw [CacheState.overlooked, if_pos hrows] at hnothing
        exact (added_eq_nil_iff tenantID' _).mp hnothing
      · cases hhit
    · exact h.observed.2 tenantID' entity' rows' hhit
  · change (if _ then _ else _) = _ at hvalue
    split at hvalue
    · cases hvalue
      exact ⟨rows, rfl⟩
    · exact h.cached tenantID' key value hvalue

theorem CacheInvariant.load
    (hstep : s.next codec (.load pid tenantID entity) = some s') : CacheInvariant codec s' := by
  simp only [CacheState.next] at hstep
  split at hstep
  · cases hstep
  · split at hstep
    · next rows hhit =>
      cases hstep
      exact h.answer (h.observed.2 tenantID entity rows hhit)
    · cases hstep
      refine h.setLoad pid ?_ nofun
      rintro _ _ _ ⟨⟩
      exact List.Subset.refl _

theorem CacheInvariant.readStore
    (hstep : s.next codec (.read pid) = some s') : CacheInvariant codec s' := by
  simp only [CacheState.next] at hstep
  split at hstep
  · next tenantID entity seen hpid =>
    cases hstep
    refine h.setLoad pid nofun ?_
    rintro _ _ _ _ ⟨⟩
    have hseen := h.missed pid tenantID entity seen hpid
    exact showsAll_loadAllPolicies h.absent tenantID entity fun c hc => h.finished c (hseen hc)
  · cases hstep

theorem CacheInvariant.set
    (hstep : s.next codec (.set pid []) = some s') : CacheInvariant codec s' := by
  obtain ⟨tenantID, entity, seen, rows, hpid, hnothing, rfl⟩ := next_set_eq_some hstep
  exact ((h.setCache hnothing.symm).setLoad pid (by simp) (by simp)).answer
    (h.read pid _ _ _ _ hpid)

end

variable {e : CacheEvent}

theorem CacheInvariant.step (hpermitted : e.HidesNothing)
    (hstep : CacheStep codec s e s') (h : CacheInvariant codec s) : CacheInvariant codec s' := by
  cases e with
  | load => exact h.load hstep
  | read => exact h.readStore hstep
  | set pid overlooked =>
    change overlooked = [] at hpermitted
    subst hpermitted
    exact h.set hstep
  | create => exact h.create hstep
  | sync => exact h.sync hstep
  | invalidate => exact h.invalidate hstep
  | listForDelete => exact h.listForDelete hstep
  | invalidateForDelete => exact h.invalidateForDelete hstep
  | delete => exact h.delete hstep

theorem hidesNothing_of_observed (hstep : CacheStep codec s e s') (h : ChangesObserved codec s') :
    e.HidesNothing := by
  cases e with
  | set pid overlooked =>
    obtain ⟨tenantID, entity, seen, rows, -, hoverlooked, rfl⟩ := next_set_eq_some hstep
    exact hoverlooked.trans (overlooked_eq_nil_of_shown (h.2 tenantID entity))
  | _ => trivial

end

/-! ## Whole runs -/

open Transition

/-- Loads observe every mutation that returned before they began, in every state of a run, exactly
when no load of the run caches an empty list over a policy that a mutation has added and
returned. -/
theorem policy_changes_observed_iff (codec : UuidCodec) {s₀ s : CacheState}
    {events : List CacheEvent} (hinit : s₀.Untouched) (hrun : Run (CacheStep codec) s₀ events s) :
    (∀ es u, es <+: events → Run (CacheStep codec) s₀ es u → ChangesObserved codec u) ↔
      ∀ e ∈ events, e.HidesNothing := by
  refine hrun.always_iff (I := CacheInvariant codec) ?_ ?_ ?_ (cacheInvariant_of_untouched hinit)
  · exact fun s e s' he hstep h => h.step he hstep
  · exact fun s h => h.observed
  · exact fun s e s' hstep _ h => hidesNothing_of_observed hstep h

/-- A policy by which everyone may read. -/
def readPolicy : StoredPolicy where
  id := 1
  tenantID := 7
  entity := "app.task"
  action := "read"
  subject := "context"

def emptyPolicies : CacheState := { table := .empty }

/-- A load, a creation, and a load that finds the cache invalidated. -/
theorem policy_changes_observed_iff_create :
    ∃ s, emptyPolicies.Untouched ∧ Run (CacheStep UuidCodec.hex) emptyPolicies
        [.load 0 7 "app.task", .read 0, .set 0 [], .create 1 readPolicy, .invalidate 1,
          .load 0 7 "app.task", .read 0, .set 0 []] s ∧
      ∀ es u, es <+: [.load 0 7 "app.task", .read 0, .set 0 [], .create 1 readPolicy, .invalidate 1,
          .load 0 7 "app.task", .read 0, .set 0 []] →
        Run (CacheStep UuidCodec.hex) emptyPolicies es u → ChangesObserved UuidCodec.hex u := by
  have hinit : emptyPolicies.Untouched := rfl
  refine ⟨_, hinit, run_of_foldlM rfl, ?_⟩
  refine (policy_changes_observed_iff UuidCodec.hex hinit (run_of_foldlM rfl)).mpr ?_
  simp [CacheEvent.HidesNothing]

/-- A load reads no policies; a policy is created, the cache invalidated and the creation returns;
then the load caches what it read.  The next load is answered from the cache, without the
policy. -/
theorem stale_policies_cached :
    ∃ s r, Run (CacheStep UuidCodec.hex) emptyPolicies
        [.load 0 7 "app.task", .read 0, .create 1 readPolicy, .invalidate 1, .set 0 [1],
          .load 2 7 "app.task"] s ∧
      s.returned.getLast? = some r ∧ r.rows = [] ∧
      s.table.loadAllPolicies 7 "app.task" = [readPolicy] ∧
      r.seen = [{ tenantID := 7, entity := "app.task", added := [1] }] ∧
      ¬ ChangesObserved UuidCodec.hex s := by
  refine ⟨_, _, run_of_foldlM rfl, rfl, rfl, rfl, rfl, fun h => ?_⟩
  have hlast := h.1 _ (List.mem_append_right _ (List.mem_singleton_self _)) _
    (List.mem_singleton_self _) rfl rfl
  have hadded := hlast.2 1 (by decide)
  revert hadded
  decide

end Metap
