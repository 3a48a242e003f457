import Metap.Cron.TenantScope

/-!
# What a bulk action acts on

A bulk action lists the records of its filter and attempts a transition on each record of the
answer.  The list is an ordinary one: it is cut at the page limit of the entity's first list view
and it ignores every filter entry on a field that view does not offer.  So a firing attempts the
first of the `candidates`, the visible records that satisfy the offered entries
(`attempts_eq`).  These are the matching records exactly when no more of them exist than the page
holds and a page of candidates stands before every candidate that does not match
(`attempts_exact_iff`).
-/

namespace Metap.Cron

open Crud Grpc Logged Builder

/-! ## The listing of a firing -/

/-- The list request of a firing and its answer. -/
structure BulkListing where
  cfg : BulkQueryActionConfig
  up : Upstream
  /-- The tables when the request is served. -/
  store : Store
  rc : RequestContext
  o : Opened
  planned : Query.PlannedListQuery
  rows : List StoredRecord

variable {targetConfig : Option Json} {config : ExecutorConfig}

namespace BulkListing

/-- `l` is the listing of a firing. -/
structure IsOf (config : ExecutorConfig) (targetConfig : Option Json) (w : World)
    (l : BulkListing) : Prop where
  decoded : decodeConfig config decodeBulkQueryAction targetConfig = .ok l.cfg
  backend : targetBackend config = .ok l.up
  atListTime : l.store = (l.up.moment w.calls).before w.store
  caller : Grpc.authenticate l.up (l.up.moment w.calls).now
    (pickToken l.up serviceContext (l.up.moment w.calls).token) = .ok l.rc
  opened : openForRead l.up.svc l.store l.rc l.cfg.entity = .ok l.o
  planned : planPage l.up.svc l.o (wireInput (l.up.moment w.calls) (bulkInput l.cfg)) =
    .ok l.planned
  fetched : fetchPage l.up.svc l.store l.o l.planned = .ok l.rows

/-- The listing of a firing, computed. -/
def compute (config : ExecutorConfig) (targetConfig : Option Json) (w : World) :
    Except String BulkListing := do
  let cfg ← decodeConfig config decodeBulkQueryAction targetConfig
  let up ← targetBackend config
  let m := up.moment w.calls
  let store := m.before w.store
  let rc ←
    (Grpc.authenticate up m.now (pickToken up serviceContext m.token)).mapError RpcStatus.text
  let o ← (openForRead up.svc store rc cfg.entity).mapError unwrapError
  let planned ← (planPage up.svc o (wireInput m (bulkInput cfg))).mapError unwrapError
  let rows ← (fetchPage up.svc store o planned).mapError unwrapError
  return { cfg, up, store, rc, o, planned, rows }

theorem isOf_iff {w : World}
    {l : BulkListing} : l.IsOf config targetConfig w ↔ compute config targetConfig w = .ok l := by
  constructor
  · rintro ⟨hcfg, hup, hstore, hrc, hopen, hplan, hrows⟩
    obtain ⟨cfg, up, store, rc, o, planned, rows⟩ := l
    dsimp only at hcfg hup hstore hrc hopen hplan hrows
    subst hstore
    simp only [compute, bind, Except.bind, Except.mapError, hcfg, hup, hrc, hopen, hplan, hrows]
    rfl
  · intro h
    obtain ⟨cfg, hcfg, h⟩ := except_bind_eq_ok h
    obtain ⟨up, hup, h⟩ := except_bind_eq_ok h
    obtain ⟨rc, hrc, h⟩ := except_bind_eq_ok h
    obtain ⟨o, hopen, h⟩ := except_bind_eq_ok h
    obtain ⟨planned, hplan, h⟩ := except_bind_eq_ok h
    obtain ⟨rows, hrows, h⟩ := except_bind_eq_ok h
    cases h
    exact ⟨hcfg, hup, rfl, mapError_eq_ok.mp hrc, mapError_eq_ok.mp hopen, mapError_eq_ok.mp hplan,
      mapError_eq_ok.mp hrows⟩

variable (l : BulkListing)

/-- The records of the answer. -/
def page : List StoredRecord := l.rows.take l.planned.limit.toNat

/-- The fields the list view offers as filters. -/
def offered : List String := (l.o.entity.listViews.head?.map EntityListView.filters).getD []

/-- How many records a page holds. -/
def pageLimit : ℕ := min 200 ((l.o.entity.listViews.head?.map EntityListView.maxLimit).getD 100)

/-- Whether a record satisfies a filter entry. -/
def satisfies (r : StoredRecord) (entry : String × String) : Bool :=
  Query.filterTruth l.up.svc.pg l.o.entity r.row entry = .tt

/-- The records of the job: visible to the service account and satisfying all entries of the
filter, when the list is served. -/
def matching : List StoredRecord :=
  (l.store l.o.entity.tableName).records.rows.filter fun r =>
    visible l.up.svc l.o r && l.cfg.filter.all (l.satisfies r)

/-- The order of a list that asks for none: that of the list view, or the latest first. -/
def sort : Query.ResolvedSort :=
  Query.resolveSort l.o.entity l.o.entity.listViews.head? none none

/-- The records that are visible to the service account and satisfy the entries on offered fields,
when the list is served, in its order. -/
def candidates : List StoredRecord :=
  ((l.store l.o.entity.tableName).records.rows.filter fun r =>
    visible l.up.svc l.o r &&
      l.cfg.filter.all fun kv => !l.offered.contains kv.1 || l.satisfies r kv).insertionSort
    (NotAfter l.up.svc l.o l.sort)

/-- How many candidates stand before a candidate. -/
def rank (r : StoredRecord) : ℕ := (l.candidates.map StoredRecord.id).idxOf r.id

/-- No more records match than a page holds, and of the candidates that do not match none is among
the first ones a page holds. -/
def FitsPage : Prop :=
  l.matching.length ≤ l.pageLimit ∧
    ∀ r ∈ l.candidates, (∃ kv ∈ l.cfg.filter, kv.1 ∉ l.offered ∧ l.satisfies r kv = false) →
      l.pageLimit ≤ l.rank r

/-- The firing attempts the configured transition on the records of the job, and on no others. -/
def Exact (attempted : List (String × Uuid × String)) : Prop :=
  ∀ entity id action, (entity, id, action) ∈ attempted ↔
    entity = l.cfg.entity ∧ action = l.cfg.action ∧ ∃ r ∈ l.matching, r.id = id

end BulkListing

/-- The attempts of a log. -/
def attemptOf : Trace → Option (String × Uuid × String)
  | .attempt entity id action => some (entity, id, action)
  | _ => none

/-- The transitions a bulk action attempts. -/
def attempts (config : ExecutorConfig) (targetConfig : Option Json) (w : World) :
    List (String × Uuid × String) :=
  (runBulkQueryAction config targetConfig w).log.filterMap attemptOf

/-! ## The log -/

/-- A call of the client logs no attempt. -/
def Silent {ε α : Type} (m : Logged World Trace ε α) : Prop :=
  Emits (fun entry => attemptOf entry = none) m

theorem Silent.filterMap_eq_nil {ε α : Type} {m : Logged World Trace ε α} (h : Silent m)
    (w : World) : (m w).log.filterMap attemptOf = [] :=
  List.filterMap_eq_nil_iff.mpr (h w)

variable (up : Upstream) (rc : RequestContext) (entityName : String)

theorem silent_tick {ε α : Type} {f : Moment → Logged World Trace ε α} (hf : ∀ m, Silent (f m)) :
    Silent (tick up >>= f) :=
  emits_bind (fun _ _ h => by cases h) hf

theorem silent_reads {ε : Type} (rows : List StoredRecord) :
    Silent (emit (rows.map Trace.read) : Logged World Trace ε Unit) := by
  refine emits_emit fun entry hentry => ?_
  obtain ⟨r, _, rfl⟩ := List.mem_map.mp hentry
  rfl

theorem silent_get (id : Uuid) : Silent (Grpc.get up rc entityName id) := by
  refine silent_tick up fun m => emits_mapError ?_
  refine emits_bind (emits_ofExcept _) fun _ => emits_bind emits_state fun w => ?_
  refine emits_bind (emits_ofExcept _) fun found => ?_
  exact emits_bind (silent_reads _) fun _ => emits_ofExcept _

theorem silent_transition (id : Uuid) (action : String) (expectedVersion : ℤ)
    (payload : Option JsonObject) :
    Silent (Grpc.transition up rc entityName id action expectedVersion payload) := by
  refine silent_tick up fun m => emits_mapError ?_
  refine emits_bind (emits_ofExcept _) fun _ => emits_bind emits_state fun w => ?_
  refine emits_bind (emits_ofExcept _) fun o => emits_bind (silent_reads _) fun _ => ?_
  refine emits_bind (emits_ofExcept _) fun p => emits_bind (emits_modify _) fun _ => ?_
  refine emits_bind emits_state fun w' => emits_bind (emits_ofExcept _) fun written => ?_
  refine emits_bind (emits_emit ?_) fun _ => emits_bind (emits_modify _) fun _ => emits_pure _
  exact List.forall_mem_singleton.mpr rfl

section

variable {config : ExecutorConfig}

/-- The one attempt of a transition is logged before anything can fail. -/
theorem filterMap_log_transitionOne (entity : String) (id : Uuid) (action : String) (w : World) :
    (transitionOne config entity id action w).log.filterMap attemptOf = [(entity, id, action)] := by
  have hrest : Silent (do
      let b ← ofExcept (targetBackend config)
      let got ← mapError unwrapError (Grpc.get b serviceContext entity id)
      mapError unwrapError (Grpc.transition b serviceContext entity id action got.record.version
        none) : Logged World Trace String RecordDto) := by
    refine emits_bind (emits_ofExcept _) fun b => ?_
    refine emits_bind (emits_mapError (silent_get b _ _ _)) fun got => ?_
    exact emits_mapError (silent_transition b _ _ _ _ _ _)
  have hrun : transitionOne config entity id action w = _ := bind_of_ok rfl
  rw [hrun, List.filterMap_append, hrest.filterMap_eq_nil]
  rfl

theorem filterMap_log_transitionEach (entity action : String) (records : List RecordDto)
    (w : World) :
    (∃ results, (transitionEach config entity action records w).result = .ok results) ∧
      (transitionEach config entity action records w).log.filterMap attemptOf =
        records.map fun r => (entity, r.id, action) := by
  have hbody : ∀ (r : RecordDto) (w : World),
      (do
        let result ← attempt (transitionOne config entity r.id action)
        return (r.id, result) : Logged World Trace String (Uuid × Except String RecordDto)) w =
        ⟨.ok (r.id, (transitionOne config entity r.id action w).result),
          (transitionOne config entity r.id action w).state,
          (transitionOne config entity r.id action w).log ++ []⟩ := fun r w => bind_of_ok rfl
  exact filterMap_log_forEach attemptOf (fun r : RecordDto => (entity, r.id, action))
    (fun r w => ⟨_, congrArg Outcome.result (hbody r w)⟩)
    (fun r w => by rw [hbody, List.append_nil, filterMap_log_transitionOne]) records w

end

theorem silent_list (input : Query.ListInput) : Silent (Grpc.list up rc entityName input) := by
  refine silent_tick up fun m => emits_mapError ?_
  refine emits_bind (emits_ofExcept _) fun _ => emits_bind (emits_ofExcept _) fun _ => ?_
  refine emits_bind emits_state fun w => emits_bind (emits_ofExcept _) fun o => ?_
  refine emits_bind (emits_ofExcept _) fun planned => emits_bind (emits_ofExcept _) fun rows => ?_
  exact emits_bind (silent_reads _) fun _ => emits_bind (silent_reads _) fun _ => emits_pure _

theorem id_hydrateRelatedDisplay (svc : Service) (store : Store) (o : Opened)
    (record : RecordDto) : (hydrateRelatedDisplay svc store o record).id = record.id := by
  unfold hydrateRelatedDisplay
  dsimp only
  split <;> rfl

/-- The records of an answer are those of the page. -/
theorem ids_presentPage {svc : Service} {store : Store} {o : Opened}
    {planned : Query.PlannedListQuery} (hlimit : 0 ≤ planned.limit) (rows : List StoredRecord) :
    (presentPage svc store o planned rows).data.map RecordDto.id =
      (rows.take planned.limit.toNat).map StoredRecord.id := by
  simp only [presentPage, maskedPage_eq hlimit, List.map_map]
  refine List.map_congr_left fun r _ => ?_
  exact id_hydrateRelatedDisplay svc store o _

/-- A firing that succeeds attempts the records of one page. -/
theorem attempts_eq {w : World}
    {summary : Summary} (h : (runBulkQueryAction config targetConfig w).result = .ok summary) :
    ∃ l : BulkListing, l.IsOf config targetConfig w ∧
      attempts config targetConfig w = l.page.map fun r => (l.cfg.entity, r.id, l.cfg.action) := by
  obtain ⟨cfg, hcfg, hrun⟩ := exists_of_ofExcept_bind_ok h
  have hrun₁ : runBulkQueryAction config targetConfig w = _ := hrun
  rw [hrun₁] at h
  obtain ⟨up, hup, hrun₂⟩ := exists_of_ofExcept_bind_ok h
  rw [hrun₂] at hrun₁ h
  obtain ⟨records, hrecords, h, hlog⟩ := exists_of_bind_ok h
  obtain ⟨results, -, -, hlogEach⟩ := exists_of_bind_ok h
  obtain ⟨caller, o, planned, rows, hcaller, hopen, hplan, hrows, hpage⟩ :=
    list_eq_ok (result_mapError_eq_ok.mp hrecords)
  let l : BulkListing :=
    { cfg, up, store := (up.moment w.calls).before w.store, rc := caller, o, planned, rows }
  refine ⟨l, ⟨hcfg, hup, rfl, hcaller, hopen, hplan, hrows⟩, ?_⟩
  have hids : records.data.map RecordDto.id = l.page.map StoredRecord.id := by
    rw [hpage]
    exact ids_presentPage (fetchPage_eq_ok.mp hrows).1 rows
  have hlist : (mapError unwrapError (Grpc.list up serviceContext cfg.entity (bulkInput cfg))
      w).log.filterMap attemptOf = [] :=
    (silent_list up serviceContext cfg.entity (bulkInput cfg)).filterMap_eq_nil w
  have heach : records.data.map (fun r => (cfg.entity, r.id, cfg.action)) =
      l.page.map fun r => (cfg.entity, r.id, cfg.action) := by
    have htag := congrArg (List.map fun id => (cfg.entity, id, cfg.action)) hids
    simpa only [List.map_map, Function.comp_def] using htag
  rw [attempts, hrun₁, hlog, List.filterMap_append, hlist, List.nil_append, hlogEach,
    List.filterMap_append, (filterMap_log_transitionEach _ _ _ _).2, heach]
  exact List.append_nil _

/-! ## Exactness -/

theorem sortedEntries_of_readFilter {acc entries : List (String × String)} {j : Json}
    (hacc : SortedEntries acc) (h : readFilter acc j = some entries) : SortedEntries entries := by
  unfold readFilter at h
  split at h
  · cases h
    exact .nil
  · refine foldlM_invariant (fun acc e acc' hacc hstep => ?_) hacc h
    obtain ⟨value, _, rfl⟩ := Option.map_eq_some_iff.mp hstep
    exact hacc.insertEntry _ _
  · cases h

/-- The filter of a job is a map: its entries come by key. -/
theorem sortedEntries_of_decode {j : Json} {cfg : BulkQueryActionConfig}
    (h : decodeBulkQueryAction j = some cfg) : SortedEntries cfg.filter := by
  obtain ⟨o, _, h⟩ := Option.bind_eq_some_iff.mp h
  obtain ⟨entity, _, h⟩ := Option.bind_eq_some_iff.mp h
  obtain ⟨filter, hfilter, h⟩ := Option.bind_eq_some_iff.mp h
  obtain ⟨action, _, h⟩ := Option.bind_eq_some_iff.mp h
  cases h
  refine foldlM_invariant (fun acc e acc' hacc hstep => ?_) List.Pairwise.nil hfilter
  split at hstep
  · exact sortedEntries_of_readFilter hacc hstep
  · cases hstep
    exact hacc

theorem decodeConfig_eq_ok {α : Type} {decode : Json → Option α} {cfg : α}
    (h : decodeConfig config decode targetConfig = .ok cfg) : ∃ j, decode j = some cfg := by
  unfold decodeConfig at h
  cases hread : targetConfig.bind decode with
  | none => simp [hread] at h
  | some cfg' =>
    rw [hread] at h
    cases h
    obtain ⟨j, _, hj⟩ := Option.bind_eq_some_iff.mp hread
    exact ⟨j, hj⟩

section

variable {config : ExecutorConfig} {targetConfig : Option Json} {w : World} {l : BulkListing}

/-- On the wire the entries of the filter arrive in some order. -/
theorem perm_wireFilters (hl : l.IsOf config targetConfig w) (m : Moment) :
    (wireInput m (bulkInput l.cfg)).filters.Perm l.cfg.filter := by
  obtain ⟨j, hj⟩ := decodeConfig_eq_ok hl.decoded
  have hfold : l.cfg.filter.foldl (fun acc kv => insertEntry kv.1 kv.2 acc) [] = l.cfg.filter :=
    foldl_insertEntry (sortedEntries_of_decode hj)
  show (m.arrange (l.cfg.filter.foldl (fun acc kv => insertEntry kv.1 kv.2 acc) [])).Perm _
  rw [hfold]
  exact m.arrange_perm _

theorem toNat_limit (hl : l.IsOf config targetConfig w) :
    l.planned.limit.toNat = l.pageLimit ∧ 0 ≤ l.planned.limit := by
  obtain ⟨listView, hview, hmeans⟩ := planPage_means (openForRead_eq_ok hl.opened).1 hl.planned
  have hhead : listView = l.o.entity.listViews.head? := (Except.ok.inj hview).symm
  have heq := hmeans.limit_eq
  have hinput : (wireInput (l.up.moment w.calls) (bulkInput l.cfg)).limit = 200 := rfl
  rw [hhead, hinput] at heq
  unfold BulkListing.pageLimit
  cases hviews : l.o.entity.listViews.head? with
  | none =>
    simp only [hviews, Option.map_none, Option.getD_none] at heq ⊢
    omega
  | some view =>
    simp only [hviews, Option.map_some, Option.getD_some] at heq ⊢
    omega

/-- The page of a firing: the first candidates. -/
theorem page_eq (hl : l.IsOf config targetConfig w) : l.page = l.candidates.take l.pageLimit := by
  obtain ⟨listView, hview, hmeans, -, hrows⟩ :=
    fetchPage_spec (openForRead_eq_ok hl.opened).1 hl.planned hl.fetched
  have hhead : listView = l.o.entity.listViews.head? := (Except.ok.inj hview).symm
  have hsort : l.planned.resolvedSort = l.sort := hmeans.sort_eq.trans (hhead ▸ rfl)
  obtain ⟨hlimit, hpositive⟩ := toNat_limit hl
  have hhonoured : ∀ kv, kv ∈ Query.honouredFilters listView
      (wireInput (l.up.moment w.calls) (bulkInput l.cfg)) ↔
      kv ∈ l.cfg.filter ∧ kv.1 ∈ l.offered := by
    intro kv
    rw [Query.honouredFilters, Query.allowedFilters, List.mem_filter,
      (perm_wireFilters hl _).mem_iff, hhead, List.contains_iff_mem]
    rfl
  have hselects : ∀ r, selects l.up.svc l.o listView
      (wireInput (l.up.moment w.calls) (bulkInput l.cfg)) r = (visible l.up.svc l.o r &&
        l.cfg.filter.all fun kv => !l.offered.contains kv.1 || l.satisfies r kv) := by
    intro r
    rw [Bool.eq_iff_iff, selects_iff]
    simp only [hhonoured, Bool.and_eq_true, List.all_eq_true, Bool.or_eq_true, Bool.not_eq_true',
      BulkListing.satisfies, decide_eq_true_eq, List.contains_eq_mem, decide_eq_false_iff_not,
      ← imp_iff_not_or, and_imp]
    refine and_congr_right fun _ => and_iff_left ⟨?_, ?_⟩
    · simp [Query.jqlFilter, wireInput, bulkInput]
    · simp [Query.cursorTruths, Query.cursorPosition, wireInput, bulkInput]
  rw [BulkListing.page, hrows, List.take_take, hlimit, hsort,
    List.filter_congr fun r _ => hselects r]
  exact congrArg (List.take · _) (by omega)

/-- Two rows of the table with one id are one row. -/
theorem eq_of_id_eq {r r' : StoredRecord} {table : String} (hr : r ∈ (l.store table).records.rows)
    (hr' : r' ∈ (l.store table).records.rows) (hid : r.id = r'.id) : r = r' :=
  List.inj_on_of_nodup_map (l.store table).records.nodup hr hr' hid

theorem mem_candidates {r : StoredRecord} : r ∈ l.candidates ↔
    r ∈ (l.store l.o.entity.tableName).records.rows ∧ visible l.up.svc l.o r = true ∧
      ∀ kv ∈ l.cfg.filter, kv.1 ∈ l.offered → l.satisfies r kv = true := by
  rw [BulkListing.candidates, List.mem_insertionSort, List.mem_filter]
  simp only [Bool.and_eq_true, List.all_eq_true, Bool.or_eq_true, Bool.not_eq_true',
    List.contains_eq_mem, decide_eq_false_iff_not, ← imp_iff_not_or]

/-- A candidate matches if it satisfies also the entries on fields that are not offered. -/
theorem mem_matching {r : StoredRecord} : r ∈ l.matching ↔ r ∈ l.candidates ∧
    ¬∃ kv ∈ l.cfg.filter, kv.1 ∉ l.offered ∧ l.satisfies r kv = false := by
  rw [mem_candidates, BulkListing.matching, List.mem_filter, Bool.and_eq_true, List.all_eq_true]
  simp only [not_exists, not_and, Bool.not_eq_false]
  constructor
  · rintro ⟨hrow, hvisible, hall⟩
    exact ⟨⟨hrow, hvisible, fun kv hkv _ => hall kv hkv⟩, fun kv hkv _ => hall kv hkv⟩
  · rintro ⟨⟨hrow, hvisible, hoffered⟩, hignored⟩
    refine ⟨hrow, hvisible, fun kv hkv => ?_⟩
    by_cases hin : kv.1 ∈ l.offered
    · exact hoffered kv hkv hin
    · exact hignored kv hkv hin

theorem nodup_candidates : l.candidates.Nodup :=
  (List.perm_insertionSort _ _).nodup_iff.mpr
    ((List.Nodup.of_map _ (l.store l.o.entity.tableName).records.nodup).filter _)

/-- A candidate is on the page exactly when less than a page of candidates stands before it. -/
theorem mem_take_candidates {r : StoredRecord} (hr : r ∈ l.candidates) (n : ℕ) :
    r ∈ l.candidates.take n ↔ l.rank r < n := by
  rw [BulkListing.rank, ← List.mem_take_iff_idxOf_lt (List.mem_map_of_mem hr), ← List.map_take,
    List.mem_map]
  constructor
  · exact fun h => ⟨r, h, rfl⟩
  · rintro ⟨r', hr', hid⟩
    have hrow := (mem_candidates.mp (List.mem_of_mem_take hr')).1
    exact eq_of_id_eq hrow (mem_candidates.mp hr).1 hid ▸ hr'

/-- The first candidates are the matching records exactly when they hold only matching ones and are
not too few for them. -/
theorem mem_page_iff_mem_matching_iff (hl : l.IsOf config targetConfig w) :
    (∀ r, r ∈ l.page ↔ r ∈ l.matching) ↔ l.FitsPage := by
  have hpage := page_eq hl
  have hpageNodup : l.page.Nodup := hpage ▸ nodup_candidates.sublist (List.take_sublist _ _)
  have hmatchingNodup : l.matching.Nodup :=
    (List.Nodup.of_map _ (l.store l.o.entity.tableName).records.nodup).filter _
  constructor
  · intro hsame
    have hperm : l.page.Perm l.matching :=
      (List.perm_ext_iff_of_nodup hpageNodup hmatchingNodup).mpr hsame
    refine ⟨?_, fun r hr hunmatched => ?_⟩
    · rw [← hperm.length_eq, hpage]
      exact List.length_take_le _ _
    · by_contra hshort
      have hin := (mem_take_candidates hr l.pageLimit).mpr (by omega)
      exact (mem_matching.mp ((hsame r).mp (hpage ▸ hin))).2 hunmatched
  · rintro ⟨hfits, hlate⟩
    have hinto : l.page ⊆ l.matching := by
      intro r hr
      rw [hpage] at hr
      have hcandidate := List.mem_of_mem_take hr
      refine mem_matching.mpr ⟨hcandidate, fun hunmatched => ?_⟩
      have hrank := (mem_take_candidates hcandidate _).mp hr
      have hpast := hlate r hcandidate hunmatched
      omega
    by_cases hshort : l.candidates.length ≤ l.pageLimit
    · -- all candidates are on the page
      have hall : l.page = l.candidates := by rw [hpage, List.take_of_length_le hshort]
      exact fun r => ⟨fun hr => hinto hr, fun hr => hall ▸ (mem_matching.mp hr).1⟩
    · -- the page is full, so it has no room for another matching record
      have hfull : l.page.length = l.pageLimit := by
        rw [hpage, List.length_take]
        omega
      have hperm : l.page.Perm l.matching :=
        (hpageNodup.subperm hinto).perm_of_length_le (hfull ▸ hfits)
      exact fun r => hperm.mem_iff

end

/-- A firing that succeeds attempts the transition on exactly the matching records if and only if
there are no more of them than one page holds, and a page of candidates stands before every
candidate that fails an entry on a field the list view does not offer. -/
theorem attempts_exact_iff (config : ExecutorConfig) (targetConfig : Option Json) (w : World)
    (summary : Summary) (h : (runBulkQueryAction config targetConfig w).result = .ok summary) :
    ∃ l : BulkListing, l.IsOf config targetConfig w ∧
      (l.Exact (attempts config targetConfig w) ↔ l.FitsPage) := by
  obtain ⟨l, hl, hattempts⟩ := attempts_eq h
  refine ⟨l, hl, ?_⟩
  rw [← mem_page_iff_mem_matching_iff hl, hattempts]
  have hpageRow : ∀ r ∈ l.page, r ∈ (l.store l.o.entity.tableName).records.rows :=
    fun r hr => (mem_candidates.mp (List.mem_of_mem_take (page_eq hl ▸ hr))).1
  have hmatchingRow : ∀ r ∈ l.matching, r ∈ (l.store l.o.entity.tableName).records.rows :=
    fun r hr => List.mem_of_mem_filter hr
  constructor
  · intro hexact r
    constructor
    · intro hr
      have hmem := (hexact l.cfg.entity r.id l.cfg.action).mp (List.mem_map.mpr ⟨r, hr, rfl⟩)
      obtain ⟨-, -, r', hr', hid⟩ := hmem
      exact eq_of_id_eq (hmatchingRow r' hr') (hpageRow r hr) hid ▸ hr'
    · intro hr
      have hmem := (hexact l.cfg.entity r.id l.cfg.action).mpr ⟨rfl, rfl, r, hr, rfl⟩
      obtain ⟨r', hr', heq⟩ := List.mem_map.mp hmem
      have hid : r'.id = r.id := congrArg (fun e => e.2.1) heq
      exact eq_of_id_eq (hpageRow r' hr') (hmatchingRow r hr) hid ▸ hr'
  · intro hsame entity id action
    rw [List.mem_map]
    constructor
    · rintro ⟨r, hr, heq⟩
      cases heq
      exact ⟨rfl, rfl, r, (hsame r).mp hr, rfl⟩
    · rintro ⟨rfl, rfl, r, hr, rfl⟩
      exact ⟨r, (hsame r).mpr hr, rfl⟩

/-! ## Two tickets -/

def closedTicket : StoredRecord where
  id := 8
  tenantID := 1
  status := some "closed"
  data := [("state", .str "closed")]

/-- A job that closes the open tickets.  The entity has no list view to offer the filter. -/
def closeOpenTickets : Option Json :=
  some (.obj [("entity", .str "app.ticket"), ("filter", .obj [("state", .str "open")]),
    ("action", .str "close")])

def twoTickets : World where
  store := fun _ => { records := ⟨[openTicket, closedTicket], by decide⟩ }

/-- What the listing of the open ticket comes to. -/
theorem fitsPage_ticketWorld {l : BulkListing}
    (hl : l.IsOf ticketExecutor closeOpenTickets ticketWorld) : l.FitsPage := by
  have hcompute := BulkListing.isOf_iff.mp hl
  have hall : ((BulkListing.compute ticketExecutor closeOpenTickets ticketWorld).map fun l =>
      decide (l.matching.length ≤ l.pageLimit) && l.candidates.all fun r =>
        l.cfg.filter.all (l.satisfies r)).toOption = some true := by
    decide +kernel
  rw [hcompute] at hall
  have hboth := Option.some.inj hall
  rw [Bool.and_eq_true, decide_eq_true_iff, List.all_eq_true] at hboth
  refine ⟨hboth.1, fun r hr ⟨kv, hkv, _, hfails⟩ => ?_⟩
  rw [List.all_eq_true.mp (hboth.2 r hr) kv hkv] at hfails
  cases hfails

/-- Where only open tickets exist, the job attempts them. -/
theorem attempts_exact_open :
    ∃ summary, ∃ l : BulkListing,
      (runBulkQueryAction ticketExecutor closeOpenTickets ticketWorld).result = .ok summary ∧
      l.IsOf ticketExecutor closeOpenTickets ticketWorld ∧
      attempts ticketExecutor closeOpenTickets ticketWorld = [("app.ticket", 7, "close")] ∧
      l.Exact (attempts ticketExecutor closeOpenTickets ticketWorld) := by
  have hrun : (runBulkQueryAction ticketExecutor closeOpenTickets ticketWorld).result.isOk = true ∧
      attempts ticketExecutor closeOpenTickets ticketWorld = [("app.ticket", 7, "close")] := by
    decide +kernel
  obtain ⟨summary, hsummary⟩ := exists_eq_ok_of_isOk hrun.1
  obtain ⟨l, hl, hiff⟩ := attempts_exact_iff ticketExecutor closeOpenTickets ticketWorld summary
    hsummary
  exact ⟨summary, l, hsummary, hl, hrun.2, hiff.mpr (fitsPage_ticketWorld hl)⟩

/-- The same job attempts a ticket that is closed already: the entry on `state` is ignored. -/
theorem ignored_filter_attempts_unmatched :
    ∃ l : BulkListing, l.IsOf ticketExecutor closeOpenTickets twoTickets ∧
      (runBulkQueryAction ticketExecutor closeOpenTickets twoTickets).result.isOk = true ∧
      attempts ticketExecutor closeOpenTickets twoTickets =
        [("app.ticket", 7, "close"), ("app.ticket", 8, "close")] ∧
      l.matching.map StoredRecord.id = [7] ∧
      ¬l.Exact (attempts ticketExecutor closeOpenTickets twoTickets) := by
  have hrun : (runBulkQueryAction ticketExecutor closeOpenTickets twoTickets).result.isOk = true ∧
      attempts ticketExecutor closeOpenTickets twoTickets =
        [("app.ticket", 7, "close"), ("app.ticket", 8, "close")] := by decide +kernel
  obtain ⟨l, hl, hmatching⟩ := exists_ok_of_decide
    (BulkListing.compute ticketExecutor closeOpenTickets twoTickets)
    (fun l => l.matching.map StoredRecord.id = [7]) (by decide +kernel)
  refine ⟨l, BulkListing.isOf_iff.mpr hl, hrun.1, hrun.2, hmatching, ?_⟩
  intro hexact
  have hmem : ("app.ticket", (8 : Uuid), "close") ∈
      attempts ticketExecutor closeOpenTickets twoTickets := by simp [hrun.2]
  obtain ⟨-, -, r, hr, hid⟩ := (hexact _ _ _).mp hmem
  have hseven : r.id ∈ l.matching.map StoredRecord.id := List.mem_map.mpr ⟨r, hr, rfl⟩
  rw [hmatching, List.mem_singleton, hid] at hseven
  exact absurd hseven (by decide)

end Metap.Cron
