import Metap.Reconciler.DeploymentQueue

/-!
# Applied versions

A worker that holds a claim reconciles the schema to the claimed version and then records that
version as applied.  Nothing stops a worker that has been overtaken, by a newer version or by
another worker after its lease ran out: it takes the schema back to its own version, and then the
applied version as well (`overtaken_worker_regresses`).

`applied_version_monotone_iff`: the applied version never decreases and never names a version newer
than the schema's exactly when no worker of a row gets to the schema or to the record after a newer
version was recorded, and none records a version that an older one has since replaced in the schema.
-/

namespace Metap.Reconciler

open Transition

/-! ## Versions -/

/-- The second version is no older than the first; no version is the oldest. -/
def VersionLe (v w : Option ℤ) : Prop := ∀ a ∈ v, ∃ b ∈ w, a ≤ b

theorem VersionLe.refl (v : Option ℤ) : VersionLe v v := fun a ha => ⟨a, ha, le_rfl⟩

theorem versionLe_none (w : Option ℤ) : VersionLe none w := fun a ha => by cases ha

def appliedVersion (t : Deployments) (k : Uuid × String) : Option ℤ :=
  (t.find k).bind Deployment.appliedVersion

theorem appliedVersion_update (t : Deployments) (p : Deployment → Bool)
    (f : Deployment → Deployment) (hf : ∀ d, (f d).key = d.key) (k : Uuid × String) :
    appliedVersion (t.update p f hf) k =
      (t.find k).bind fun d => if p d then (f d).appliedVersion else d.appliedVersion := by
  rw [appliedVersion, KeyedTable.find_update]
  cases t.find k with
  | none => rfl
  | some d => exact apply_ite Deployment.appliedVersion _ _ _

/-- An update that leaves the applied versions of the rows alone. -/
theorem appliedVersion_update_of_keeps (t : Deployments) (p : Deployment → Bool)
    (f : Deployment → Deployment) (hf : ∀ d, (f d).key = d.key)
    (hkeeps : ∀ d, (f d).appliedVersion = d.appliedVersion) (k : Uuid × String) :
    appliedVersion (t.update p f hf) k = appliedVersion t k := by
  rw [appliedVersion_update]
  simp only [hkeeps, ite_self]
  rfl

theorem appliedVersion_enqueueDeployment (t : Deployments) (now : ℤ) (tenantID : Uuid)
    (entityName : String) (desiredVersion : ℤ) (k : Uuid × String) :
    appliedVersion (enqueueDeployment t now tenantID entityName desiredVersion) k =
      appliedVersion t k := by
  unfold enqueueDeployment
  split
  · next hnew =>
    refine (congrArg (Option.bind · Deployment.appliedVersion)
      (KeyedTable.find_insert t _ _ k)).trans ?_
    split
    · next hk =>
      have hnone : t.find k = none := hk ▸ hnew
      rw [appliedVersion, hnone]
      rfl
    · rfl
  · exact appliedVersion_update_of_keeps t _ (.enqueued desiredVersion now) (fun _ => rfl)
      (fun _ => rfl) k

theorem appliedVersion_enqueueCohort {now : ℤ} {entityName : String} {packVersion : ℤ}
    {changed cohort : List Uuid} {t t' : Deployments}
    (h : enqueueCohort now entityName packVersion changed cohort t = some t')
    (k : Uuid × String) : appliedVersion t' k = appliedVersion t k := by
  induction cohort generalizing changed t with
  | nil =>
    cases h
    rfl
  | cons tenantID cohort ih =>
    unfold enqueueCohort at h
    split at h
    · cases h
    · rw [ih h, appliedVersion_enqueueDeployment]

theorem appliedVersion_recordSuccess {t : Deployments} {now : ℤ} {c : ClaimedEntity}
    (hfound : (t.find c.key).isSome) (k : Uuid × String) :
    appliedVersion (recordSuccess t now c.tenantID c.entityName c.desiredVersion) k =
      if k = c.key then some c.desiredVersion else appliedVersion t k := by
  refine (appliedVersion_update t _ _ _ k).trans ?_
  cases hd : t.find k with
  | none =>
    have hk : k ≠ c.key := by
      rintro rfl
      rw [hd] at hfound
      cases hfound
    rw [if_neg hk, appliedVersion, hd]
    rfl
  | some d =>
    rw [Option.bind_some, KeyedTable.key_of_find hd, appliedVersion, hd]
    exact if_congr decide_eq_true_iff rfl rfl

variable {e : QueueEvent} {c : Claim} {d : Deployment}

/-- Whatever is not a success leaves the applied versions alone. -/
theorem appliedVersion_next {s t : QueueState} (h : s.next e = some t)
    (hother : ∀ c v, e ≠ .succeed c v) (k : Uuid × String) :
    appliedVersion t.deployments k = appliedVersion s.deployments k := by
  cases e with
  | enqueue tenantID entityName desiredVersion =>
    cases h
    exact appliedVersion_enqueueDeployment _ _ _ _ _ k
  | advance entityName packVersion cohort =>
    obtain ⟨deployments, hcohort, rfl⟩ := Option.map_eq_some_iff.mp h
    exact appliedVersion_enqueueCohort hcohort k
  | claim workerID entityNameFilter maxAttempts limit locked =>
    cases h
    exact appliedVersion_update_of_keeps _ _ (.leased workerID s.now)
      (fun _ => rfl) (fun _ => rfl) k
  | succeed c v => exact absurd rfl (hother c v)
  | fail c err =>
    simp only [QueueState.next, Option.ite_none_right_eq_some] at h
    obtain ⟨-, h⟩ := h
    cases h
    exact appliedVersion_update_of_keeps _ _ (.failedWith err s.now) (fun _ => rfl) (fun _ => rfl) k
  | wait seconds =>
    cases h
    rfl

/-! ## The system with the schemas -/

structure ApplyState where
  queue : QueueState
  /-- The version a schema was last reconciled to. -/
  schema : Uuid × String → Option ℤ
  /-- The claims whose schema has been reconciled and whose success is not recorded yet. -/
  reconciled : List Claim

inductive ApplyEvent where
  /-- What happens in the queue, successes apart. -/
  | work (e : QueueEvent)
  /-- A worker reconciles the schema to the version it claimed. -/
  | reconcile (c : Claim)
  /-- A worker records its success. -/
  | succeed (c : Claim) (desiredVersion : ℤ)

/-- Some worker has the claim and has not reconciled the schema for it yet. -/
def ApplyState.Working (s : ApplyState) (c : Claim) : Prop :=
  s.reconciled.count c < s.queue.claims.count c

instance (s : ApplyState) (c : Claim) : Decidable (s.Working c) := Nat.decLt _ _

/-- What a worker may do next in the queue, successes apart: only a reconcile that did not end well
is recorded as a failure. -/
def ApplyState.Permits (s : ApplyState) : QueueEvent → Bool
  | .succeed _ _ => false
  | .fail c _ => s.Working c
  | _ => true

def ApplyState.next (s : ApplyState) : ApplyEvent → Option ApplyState
  | .work e =>
    if s.Permits e then (s.queue.next e).map fun queue => { s with queue } else none
  | .reconcile c =>
    if s.Working c then
      some { s with
        schema := Function.update s.schema c.entity.key (some c.entity.desiredVersion)
        reconciled := c :: s.reconciled }
    else none
  | .succeed c desiredVersion =>
    if c ∈ s.reconciled then
      (s.queue.next (.succeed c desiredVersion)).map fun queue =>
        { s with queue, reconciled := s.reconciled.erase c }
    else none

def ApplyStep (s : ApplyState) (e : ApplyEvent) (t : ApplyState) : Prop := s.next e = some t

def ApplyState.initial (now : ℤ) : ApplyState := ⟨.initial now, fun _ => none, []⟩

/-- No row names a version newer than its schema's. -/
def ApplyState.Truthful (s : ApplyState) : Prop :=
  ∀ k, VersionLe (appliedVersion s.queue.deployments k) (s.schema k)

/-- A step after which every row is truthful and no applied version is older than before. -/
def KeepsVersions (s : ApplyState) (_ : ApplyEvent) (t : ApplyState) : Prop :=
  (∀ k, VersionLe (appliedVersion s.queue.deployments k) (appliedVersion t.queue.deployments k)) ∧
    t.Truthful

/-- No worker of the row has recorded a newer version. -/
def Unovertaken (earlier : List ApplyEvent) (c : Claim) : Prop :=
  ∀ c' v, .succeed c' v ∈ earlier → c'.entity.key = c.entity.key →
    c'.entity.desiredVersion ≤ c.entity.desiredVersion

/-- Wherever a worker took the row's schema to an older version, another one has since taken it to
a version as new as this. -/
def SchemaRestored (earlier : List ApplyEvent) (c : Claim) : Prop :=
  ∀ before c' after, earlier = before ++ .reconcile c' :: after → c'.entity.key = c.entity.key →
    c'.entity.desiredVersion < c.entity.desiredVersion →
    ∃ c'', .reconcile c'' ∈ after ∧ c''.entity.key = c.entity.key ∧
      c.entity.desiredVersion ≤ c''.entity.desiredVersion

/-- The worker comes in the order of the versions, after the events given. -/
def ApplyEvent.InOrder (earlier : List ApplyEvent) : ApplyEvent → Prop
  | .work _ => True
  | .reconcile c => Unovertaken earlier c
  | .succeed c _ => Unovertaken earlier c ∧ SchemaRestored earlier c

/-! ## Steps -/

variable {s : ApplyState} {t : ApplyState}

theorem applyStep_work (h : ApplyStep s (.work e) t) :
    (∀ k, appliedVersion t.queue.deployments k = appliedVersion s.queue.deployments k) ∧
      t.schema = s.schema ∧ t.reconciled = s.reconciled := by
  simp only [ApplyStep, ApplyState.next, Option.ite_none_right_eq_some] at h
  obtain ⟨hpermits, h⟩ := h
  obtain ⟨queue, hqueue, rfl⟩ := Option.map_eq_some_iff.mp h
  refine ⟨appliedVersion_next hqueue ?_, rfl, rfl⟩
  rintro c v rfl
  cases hpermits

theorem applyStep_reconcile (h : ApplyStep s (.reconcile c) t) :
    t.queue = s.queue ∧ t.reconciled = c :: s.reconciled ∧
      t.schema = Function.update s.schema c.entity.key (some c.entity.desiredVersion) := by
  simp only [ApplyStep, ApplyState.next, Option.ite_none_right_eq_some] at h
  obtain ⟨-, h⟩ := h
  cases h
  exact ⟨rfl, rfl, rfl⟩

theorem applyStep_succeed {desiredVersion : ℤ} (h : ApplyStep s (.succeed c desiredVersion) t) :
    c ∈ s.reconciled ∧ t.schema = s.schema ∧ t.reconciled = s.reconciled.erase c ∧
      ∀ k, appliedVersion t.queue.deployments k =
        if k = c.entity.key then some c.entity.desiredVersion
        else appliedVersion s.queue.deployments k := by
  simp only [ApplyStep, ApplyState.next, Option.ite_none_right_eq_some] at h
  obtain ⟨hmem, h⟩ := h
  obtain ⟨queue, hqueue, rfl⟩ := Option.map_eq_some_iff.mp h
  simp only [QueueState.next, Option.ite_none_right_eq_some] at hqueue
  obtain ⟨⟨-, hdesired⟩, hqueue⟩ := hqueue
  cases hqueue
  refine ⟨hmem, rfl, rfl, fun k => ?_⟩
  exact appliedVersion_recordSuccess (by simpa using congrArg Option.isSome hdesired) k

/-! ## What the events say of the state -/

/-- The last worker that reconciled the row's schema. -/
def LastReconcile (earlier : List ApplyEvent) (k : Uuid × String) (c : Claim) : Prop :=
  c.entity.key = k ∧ ∃ before after, earlier = before ++ .reconcile c :: after ∧
    ∀ c', .reconcile c' ∈ after → c'.entity.key ≠ k

variable {earlier : List ApplyEvent} {k : Uuid × String}

theorem LastReconcile.snoc {e : ApplyEvent} (h : LastReconcile earlier k c)
    (hother : ∀ c', e = .reconcile c' → c'.entity.key ≠ k) :
    LastReconcile (earlier ++ [e]) k c := by
  obtain ⟨hkey, before, after, rfl, hlast⟩ := h
  refine ⟨hkey, before, after ++ [e], by simp, fun c' hc' => ?_⟩
  rcases List.mem_append.mp hc' with hafter | he
  · exact hlast c' hafter
  · exact hother c' (List.mem_singleton.mp he).symm

theorem lastReconcile_reconcile (earlier : List ApplyEvent) (c : Claim) :
    LastReconcile (earlier ++ [.reconcile c]) c.entity.key c :=
  ⟨rfl, earlier, [], rfl, by simp⟩

/-- The row's schema has the version whenever the last worker that reconciled it had. -/
theorem LastReconcile.restored_iff {last : Claim} (h : LastReconcile earlier c.entity.key last) :
    SchemaRestored earlier c ↔ c.entity.desiredVersion ≤ last.entity.desiredVersion := by
  obtain ⟨hkey, before, after, rfl, hlast⟩ := h
  constructor
  · intro hrestored
    by_contra hold
    obtain ⟨c', hc', hsame, -⟩ := hrestored before last after rfl hkey (lt_of_not_ge hold)
    exact hlast c' hc' hsame
  · intro hnew front c' back hsplit hsame hold
    rcases List.append_eq_append_iff.mp hsplit with ⟨mid, hfront, hback⟩ | ⟨mid, hfront, hback⟩
    · -- The older worker is the last one or comes after it.
      rcases List.cons_eq_append_iff.mp hback with ⟨-, heq⟩ | ⟨mid, -, hmid⟩
      · obtain ⟨hc', -⟩ := List.cons.inj heq
        cases hc'
        exact absurd hnew (not_le_of_gt hold)
      · exact absurd hsame (hlast c' (by simp [hmid]))
    · rcases List.cons_eq_append_iff.mp hback with ⟨-, heq⟩ | ⟨mid, -, hmid⟩
      · obtain ⟨hc', -⟩ := List.cons.inj heq
        cases hc'
        exact absurd hnew (not_le_of_gt hold)
      · exact ⟨last, by simp [hmid], hkey, hnew⟩

/-- What a run in which every worker came in order has led to. -/
structure ApplyState.Follows (earlier : List ApplyEvent) (s : ApplyState) : Prop where
  truthful : s.Truthful
  schema : ∀ k v, s.schema k = some v →
    ∃ c, LastReconcile earlier k c ∧ c.entity.desiredVersion = v
  reconciled : ∀ c ∈ s.reconciled, (s.schema c.entity.key).isSome
  recorded : ∀ k a, appliedVersion s.queue.deployments k = some a →
    ∃ c v, .succeed c v ∈ earlier ∧ c.entity.key = k ∧ c.entity.desiredVersion = a
  newest : ∀ c v, .succeed c v ∈ earlier → ∃ a,
    appliedVersion s.queue.deployments c.entity.key = some a ∧ c.entity.desiredVersion ≤ a

theorem ApplyState.Follows.unovertaken_iff (h : s.Follows earlier) :
    Unovertaken earlier c ↔
      VersionLe (appliedVersion s.queue.deployments c.entity.key)
        (some c.entity.desiredVersion) := by
  constructor
  · intro hfirst a ha
    obtain ⟨c', v, hc', hkey, rfl⟩ := h.recorded _ a ha
    exact ⟨_, rfl, hfirst c' v hc' hkey⟩
  · intro hle c' v hc' hkey
    obtain ⟨a, ha, hnew⟩ := h.newest c' v hc'
    obtain ⟨w, hw, haw⟩ := hle a (hkey ▸ ha)
    cases hw
    exact hnew.trans haw

theorem ApplyState.Follows.restored_iff (h : s.Follows earlier) (hc : c ∈ s.reconciled) :
    SchemaRestored earlier c ↔
      VersionLe (some c.entity.desiredVersion) (s.schema c.entity.key) := by
  obtain ⟨v, hv⟩ := Option.isSome_iff_exists.mp (h.reconciled c hc)
  obtain ⟨last, hlast, rfl⟩ := h.schema _ v hv
  rw [hlast.restored_iff, hv]
  simp [VersionLe]

/-- After the events given, a worker comes in order exactly when its step keeps the versions. -/
theorem ApplyState.Follows.inOrder_iff {e : ApplyEvent} (h : s.Follows earlier)
    (hstep : ApplyStep s e t) : e.InOrder earlier ↔ KeepsVersions s e t := by
  cases e with
  | work e =>
    obtain ⟨happlied, hschema, -⟩ := applyStep_work hstep
    refine iff_of_true trivial ⟨fun k => ?_, fun k => ?_⟩
    · rw [happlied]
      exact .refl _
    · rw [happlied, hschema]
      exact h.truthful k
  | reconcile c =>
    obtain ⟨hqueue, -, hschema⟩ := applyStep_reconcile hstep
    refine h.unovertaken_iff.trans ⟨fun horder => ⟨fun k => ?_, fun k => ?_⟩, fun hkeeps => ?_⟩
    · rw [hqueue]
      exact .refl _
    · rw [hqueue, hschema]
      by_cases hk : k = c.entity.key
      · rw [hk, Function.update_self]
        exact horder
      · rw [Function.update_of_ne hk]
        exact h.truthful k
    · have hkey := hkeeps.2 c.entity.key
      rwa [hqueue, hschema, Function.update_self] at hkey
  | succeed c desiredVersion =>
    obtain ⟨hc, hschema, -, happlied⟩ := applyStep_succeed hstep
    refine (and_congr h.unovertaken_iff (h.restored_iff hc)).trans
      ⟨fun horder => ⟨fun k => ?_, fun k => ?_⟩, fun hkeeps => ?_⟩
    · rw [happlied]
      split
      · next hk => exact hk ▸ horder.1
      · exact .refl _
    · rw [happlied, hschema]
      split
      · next hk => exact hk ▸ horder.2
      · exact h.truthful k
    · have hgrows := hkeeps.1 c.entity.key
      have htruth := hkeeps.2 c.entity.key
      rw [happlied, if_pos rfl] at hgrows htruth
      exact ⟨hgrows, hschema ▸ htruth⟩

/-- A step that keeps the versions leads on to what its events say. -/
theorem ApplyState.Follows.step {e : ApplyEvent} (h : s.Follows earlier) (hstep : ApplyStep s e t)
    (hkeeps : KeepsVersions s e t) : t.Follows (earlier ++ [e]) := by
  have hsucceed : ∀ {c v}, .succeed c v ∈ earlier → .succeed c v ∈ earlier ++ [e] :=
    List.mem_append_left _
  cases e with
  | work e =>
    obtain ⟨happlied, hschema, hreconciled⟩ := applyStep_work hstep
    refine ⟨hkeeps.2, fun k v hv => ?_, ?_, fun k a ha => ?_, fun c v hc => ?_⟩
    · obtain ⟨c, hlast, hc⟩ := h.schema k v (hschema ▸ hv)
      exact ⟨c, hlast.snoc (by simp), hc⟩
    · rw [hreconciled, hschema]
      exact h.reconciled
    · obtain ⟨c, v, hc, hrest⟩ := h.recorded k a (happlied k ▸ ha)
      exact ⟨c, v, hsucceed hc, hrest⟩
    · rw [happlied]
      exact h.newest c v (by simpa using hc)
  | reconcile c =>
    obtain ⟨hqueue, hreconciled, hschema⟩ := applyStep_reconcile hstep
    refine ⟨hkeeps.2, fun k v hv => ?_, fun c' hc' => ?_, fun k a ha => ?_, fun c' v hc' => ?_⟩
    · rw [hschema] at hv
      by_cases hk : k = c.entity.key
      · subst hk
        rw [Function.update_self] at hv
        exact ⟨c, lastReconcile_reconcile earlier c, Option.some.inj hv⟩
      · rw [Function.update_of_ne hk] at hv
        obtain ⟨last, hlast, hv⟩ := h.schema k v hv
        refine ⟨last, hlast.snoc ?_, hv⟩
        rintro c' ⟨⟩
        exact fun hsame => hk hsame.symm
    · rw [hschema]
      by_cases hk : c'.entity.key = c.entity.key
      · rw [hk, Function.update_self]
        rfl
      · rw [Function.update_of_ne hk]
        rw [hreconciled] at hc'
        exact h.reconciled c' (List.mem_of_ne_of_mem (fun heq => hk (heq ▸ rfl)) hc')
    · obtain ⟨c', v, hc', hrest⟩ := h.recorded k a (hqueue ▸ ha)
      exact ⟨c', v, hsucceed hc', hrest⟩
    · rw [hqueue]
      exact h.newest c' v (by simpa using hc')
  | succeed c desiredVersion =>
    obtain ⟨-, hschema, hreconciled, happlied⟩ := applyStep_succeed hstep
    refine ⟨hkeeps.2, fun k v hv => ?_, fun c' hc' => ?_, fun k a ha => ?_, fun c' v hc' => ?_⟩
    · obtain ⟨last, hlast, hv⟩ := h.schema k v (hschema ▸ hv)
      exact ⟨last, hlast.snoc (by simp), hv⟩
    · rw [hschema]
      rw [hreconciled] at hc'
      exact h.reconciled c' (List.mem_of_mem_erase hc')
    · rw [happlied] at ha
      split at ha
      · next hk => exact ⟨c, desiredVersion, by simp, hk.symm, Option.some.inj ha⟩
      · obtain ⟨c', v, hc', hrest⟩ := h.recorded k a ha
        exact ⟨c', v, hsucceed hc', hrest⟩
    · rcases List.mem_append.mp hc' with hbefore | hnow
      · -- The applied version grew, so it still reaches what was recorded before.
        obtain ⟨a, ha, hnew⟩ := h.newest c' v hbefore
        obtain ⟨b, hb, hab⟩ := hkeeps.1 c'.entity.key a ha
        exact ⟨b, hb, hnew.trans hab⟩
      · cases List.mem_singleton.mp hnow
        exact ⟨_, (happlied _).trans (if_pos rfl), le_rfl⟩

/-- All along a run from an empty queue, applied versions never decrease and never name a version
newer than the schema's exactly when every worker comes in order after those before it. -/
theorem applied_version_monotone_iff {now : ℤ} {events : List ApplyEvent} {s : ApplyState}
    (hrun : Run ApplyStep (.initial now) events s) :
    (∀ earlier e t u, earlier ++ [e] <+: events → Run ApplyStep (.initial now) earlier t →
      ApplyStep t e u → KeepsVersions t e u) ↔
      ∀ earlier e, earlier ++ [e] <+: events → e.InOrder earlier := by
  refine hrun.every_step_iff_history (I := fun earlier s => s.Follows earlier)
    (P := KeepsVersions) ?_ ?_ ?_ ?_
  · exact fun earlier s e t horder hstep h => h.step hstep ((h.inOrder_iff hstep).mp horder)
  · exact fun earlier s e t horder hstep h => (h.inOrder_iff hstep).mp horder
  · exact fun earlier s e t hstep h => (h.inOrder_iff hstep).mpr
  · refine ⟨fun k => versionLe_none _, ?_, ?_, ?_, ?_⟩
    · exact fun k v hv => nomatch hv
    · exact fun c hc => nomatch hc
    · exact fun k a ha => nomatch ha
    · exact fun c v hc => nomatch hc

/-! ## Two workers on one row -/

/-- One row, whose schema is at the given version. -/
def ApplyState.single (d : Deployment) (claims : List Claim) (schema : Option ℤ)
    (reconciled : List Claim) : ApplyState where
  queue := .single d claims
  schema := Function.update (fun _ => none) firstVersion.key schema
  reconciled

theorem applyStep_queue {queue : QueueState} (hstep : QueueStep s.queue e queue)
    (hpermits : s.Permits e = true) : ApplyStep s (.work e) { s with queue } := by
  simp only [ApplyStep, ApplyState.next]
  rw [if_pos hpermits, hstep]
  rfl

theorem applyStep_enqueueFirst :
    ApplyStep (.initial 0) (.work (.enqueue 1 "hr.staff" 1)) (.single firstVersion [] none []) := by
  have hempty : (fun _ : Uuid × String => (none : Option ℤ)) =
      Function.update (fun _ => none) firstVersion.key none := (Function.update_eq_self _ _).symm
  unfold ApplyState.single
  rw [← hempty]
  rfl

theorem applyStep_claim {claims : List Claim} {schema : Option ℤ}
    {reconciled : List Claim} {workerID : String} (hdue : d.due (-leaseStaleAfter) 5 "" = true) :
    ApplyStep (.single d claims schema reconciled) (.work (.claim workerID "" 5 1 []))
      (.single (d.leased workerID 0) (claims ++ [⟨workerID, d.claim⟩]) schema reconciled) :=
  applyStep_queue (s := .single d claims schema reconciled) (step_claim_single hdue) rfl

theorem applyStep_reconcileSingle {claims : List Claim} {schema : Option ℤ}
    {reconciled : List Claim} (hkey : c.entity.key = firstVersion.key)
    (hclaim : (ApplyState.single d claims schema reconciled).Working c) :
    ApplyStep (.single d claims schema reconciled) (.reconcile c)
      (.single d claims (some c.entity.desiredVersion) (c :: reconciled)) := by
  simp only [ApplyStep, ApplyState.next]
  rw [if_pos hclaim]
  simp [ApplyState.single, hkey]

/-- The first version is enqueued and claimed. -/
def claimFirst : List ApplyEvent :=
  [.work (.enqueue 1 "hr.staff" 1), .work (.claim "w" "" 5 1 [])]

theorem run_claimFirst : Run ApplyStep (.initial 0) claimFirst
    (.single (firstVersion.leased "w" 0) [firstClaim] none []) := by
  have hclaim : ApplyStep (.single firstVersion [] none []) (.work (.claim "w" "" 5 1 []))
      (.single (firstVersion.leased "w" 0) [firstClaim] none []) := applyStep_claim (by decide)
  exact .snoc (.snoc (.nil _) applyStep_enqueueFirst) hclaim

/-- A worker alone on the row applies the version. -/
theorem applied_version_monotone_iff_alone :
    ∃ events t e u, Run ApplyStep (.initial 0) events t ∧ ApplyStep t e u ∧
      (∀ earlier e', earlier ++ [e'] <+: events ++ [e] → e'.InOrder earlier) ∧
      appliedVersion t.queue.deployments firstVersion.key = none ∧
      appliedVersion u.queue.deployments firstVersion.key = some 1 ∧ KeepsVersions t e u := by
  have hreconcile : ApplyStep (.single (firstVersion.leased "w" 0) [firstClaim] none [])
      (.reconcile firstClaim)
      (.single (firstVersion.leased "w" 0) [firstClaim] (some 1) [firstClaim]) :=
    applyStep_reconcileSingle rfl (by decide)
  have hsucceed : ApplyStep (.single (firstVersion.leased "w" 0) [firstClaim] (some 1) [firstClaim])
      (.succeed firstClaim 1)
      (.single ((firstVersion.leased "w" 0).succeeded 1 0) [] (some 1) []) := rfl
  have hreconciled := run_claimFirst.snoc hreconcile
  have hwork : ∀ earlier e, earlier ++ [e] <+: claimFirst → e.InOrder earlier := by
    intro earlier e hprefix
    have hmem : e ∈ claimFirst := hprefix.subset (by simp)
    simp only [claimFirst, List.mem_cons, List.not_mem_nil, or_false] at hmem
    rcases hmem with rfl | rfl <;> trivial
  have hfirst : SchemaRestored (claimFirst ++ [.reconcile firstClaim]) firstClaim :=
    (lastReconcile_reconcile claimFirst firstClaim).restored_iff.mpr le_rfl
  have hall : ∀ earlier e, earlier ++ [e] <+:
      claimFirst ++ [.reconcile firstClaim] ++ [.succeed firstClaim 1] → e.InOrder earlier :=
    forall_prefix_snoc.mpr ⟨forall_prefix_snoc.mpr ⟨hwork, by simp [ApplyEvent.InOrder,
      Unovertaken, claimFirst]⟩, by simp [Unovertaken, claimFirst], hfirst⟩
  exact ⟨_, _, _, _, hreconciled, hsucceed, hall, by decide, by decide,
    (applied_version_monotone_iff (hreconciled.snoc hsucceed)).mpr hall _ _ _ _ List.prefix_rfl
      hreconciled hsucceed⟩

/-- The row after a second version was enqueued and claimed, over the lease of the first worker. -/
def secondVersion : Deployment := ((firstVersion.leased "w" 0).enqueued 2 0).leased "v" 0

def secondClaim : Claim := ⟨"v", secondVersion.claim⟩

/-- The second worker applies its version before the first one gets to the schema. -/
theorem run_second_applied : ∃ events, Run ApplyStep (.initial 0) events
    (.single (secondVersion.succeeded 2 0) [firstClaim] (some 2) []) := by
  have henqueue : ApplyStep (.single (firstVersion.leased "w" 0) [firstClaim] none [])
      (.work (.enqueue 1 "hr.staff" 2))
      (.single ((firstVersion.leased "w" 0).enqueued 2 0) [firstClaim] none []) := rfl
  have hclaim : ApplyStep
      (.single ((firstVersion.leased "w" 0).enqueued 2 0) [firstClaim] none [])
      (.work (.claim "v" "" 5 1 []))
      (.single secondVersion [firstClaim, secondClaim] none []) := applyStep_claim (by decide)
  have hreconcile : ApplyStep (.single secondVersion [firstClaim, secondClaim] none [])
      (.reconcile secondClaim)
      (.single secondVersion [firstClaim, secondClaim] (some 2) [secondClaim]) :=
    applyStep_reconcileSingle rfl (by decide)
  have hsucceed : ApplyStep
      (.single secondVersion [firstClaim, secondClaim] (some 2) [secondClaim])
      (.succeed secondClaim 2)
      (.single (secondVersion.succeeded 2 0) [firstClaim] (some 2) []) := rfl
  exact ⟨_, (((run_claimFirst.snoc henqueue).snoc hclaim).snoc hreconcile).snoc hsucceed⟩

/-- The first worker then takes the schema back to its version, below the one that is recorded as
applied, and then takes back the record as well. -/
theorem overtaken_worker_regresses :
    ∃ events t e u e' v, Run ApplyStep (.initial 0) events t ∧ ApplyStep t e u ∧
      ApplyStep u e' v ∧
      appliedVersion t.queue.deployments firstVersion.key = some 2 ∧
      appliedVersion u.queue.deployments firstVersion.key = some 2 ∧
      u.schema firstVersion.key = some 1 ∧
      appliedVersion v.queue.deployments firstVersion.key = some 1 ∧
      ¬KeepsVersions t e u ∧ ¬KeepsVersions u e' v := by
  obtain ⟨events, hrun⟩ := run_second_applied
  have hreconcile : ApplyStep (.single (secondVersion.succeeded 2 0) [firstClaim] (some 2) [])
      (.reconcile firstClaim)
      (.single (secondVersion.succeeded 2 0) [firstClaim] (some 1) [firstClaim]) :=
    applyStep_reconcileSingle rfl (by decide)
  have hsucceed : ApplyStep
      (.single (secondVersion.succeeded 2 0) [firstClaim] (some 1) [firstClaim])
      (.succeed firstClaim 2)
      (.single ((secondVersion.succeeded 2 0).succeeded 1 0) [] (some 1) []) := rfl
  have hlate : ¬VersionLe (some 2) (some 1) := by
    intro h
    obtain ⟨w, hw, hle⟩ := h 2 rfl
    cases hw
    exact absurd hle (by decide)
  exact ⟨_, _, _, _, _, _, hrun, hreconcile, hsucceed, by decide, by decide, by decide, by decide,
    fun h => hlate (h.2 firstVersion.key), fun h => hlate (h.1 firstVersion.key)⟩

end Metap.Reconciler
