import Metap.Framework.Transition
import Metap.Reconciler.Orchestrator

/-!
# No lost deployment

Versions are enqueued while workers claim rows of the queue and record what came of them, in any
order.  A worker that is overtaken by a newer version marks the row done all the same, and the newer
version is never claimed (`overtaken_success_loses_deployment`).  `no_lost_deployment_iff` says that
this is the only way to lose one: the rows are sound all along a run exactly when no success is
recorded for a version that is no longer desired.
-/

namespace Metap.Reconciler

open Transition

/-! ## The system -/

/-- A claim handed to a worker and not recorded yet; a worker that dies never records it. -/
structure Claim where
  workerID : String
  entity : ClaimedEntity
  deriving DecidableEq, Repr

structure QueueState where
  deployments : Deployments
  claims : List Claim
  now : ℤ

inductive QueueEvent where
  | enqueue (tenantID : Uuid) (entityName : String) (desiredVersion : ℤ)
  /-- A wave enqueues the cohort it has decided on. -/
  | advance (entityName : String) (packVersion : ℤ) (cohort : List Uuid)
  | claim (workerID entityNameFilter : String) (maxAttempts : ℤ) (limit : ℕ)
      (locked : List (Uuid × String))
  /-- A success, and the version that is desired when it is recorded. -/
  | succeed (claim : Claim) (desiredVersion : ℤ)
  | fail (claim : Claim) (err : ReconcileError)
  | wait (seconds : ℕ)

/-- The state after an event, if the event is possible. -/
def QueueState.next (s : QueueState) : QueueEvent → Option QueueState
  | .enqueue tenantID entityName desiredVersion =>
    some { s with
      deployments := enqueueDeployment s.deployments s.now tenantID entityName desiredVersion }
  | .advance entityName packVersion cohort =>
    (enqueueCohort s.now entityName packVersion [] cohort s.deployments).map fun deployments =>
      { s with deployments }
  | .claim workerID entityNameFilter maxAttempts limit locked =>
    let (deployments, claimed) :=
      claimDue s.deployments s.now workerID entityNameFilter maxAttempts limit locked
    some { s with deployments, claims := s.claims ++ claimed.map (Claim.mk workerID) }
  | .succeed claim desiredVersion =>
    if claim ∈ s.claims ∧
        (s.deployments.find claim.entity.key).map Deployment.desiredVersion =
          some desiredVersion then
      some { s with
        deployments := recordSuccess s.deployments s.now claim.entity.tenantID
          claim.entity.entityName claim.entity.desiredVersion
        claims := s.claims.erase claim }
    else none
  | .fail claim err =>
    if claim ∈ s.claims then
      some { s with
        deployments := recordFailure s.deployments s.now claim.entity.tenantID
          claim.entity.entityName err
        claims := s.claims.erase claim }
    else none
  | .wait seconds => some { s with now := s.now + seconds }

def QueueStep (s : QueueState) (e : QueueEvent) (t : QueueState) : Prop := s.next e = some t

def QueueState.initial (now : ℤ) : QueueState := ⟨.empty, [], now⟩

/-! ## Rows that are not lost -/

/-- A worker with a lease that has not run out reconciles the desired version. -/
def QueueState.Held (s : QueueState) (d : Deployment) : Prop :=
  d.status = .running ∧ d.stale (s.now - leaseStaleAfter) = false ∧
    ∃ c ∈ s.claims, some c.workerID = d.leaseWorker ∧ c.entity = d.claim

/-- A row with an unapplied version may be claimed, is held, is blocked or is out of attempts; and
it is not done. -/
def QueueState.NotLost (s : QueueState) (d : Deployment) : Prop :=
  d.unapplied = true →
    (∀ maxAttempts, d.due (s.now - leaseStaleAfter) maxAttempts "" = true ∨ s.Held d ∨
      d.status = .blocked ∨ maxAttempts ≤ d.attempts) ∧ d.status ≠ .done

/-- A success is recorded for a version that is still the desired one. -/
def QueueEvent.Current : QueueEvent → Prop
  | .succeed c desiredVersion => desiredVersion ≤ c.entity.desiredVersion
  | _ => True

/-- The claims give a running row to the worker that leases it, and what is done is applied. -/
def Sound (claims : List Claim) (d : Deployment) : Prop :=
  (d.status = .running → ∃ c ∈ claims, some c.workerID = d.leaseWorker ∧ c.entity = d.claim) ∧
    (d.status = .done → d.unapplied = false)

def QueueState.Inv (s : QueueState) : Prop := ∀ d ∈ s.deployments.rows, Sound s.claims d

theorem QueueState.Inv.notLost {s : QueueState} (h : s.Inv) :
    ∀ d ∈ s.deployments.rows, s.NotLost d := by
  intro d hd hunapplied
  obtain ⟨hrunning, hdone⟩ := h d hd
  have hstatus : d.status ≠ .done := by
    intro hstatus
    rw [hdone hstatus] at hunapplied
    cases hunapplied
  refine ⟨fun maxAttempts => ?_, hstatus⟩
  rcases Int.lt_or_le d.attempts maxAttempts with hattempts | hattempts
  · cases hcase : d.status with
    | pending | failed => simp [Deployment.due, hunapplied, hcase, hattempts]
    | blocked => exact .inr (.inr (.inl rfl))
    | done => exact absurd hcase hstatus
    | running =>
      -- a stale lease is claimable, a fresh one belongs to its worker
      cases hstale : d.stale (s.now - leaseStaleAfter)
      · exact .inr (.inl ⟨hcase, hstale, hrunning hcase⟩)
      · simp [Deployment.due, hunapplied, hcase, hattempts, hstale]
  · exact .inr (.inr (.inr hattempts))

/-! ## Steps -/

variable {d : Deployment} {t : Deployments} {e : QueueEvent} {claims : List Claim}

theorem Sound.mono {claims' : List Claim} (h : Sound claims d)
    (hsub : ∀ c ∈ claims, c.entity.key = d.key → c ∈ claims') : Sound claims' d := by
  refine ⟨fun hrunning => ?_, h.2⟩
  obtain ⟨c, hc, hworker, hentity⟩ := h.1 hrunning
  exact ⟨c, hsub c hc (by rw [hentity]; rfl), hworker, hentity⟩

theorem sound_of_status (hrunning : d.status ≠ .running) (hdone : d.status ≠ .done) :
    Sound claims d :=
  ⟨fun h => absurd h hrunning, fun h => absurd h hdone⟩

section

variable (h : ∀ d ∈ t.rows, Sound claims d)

include h

theorem sound_enqueueDeployment (now : ℤ) (tenantID : Uuid) (entityName : String)
    (desiredVersion : ℤ) :
    ∀ d ∈ (enqueueDeployment t now tenantID entityName desiredVersion).rows, Sound claims d := by
  unfold enqueueDeployment
  split
  · intro d hd
    rcases List.mem_append.mp hd with hd | hd
    · exact h d hd
    · rw [List.mem_singleton.mp hd]
      exact sound_of_status (by simp) (by simp)
  · intro d hd
    obtain ⟨r, hr, rfl⟩ := KeyedTable.mem_rows_update.mp hd
    split
    · exact sound_of_status (by simp [Deployment.enqueued]) (by simp [Deployment.enqueued])
    · exact h r hr

theorem sound_enqueueCohort {now : ℤ} {entityName : String} {packVersion : ℤ}
    {changed cohort : List Uuid} {t' : Deployments}
    (hcohort : enqueueCohort now entityName packVersion changed cohort t = some t') :
    ∀ d ∈ t'.rows, Sound claims d := by
  induction cohort generalizing changed t with
  | nil =>
    cases hcohort
    exact h
  | cons tenantID cohort ih =>
    unfold enqueueCohort at hcohort
    split at hcohort
    · cases hcohort
    · exact ih (sound_enqueueDeployment h _ _ _ _) hcohort

/-- A claimed row belongs to the worker that claimed it. -/
theorem sound_claimDue (now : ℤ) (workerID entityNameFilter : String) (maxAttempts : ℤ) (limit : ℕ)
    (locked : List (Uuid × String)) :
    let claimed := claimDue t now workerID entityNameFilter maxAttempts limit locked
    ∀ d ∈ claimed.1.rows, Sound (claims ++ claimed.2.map (Claim.mk workerID)) d := by
  intro claimed d hd
  obtain ⟨r, hr, rfl⟩ := List.mem_map.mp hd
  split
  · next hkey =>
    have hpicked := mem_pickDue_of_key hr hkey
    have hclaim : Claim.mk workerID r.claim ∈ claimed.2.map (Claim.mk workerID) :=
      List.mem_map_of_mem (List.mem_map_of_mem hpicked)
    refine ⟨fun _ => ⟨_, List.mem_append_right _ hclaim, rfl, rfl⟩, fun hdone => ?_⟩
    cases hdone
  · exact (h r hr).mono fun c hc _ => List.mem_append_left _ hc

/-- Recording leaves the rows of other claims alone and does not leave its own running. -/
theorem sound_record (claim : Claim) (f : Deployment → Deployment) (hf : ∀ d, (f d).key = d.key)
    (hrecord : ∀ d ∈ t.rows, d.key = claim.entity.key → ∀ claims, Sound claims (f d)) :
    ∀ d ∈ (t.update (fun d => d.key = claim.entity.key) f hf).rows,
      Sound (claims.erase claim) d := by
  intro d hd
  obtain ⟨r, hr, rfl⟩ := KeyedTable.mem_rows_update.mp hd
  split
  · next hkey => exact hrecord r hr (of_decide_eq_true hkey) _
  · next hkey =>
    refine (h r hr).mono fun c hc hcd => (List.mem_erase_of_ne ?_).mpr hc
    rintro rfl
    exact hkey (decide_eq_true hcd.symm)

end

theorem sound_failedWith (claims : List Claim) (err : ReconcileError) (now : ℤ) (d : Deployment) :
    Sound claims (d.failedWith err now) := by
  have hstatus : (d.failedWith err now).status = .failed ∨
      (d.failedWith err now).status = .blocked := by
    unfold Deployment.failedWith
    exact ite_eq_or_eq _ _ _
  rcases hstatus with hstatus | hstatus <;>
    exact sound_of_status (by simp [hstatus]) (by simp [hstatus])

theorem unapplied_succeeded (appliedVersion now : ℤ) (d : Deployment) :
    (d.succeeded appliedVersion now).unapplied = decide (appliedVersion < d.desiredVersion) :=
  rfl

theorem QueueState.Inv.step {s t : QueueState} (hcurrent : e.Current)
    (hstep : QueueStep s e t) (h : s.Inv) : t.Inv := by
  unfold QueueStep at hstep
  cases e with
  | enqueue tenantID entityName desiredVersion =>
    cases hstep
    exact sound_enqueueDeployment h _ _ _ _
  | advance entityName packVersion cohort =>
    obtain ⟨deployments, hcohort, rfl⟩ := Option.map_eq_some_iff.mp hstep
    exact sound_enqueueCohort h hcohort
  | claim workerID entityNameFilter maxAttempts limit locked =>
    cases hstep
    exact sound_claimDue h _ _ _ _ _ _
  | succeed claim desiredVersion =>
    simp only [QueueState.next, Option.ite_none_right_eq_some] at hstep
    obtain ⟨⟨-, hdesired⟩, hstep⟩ := hstep
    cases hstep
    refine sound_record h claim (.succeeded claim.entity.desiredVersion s.now) (fun _ => rfl) ?_
    intro d hd hkey claims
    refine ⟨fun hrunning => (by cases hrunning), fun _ => ?_⟩
    rw [← hkey, KeyedTable.find_of_mem hd] at hdesired
    cases hdesired
    rw [unapplied_succeeded]
    exact decide_eq_false (not_lt.mpr hcurrent)
  | fail claim err =>
    simp only [QueueState.next, Option.ite_none_right_eq_some] at hstep
    obtain ⟨-, hstep⟩ := hstep
    cases hstep
    exact sound_record h claim (.failedWith err s.now) (fun _ => rfl)
      fun d _ _ claims => sound_failedWith claims err s.now d
  | wait seconds =>
    cases hstep
    exact h

/-- A success for a version that is no longer desired loses the deployment. -/
theorem current_of_notLost {s t : QueueState} (hstep : QueueStep s e t)
    (ht : ∀ d ∈ t.deployments.rows, t.NotLost d) : e.Current := by
  cases e with
  | succeed claim desiredVersion =>
    simp only [QueueStep, QueueState.next, Option.ite_none_right_eq_some] at hstep
    obtain ⟨⟨-, hdesired⟩, hstep⟩ := hstep
    cases hstep
    obtain ⟨d, hfind, hversion⟩ := Option.map_eq_some_iff.mp hdesired
    have hmem : d.succeeded claim.entity.desiredVersion s.now ∈
        (recordSuccess s.deployments s.now claim.entity.tenantID claim.entity.entityName
          claim.entity.desiredVersion).rows := by
      refine KeyedTable.mem_rows_update.mpr ⟨d, KeyedTable.mem_of_find hfind, if_pos ?_⟩
      exact decide_eq_true (KeyedTable.key_of_find hfind)
    by_contra hlate
    have hunapplied : (d.succeeded claim.entity.desiredVersion s.now).unapplied = true := by
      rw [unapplied_succeeded, hversion]
      exact decide_eq_true (not_le.mp hlate)
    exact (ht _ hmem hunapplied).2 rfl
  | _ => trivial

/-- All along a run from an empty queue no deployment is lost exactly when every success is recorded
while its version is still desired. -/
theorem no_lost_deployment_iff {now : ℤ} {events : List QueueEvent} {s : QueueState}
    (hrun : Run QueueStep (.initial now) events s) :
    (∀ earlier t, earlier <+: events → Run QueueStep (.initial now) earlier t →
      ∀ d ∈ t.deployments.rows, t.NotLost d) ↔ ∀ e ∈ events, e.Current := by
  refine hrun.always_iff (I := QueueState.Inv)
    (P := fun t => ∀ d ∈ t.deployments.rows, t.NotLost d) ?_ ?_ ?_ ?_
  · exact fun s e t hcurrent hstep h => h.step hcurrent hstep
  · exact fun s h => h.notLost
  · exact fun s e t hstep _ ht => current_of_notLost hstep ht
  · intro d hd
    cases hd

/-! ## A worker that is overtaken -/

/-- The queue with one row. -/
def QueueState.single (d : Deployment) (claims : List Claim) : QueueState where
  deployments := ⟨[d], by simp⟩
  claims
  now := 0

theorem step_claim_single {workerID : String} {maxAttempts : ℤ}
    (hdue : d.due (-leaseStaleAfter) maxAttempts "" = true) :
    QueueStep (.single d claims) (.claim workerID "" maxAttempts 1 [])
      (.single (d.leased workerID 0) (claims ++ [⟨workerID, d.claim⟩])) := by
  have hpicked : pickDue (QueueState.single d claims).deployments 0 "" maxAttempts 1 [] = [d] := by
    unfold pickDue QueueState.single
    rw [List.filter_cons_of_pos (by simpa using hdue), List.filter_nil, List.mergeSort_singleton]
    rfl
  have hclaim : claimDue (QueueState.single d claims).deployments 0 workerID "" maxAttempts 1 [] =
      ((QueueState.single (d.leased workerID 0) claims).deployments, [d.claim]) := by
    unfold claimDue
    rw [hpicked]
    simp [KeyedTable.update, QueueState.single]
  exact congrArg (fun p : Deployments × List ClaimedEntity => some (QueueState.mk p.1
    (claims ++ p.2.map (Claim.mk workerID)) 0)) hclaim

def firstVersion : Deployment where
  tenantID := 1
  entityName := "hr.staff"
  desiredVersion := 1
  updatedAt := 0

def firstClaim : Claim := ⟨"w", firstVersion.claim⟩

theorem run_claim_first : ∃ events, Run QueueStep (.initial 0) events
    (.single (firstVersion.leased "w" 0) [firstClaim]) ∧ ∀ e ∈ events, e.Current := by
  have henqueue : QueueStep (.initial 0) (.enqueue 1 "hr.staff" 1) (.single firstVersion []) := rfl
  have hclaim : QueueStep (.single firstVersion []) (.claim "w" "" 5 1 [])
      (.single (firstVersion.leased "w" 0) [firstClaim]) := step_claim_single (by decide)
  exact ⟨_, .snoc (.snoc (.nil _) henqueue) hclaim, by simp [QueueEvent.Current]⟩

/-- A version is enqueued, claimed and applied. -/
theorem no_lost_deployment_iff_applied :
    ∃ events s, Run QueueStep (.initial 0) events s ∧ (∀ e ∈ events, e.Current) ∧
      s.deployments.rows.map Deployment.ready = [true] ∧
      ∀ d ∈ s.deployments.rows, s.NotLost d := by
  obtain ⟨events, hclaimed, hcurrent⟩ := run_claim_first
  have hsucceed : QueueStep (.single (firstVersion.leased "w" 0) [firstClaim])
      (.succeed firstClaim 1) (.single ((firstVersion.leased "w" 0).succeeded 1 0) []) := rfl
  have hrun := hclaimed.snoc hsucceed
  have hall : ∀ e ∈ events ++ [QueueEvent.succeed firstClaim 1], e.Current := by
    rw [List.forall_mem_append, List.forall_mem_singleton]
    exact ⟨hcurrent, (by decide : (1 : ℤ) ≤ 1)⟩
  exact ⟨_, _, hrun, hall, by decide,
    (no_lost_deployment_iff hrun).mpr hall _ _ List.prefix_rfl hrun⟩

/-- A newer version is enqueued while the first one is being applied: the row ends up done, is not
ready, and nothing will claim it. -/
theorem overtaken_success_loses_deployment :
    ∃ events s, Run QueueStep (.initial 0) events s ∧ ∃ d ∈ s.deployments.rows,
      d.status = .done ∧ d.unapplied = true ∧ d.desiredVersion = 2 ∧ d.appliedVersion = some 1 ∧
      d.ready = false ∧ s.claims = [] ∧ d.attempts = 0 ∧
      (∀ staleBefore maxAttempts filter, d.due staleBefore maxAttempts filter = false) ∧
      ¬s.NotLost d := by
  obtain ⟨events, hclaimed, -⟩ := run_claim_first
  have henqueue : QueueStep (.single (firstVersion.leased "w" 0) [firstClaim])
      (.enqueue 1 "hr.staff" 2) (.single ((firstVersion.leased "w" 0).enqueued 2 0) [firstClaim]) :=
    rfl
  have hsucceed : QueueStep (.single ((firstVersion.leased "w" 0).enqueued 2 0) [firstClaim])
      (.succeed firstClaim 2)
      (.single (((firstVersion.leased "w" 0).enqueued 2 0).succeeded 1 0) []) := rfl
  refine ⟨_, _, (hclaimed.snoc henqueue).snoc hsucceed, _, List.mem_singleton_self _, rfl, rfl, rfl,
    rfl, rfl, rfl, rfl, ?_, ?_⟩
  · intro staleBefore maxAttempts filter
    simp [Deployment.due, Deployment.succeeded]
  · exact fun h => (h rfl).2 rfl

end Metap.Reconciler
