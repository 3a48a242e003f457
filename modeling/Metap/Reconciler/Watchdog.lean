import Metap.Framework.Transition
import Metap.Reconciler.Status

/-!
# Stuck migrations

A migration whose process died stays in the status `migrating`.  The watchdog finds it once its
lease has run out.  Requeueing it clears the lease and leaves the status, so that no later search
finds it (`requeued_migration_invisible`).

`stuck_migration_visible_iff`: whichever processes die, a migration nobody works on stays visible
exactly when no requeue hits an entity that is still migrating.
-/

namespace Metap.Reconciler

open Transition

/-! ## The watchdog -/

def maxRetryAttempts : ℤ := 5

structure StuckEntity where
  tenantID : Uuid
  entityName : String
  attempts : ℤ
  deriving DecidableEq, Repr

def StuckEntity.key (e : StuckEntity) : Uuid × String := (e.tenantID, e.entityName)

def StatusRow.stuck (r : StatusRow) : StuckEntity := ⟨r.tenantID, r.entityName, r.attempts⟩

def findStuckEntities (t : Statuses) (now : ℤ) : List StuckEntity :=
  (t.rows.filter fun r =>
    r.status = .migrating && r.leaseExpiresAt.any fun expires => expires < now).map StatusRow.stuck

def StatusRow.requeued (now : ℤ) (r : StatusRow) : StatusRow :=
  { r with
    attempts := r.attempts + 1, leaseOwner := none, leaseExpiresAt := none, updatedAt := now }

def StatusRow.failed (now : ℤ) (r : StatusRow) : StatusRow :=
  { r.requeued now with
    status := .error
    lastError := some ("watchdog: exceeded 5 retry attempts on a stuck Migrating lease — " ++
      "needs manual intervention") }

/-- Whether a stuck entity gets another try. -/
def StuckEntity.retried (stuck : StuckEntity) : Bool := stuck.attempts + 1 ≤ maxRetryAttempts

def requeueOrFail (t : Statuses) (now : ℤ) (stuck : StuckEntity) : Statuses :=
  if stuck.retried then t.update (fun r => r.key = stuck.key) (.requeued now) fun _ => rfl
  else t.update (fun r => r.key = stuck.key) (.failed now) fun _ => rfl

/-! ## The system -/

/-- A live process that executes a plan and holds the lock of its entity. -/
structure Execution where
  tenantID : Uuid
  entityName : String
  lockOwner : Uuid
  /-- Some operation of the plan is heavy. -/
  hasHeavy : Bool
  /-- The status has been set for the heavy operations. -/
  begun : Bool := false
  deriving DecidableEq, Repr

namespace Execution

def key (x : Execution) : Uuid × String := (x.tenantID, x.entityName)

/-- The operations are being run. -/
def running (x : Execution) : Bool := !x.hasHeavy || x.begun

end Execution

structure WatchState where
  statuses : Statuses
  executions : List Execution
  now : ℤ

inductive WatchEvent where
  | setStatus (clock : ℤ) (tenantID : Uuid) (entityName : String) (status : EntityStatus)
      (leaseOwner : Uuid) (leaseTTL : ℤ)
  | recordError (tenantID : Uuid) (entityName errMsg : String)
  /-- The watchdog takes care of what it has found; the status the row has by then. -/
  | requeueOrFail (stuck : StuckEntity) (status : Option EntityStatus)
  /-- A process takes the lock of an entity. -/
  | start (x : Execution)
  | begin (x : Execution) (clock : ℤ)
  | finish (x : Execution) (clock : ℤ)
  /-- An operation of the plan fails. -/
  | fail (x : Execution) (errMsg : String)
  /-- A process dies, or gives up on a status it cannot write. -/
  | crash (x : Execution)
  | wait (seconds : ℕ)

def WatchState.next (s : WatchState) : WatchEvent → Option WatchState
  | .setStatus clock tenantID entityName status leaseOwner leaseTTL =>
    some { s with
      statuses := Reconciler.setStatus s.statuses s.now clock tenantID entityName status leaseOwner
        leaseTTL }
  | .recordError tenantID entityName errMsg =>
    some { s with statuses := Reconciler.recordError s.statuses s.now tenantID entityName errMsg }
  | .requeueOrFail stuck status =>
    if status = (s.statuses.find stuck.key).map StatusRow.status then
      some { s with statuses := Reconciler.requeueOrFail s.statuses s.now stuck }
    else none
  | .start x =>
    if x.begun = false ∧ ∀ y ∈ s.executions, y.key ≠ x.key then
      some { s with executions := x :: s.executions }
    else none
  | .begin x clock =>
    if x ∈ s.executions ∧ x.hasHeavy = true ∧ x.begun = false then
      some { s with
        statuses := Reconciler.setStatus s.statuses s.now clock x.tenantID x.entityName .migrating
          x.lockOwner migrationLeaseTTL
        executions := { x with begun := true } :: s.executions.erase x }
    else none
  | .finish x clock =>
    if x ∈ s.executions ∧ x.running = true then
      some { s with
        statuses :=
          if x.hasHeavy then
            Reconciler.setStatus s.statuses s.now clock x.tenantID x.entityName .active
              x.lockOwner 0
          else s.statuses
        executions := s.executions.erase x }
    else none
  | .fail x errMsg =>
    if x ∈ s.executions ∧ x.running = true then
      some { s with
        statuses := Reconciler.recordError s.statuses s.now x.tenantID x.entityName errMsg
        executions := s.executions.erase x }
    else none
  | .crash x =>
    if x ∈ s.executions then some { s with executions := s.executions.erase x } else none
  | .wait seconds => some { s with now := s.now + seconds }

def WatchStep (s : WatchState) (e : WatchEvent) (t : WatchState) : Prop := s.next e = some t

def WatchState.initial (now : ℤ) : WatchState := ⟨.empty, [], now⟩

/-! ## Visible migrations -/

/-- A migration nobody works on has a lease, and is found as soon as the lease has run out. -/
def WatchState.Visible (s : WatchState) : Prop :=
  ∀ r ∈ s.statuses.rows, r.status = .migrating → (∀ x ∈ s.executions, x.key ≠ r.key) →
    ∃ expires, r.leaseExpiresAt = some expires ∧
      ∀ now, expires < now → r.stuck ∈ findStuckEntities s.statuses now

/-- The migrations are visible whichever processes die. -/
def WatchState.Recoverable (s : WatchState) : Prop :=
  ∀ (xs : List Execution) t, Run WatchStep s (xs.map .crash) t → t.Visible

/-- A requeue finds no entity that is still migrating. -/
def WatchEvent.KeepsLease : WatchEvent → Prop
  | .requeueOrFail stuck status => stuck.retried = true → status ≠ some .migrating
  | _ => True

def StatusRow.Leased (r : StatusRow) : Prop :=
  r.status = .migrating → r.leaseExpiresAt.isSome = true

def Leases (t : Statuses) : Prop := ∀ r ∈ t.rows, r.Leased

/-! ## Steps -/

theorem leased_of_ne {r : StatusRow} (h : r.status ≠ .migrating) : r.Leased :=
  fun hmigrating => absurd hmigrating h

variable {t : Statuses} {e : WatchEvent} {s : WatchState}

theorem leases_setStatus (h : Leases t) (now clock : ℤ) (tenantID : Uuid)
    (entityName : String) (status : EntityStatus) (leaseOwner : Uuid) (leaseTTL : ℤ) :
    Leases (setStatus t now clock tenantID entityName status leaseOwner leaseTTL) := by
  intro r hr
  rcases KeyedTable.mem_rows_upsert hr with rfl | ⟨r', -, rfl⟩ | hr
  · intro hmigrating
    simp only at hmigrating ⊢
    rw [if_pos hmigrating]
    rfl
  · intro hmigrating
    simp only [StatusRow.withStatus] at hmigrating ⊢
    rw [if_pos hmigrating]
    rfl
  · exact h r hr

theorem leases_recordError (h : Leases t) (now : ℤ) (tenantID : Uuid) (entityName errMsg : String) :
    Leases (recordError t now tenantID entityName errMsg) := by
  intro r hr
  rcases KeyedTable.mem_rows_upsert hr with rfl | ⟨r', -, rfl⟩ | hr
  · exact leased_of_ne (by simp)
  · exact leased_of_ne (by simp [StatusRow.withError])
  · exact h r hr

theorem leases_requeueOrFail (h : Leases t) (now : ℤ) {stuck : StuckEntity}
    (hkeeps : stuck.retried = true →
      (t.find stuck.key).map StatusRow.status ≠ some .migrating) :
    Leases (requeueOrFail t now stuck) := by
  unfold requeueOrFail
  split
  · next hretried =>
    intro r hr
    obtain ⟨r', hr', rfl⟩ := KeyedTable.mem_rows_update.mp hr
    split
    · next hkey =>
      refine leased_of_ne fun hmigrating => hkeeps hretried ?_
      rw [← of_decide_eq_true hkey, KeyedTable.find_of_mem hr']
      exact congrArg some hmigrating
    · exact h r' hr'
  · intro r hr
    obtain ⟨r', hr', rfl⟩ := KeyedTable.mem_rows_update.mp hr
    split
    · exact leased_of_ne (by simp [StatusRow.failed])
    · exact h r' hr'

theorem leases_step {t : WatchState} (hkeeps : e.KeepsLease)
    (hstep : WatchStep s e t) (h : Leases s.statuses) : Leases t.statuses := by
  unfold WatchStep at hstep
  cases e with
  | setStatus clock tenantID entityName status leaseOwner leaseTTL =>
    cases hstep
    exact leases_setStatus h _ _ _ _ _ _ _
  | recordError tenantID entityName errMsg =>
    cases hstep
    exact leases_recordError h _ _ _ _
  | wait seconds =>
    cases hstep
    exact h
  | requeueOrFail stuck status =>
    obtain ⟨rfl, ⟨⟩⟩ := Option.ite_none_right_eq_some.mp hstep
    exact leases_requeueOrFail h _ hkeeps
  | start x | crash x =>
    obtain ⟨-, ⟨⟩⟩ := Option.ite_none_right_eq_some.mp hstep
    exact h
  | begin x clock =>
    obtain ⟨-, ⟨⟩⟩ := Option.ite_none_right_eq_some.mp hstep
    exact leases_setStatus h _ _ _ _ _ _ _
  | finish x clock =>
    obtain ⟨-, ⟨⟩⟩ := Option.ite_none_right_eq_some.mp hstep
    change Leases (if x.hasHeavy then _ else _)
    split
    · exact leases_setStatus h _ _ _ _ _ _ _
    · exact h
  | fail x errMsg =>
    obtain ⟨-, ⟨⟩⟩ := Option.ite_none_right_eq_some.mp hstep
    exact leases_recordError h _ _ _ _

/-! ## Crashes -/

theorem visible_of_leases (h : Leases s.statuses) : s.Visible := by
  intro r hr hmigrating _
  obtain ⟨expires, hexpires⟩ := Option.isSome_iff_exists.mp (h r hr hmigrating)
  refine ⟨expires, hexpires, fun now hnow => ?_⟩
  refine List.mem_map_of_mem (List.mem_filter.mpr ⟨hr, ?_⟩)
  simp [hmigrating, hexpires, hnow]

theorem recoverable_of_leases (h : Leases s.statuses) : s.Recoverable := by
  intro xs t hrun
  refine visible_of_leases (hrun.invariant (I := fun u => Leases u.statuses)
    (C := WatchEvent.KeepsLease) (fun _ _ _ hkeeps hstep => leases_step hkeeps hstep) ?_ h)
  intro e he
  obtain ⟨x, -, rfl⟩ := List.mem_map.mp he
  trivial

/-- Any processes may die, one after the other. -/
theorem run_crash (s : WatchState) (xs rest : List Execution) (h : s.executions = xs ++ rest) :
    Run WatchStep s (xs.map .crash) { s with executions := rest } := by
  induction xs using List.reverseRecOn generalizing rest with
  | nil =>
    have hs : s = { s with executions := rest } := by rw [← h.trans (List.nil_append _)]
    rw [← hs]
    exact .nil s
  | append_singleton xs x ih =>
    have hrun := ih (x :: rest) (by simpa using h)
    have hcrash : WatchStep { s with executions := x :: rest } (.crash x)
        { s with executions := rest } := by
      simp [WatchStep, WatchState.next]
    rw [List.map_append]
    exact hrun.snoc hcrash

/-- A requeued migration is not found again. -/
theorem keepsLease_of_recoverable {t : WatchState} (hstep : WatchStep s e t) (ht : t.Recoverable) :
    e.KeepsLease := by
  cases e with
  | requeueOrFail stuck status =>
    intro hretried hstatus
    simp only [WatchStep, WatchState.next, Option.ite_none_right_eq_some] at hstep
    obtain ⟨rfl, hstep⟩ := hstep
    cases hstep
    obtain ⟨r, hfind, hmigrating⟩ := Option.map_eq_some_iff.mp hstatus
    have hrow : r.requeued s.now ∈ (requeueOrFail s.statuses s.now stuck).rows := by
      unfold requeueOrFail
      rw [if_pos hretried]
      refine KeyedTable.mem_rows_update.mpr ⟨r, KeyedTable.mem_of_find hfind, if_pos ?_⟩
      exact decide_eq_true (KeyedTable.key_of_find hfind)
    have hall := run_crash { s with statuses := requeueOrFail s.statuses s.now stuck }
      s.executions [] (List.append_nil _).symm
    obtain ⟨expires, hlease, -⟩ := ht _ _ hall _ hrow hmigrating (by simp)
    cases hlease
  | _ => trivial

/-- All along a run, whichever processes die, a migration nobody works on is visible to the watchdog
exactly when no requeue hits an entity that is still migrating; then it is visible in the run's own
states. -/
theorem stuck_migration_visible_iff {now : ℤ} {events : List WatchEvent} {s : WatchState}
    (hrun : Run WatchStep (.initial now) events s) :
    ((∀ earlier t, earlier <+: events → Run WatchStep (.initial now) earlier t → t.Recoverable) ↔
      ∀ e ∈ events, e.KeepsLease) ∧
    ((∀ e ∈ events, e.KeepsLease) →
      ∀ earlier t, earlier <+: events → Run WatchStep (.initial now) earlier t → t.Visible) := by
  have hiff : (∀ earlier t, earlier <+: events → Run WatchStep (.initial now) earlier t →
      t.Recoverable) ↔ ∀ e ∈ events, e.KeepsLease := by
    refine hrun.always_iff (I := fun t => Leases t.statuses) (P := WatchState.Recoverable)
      ?_ ?_ ?_ ?_
    · exact fun s e t hkeeps hstep h => leases_step hkeeps hstep h
    · exact fun s h => recoverable_of_leases h
    · exact fun s e t hstep _ ht => keepsLease_of_recoverable hstep ht
    · intro r hr
      cases hr
  refine ⟨hiff, fun hkeeps earlier t hearlier hrun' => ?_⟩
  exact hiff.mpr hkeeps earlier t hearlier hrun' [] t (.nil t)

/-! ## A migration that is requeued -/

def migration : Execution where
  tenantID := 1
  entityName := "hr.staff"
  lockOwner := 7
  hasHeavy := true

def migratingRow : StatusRow where
  tenantID := 1
  entityName := "hr.staff"
  status := .migrating
  leaseOwner := some 7
  leaseExpiresAt := some migrationLeaseTTL
  updatedAt := 0

/-- The process of the migration has died. -/
def crashedState (now : ℤ) : WatchState := ⟨⟨[migratingRow], by simp⟩, [], now⟩

theorem run_crashed : ∃ events, Run WatchStep (.initial 0) events (crashedState 0) ∧
    ∀ e ∈ events, e.KeepsLease := by
  have hstart : WatchStep (.initial 0) (.start migration) ⟨.empty, [migration], 0⟩ := by
    simp [WatchStep, WatchState.next, WatchState.initial, migration]
  have hbegin : WatchStep ⟨.empty, [migration], 0⟩ (.begin migration 0)
      ⟨⟨[migratingRow], by simp⟩, [{ migration with begun := true }], 0⟩ := rfl
  have hcrash : WatchStep ⟨⟨[migratingRow], by simp⟩, [{ migration with begun := true }], 0⟩
      (.crash { migration with begun := true }) (crashedState 0) := rfl
  exact ⟨_, (((Run.nil _).snoc hstart).snoc hbegin).snoc hcrash, by simp [WatchEvent.KeepsLease]⟩

/-- The migration that has died is found after ten minutes. -/
theorem stuck_migration_visible_iff_crashed :
    ∃ events, Run WatchStep (.initial 0) events (crashedState 0) ∧ (crashedState 0).Visible ∧
      findStuckEntities (crashedState 0).statuses 601 = [⟨1, "hr.staff", 0⟩] := by
  obtain ⟨events, hrun, hkeeps⟩ := run_crashed
  have hvisible := (stuck_migration_visible_iff hrun).2 hkeeps _ _ List.prefix_rfl hrun
  exact ⟨events, hrun, hvisible, by decide⟩

/-- The watchdog requeues the migration that has died, and nothing takes it up: it stays in
migration and no search finds it again. -/
theorem requeued_migration_invisible :
    ∃ events s, Run WatchStep (.initial 0) events s ∧ s.executions = [] ∧
      s.statuses.rows = [migratingRow.requeued 601] ∧
      (migratingRow.requeued 601).status = .migrating ∧
      (migratingRow.requeued 601).leaseExpiresAt = none ∧
      (∀ now, findStuckEntities s.statuses now = []) ∧ ¬s.Visible := by
  obtain ⟨events, hrun, -⟩ := run_crashed
  have hwait : WatchStep (crashedState 0) (.wait 601) (crashedState 601) := rfl
  have hrequeue : WatchStep (crashedState 601)
      (.requeueOrFail ⟨1, "hr.staff", 0⟩ (some .migrating))
      ⟨⟨[migratingRow.requeued 601], by simp⟩, [], 601⟩ := rfl
  refine ⟨_, _, (hrun.snoc hwait).snoc hrequeue, rfl, rfl, rfl, rfl, fun now => rfl, ?_⟩
  intro hvisible
  obtain ⟨expires, hlease, -⟩ := hvisible _ (List.mem_singleton_self _) rfl (by simp)
  cases hlease

end Metap.Reconciler
