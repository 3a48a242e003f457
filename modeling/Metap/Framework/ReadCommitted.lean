import Mathlib

/-!
# Transactions at READ COMMITTED

A database keeps for each row its committed version and, for each open transaction, the versions
the transaction has written.  Every statement of a transaction sees its own writes over what is
committed when the statement starts, so two statements of one transaction may see different
commits.  A row that another open transaction has written is locked until that transaction ends.

A statement that updates or deletes first collects the rows its condition selects, and then takes
them one by one (`updateRow`): it waits for the lock of each row and evaluates its condition again
on the version it finds then.  So it may change a row later than it selected it, and it does not
see rows that were committed in between.

`Version` ranges over all versions of a row, committed or not; most invariants are statements
about it, and the lemmas say how each operation changes it.
-/

namespace Metap.ReadCommitted

variable {τ κ ρ : Type*}

/-- The committed version of each row, and what open transactions have written; a deleted row is
written as `some none`. -/
structure Db (τ κ ρ : Type*) where
  committed : κ → Option ρ
  writes : τ → κ → Option (Option ρ)

namespace Db

/-- A table on which no transaction has written. -/
def idle (table : κ → Option ρ) : Db τ κ ρ := ⟨table, fun _ _ => none⟩

variable (db : Db τ κ ρ)

/-- What a statement of the transaction sees. -/
def view (t : τ) (k : κ) : Option ρ := (db.writes t k).getD (db.committed k)

/-- No other transaction holds the lock of the row. -/
def Free (t : τ) (k : κ) : Prop := ∀ t', t' ≠ t → db.writes t' k = none

def write [DecidableEq τ] [DecidableEq κ] (t : τ) (k : κ) (v : Option ρ) : Db τ κ ρ :=
  { db with writes := fun t' k' => if t' = t ∧ k' = k then some v else db.writes t' k' }

/-- Change a row a statement has selected: the condition is evaluated again on the version there
is now. -/
def updateRow [DecidableEq τ] [DecidableEq κ] (t : τ) (p : ρ → Bool) (f : ρ → Option ρ) (k : κ) :
    Db τ κ ρ :=
  match (db.view t k).filter p with
  | some r => db.write t k (f r)
  | none => db

def commit [DecidableEq τ] (t : τ) : Db τ κ ρ where
  committed k := db.view t k
  writes t' k := if t' = t then none else db.writes t' k

def rollback [DecidableEq τ] (t : τ) : Db τ κ ρ where
  committed := db.committed
  writes t' k := if t' = t then none else db.writes t' k

/-- A version of a row that some transaction may see. -/
def Version (k : κ) (r : ρ) : Prop :=
  db.committed k = some r ∨ ∃ t, db.writes t k = some (some r)

/-- At most one transaction has written a row. -/
def Exclusive : Prop :=
  ∀ t t' k, (db.writes t k).isSome → (db.writes t' k).isSome → t = t'

/-- The rows a statement selects. -/
def Selects (t : τ) (p : ρ → Bool) (targets : List κ) : Prop :=
  ∀ k, k ∈ targets ↔ ∃ r, db.view t k = some r ∧ p r = true

variable {db} {t t' : τ} {k k' : κ} {v w : Option ρ} {r : ρ}

/-! ## Views -/

theorem view_of_writes_eq_none (h : db.writes t k = none) : db.view t k = db.committed k := by
  rw [view, h, Option.getD_none]

theorem view_of_writes_eq_some (h : db.writes t k = some v) : db.view t k = v := by
  rw [view, h, Option.getD_some]

/-- What a statement sees was written by its transaction, or is committed. -/
theorem view_cases (h : db.view t k = some r) :
    db.writes t k = some (some r) ∨ db.writes t k = none ∧ db.committed k = some r := by
  cases hwrites : db.writes t k with
  | none => exact .inr ⟨rfl, view_of_writes_eq_none hwrites ▸ h⟩
  | some v => exact .inl (congrArg some ((view_of_writes_eq_some hwrites).symm.trans h))

theorem version_of_view (h : db.view t k = some r) : db.Version k r :=
  (view_cases h).elim (fun hown => .inr ⟨t, hown⟩) fun hrow => .inl hrow.2

section

variable [DecidableEq τ]

/-! ## Ending a transaction -/

@[simp]
theorem committed_commit : (db.commit t).committed k = db.view t k := rfl

@[simp]
theorem writes_commit : (db.commit t).writes t' k = if t' = t then none else db.writes t' k := rfl

@[simp]
theorem writes_rollback : (db.rollback t).writes t' k = if t' = t then none else db.writes t' k :=
  rfl

theorem version_of_commit (h : (db.commit t).Version k r) : db.Version k r := by
  rcases h with h | ⟨t', h⟩
  · exact version_of_view h
  · exact .inr ⟨t', (Option.ite_none_left_eq_some.mp h).2⟩

theorem version_of_rollback (h : (db.rollback t).Version k r) : db.Version k r :=
  h.imp_right fun ⟨t', h⟩ => ⟨t', (Option.ite_none_left_eq_some.mp h).2⟩

theorem isSome_of_ended (h : (if t' = t then none else v).isSome) : v.isSome := by
  split at h
  · cases h
  · exact h

theorem Exclusive.commit (h : db.Exclusive) : (db.commit t).Exclusive := fun t₁ t₂ k h₁ h₂ =>
  h t₁ t₂ k (isSome_of_ended h₁) (isSome_of_ended h₂)

theorem Exclusive.rollback (h : db.Exclusive) : (db.rollback t).Exclusive := fun t₁ t₂ k h₁ h₂ =>
  h t₁ t₂ k (isSome_of_ended h₁) (isSome_of_ended h₂)

variable [DecidableEq κ]

/-! ## Writing -/

@[simp]
theorem committed_write : (db.write t k v).committed = db.committed := rfl

theorem writes_write : (db.write t k v).writes t' k' =
    if t' = t ∧ k' = k then some v else db.writes t' k' := rfl

@[simp]
theorem writes_write_self : (db.write t k v).writes t k = some v := by simp [writes_write]

theorem writes_write_of_key_ne (h : k' ≠ k) : (db.write t k v).writes t' k' = db.writes t' k' := by
  simp [writes_write, h]

theorem writes_write_of_ne (h : t' ≠ t) : (db.write t k v).writes t' k' = db.writes t' k' := by
  simp [writes_write, h]

/-- What is written afterwards: what had been, and the row. -/
theorem writes_of_write (h : (db.write t k v).writes t' k' = some w) :
    db.writes t' k' = some w ∨ t' = t ∧ k' = k ∧ v = w := by
  rw [writes_write] at h
  split at h
  · next hself => exact .inr ⟨hself.1, hself.2, Option.some.inj h⟩
  · exact .inl h

theorem version_of_write (h : (db.write t k v).Version k' r) :
    db.Version k' r ∨ k' = k ∧ v = some r := by
  rcases h with h | ⟨t', h⟩
  · exact .inl (.inl h)
  · exact (writes_of_write h).imp (fun hold => .inr ⟨t', hold⟩) And.right

theorem Exclusive.write (h : db.Exclusive) (hfree : db.Free t k) : (db.write t k v).Exclusive := by
  intro t₁ t₂ k' h₁ h₂
  by_cases hk : k' = k
  · subst hk
    -- whoever else had written the row would hold its lock
    have hown : ∀ u, ((db.write t k' v).writes u k').isSome → u = t := by
      intro u hu
      by_contra hne
      rw [writes_write_of_ne hne, hfree u hne] at hu
      cases hu
    rw [hown t₁ h₁, hown t₂ h₂]
  · rw [writes_write_of_key_ne hk] at h₁ h₂
    exact h t₁ t₂ k' h₁ h₂

/-! ## Updating a row -/

/-- An update of a selected row writes the row, or finds that its condition fails now. -/
theorem updateRow_cases (db : Db τ κ ρ) (t : τ) (p : ρ → Bool) (f : ρ → Option ρ) (k : κ) :
    (∃ r, db.view t k = some r ∧ p r = true ∧ db.updateRow t p f k = db.write t k (f r)) ∨
      (∀ r, db.view t k = some r → p r = false) ∧ db.updateRow t p f k = db := by
  unfold updateRow
  cases hview : (db.view t k).filter p with
  | some r =>
    obtain ⟨hrow, hp⟩ := Option.filter_eq_some_iff.mp hview
    exact .inl ⟨r, hrow, hp, rfl⟩
  | none =>
    refine .inr ⟨fun r hr => ?_, rfl⟩
    rw [hr, Option.filter_some] at hview
    cases hp : p r with
    | false => rfl
    | true => rw [hp] at hview; cases hview

variable {f : ρ → Option ρ} {p : ρ → Bool}

@[simp]
theorem committed_updateRow : (db.updateRow t p f k).committed = db.committed := by
  rcases updateRow_cases db t p f k with ⟨r, -, -, heq⟩ | ⟨-, heq⟩
  · rw [heq, committed_write]
  · rw [heq]

theorem writes_updateRow_of_ne (h : t' ≠ t) :
    (db.updateRow t p f k).writes t' k' = db.writes t' k' := by
  rcases updateRow_cases db t p f k with ⟨r, -, -, heq⟩ | ⟨-, heq⟩
  · rw [heq, writes_write_of_ne h]
  · rw [heq]

theorem writes_of_updateRow (h : (db.updateRow t p f k).writes t' k' = some w) :
    db.writes t' k' = some w ∨
      t' = t ∧ k' = k ∧ ∃ r, db.view t k = some r ∧ p r = true ∧ f r = w := by
  rcases updateRow_cases db t p f k with ⟨r, hview, hp, heq⟩ | ⟨-, heq⟩
  · rw [heq] at h
    exact (writes_of_write h).imp_right fun ⟨ht, hk, hnew⟩ => ⟨ht, hk, r, hview, hp, hnew⟩
  · exact .inl (heq ▸ h)

/-- The versions after an update: the old ones, and the changed version of the row it found. -/
theorem version_of_updateRow {r' : ρ} (h : (db.updateRow t p f k).Version k' r') :
    db.Version k' r' ∨ k' = k ∧ ∃ r, db.view t k = some r ∧ p r = true ∧ f r = some r' := by
  rcases h with h | ⟨t', h⟩
  · rw [committed_updateRow] at h
    exact .inl (.inl h)
  · exact (writes_of_updateRow h).imp (fun hold => .inr ⟨t', hold⟩) And.right

theorem Exclusive.updateRow (h : db.Exclusive) (hfree : db.Free t k) (p : ρ → Bool)
    (f : ρ → Option ρ) : (db.updateRow t p f k).Exclusive := by
  rcases updateRow_cases db t p f k with ⟨r, -, -, heq⟩ | ⟨-, heq⟩
  · rw [heq]
    exact h.write hfree
  · rw [heq]
    exact h

end

end Db

end Metap.ReadCommitted
