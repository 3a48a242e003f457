import Metap.Framework.ReadCommitted
import Metap.Framework.Transition
import Metap.OAuth.Store

/-!
# Refresh tokens under concurrent transactions

`Store.consumeRefreshToken` is what presenting a refresh token comes to when nothing else runs.
Here its statements are separate steps of a READ COMMITTED transaction, and any number of
transactions that issue, present and revoke refresh tokens interleave.

Presenting a token reads its row without locking it.  If the row is live, a new token is inserted
and the old row is then marked as replaced, whatever it has become by then: the update names the
row by its id only.  If the row is revoked, every live token of its client and user that the
revoking statement sees is revoked; a token another open transaction has inserted is not seen.

What the statements keep of the table and of each other's locks, whatever the order, is
`RefreshInv`; that one token is rotated once, and that a reuse answer ends a chain, are in the
modules that import this one, each under the condition it needs.

Rows are kept under their id; identifiers and hashes of new tokens are new.
-/

namespace Metap.OAuth

open ReadCommitted Transition

/-! ## Transactions -/

/-- Which rows a revoking statement selects. -/
inductive Revocation where
  | chain (clientID userID : Uuid)
  | single (tokenHash : String) (clientID : Uuid)
  deriving DecidableEq, Repr

def Revocation.selects : Revocation → RefreshToken → Bool
  | .chain clientID userID, t =>
    t.grant.clientID = clientID && t.grant.userID = userID && t.revokedAt.isNone
  | .single tokenHash clientID, t =>
    t.tokenHash = tokenHash && t.grant.clientID = clientID && t.revokedAt.isNone

/-- What a transaction reports to its handler. -/
inductive Answer where
  | created
  | rotated (row : RefreshToken) (child : Uuid)
  | invalid
  | reused (row : RefreshToken)
  | revoked
  deriving DecidableEq, Repr

/-- A revoking statement follows a reused token, or was asked for. -/
def revokingAnswer : Option RefreshToken → Answer
  | some row => .reused row
  | none => .revoked

/-- How far a transaction has come. -/
inductive Phase where
  /-- `CreateRefreshToken`, before its insert. -/
  | creating (grant : Grant)
  /-- `ConsumeRefreshToken`, before it reads the presented token. -/
  | presenting (tokenHash : String) (clientID : Uuid)
  /-- The token was read live. -/
  | live (row : RefreshToken)
  /-- The new token is inserted. -/
  | replacing (row : RefreshToken) (child : Uuid)
  /-- The token was read revoked. -/
  | compromised (row : RefreshToken)
  /-- A revoking statement has selected its rows. -/
  | revoking (r : Revocation) (targets : List Uuid) (presented : Option RefreshToken)
  | answered (answer : Answer)
  | committed (answer : Answer)
  | rolledBack

/-- The table, the phases of the transactions that have begun, and two history variables: which
transaction issued a token, and which transactions had begun when a reuse answer for a client and
user was committed. -/
structure RefreshState (τ : Type) where
  db : Db τ Uuid RefreshToken
  phase : τ → Option Phase := fun _ => none
  issuer : Uuid → Option τ := fun _ => none
  barred : τ → Uuid → Uuid → Prop := fun _ _ _ => False

namespace RefreshState

variable {τ : Type} [DecidableEq τ] (s : RefreshState τ)

def enter (t : τ) (ph : Phase) : RefreshState τ :=
  { s with phase := fun t' => if t' = t then some ph else s.phase t' }

/-- Insert a token a transaction issues. -/
def issue (t : τ) (token : RefreshToken) : RefreshState τ :=
  { s with
    db := s.db.write t token.id (some token)
    issuer := fun k => if k = token.id then some t else s.issuer k }

/-- Change a row a statement has selected. -/
def update (t : τ) (p : RefreshToken → Bool) (f : RefreshToken → RefreshToken) (k : Uuid) :
    RefreshState τ :=
  { s with db := s.db.updateRow t p (fun r => some (f r)) k }

/-- Commit a transaction; a reuse answer bars every transaction begun so far. -/
def close (t : τ) (answer : Answer) : RefreshState τ :=
  { s with
    db := s.db.commit t
    barred := fun t' c u => s.barred t' c u ∨ (s.phase t' ≠ none ∧
      ∃ row, answer = .reused row ∧ c = row.grant.clientID ∧ u = row.grant.userID) }

def undo (t : τ) : RefreshState τ := { s with db := s.db.rollback t }

/-- No version of any row has the identifier or the hash. -/
def Fresh (id : Uuid) (tokenHash : String) : Prop :=
  ∀ k r, s.db.Version k r → k ≠ id ∧ r.tokenHash ≠ tokenHash

end RefreshState

/-- What a step does. -/
inductive RefreshAction (τ : Type) where
  | begin (t : τ)
  | read (t : τ)
  | insert (t : τ) (token : RefreshToken)
  | replace (t : τ) (row : RefreshToken)
  | select (t : τ) (r : Revocation)
  | revoke (t : τ) (k : Uuid)
  | finish (t : τ)
  | commit (t : τ) (answer : Answer)
  | rollback (t : τ)

/-- A token with the lifetime of a new one. -/
def freshToken (id : Uuid) (tokenHash : String) (grant : Grant) (now : ℤ) : RefreshToken :=
  { id, tokenHash, grant, expiresAt := now + refreshTokenTTLSeconds }

def markReplaced (now : ℤ) (child : Uuid) (r : RefreshToken) : RefreshToken :=
  { r with revokedAt := some now, replacedBy := some child }

def markRevoked (now : ℤ) (r : RefreshToken) : RefreshToken := { r with revokedAt := some now }

/-- One statement of one transaction, or its end. -/
inductive RefreshStep {τ : Type} [DecidableEq τ] :
    RefreshState τ → RefreshAction τ → RefreshState τ → Prop where
  | beginCreate {s} (t : τ) (grant : Grant) (hnew : s.phase t = none) :
      RefreshStep s (.begin t) (s.enter t (.creating grant))
  | beginConsume {s} (t : τ) (tokenHash : String) (clientID : Uuid) (hnew : s.phase t = none) :
      RefreshStep s (.begin t) (s.enter t (.presenting tokenHash clientID))
  /-- `RevokeRefreshToken` is one statement, so it selects its rows as it begins. -/
  | beginRevoke {s} (t : τ) (tokenHash : String) (clientID : Uuid) (targets : List Uuid)
      (hnew : s.phase t = none)
      (hselects : s.db.Selects t (Revocation.single tokenHash clientID).selects targets) :
      RefreshStep s (.select t (.single tokenHash clientID))
        (s.enter t (.revoking (.single tokenHash clientID) targets none))
  | insertFirst {s} (t : τ) (grant : Grant) (id : Uuid) (tokenHash : String) (now : ℤ)
      (hphase : s.phase t = some (.creating grant)) (hfresh : s.Fresh id tokenHash) :
      RefreshStep s (.insert t (freshToken id tokenHash grant now))
        ((s.issue t (freshToken id tokenHash grant now)).enter t (.answered .created))
  | readNone {s} (t : τ) (tokenHash : String) (clientID : Uuid)
      (hphase : s.phase t = some (.presenting tokenHash clientID))
      (hnone : ∀ k row, s.db.view t k = some row →
        ¬(row.tokenHash = tokenHash ∧ row.grant.clientID = clientID)) :
      RefreshStep s (.read t) (s.enter t (.answered .invalid))
  | readRevoked {s} (t : τ) (tokenHash : String) (clientID : Uuid) (k : Uuid) (row : RefreshToken)
      (hphase : s.phase t = some (.presenting tokenHash clientID))
      (hrow : s.db.view t k = some row) (hhash : row.tokenHash = tokenHash)
      (hclient : row.grant.clientID = clientID) (hrevoked : row.revokedAt.isSome) :
      RefreshStep s (.read t) (s.enter t (.compromised row))
  | readExpired {s} (t : τ) (tokenHash : String) (clientID : Uuid) (k : Uuid) (row : RefreshToken)
      (now : ℤ) (hphase : s.phase t = some (.presenting tokenHash clientID))
      (hrow : s.db.view t k = some row) (hhash : row.tokenHash = tokenHash)
      (hclient : row.grant.clientID = clientID) (hrevoked : row.revokedAt = none)
      (hexpired : row.expiresAt ≤ now) :
      RefreshStep s (.read t) (s.enter t (.answered .invalid))
  | readLive {s} (t : τ) (tokenHash : String) (clientID : Uuid) (k : Uuid) (row : RefreshToken)
      (now : ℤ) (hphase : s.phase t = some (.presenting tokenHash clientID))
      (hrow : s.db.view t k = some row) (hhash : row.tokenHash = tokenHash)
      (hclient : row.grant.clientID = clientID) (hrevoked : row.revokedAt = none)
      (hlive : now < row.expiresAt) :
      RefreshStep s (.read t) (s.enter t (.live row))
  | insertChild {s} (t : τ) (row : RefreshToken) (id : Uuid) (tokenHash : String) (now : ℤ)
      (hphase : s.phase t = some (.live row)) (hfresh : s.Fresh id tokenHash) :
      RefreshStep s (.insert t (freshToken id tokenHash row.grant now))
        ((s.issue t (freshToken id tokenHash row.grant now)).enter t (.replacing row id))
  /-- The old row is found by its id alone. -/
  | replaceOld {s} (t : τ) (row : RefreshToken) (child : Uuid) (now : ℤ)
      (hphase : s.phase t = some (.replacing row child)) (hfree : s.db.Free t row.id) :
      RefreshStep s (.replace t row)
        ((s.update t (fun r => r.id = row.id) (markReplaced now child) row.id).enter t
          (.answered (.rotated row child)))
  | selectChain {s} (t : τ) (row : RefreshToken) (targets : List Uuid)
      (hphase : s.phase t = some (.compromised row))
      (hselects : s.db.Selects t
        (Revocation.chain row.grant.clientID row.grant.userID).selects targets) :
      RefreshStep s (.select t (.chain row.grant.clientID row.grant.userID))
        (s.enter t (.revoking (.chain row.grant.clientID row.grant.userID) targets (some row)))
  | revokeRow {s} (t : τ) (r : Revocation) (k : Uuid) (targets : List Uuid)
      (presented : Option RefreshToken) (now : ℤ)
      (hphase : s.phase t = some (.revoking r (k :: targets) presented))
      (hfree : s.db.Free t k) :
      RefreshStep s (.revoke t k)
        ((s.update t r.selects (markRevoked now) k).enter t (.revoking r targets presented))
  | finishRevoking {s} (t : τ) (r : Revocation) (presented : Option RefreshToken)
      (hphase : s.phase t = some (.revoking r [] presented)) :
      RefreshStep s (.finish t) (s.enter t (.answered (revokingAnswer presented)))
  /-- The handler commits everything but an invalid token. -/
  | commit {s} (t : τ) (answer : Answer) (hphase : s.phase t = some (.answered answer))
      (hvalid : answer ≠ .invalid) :
      RefreshStep s (.commit t answer)
        ((s.close t answer).enter t (.committed answer))
  /-- A transaction may fail at any point, and a handler may give up. -/
  | rollback {s} (t : τ) (ph : Phase) (hphase : s.phase t = some ph)
      (hopen : ∀ answer, ph ≠ .committed answer) :
      RefreshStep s (.rollback t) ((s.undo t).enter t .rolledBack)

/-- A table before any of the transactions has begun. -/
structure RefreshState.Initial {τ : Type} (s : RefreshState τ) : Prop where
  writes : ∀ t k, s.db.writes t k = none
  phase : ∀ t, s.phase t = none
  issuer : ∀ k, s.issuer k = none
  barred : ∀ t c u, ¬s.barred t c u
  id_eq : ∀ k r, s.db.committed k = some r → r.id = k
  hash_inj : ∀ k k' r r', s.db.committed k = some r → s.db.committed k' = some r' →
    r.tokenHash = r'.tokenHash → k = k'

/-! ## What every step keeps -/

/-- The row a transaction has read and acts on. -/
def Answer.row? : Answer → Option RefreshToken
  | .rotated row _ | .reused row => some row
  | _ => none

def Phase.row? : Phase → Option RefreshToken
  | .live row | .replacing row _ | .compromised row => some row
  | .revoking _ _ presented => presented
  | .answered answer | .committed answer => answer.row?
  | _ => none

/-- The rows a revoking statement has still to take. -/
def Phase.targets : Phase → List Uuid
  | .revoking _ targets _ => targets
  | _ => []

/-- The transaction may have written. -/
def Phase.mayWrite : Phase → Bool
  | .replacing _ _ | .revoking _ _ _ | .answered _ => true
  | _ => false

section

variable {τ : Type}

/-- What the statements keep of the table: rows are never deleted, their identifier, hash and grant
never change, and an open transaction has either inserted a row or revoked an existing one. -/
structure TableInv (db : Db τ Uuid RefreshToken) (issuer : Uuid → Option τ) : Prop where
  exclusive : db.Exclusive
  id_eq : ∀ k r, db.Version k r → r.id = k
  hash_inj : ∀ k k' r r', db.Version k r → db.Version k' r' → r.tokenHash = r'.tokenHash → k = k'
  same : ∀ k r r', db.Version k r → db.Version k r' →
    r'.tokenHash = r.tokenHash ∧ r'.grant = r.grant
  kept : ∀ t k, db.writes t k ≠ some none
  written : ∀ t k r, db.writes t k = some (some r) →
    (r.revokedAt.isSome ∧ (db.committed k).isSome) ∨ (db.committed k = none ∧ issuer k = some t)

/-- The row is in the table, possibly in a later version. -/
def Held (db : Db τ Uuid RefreshToken) (row : RefreshToken) : Prop :=
  ∃ r, db.committed row.id = some r ∧ r.tokenHash = row.tokenHash ∧ r.grant = row.grant

structure RefreshInv (s : RefreshState τ) : Prop where
  table : TableInv s.db s.issuer
  idle : ∀ t, (∀ ph ∈ s.phase t, ph.mayWrite = false) → ∀ k, s.db.writes t k = none
  held : ∀ t, ∀ ph ∈ s.phase t, ∀ row ∈ ph.row?, Held s.db row
  targets : ∀ t, ∀ ph ∈ s.phase t, ∀ k ∈ ph.targets, (s.db.committed k).isSome

variable {s : RefreshState τ} {db : Db τ Uuid RefreshToken} {issuer : Uuid → Option τ} {t t' : τ}
  {k k' : Uuid} {r r' : RefreshToken}

/-- A committed row stays visible. -/
theorem TableInv.exists_view (h : TableInv db issuer) (hrow : db.committed k = some r) (t : τ) :
    ∃ r', db.view t k = some r' := by
  cases hwrites : db.writes t k with
  | none => exact ⟨r, (Db.view_of_writes_eq_none hwrites).trans hrow⟩
  | some v =>
    cases v with
    | none => exact absurd hwrites (h.kept t k)
    | some r' => exact ⟨r', Db.view_of_writes_eq_some hwrites⟩

theorem Held.id_eq_of_hash {row row' : RefreshToken} (h : TableInv db issuer) (hrow : Held db row)
    (hrow' : Held db row') (hhash : row.tokenHash = row'.tokenHash) : row.id = row'.id := by
  obtain ⟨r, hr, hrhash, -⟩ := hrow
  obtain ⟨r', hr', hrhash', -⟩ := hrow'
  exact h.hash_inj _ _ r r' (.inl hr) (.inl hr') (by rw [hrhash, hhash, hrhash'])

variable {ph : Phase} {db' : Db τ Uuid RefreshToken}

/-- A transaction that has not written sees what is committed. -/
theorem RefreshInv.view_eq (h : RefreshInv s) (hphase : s.phase t = some ph)
    (hph : ph.mayWrite = false) (k : Uuid) : s.db.view t k = s.db.committed k := by
  refine Db.view_of_writes_eq_none (h.idle t ?_ k)
  rintro ph' hph'
  rw [hphase] at hph'
  cases hph'
  exact hph

theorem RefreshState.Initial.inv {s : RefreshState τ} (h : s.Initial) : RefreshInv s := by
  have hversion : ∀ {k r}, s.db.Version k r → s.db.committed k = some r := by
    rintro k r (hr | ⟨t, hr⟩)
    · exact hr
    · rw [h.writes t k] at hr
      cases hr
  refine ⟨⟨?_, ?_, ?_, ?_, ?_, ?_⟩, fun t _ k => h.writes t k, ?_, ?_⟩
  · intro t t' k ht
    rw [h.writes t k] at ht
    cases ht
  · exact fun k r hr => h.id_eq k r (hversion hr)
  · exact fun k k' r r' hr hr' => h.hash_inj k k' r r' (hversion hr) (hversion hr')
  · intro k r r' hr hr'
    obtain rfl : r = r' := Option.some.inj ((hversion hr).symm.trans (hversion hr'))
    exact ⟨rfl, rfl⟩
  · intro t k
    simp [h.writes t k]
  · intro t k r hr
    rw [h.writes t k] at hr
    cases hr
  all_goals
    intro t ph hph
    rw [h.phase t] at hph
    cases hph

variable [DecidableEq τ]

@[simp]
theorem RefreshState.phase_enter (s : RefreshState τ) (t t' : τ) (ph : Phase) :
    (s.enter t ph).phase t' = if t' = t then some ph else s.phase t' := rfl

/-- What holds of the phase a transaction has moved to and of all the others holds of all. -/
theorem forall_phase {s s' : RefreshState τ} {P : τ → Phase → Prop}
    (hphase : ∀ t', s'.phase t' = if t' = t then some ph else s.phase t') (hself : P t ph)
    (hothers : ∀ t', t' ≠ t → ∀ ph' ∈ s.phase t', P t' ph') :
    ∀ t', ∀ ph' ∈ s'.phase t', P t' ph' := by
  intro t' ph' hph'
  rw [hphase] at hph'
  rcases ite_eq_iff.mp hph' with ⟨rfl, ⟨⟩⟩ | ⟨ht, hold⟩
  · exact hself
  · exact hothers t' ht ph' hold

/-- An inserted token leaves other identifiers and hashes new. -/
theorem RefreshState.Fresh.issue {s : RefreshState τ} {id : Uuid} {tokenHash : String}
    (h : s.Fresh id tokenHash) {token : RefreshToken} (hid : token.id ≠ id)
    (hhash : token.tokenHash ≠ tokenHash) : (s.issue t token).Fresh id tokenHash := by
  intro k r hr
  rcases Db.version_of_write hr with hold | ⟨rfl, hnew⟩
  · exact h k r hold
  · cases hnew
    exact ⟨hid, hhash⟩

/-- An update keeps identifier, hash and grant, and revokes. -/
structure Revokes (f : RefreshToken → RefreshToken) : Prop where
  id_eq : ∀ r, (f r).id = r.id
  hash_eq : ∀ r, (f r).tokenHash = r.tokenHash
  grant_eq : ∀ r, (f r).grant = r.grant
  revoked : ∀ r, (f r).revokedAt.isSome
  replaced : ∀ r, r.replacedBy.isSome → (f r).replacedBy.isSome

theorem revokes_markReplaced (now : ℤ) (child : Uuid) : Revokes (markReplaced now child) :=
  ⟨fun _ => rfl, fun _ => rfl, fun _ => rfl, fun _ => rfl, fun _ _ => rfl⟩

theorem revokes_markRevoked (now : ℤ) : Revokes (markRevoked now) :=
  ⟨fun _ => rfl, fun _ => rfl, fun _ => rfl, fun _ => rfl, fun _ h => h⟩

section

variable (h : TableInv db issuer)

include h

theorem TableInv.update (hfree : db.Free t k) {p : RefreshToken → Bool}
    {f : RefreshToken → RefreshToken} (hf : Revokes f)
    (hcommitted : (db.committed k).isSome ∨ ∀ r, db.view t k = some r → p r = false) :
    TableInv (db.updateRow t p (fun r => some (f r)) k) issuer := by
  have hkey : ∀ {k' r'}, (db.updateRow t p (fun r => some (f r)) k).Version k' r' →
      ∃ r, db.Version k' r ∧ r'.id = r.id ∧ r'.tokenHash = r.tokenHash ∧ r'.grant = r.grant := by
    intro k' r' hr'
    rcases Db.version_of_updateRow hr' with hold | ⟨rfl, r, hview, -, hnew⟩
    · exact ⟨r', hold, rfl, rfl, rfl⟩
    · cases hnew
      exact ⟨r, Db.version_of_view hview, hf.id_eq r, hf.hash_eq r, hf.grant_eq r⟩
  refine ⟨h.exclusive.updateRow hfree _ _, ?_, ?_, ?_, ?_, ?_⟩
  · intro k' r' hr'
    obtain ⟨r, hr, hid, -⟩ := hkey hr'
    rw [hid, h.id_eq k' r hr]
  · intro k₁ k₂ r₁ r₂ hr₁ hr₂ hhash
    obtain ⟨r₁', hv₁, -, hh₁, -⟩ := hkey hr₁
    obtain ⟨r₂', hv₂, -, hh₂, -⟩ := hkey hr₂
    exact h.hash_inj k₁ k₂ r₁' r₂' hv₁ hv₂ (by rw [← hh₁, hhash, hh₂])
  · intro k' r₁ r₂ hr₁ hr₂
    obtain ⟨r₁', hv₁, -, hh₁, hg₁⟩ := hkey hr₁
    obtain ⟨r₂', hv₂, -, hh₂, hg₂⟩ := hkey hr₂
    obtain ⟨hhash, hgrant⟩ := h.same k' r₁' r₂' hv₁ hv₂
    exact ⟨by rw [hh₂, hhash, hh₁], by rw [hg₂, hgrant, hg₁]⟩
  · intro t' k' hdeleted
    rcases Db.writes_of_updateRow hdeleted with hold | ⟨-, -, r, -, -, hnew⟩
    · exact h.kept t' k' hold
    · cases hnew
  · intro t' k' r' hr'
    rw [Db.committed_updateRow]
    rcases Db.writes_of_updateRow hr' with hold | ⟨rfl, rfl, r, hview, hp, hnew⟩
    · exact h.written t' k' r' hold
    · cases hnew
      rcases hcommitted with hcommitted | hnone
      · exact .inl ⟨hf.revoked r, hcommitted⟩
      · rw [hnone r hview] at hp
        cases hp

theorem TableInv.issue {token : RefreshToken}
    (hfresh : ∀ k r, db.Version k r → k ≠ token.id ∧ r.tokenHash ≠ token.tokenHash) :
    TableInv (db.write t token.id (some token))
      (fun k => if k = token.id then some t else issuer k) := by
  have hnone : db.committed token.id = none := by
    cases hrow : db.committed token.id with
    | none => rfl
    | some r => exact absurd rfl (hfresh _ r (.inl hrow)).1
  have hunwritten : ∀ t', db.writes t' token.id = none := by
    intro t'
    cases hwrites : db.writes t' token.id with
    | none => rfl
    | some v =>
      cases v with
      | none => exact absurd hwrites (h.kept t' _)
      | some r => exact absurd rfl (hfresh _ r (.inr ⟨t', hwrites⟩)).1
  have hkey : ∀ {k' r'}, (db.write t token.id (some token)).Version k' r' →
      db.Version k' r' ∨ k' = token.id ∧ r' = token := by
    intro k' r' hr'
    rcases Db.version_of_write hr' with hold | ⟨rfl, hnew⟩
    · exact .inl hold
    · exact .inr ⟨rfl, (Option.some.inj hnew).symm⟩
  refine ⟨h.exclusive.write fun t' _ => hunwritten t', ?_, ?_, ?_, ?_, ?_⟩
  · intro k' r' hr'
    rcases hkey hr' with hr' | ⟨rfl, rfl⟩
    · exact h.id_eq k' r' hr'
    · rfl
  · intro k₁ k₂ r₁ r₂ hr₁ hr₂ hhash
    rcases hkey hr₁ with hv₁ | ⟨rfl, rfl⟩ <;> rcases hkey hr₂ with hv₂ | ⟨rfl, rfl⟩
    · exact h.hash_inj k₁ k₂ r₁ r₂ hv₁ hv₂ hhash
    · exact absurd hhash (hfresh _ _ hv₁).2
    · exact absurd hhash.symm (hfresh _ _ hv₂).2
    · rfl
  · intro k' r₁ r₂ hr₁ hr₂
    rcases hkey hr₁ with hv₁ | ⟨rfl, rfl⟩ <;> rcases hkey hr₂ with hv₂ | ⟨hid, rfl⟩
    · exact h.same k' r₁ r₂ hv₁ hv₂
    · exact absurd hid (hfresh _ _ hv₁).1
    · exact absurd rfl (hfresh _ _ hv₂).1
    · exact ⟨rfl, rfl⟩
  · intro t' k' hdeleted
    rcases Db.writes_of_write hdeleted with hold | ⟨-, -, hnew⟩
    · exact h.kept t' k' hold
    · cases hnew
  · intro t' k' r' hr'
    rcases Db.writes_of_write hr' with hold | ⟨rfl, rfl, -⟩
    · rw [Db.committed_write, if_neg (hfresh k' r' (.inr ⟨t', hold⟩)).1]
      exact h.written t' k' r' hold
    · exact .inr ⟨hnone, if_pos rfl⟩

/-- A transaction ends: its writes are gone, and no version of a row is new. -/
theorem TableInv.close (hexclusive : db'.Exclusive)
    (hversion : ∀ {k r}, db'.Version k r → db.Version k r)
    (hwrites : ∀ t' k, db'.writes t' k = if t' = t then none else db.writes t' k)
    (hcommitted : ∀ k, db.writes t k = none → db'.committed k = db.committed k) :
    TableInv db' issuer := by
  refine ⟨hexclusive, fun k r hr => h.id_eq k r (hversion hr), ?_, ?_, ?_, ?_⟩
  · exact fun k k' r r' hr hr' => h.hash_inj k k' r r' (hversion hr) (hversion hr')
  · exact fun k r r' hr hr' => h.same k r r' (hversion hr) (hversion hr')
  · intro t' k hdeleted
    rw [hwrites] at hdeleted
    exact h.kept t' k (Option.ite_none_left_eq_some.mp hdeleted).2
  · intro t' k r hr
    rw [hwrites] at hr
    obtain ⟨hne, hr⟩ := Option.ite_none_left_eq_some.mp hr
    -- the transaction cannot have written a row that another one has
    have hfree : db.writes t k = none := by
      cases hwrites : db.writes t k with
      | none => rfl
      | some v => exact absurd (h.exclusive t' t k (by simp [hr]) (by simp [hwrites])) hne
    rw [hcommitted k hfree]
    exact h.written t' k r hr

theorem TableInv.commit (t : τ) : TableInv (db.commit t) issuer :=
  h.close h.exclusive.commit Db.version_of_commit (fun _ _ => rfl)
    fun _ hfree => Db.view_of_writes_eq_none hfree

theorem TableInv.rollback (t : τ) : TableInv (db.rollback t) issuer :=
  h.close h.exclusive.rollback Db.version_of_rollback (fun _ _ => rfl) fun _ _ => rfl

theorem Held.commit {row : RefreshToken} (hrow : Held db row) (t : τ) : Held (db.commit t) row := by
  obtain ⟨r, hr, hhash, hgrant⟩ := hrow
  obtain ⟨r', hr'⟩ := h.exists_view hr t
  obtain ⟨hhash', hgrant'⟩ := h.same row.id r r' (.inl hr) (Db.version_of_view hr')
  exact ⟨r', hr', hhash'.trans hhash, hgrant'.trans hgrant⟩

end

/-- A transaction moves to another phase and only its own writes change. -/
theorem RefreshInv.move (h : RefreshInv s)
    {issuer' : Uuid → Option τ} {barred' : τ → Uuid → Uuid → Prop} (htable : TableInv db' issuer')
    (hothers : ∀ t', t' ≠ t → ∀ k, db'.writes t' k = s.db.writes t' k)
    (hself : ph.mayWrite = false → ∀ k, db'.writes t k = none)
    (hkeep : ∀ row, Held s.db row → Held db' row)
    (hkeys : ∀ k, (s.db.committed k).isSome → (db'.committed k).isSome)
    (hheld : ∀ row ∈ ph.row?, Held s.db row)
    (htargets : ∀ k ∈ ph.targets, (s.db.committed k).isSome) :
    RefreshInv (RefreshState.enter ⟨db', s.phase, issuer', barred'⟩ t ph) := by
  refine ⟨htable, ?_, ?_, ?_⟩
  · intro t' hidle k
    by_cases ht : t' = t
    · subst ht
      exact hself (hidle ph (by simp)) k
    · refine (hothers t' ht k).trans (h.idle t' (fun ph' hph' => hidle ph' ?_) k)
      simpa [ht] using hph'
  · exact forall_phase (fun _ => rfl) (fun row hrow => hkeep row (hheld row hrow))
      fun t' _ ph' hph' row hrow => hkeep row (h.held t' ph' hph' row hrow)
  · exact forall_phase (fun _ => rfl) (fun k hk => hkeys k (htargets k hk))
      fun t' _ ph' hph' k hk => hkeys k (h.targets t' ph' hph' k hk)

theorem RefreshInv.enter (h : RefreshInv s)
    (hself : ph.mayWrite = false → ∀ k, s.db.writes t k = none)
    (hheld : ∀ row ∈ ph.row?, Held s.db row)
    (htargets : ∀ k ∈ ph.targets, (s.db.committed k).isSome) : RefreshInv (s.enter t ph) :=
  h.move h.table (fun _ _ _ => rfl) hself (fun _ hrow => hrow) (fun _ hk => hk) hheld htargets

theorem RefreshInv.step (h : RefreshInv s) {a : RefreshAction τ} {s' : RefreshState τ}
    (hstep : RefreshStep s a s') : RefreshInv s' := by
  have hidle : ∀ {t ph}, s.phase t = some ph → ph.mayWrite = false →
      ∀ k, s.db.writes t k = none := by
    intro t ph hphase hph
    refine h.idle t fun ph' hph' => ?_
    rw [hphase] at hph'
    cases hph'
    exact hph
  have hnever : ∀ {t}, s.phase t = none → ∀ k, s.db.writes t k = none := by
    intro t hphase
    exact h.idle t fun ph hph => by rw [hphase] at hph; cases hph
  -- the row a transaction reads is committed, for it has not written yet
  have hread : ∀ {t tokenHash clientID k row}, s.phase t = some (.presenting tokenHash clientID) →
      s.db.view t k = some row → Held s.db row := by
    intro t tokenHash clientID k row hphase hrow
    rw [h.view_eq hphase rfl] at hrow
    rw [← h.table.id_eq k row (.inl hrow)] at hrow
    exact ⟨row, hrow, rfl, rfl⟩
  have hselected : ∀ {t : τ} {p targets}, (∀ k, s.db.writes t k = none) →
      s.db.Selects t p targets → ∀ k ∈ targets, (s.db.committed k).isSome := by
    intro t p targets hwrites hselects k hk
    obtain ⟨r, hr, -⟩ := (hselects k).mp hk
    rw [Db.view_of_writes_eq_none (hwrites k)] at hr
    simp [hr]
  -- an update leaves what is committed
  have hupdate : ∀ {t p f k ph}, s.db.Free t k → Revokes f → (s.db.committed k).isSome →
      ph.mayWrite = true → (∀ row ∈ ph.row?, Held s.db row) →
      (∀ k ∈ ph.targets, (s.db.committed k).isSome) →
      RefreshInv ((s.update t p f k).enter t ph) := by
    intro t p f k ph hfree hf hk hph hheld htargets
    refine h.move (h.table.update hfree hf (.inl hk))
      (fun t' ht' k => Db.writes_updateRow_of_ne ht')
      (by simp [hph]) ?_ ?_ hheld htargets
    · intro row hrow
      rwa [Held, Db.committed_updateRow]
    · intro k hk
      rwa [Db.committed_updateRow]
  cases hstep with
  | beginCreate _ _ hnew | beginConsume _ _ _ hnew =>
      exact h.enter (fun _ => hnever hnew) nofun nofun
  | beginRevoke t tokenHash clientID targets hnew hselects =>
    exact h.enter nofun nofun (hselected (hnever hnew) hselects)
  | readNone | readExpired => exact h.enter nofun nofun nofun
  | readRevoked _ _ _ _ _ hphase hrow | readLive _ _ _ _ _ _ hphase hrow =>
    refine h.enter (fun _ => hidle hphase rfl) ?_ nofun
    rintro _ ⟨⟩
    exact hread hphase hrow
  | insertFirst t _ _ _ _ hphase hfresh | insertChild t _ _ _ _ hphase hfresh =>
    exact h.move (h.table.issue hfresh) (fun t' ht' k => Db.writes_write_of_ne ht') nofun
      (fun _ hrow => hrow) (fun _ hk => hk) (fun _ hrow => h.held t _ hphase _ hrow) nofun
  | replaceOld t row child now hphase hfree =>
    obtain ⟨r, hr, -⟩ := h.held t _ hphase row rfl
    exact hupdate hfree (revokes_markReplaced now child) (by simp [hr]) rfl
      (fun _ hrow => h.held t _ hphase _ hrow) nofun
  | selectChain t row targets hphase hselects =>
    exact h.enter nofun (fun _ hrow => h.held t _ hphase _ hrow)
      (hselected (hidle hphase rfl) hselects)
  | revokeRow t r k targets presented now hphase hfree =>
    have htargets := h.targets t _ hphase
    exact hupdate hfree (revokes_markRevoked now) (htargets k List.mem_cons_self) rfl
      (fun _ hrow => h.held t _ hphase _ hrow)
      fun k' hk' => htargets k' (List.mem_cons_of_mem _ hk')
  | finishRevoking t r presented hphase =>
    refine h.enter nofun (fun row' hrow' => ?_) nofun
    cases presented with
    | none => cases hrow'
    | some row => exact h.held t _ hphase row' hrow'
  | commit t answer hphase hvalid =>
    refine h.move (h.table.commit t) (fun t' ht' k => if_neg ht') (fun _ k => if_pos rfl)
      (fun row hrow => hrow.commit h.table t) (fun k hk => ?_)
      (fun _ hrow => h.held t _ hphase _ hrow) nofun
    obtain ⟨r, hr⟩ := Option.isSome_iff_exists.mp hk
    obtain ⟨r', hr'⟩ := h.table.exists_view hr t
    simp [hr']
  | rollback t ph hphase hopen =>
    exact h.move (h.table.rollback t) (fun t' ht' k => if_neg ht') (fun _ k => if_pos rfl)
      (fun _ hrow => hrow) (fun _ hk => hk) nofun nofun

end

end Metap.OAuth
