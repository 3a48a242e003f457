import Metap.OAuth.RefreshTransactions

/-!
# One rotation for each refresh token

A rotation reads its token without a lock and later marks the row as replaced by its id alone.  If
another rotation of the token has committed in between, the second update still finds the row and
replaces it again.  So two overlapping requests with one token both answer with a new token
(`overlapping_rotations_commit`).

`rotations_unique` says that this is the only way: in every run in which no rotation finds its row
replaced already, at most one rotation of a token commits, and while one has, no other transaction
has rotated the token.
-/

namespace Metap.OAuth

open ReadCommitted Transition

section

variable {τ : Type} [DecidableEq τ]

/-- A rotation finds its row as no other rotation has left it. -/
def Unreplaced (s : RefreshState τ) : RefreshAction τ → Prop
  | .replace t row => ∀ r, s.db.view t row.id = some r → r.replacedBy = none
  | _ => True

/-- The transaction has rotated the row and not been rolled back. -/
def Phase.Rotated (ph : Phase) (row : RefreshToken) : Prop :=
  ∃ child, ph = .answered (.rotated row child) ∨ ph = .committed (.rotated row child)

structure RotationInv (s : RefreshState τ) : Prop where
  base : RefreshInv s
  /-- Where a rotation has committed, every version of the row is replaced. -/
  replaced : ∀ t row child, s.phase t = some (.committed (.rotated row child)) →
    ∀ r, s.db.Version row.id r → r.replacedBy.isSome
  /-- A rotation that has not committed holds the lock of its row. -/
  locked : ∀ t row child, s.phase t = some (.answered (.rotated row child)) →
    ∃ r, s.db.writes t row.id = some (some r) ∧ r.replacedBy.isSome
  unique : ∀ t t' row row' child, s.phase t = some (.committed (.rotated row child)) →
    ∀ ph ∈ s.phase t', ph.Rotated row' → row.tokenHash = row'.tokenHash → t = t'

variable {s s' : RefreshState τ} {t : τ}

/-- A transaction moves to a phase that is no rotation. -/
theorem RotationInv.move {ph : Phase} (h : RotationInv s)
    (hbase : RefreshInv s') (hphase : ∀ t', s'.phase t' = if t' = t then some ph else s.phase t')
    (hph : ∀ row, ¬ph.Rotated row)
    (hversions : ∀ row, Held s.db row → (∀ r, s.db.Version row.id r → r.replacedBy.isSome) →
      ∀ r, s'.db.Version row.id r → r.replacedBy.isSome)
    (hothers : ∀ t', t' ≠ t → ∀ k, s'.db.writes t' k = s.db.writes t' k) : RotationInv s' := by
  -- whoever has rotated a row had done so, and is another transaction
  have hother : ∀ {t₁ ph₁ row}, s'.phase t₁ = some ph₁ → ph₁.Rotated row →
      t₁ ≠ t ∧ s.phase t₁ = some ph₁ := by
    intro t₁ ph₁ row ht₁ hrotated
    rw [hphase] at ht₁
    refine (ite_eq_iff.mp ht₁).resolve_left ?_
    rintro ⟨-, ⟨⟩⟩
    exact hph row hrotated
  refine ⟨hbase, ?_, ?_, ?_⟩
  · intro t₁ row child ht₁
    obtain ⟨-, hold⟩ := hother ht₁ ⟨child, .inr rfl⟩
    exact hversions row (h.base.held t₁ _ hold row rfl) (h.replaced t₁ row child hold)
  · intro t₁ row child ht₁
    obtain ⟨hne, hold⟩ := hother ht₁ ⟨child, .inl rfl⟩
    rw [hothers t₁ hne]
    exact h.locked t₁ row child hold
  · intro t₁ t₂ row row' child ht₁ ph₂ hph₂ hrotated
    exact h.unique t₁ t₂ row row' child (hother ht₁ ⟨child, .inr rfl⟩).2 ph₂
      (hother hph₂ hrotated).2 hrotated

/-- An inserted token is no version of a row there is. -/
theorem replaced_issue {token : RefreshToken}
    (hfresh : s.Fresh token.id token.tokenHash) {row : RefreshToken} (hheld : Held s.db row)
    (hr : ∀ r, s.db.Version row.id r → r.replacedBy.isSome) (r : RefreshToken)
    (hver : (s.db.write t token.id (some token)).Version row.id r) : r.replacedBy.isSome := by
  rcases Db.version_of_write hver with hold | ⟨hid, -⟩
  · exact hr r hold
  · obtain ⟨r', hr', -⟩ := hheld
    exact absurd hid (hfresh _ r' (.inl hr')).1

/-- An update keeps a row replaced. -/
theorem replaced_update {k k' : Uuid} {p : RefreshToken → Bool} {f : RefreshToken → RefreshToken}
    (hf : Revokes f) (hr : ∀ r, s.db.Version k' r → r.replacedBy.isSome) (r : RefreshToken)
    (hver : (s.db.updateRow t p (fun r => some (f r)) k).Version k' r) : r.replacedBy.isSome := by
  rcases Db.version_of_updateRow hver with hold | ⟨rfl, r', hview, -, hnew⟩
  · exact hr r hold
  · cases hnew
    exact hf.replaced r' (hr r' (Db.version_of_view hview))

/-- A rotation that finds its row unreplaced is the only one of its token. -/
theorem rotationInv_replaceOld (h : RotationInv s) {row : RefreshToken} {child : Uuid} (now : ℤ)
    (hphase : s.phase t = some (.replacing row child)) (hfree : s.db.Free t row.id)
    (hcond : ∀ r, s.db.view t row.id = some r → r.replacedBy = none) :
    RotationInv ((s.update t (fun r => r.id = row.id) (markReplaced now child) row.id).enter t
      (.answered (.rotated row child))) := by
  have hheld := h.base.held t _ hphase row rfl
  obtain ⟨r₀, hr₀, -⟩ := id hheld
  obtain ⟨r, hview⟩ := h.base.table.exists_view hr₀ t
  have hid : r.id = row.id := h.base.table.id_eq _ r (Db.version_of_view hview)
  -- no rotation of the token has committed: it would have left the row replaced
  have hnone : ∀ t' row' child', s.phase t' = some (.committed (.rotated row' child')) →
      row'.tokenHash ≠ row.tokenHash := by
    intro t' row' child' ht' hhash
    have hsame := (h.base.held t' _ ht' row' rfl).id_eq_of_hash h.base.table hheld hhash
    have hreplaced := h.replaced t' row' child' ht' r (hsame ▸ Db.version_of_view hview)
    rw [hcond r hview] at hreplaced
    cases hreplaced
  refine ⟨h.base.step (.replaceOld t row child now hphase hfree), ?_, ?_, ?_⟩
  · intro t' row' child' ht'
    rcases ite_eq_iff.mp ht' with ⟨-, ⟨⟩⟩ | ⟨-, ht'⟩
    exact replaced_update (revokes_markReplaced now child) (h.replaced t' row' child' ht')
  · intro t' row' child' ht'
    rcases ite_eq_iff.mp ht' with ⟨rfl, ⟨⟩⟩ | ⟨hne, ht'⟩
    · refine ⟨markReplaced now child r, ?_, rfl⟩
      rcases Db.updateRow_cases s.db t' (fun r => r.id = row.id)
        (fun r => some (markReplaced now child r)) row.id with ⟨r', hview', -, heq⟩ | ⟨hfails, -⟩
      · cases hview.symm.trans hview'
        show (s.db.updateRow t' _ _ row.id).writes t' row.id = _
        rw [heq, Db.writes_write_self]
      · exact absurd (hfails r hview) (by simp [hid])
    · obtain ⟨r', hr', hreplaced⟩ := h.locked t' row' child' ht'
      exact ⟨r', (Db.writes_updateRow_of_ne hne).trans hr', hreplaced⟩
  · intro t₁ t₂ row₁ row₂ child₁ ht₁ ph₂ hph₂ hrotated hhash
    rcases ite_eq_iff.mp ht₁ with ⟨-, ⟨⟩⟩ | ⟨-, ht₁⟩
    rcases ite_eq_iff.mp hph₂ with ⟨-, ⟨⟩⟩ | ⟨-, hph₂⟩
    · obtain ⟨child₂, heq | heq⟩ := hrotated <;> cases heq
      exact absurd hhash (hnone t₁ row₁ child₁ ht₁)
    · exact h.unique t₁ t₂ row₁ row₂ child₁ ht₁ ph₂ hph₂ hrotated hhash

theorem rotationInv_commit (h : RotationInv s) {answer : Answer}
    (hphase : s.phase t = some (.answered answer)) (hvalid : answer ≠ .invalid) :
    RotationInv ((s.close t answer).enter t (.committed answer)) := by
  refine ⟨h.base.step (.commit t answer hphase hvalid), ?_, ?_, ?_⟩
  · intro t' row child ht' r hver
    rcases ite_eq_iff.mp ht' with ⟨-, ⟨⟩⟩ | ⟨-, ht'⟩
    · obtain ⟨r', hr', hreplaced⟩ := h.locked t row child hphase
      -- the committed version is the one this transaction wrote, and nobody else wrote the row
      rcases hver with hver | ⟨t₂, hver⟩
      · cases (Db.view_of_writes_eq_some hr').symm.trans hver
        exact hreplaced
      · obtain ⟨hne, hver⟩ := Option.ite_none_left_eq_some.mp hver
        exact absurd (h.base.table.exclusive t₂ t row.id (by simp [hver]) (by simp [hr'])) hne
    · exact h.replaced t' row child ht' r (Db.version_of_commit hver)
  · intro t' row child ht'
    rcases ite_eq_iff.mp ht' with ⟨-, ⟨⟩⟩ | ⟨hne, ht'⟩
    obtain ⟨r, hr, hreplaced⟩ := h.locked t' row child ht'
    exact ⟨r, (if_neg hne).trans hr, hreplaced⟩
  · intro t₁ t₂ row₁ row₂ child₁ ht₁ ph₂ hph₂ hrotated hhash
    rcases ite_eq_iff.mp ht₁ with ⟨rfl, ⟨⟩⟩ | ⟨-, ht₁⟩ <;>
    rcases ite_eq_iff.mp hph₂ with ⟨rfl, ⟨⟩⟩ | ⟨-, hph₂⟩
    · rfl
    · obtain ⟨child₂, rfl | rfl⟩ := hrotated
      · -- two rotations under way would both hold the lock of the row
        obtain ⟨r₁, hr₁, -⟩ := h.locked t₁ row₁ child₁ hphase
        obtain ⟨r₂, hr₂, -⟩ := h.locked t₂ row₂ child₂ hph₂
        have hid := (h.base.held t₁ _ hphase row₁ rfl).id_eq_of_hash h.base.table
          (h.base.held t₂ _ hph₂ row₂ rfl) hhash
        rw [hid] at hr₁
        exact h.base.table.exclusive t₁ t₂ row₂.id (by simp [hr₁]) (by simp [hr₂])
      · exact (h.unique t₂ t₁ row₂ row₁ child₂ hph₂ _ hphase ⟨child₁, .inl rfl⟩ hhash.symm).symm
    · obtain ⟨child₂, heq | heq⟩ := hrotated <;> cases heq
      exact h.unique t₁ t₂ row₁ row₂ child₁ ht₁ _ hphase ⟨child₂, .inl rfl⟩ hhash
    · exact h.unique t₁ t₂ row₁ row₂ child₁ ht₁ ph₂ hph₂ hrotated hhash

theorem rotationInv_step {a : RefreshAction τ} (h : RotationInv s)
    (hstep : RefreshStep s a s') (hcond : Unreplaced s a) : RotationInv s' := by
  have hbase := h.base.step hstep
  cases hstep with
  | beginCreate | beginConsume | beginRevoke | readNone | readRevoked | readExpired | readLive
  | selectChain =>
    exact h.move hbase (fun _ => rfl) (by simp [Phase.Rotated]) (fun _ _ hr => hr)
      (fun _ _ _ => rfl)
  | insertFirst _ _ _ _ _ _ hfresh | insertChild _ _ _ _ _ _ hfresh =>
    exact h.move hbase (fun _ => rfl) (by simp [Phase.Rotated])
      (fun _ hheld hr => replaced_issue hfresh hheld hr) (fun t' ht' k => Db.writes_write_of_ne ht')
  | replaceOld t row child now hphase hfree =>
    exact rotationInv_replaceOld h now hphase hfree hcond
  | revokeRow t r k targets presented now hphase hfree =>
    exact h.move hbase (fun _ => rfl) (by simp [Phase.Rotated])
      (fun _ _ hr => replaced_update (revokes_markRevoked now) hr)
      (fun t' ht' k => Db.writes_updateRow_of_ne ht')
  | finishRevoking t r presented hphase =>
    refine h.move hbase (fun _ => rfl) ?_ (fun _ _ hr => hr) (fun _ _ _ => rfl)
    cases presented <;> simp [Phase.Rotated, revokingAnswer]
  | commit t answer hphase hvalid => exact rotationInv_commit h hphase hvalid
  | rollback t ph hphase hopen =>
    exact h.move hbase (fun _ => rfl) (by simp [Phase.Rotated])
      (fun _ _ hr r hver => hr r (Db.version_of_rollback hver)) (fun t' ht' k => if_neg ht')

/-- A step whose rotation, if it is one, finds its row unreplaced. -/
def OrderlyRotation (s : RefreshState τ) (a : RefreshAction τ) (s' : RefreshState τ) : Prop :=
  RefreshStep s a s' ∧ Unreplaced s a

/-- In every run in which each rotation finds its row unreplaced, at most one rotation of a token
commits, and no other transaction has rotated the token then. -/
theorem rotations_unique {s₀ s : RefreshState τ} {as : List (RefreshAction τ)}
    (hinit : s₀.Initial) (hrun : Run OrderlyRotation s₀ as s) {t t' : τ} {row row' : RefreshToken}
    {child : Uuid} {ph : Phase} (hcommitted : s.phase t = some (.committed (.rotated row child)))
    (hother : s.phase t' = some ph) (hrotated : ph.Rotated row')
    (hhash : row.tokenHash = row'.tokenHash) : t = t' := by
  have hstart : RotationInv s₀ := by
    refine ⟨hinit.inv, ?_, ?_, ?_⟩ <;>
    · intro t
      simp [hinit.phase]
  have hinv : RotationInv s :=
    hrun.invariant (C := fun _ => True)
      (fun _ _ _ _ hstep h => rotationInv_step h hstep.1 hstep.2) (fun _ _ => trivial) hstart
  exact hinv.unique t t' row row' child hcommitted ph hother hrotated hhash

/-- However the transactions interleave and whichever fail, no write deletes a token or gives it
another hash or grant, no two share a hash, and every transaction acts on a token in the table. -/
theorem refresh_table_kept {s₀ s : RefreshState τ} {as : List (RefreshAction τ)}
    (hinit : s₀.Initial) (hrun : Run RefreshStep s₀ as s) :
    TableInv s.db s.issuer ∧ ∀ t, ∀ ph ∈ s.phase t, ∀ row ∈ ph.row?, Held s.db row := by
  have hinv : RefreshInv s := hrun.invariant (C := fun _ => True)
    (fun _ _ _ _ hstep h => h.step hstep) (fun _ _ => trivial) hinit.inv
  exact ⟨hinv.table, hinv.held⟩

end

/-! ## Two requests with one token -/

def sessionGrant : Grant :=
  { clientID := 1, tenantID := 2, userID := 3, scope := "read:*" }

def sessionToken : RefreshToken := freshToken 10 "hash0" sessionGrant 0

/-- One live token, and nothing under way. -/
def sessionStart : RefreshState Bool where
  db := .idle fun k => if k = 10 then some sessionToken else none

theorem eq_of_committed_sessionStart {k : Uuid} {r : RefreshToken}
    (hr : sessionStart.db.committed k = some r) : k = 10 ∧ r = sessionToken := by
  change (if k = 10 then some sessionToken else none) = some r at hr
  split at hr
  · next hk => exact ⟨hk, (Option.some.inj hr).symm⟩
  · cases hr

theorem initial_sessionStart : sessionStart.Initial := by
  refine ⟨fun _ _ => rfl, fun _ => rfl, fun _ => rfl, fun _ _ _ h => h, ?_, ?_⟩
  · intro k r hr
    obtain ⟨rfl, rfl⟩ := eq_of_committed_sessionStart hr
    rfl
  · intro k k' r r' hr hr' _
    rw [(eq_of_committed_sessionStart hr).1, (eq_of_committed_sessionStart hr').1]

theorem fresh_sessionStart {id : Uuid} {tokenHash : String} (hid : 10 ≠ id)
    (hhash : "hash0" ≠ tokenHash) : sessionStart.Fresh id tokenHash := by
  rintro k r (hr | ⟨t, hr⟩)
  · obtain ⟨rfl, rfl⟩ := eq_of_committed_sessionStart hr
    exact ⟨hid, hhash⟩
  · cases hr

theorem refresh_table_kept_sessionStart : ∃ as s, Run RefreshStep sessionStart as s ∧
    s.phase false = some (.live sessionToken) ∧ Held s.db sessionToken := by
  have hrun : Run RefreshStep sessionStart _ _ :=
    .snoc (.snoc (.nil _) (.beginConsume false "hash0" 1 rfl))
      (.readLive false "hash0" 1 10 sessionToken 1 rfl rfl rfl rfl rfl (by decide))
  exact ⟨_, _, hrun, rfl, (refresh_table_kept initial_sessionStart hrun).2 false _ rfl _ rfl⟩

/-- One request rotates the token and commits; a second one, later, finds it revoked. -/
theorem rotations_unique_sessionStart : ∃ as s, Run OrderlyRotation sessionStart as s ∧
    s.phase false = some (.committed (.rotated sessionToken 11)) ∧
    (∃ row, s.phase true = some (.compromised row)) ∧
    ∀ t' ph, s.phase t' = some ph → ph.Rotated sessionToken → false = t' := by
  have hrun : ∃ as s, Run OrderlyRotation sessionStart as s ∧
      s.phase false = some (.committed (.rotated sessionToken 11)) ∧
      ∃ row, s.phase true = some (.compromised row) := by
    refine ⟨_, _, .snoc (.snoc (.snoc (.snoc (.snoc (.snoc (.snoc (.nil _)
      ⟨.beginConsume false "hash0" 1 rfl, trivial⟩)
      ⟨.readLive false "hash0" 1 10 sessionToken 1 rfl rfl rfl rfl rfl (by decide), trivial⟩)
      ⟨.insertChild false sessionToken 11 "hash1" 2 rfl ?_, trivial⟩)
      ⟨.replaceOld false sessionToken 11 3 rfl ?_, ?_⟩)
      ⟨.commit false (.rotated sessionToken 11) rfl (by decide), trivial⟩)
      ⟨.beginConsume true "hash0" 1 rfl, trivial⟩)
      ⟨.readRevoked true "hash0" 1 10 (markReplaced 3 11 sessionToken) rfl rfl rfl rfl rfl,
        trivial⟩,
      rfl, _, rfl⟩
    · exact fresh_sessionStart (by decide) (by decide)
    · exact Bool.forall_bool.mpr ⟨fun h => absurd rfl h, fun _ => rfl⟩
    · intro r hr
      cases hr
      rfl
  obtain ⟨as, s, hrun, hcommitted, hreused⟩ := hrun
  exact ⟨as, s, hrun, hcommitted, hreused, fun t' ph hother hrotated =>
    rotations_unique initial_sessionStart hrun hcommitted hother hrotated rfl⟩

/-- Both requests read the token live and insert a new one; the second waits for the row until the
first has committed, and then replaces it again. -/
theorem overlapping_rotations_commit : ∃ as s, Run RefreshStep sessionStart as s ∧
    s.phase false = some (.committed (.rotated sessionToken 11)) ∧
    s.phase true = some (.committed (.rotated sessionToken 12)) := by
  refine ⟨_, _, .snoc (.snoc (.snoc (.snoc (.snoc (.snoc (.snoc (.snoc (.snoc (.snoc (.nil _)
    (.beginConsume false "hash0" 1 rfl)) (.beginConsume true "hash0" 1 rfl))
    (.readLive false "hash0" 1 10 sessionToken 1 rfl rfl rfl rfl rfl (by decide)))
    (.readLive true "hash0" 1 10 sessionToken 1 rfl rfl rfl rfl rfl (by decide)))
    (.insertChild false sessionToken 11 "hash1" 2 rfl ?_))
    (.insertChild true sessionToken 12 "hash2" 2 rfl ?_))
    (.replaceOld false sessionToken 11 3 rfl ?_))
    (.commit false (.rotated sessionToken 11) rfl (by decide)))
    (.replaceOld true sessionToken 12 4 rfl ?_))
    (.commit true (.rotated sessionToken 12) rfl (by decide)), rfl, rfl⟩
  · exact fresh_sessionStart (by decide) (by decide)
  · exact (fresh_sessionStart (by decide) (by decide)).issue (by decide) (by decide)
  · exact Bool.forall_bool.mpr ⟨fun h => absurd rfl h, fun _ => rfl⟩
  · exact Bool.forall_bool.mpr ⟨fun _ => rfl, fun h => absurd rfl h⟩

end Metap.OAuth
