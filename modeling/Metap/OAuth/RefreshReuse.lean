import Metap.OAuth.RefreshTransactions

/-!
# What a reused refresh token ends

Presenting a revoked token revokes the tokens of its client and user that the revoking statement
sees.  A rotation in flight may have inserted a token the statement does not see, or may insert one
later; that token is live after the reuse answer is committed (`rotation_in_flight_survives`).  And
since a token revoked on request and one revoked with its chain look the same as a rotated one to
the reading statement, they too are answered as reused.

`reuse_ends_chain` says what is left.  In a run in which no token of a chain is inserted while a
reuse of the chain is being answered, or by a transaction that had begun before one was, and in
which only rotated tokens are found revoked, a committed reuse answer leaves no live token of the
chain that was there or whose transaction had begun, and every reuse answer is for a token that a
rotation had consumed.
-/

namespace Metap.OAuth

open ReadCommitted Transition

/-- Tokens of one client and user. -/
def SameChain (row r : RefreshToken) : Prop :=
  r.grant.clientID = row.grant.clientID ∧ r.grant.userID = row.grant.userID

/-- The reused token whose chain the transaction is revoking or has revoked. -/
def Phase.reuse? : Phase → Option RefreshToken
  | .revoking _ _ presented => presented
  | .answered (.reused row) => some row
  | _ => none

section

variable {τ : Type}

/-- What a run must not do for a reuse answer to end its chain: insert a token of the chain that
the revoking statement cannot see, or find a token revoked that no rotation replaced. -/
def Undisturbed (s : RefreshState τ) : RefreshAction τ → Prop
  | .insert t token => ¬s.barred t token.grant.clientID token.grant.userID ∧
      ∀ t', ∀ ph ∈ s.phase t', ∀ row ∈ ph.reuse?, ¬SameChain row token
  | .select _ (.chain c u) => ∀ t k r, s.db.writes t k = some (some r) →
      r.grant.clientID = c → r.grant.userID = u → (s.db.committed k).isSome
  | .read t => ∀ tokenHash c, s.phase t = some (.presenting tokenHash c) →
      ∀ k row, s.db.view t k = some row → row.tokenHash = tokenHash →
        row.grant.clientID = c → row.revokedAt.isSome → row.replacedBy.isSome
  | _ => True

/-- Whether a token was there before the run, or its transaction had begun when a reuse of the
chain was committed. -/
def RefreshState.Before (s : RefreshState τ) (row : RefreshToken) (k : Uuid) : Prop :=
  s.issuer k = none ∨
    ∃ t, s.issuer k = some t ∧ s.barred t row.grant.clientID row.grant.userID

structure ReuseInv (s : RefreshState τ) : Prop where
  base : RefreshInv s
  presented : ∀ t r targets row, s.phase t = some (.revoking r targets (some row)) →
    r = .chain row.grant.clientID row.grant.userID
  /-- What the revoking statement sees of the chain is revoked, or still to be taken. -/
  taken : ∀ t, ∀ ph ∈ s.phase t, ∀ row ∈ ph.reuse?, ∀ k r, s.db.view t k = some r →
    SameChain row r → k ∈ ph.targets ∨ r.revokedAt.isSome
  /-- Nobody has inserted a token of a chain that is being revoked. -/
  undisturbed : ∀ t, ∀ ph ∈ s.phase t, ∀ row ∈ ph.reuse?, ∀ t' k r,
    s.db.writes t' k = some (some r) → SameChain row r → (s.db.committed k).isSome
  unbarred : ∀ t k r, s.db.writes t k = some (some r) → s.db.committed k = none →
    ¬s.barred t r.grant.clientID r.grant.userID
  ended : ∀ t row, s.phase t = some (.committed (.reused row)) → ∀ k r,
    s.db.committed k = some r → SameChain row r → s.Before row k → r.revokedAt.isSome

variable {s : RefreshState τ}

theorem RefreshState.Initial.reuseInv (h : s.Initial) : ReuseInv s := by
  constructor
  case base => exact h.inv
  case unbarred => exact fun t k => by simp [h.writes t k]
  all_goals exact fun t => by simp [h.phase t]

variable [DecidableEq τ] {s : RefreshState τ} {t : τ} {s' : RefreshState τ} {k : Uuid}
  {r : RefreshToken} {a : RefreshAction τ} {ph : Phase}

section

variable (h : ReuseInv s)

include h

section

variable (hpresented : ∀ r targets row, ph = .revoking r targets (some row) →
  r = .chain row.grant.clientID row.grant.userID) (hopen : ∀ answer, ph ≠ .committed answer)

include hpresented hopen

/-- A transaction moves to a phase and nothing is committed: whoever has written a row had written
it, or the row is committed, or the transaction has inserted it. -/
theorem ReuseInv.move (hbase : RefreshInv s')
    (hphase : ∀ t', s'.phase t' = if t' = t then some ph else s.phase t')
    (hcommitted : s'.db.committed = s.db.committed) (hbarred : s'.barred = s.barred)
    (hothers : ∀ t', t' ≠ t → ∀ k, s'.db.writes t' k = s.db.writes t' k)
    (hwrites : ∀ t' k r, s'.db.writes t' k = some (some r) → s.db.writes t' k = some (some r) ∨
      (s.db.committed k).isSome ∨ t' = t ∧ Undisturbed s (.insert t r))
    (hissuer : ∀ k r, s.db.committed k = some r → s'.issuer k = s.issuer k)
    (htaken : ∀ row ∈ ph.reuse?, ∀ k r, s'.db.view t k = some r → SameChain row r → k ∈ ph.targets
      ∨ r.revokedAt.isSome)
    (hundisturbed : ∀ row ∈ ph.reuse?, ∀ t' k r, s'.db.writes t' k = some (some r) → SameChain row
      r → (s.db.committed k).isSome) : ReuseInv s' := by
  refine ⟨hbase, fun t' r targets row ht' => ?_,
    forall_phase hphase htaken fun t' hne ph' hph' row hrow k r hview => ?_,
    forall_phase hphase ?_ fun t₁ _ ph' hph' row hrow t' k r hr hchain => ?_, ?_, ?_⟩
  · exact forall_phase (P := fun _ ph => ∀ r targets row, ph = .revoking r targets (some row) →
      r = .chain row.grant.clientID row.grant.userID) hphase hpresented
      (fun t' _ ph' hph' r targets row hrow => h.presented t' r targets row (hrow ▸ hph'))
      t' _ ht' r targets row rfl
  · rw [Db.view, hothers t' hne, hcommitted] at hview
    exact h.taken t' ph' hph' row hrow k r hview
  · rw [hcommitted]
    exact hundisturbed
  · rw [hcommitted]
    rcases hwrites t' k r hr with hold | hsome | ⟨-, hinserted⟩
    · exact h.undisturbed t₁ ph' hph' row hrow t' k r hold hchain
    · exact hsome
    · exact absurd hchain (hinserted.2 t₁ ph' hph' row hrow)
  · intro t' k r hr hnone
    rw [hcommitted] at hnone
    rw [hbarred]
    rcases hwrites t' k r hr with hold | hsome | ⟨rfl, hinserted⟩
    · exact h.unbarred t' k r hold hnone
    · rw [hnone] at hsome
      cases hsome
    · exact hinserted.1
  · intro t' row ht' k r hr hchain hbefore
    rw [hcommitted] at hr
    rw [hphase] at ht'
    rcases ite_eq_iff.mp ht' with ⟨-, ⟨⟩⟩ | ⟨-, ht'⟩
    · exact absurd rfl (hopen _)
    · refine h.ended t' row ht' k r hr hchain ?_
      rw [RefreshState.Before, ← hissuer k r hr, ← hbarred]
      exact hbefore

/-- A transaction moves to a phase and the table stays as it is. -/
theorem ReuseInv.enter (hbase : RefreshInv (s.enter t ph))
    (htaken : ∀ row ∈ ph.reuse?, ∀ k r, s.db.view t k = some r → SameChain row r →
      k ∈ ph.targets ∨ r.revokedAt.isSome)
    (hundisturbed : ∀ row ∈ ph.reuse?, ∀ t' k r, s.db.writes t' k = some (some r) →
      SameChain row r → (s.db.committed k).isSome) : ReuseInv (s.enter t ph) :=
  h.move hpresented hopen hbase (fun _ => rfl) rfl rfl (fun _ _ _ => rfl)
    (fun _ _ _ hr => .inl hr) (fun _ _ _ => rfl) htaken hundisturbed

/-- A statement changes a row that is there. -/
theorem ReuseInv.update {p : RefreshToken → Bool} {f : RefreshToken → RefreshToken}
    (hbase : RefreshInv ((s.update t p f k).enter t ph)) (hrow : (s.db.committed k).isSome)
    (htaken : ∀ row ∈ ph.reuse?, ∀ k' r, (s.update t p f k).db.view t k' = some r →
      SameChain row r → k' ∈ ph.targets ∨ r.revokedAt.isSome)
    (hreuse : ∀ row ∈ ph.reuse?, ∃ ph' ∈ s.phase t, row ∈ ph'.reuse?) :
    ReuseInv ((s.update t p f k).enter t ph) := by
  have hwrites : ∀ t' k' r, (s.update t p f k).db.writes t' k' = some (some r) →
      s.db.writes t' k' = some (some r) ∨ (s.db.committed k').isSome := by
    intro t' k' r hr
    refine (Db.writes_of_updateRow hr).imp_right ?_
    rintro ⟨-, rfl, -⟩
    exact hrow
  refine h.move hpresented hopen hbase (fun _ => rfl) Db.committed_updateRow rfl
    (fun _ ht' _ => Db.writes_updateRow_of_ne ht')
    (fun t' k' r hr => (hwrites t' k' r hr).imp_right .inl) (fun _ _ _ => rfl) htaken
    (fun row hrow t' k' r hr hchain => ?_)
  obtain ⟨ph₀, hph₀, hrow₀⟩ := hreuse row hrow
  exact (hwrites t' k' r hr).elim
    (fun hold => h.undisturbed t ph₀ hph₀ row hrow₀ t' k' r hold hchain) id

end

/-- A transaction that is not answering a reuse moves to a phase that is not one either. -/
theorem ReuseInv.enter_plain (hbase : RefreshInv (s.enter t ph)) (hph : ph.reuse? = none)
    (hopen : ∀ answer, ph ≠ .committed answer) : ReuseInv (s.enter t ph) := by
  refine h.enter ?_ hopen hbase (by simp [hph]) (by simp [hph])
  rintro r targets row rfl
  cases hph

theorem ReuseInv.issue {token : RefreshToken} (hbase : RefreshInv ((s.issue t token).enter t ph))
    (hfresh : s.Fresh token.id token.tokenHash) (hcond : Undisturbed s (.insert t token))
    (hph : ph.reuse? = none) (hopen : ∀ answer, ph ≠ .committed answer) :
    ReuseInv ((s.issue t token).enter t ph) := by
  refine h.move ?_ hopen hbase (fun _ => rfl) rfl rfl (fun _ ht' _ => Db.writes_write_of_ne ht')
    (fun t' k r hr => ?_) (fun k r hr => if_neg (hfresh k r (.inl hr)).1) (by simp [hph])
    (by simp [hph])
  · rintro r targets row rfl
    cases hph
  · rcases Db.writes_of_write hr with hold | ⟨hself, -, hnew⟩
    · exact .inl hold
    · cases hnew
      exact .inr (.inr ⟨hself, hcond⟩)

/-- A commit adds no live row to a chain that another transaction is revoking. -/
theorem ReuseInv.view_commit {t' : τ} (hne : t' ≠ t) (hph : s.phase t' = some ph)
    {row : RefreshToken} (hrow : row ∈ ph.reuse?) (hview : (s.db.commit t).view t' k = some r)
    (hchain : SameChain row r) : s.db.view t' k = some r ∨ r.revokedAt.isSome := by
  have hwrites : (s.db.commit t).writes t' k = s.db.writes t' k := if_neg hne
  rcases Db.view_cases hview with hown | ⟨hnone, hview⟩
  · exact .inl (Db.view_of_writes_eq_some (hwrites.symm.trans hown))
  rcases Db.view_cases hview with hown | ⟨-, hrow'⟩
  · rcases h.base.table.written t k r hown with hrevoked | hinserted
    · exact .inr hrevoked.1
    · have hsome := h.undisturbed t' ph hph row hrow t k r hown hchain
      rw [hinserted.1] at hsome
      cases hsome
  · exact .inl ((Db.view_of_writes_eq_none (hwrites.symm.trans hnone)).trans hrow')

theorem ReuseInv.commit {answer : Answer}
    (hbase : RefreshInv ((s.close t answer).enter t (.committed answer)))
    (hphase : s.phase t = some (.answered answer)) :
    ReuseInv ((s.close t answer).enter t (.committed answer)) := by
  have hkeep : ∀ k, (s.db.committed k).isSome → ((s.db.commit t).committed k).isSome := by
    intro k hk
    obtain ⟨r, hr⟩ := Option.isSome_iff_exists.mp hk
    obtain ⟨r', hr'⟩ := h.base.table.exists_view hr t
    simp [hr']
  -- a reuse answer leaves every row it sees of its chain revoked
  have hsealed : ∀ row, answer = .reused row → ∀ k r, s.db.view t k = some r →
      SameChain row r → r.revokedAt.isSome := by
    rintro row rfl k r hview hchain
    exact (h.taken t _ hphase row rfl k r hview hchain).resolve_left nofun
  have hothers : ∀ {t' k r}, (s.db.commit t).writes t' k = some (some r) →
      s.db.writes t' k = some (some r) :=
    fun hr => (Option.ite_none_left_eq_some.mp hr).2
  refine ⟨hbase, ?_,
    forall_phase (fun _ => rfl) nofun fun t' hne ph hph row hrow k r hview hchain => ?_,
    forall_phase (fun _ => rfl) nofun fun t₁ _ ph hph row hrow t' k r hr hchain => ?_, ?_, ?_⟩
  · intro t' r targets row ht'
    rcases ite_eq_iff.mp ht' with ⟨-, ⟨⟩⟩ | ⟨-, ht'⟩
    exact h.presented t' r targets row ht'
  · rcases h.view_commit hne hph hrow hview hchain with hview | hrevoked
    · exact h.taken t' ph hph row hrow k r hview hchain
    · exact .inr hrevoked
  · exact hkeep k (h.undisturbed t₁ ph hph row hrow t' k r (hothers hr) hchain)
  · intro t' k r hr hnone hbarred
    have hwrites := hothers hr
    have hunborn : s.db.committed k = none := by
      by_contra hsome
      have := hkeep k (Option.isSome_iff_ne_none.mpr hsome)
      rw [show (s.db.commit t).committed k = none from hnone] at this
      cases this
    rcases hbarred with hbarred | ⟨-, row, rfl, hc, hu⟩
    · exact h.unbarred t' k r hwrites hunborn hbarred
    · have hsome := h.undisturbed t _ hphase row rfl t' k r hwrites ⟨hc, hu⟩
      rw [hunborn] at hsome
      cases hsome
  · intro t' row ht' k r hr hchain hbefore
    change s.db.view t k = some r at hr
    rcases ite_eq_iff.mp ht' with ⟨-, ⟨⟩⟩ | ⟨-, ht'⟩
    · exact hsealed row rfl k r hr hchain
    -- an answer of the same chain seals it again; otherwise nobody is barred from it anew
    by_cases hsame : ∃ row', answer = .reused row' ∧ SameChain row' row
    · obtain ⟨row', rfl, hc, hu⟩ := hsame
      exact hsealed row' rfl k r hr ⟨hchain.1.trans hc, hchain.2.trans hu⟩
    have hbarred : ∀ t₁, (s.close t answer).barred t₁ row.grant.clientID row.grant.userID →
        s.barred t₁ row.grant.clientID row.grant.userID := by
      rintro t₁ (hold | ⟨-, row', rfl, hc, hu⟩)
      · exact hold
      · exact absurd ⟨row', rfl, hc, hu⟩ hsame
    have hbefore' : s.Before row k :=
      hbefore.imp_right fun hissued => hissued.imp fun t₁ h₁ => ⟨h₁.1, hbarred t₁ h₁.2⟩
    rcases Db.view_cases hr with hown | ⟨-, hr⟩
    · rcases h.base.table.written t k r hown with hrevoked | ⟨hunborn, hissuer⟩
      · exact hrevoked.1
      · have hnot := h.unbarred t k r hown hunborn
        rcases hbefore' with hnone | ⟨t₁, hissuer', hb⟩
        · rw [hissuer] at hnone
          cases hnone
        · cases hissuer.symm.trans hissuer'
          rw [hchain.1, hchain.2] at hnot
          exact absurd hb hnot
    · exact h.ended t' row ht' k r hr hchain hbefore'

theorem ReuseInv.rollback (hbase : RefreshInv ((s.undo t).enter t .rolledBack)) :
    ReuseInv ((s.undo t).enter t .rolledBack) := by
  refine h.move (by nofun) (by nofun) hbase (fun _ => rfl) rfl rfl (fun _ ht' _ => if_neg ht')
    (fun t' k r hr => .inl ?_) (fun _ _ _ => rfl) nofun nofun
  exact (Option.ite_none_left_eq_some.mp hr).2

/-- Taking a row leaves it revoked, or finds that it is. -/
theorem ReuseInv.revokeRow {r : Revocation} {targets : List Uuid} {presented : Option RefreshToken}
    (now : ℤ) (hphase : s.phase t = some (.revoking r (k :: targets) presented))
    (hfree : s.db.Free t k) : ReuseInv ((s.update t r.selects (markRevoked now) k).enter t
      (.revoking r targets presented)) := by
  refine h.update ?_ (by nofun) (h.base.step (.revokeRow t r k targets presented now hphase hfree))
    (h.base.targets t _ hphase k (by simp [Phase.targets])) ?_ ?_
  · rintro r' targets' row heq
    cases heq
    exact h.presented t r _ row hphase
  · rintro row hrow k' r' hview hchain
    rw [show presented = some row from hrow] at hphase
    have hr := h.presented t r _ row hphase
    have hold : ∀ {r₀}, s.db.view t k' = some r₀ → SameChain row r₀ →
        k' ∈ k :: targets ∨ r₀.revokedAt.isSome := fun hr₀ => h.taken t _ hphase row rfl k' _ hr₀
    change (s.db.updateRow t r.selects (fun r => some (markRevoked now r)) k).view t k' = _ at hview
    rcases Db.updateRow_cases s.db t r.selects (fun r => some (markRevoked now r)) k with
      ⟨r₀, -, -, heq⟩ | ⟨hfails, heq⟩
    · rw [heq, Db.view, Db.writes_write] at hview
      split at hview
      · cases hview
        exact .inr rfl
      · next hother =>
        refine (hold hview hchain).imp_left fun hmem => ?_
        exact (List.mem_cons.mp hmem).resolve_left fun hk => hother ⟨rfl, hk⟩
    · rw [heq] at hview
      rcases hold hview hchain with hmem | hrevoked
      · rcases List.mem_cons.mp hmem with rfl | hmem
        · -- the row was passed over, which for a row of the chain means it was revoked
          have hpassed := hfails r' hview
          rw [hr, Revocation.selects, hchain.1, hchain.2] at hpassed
          refine .inr ?_
          simpa [Option.isSome_iff_ne_none] using hpassed
        · exact .inl hmem
      · exact .inr hrevoked
  · exact fun row hrow => ⟨_, hphase, hrow⟩

theorem ReuseInv.step (hstep : RefreshStep s a s') (hcond : Undisturbed s a) : ReuseInv s' := by
  have hbase := h.base.step hstep
  cases hstep with
  | beginCreate | beginConsume | beginRevoke | readNone | readRevoked | readExpired | readLive =>
    exact h.enter_plain hbase rfl nofun
  | insertFirst _ _ _ _ _ _ hfresh | insertChild _ _ _ _ _ _ hfresh =>
    exact h.issue hbase hfresh hcond rfl nofun
  | replaceOld t row child now hphase hfree =>
    obtain ⟨r, hr, -⟩ := h.base.held t _ hphase row rfl
    exact h.update (by nofun) (by nofun) hbase (by simp [hr]) nofun nofun
  | selectChain t row targets hphase hselects =>
    refine h.enter ?_ (by nofun) hbase ?_ ?_
    · rintro _ _ _ ⟨⟩
      rfl
    · rintro _ ⟨⟩ k r hview hchain
      cases hrevoked : r.revokedAt with
      | some at_ => exact .inr rfl
      | none =>
        refine .inl ((hselects k).mpr ⟨r, hview, ?_⟩)
        simp [Revocation.selects, hchain.1, hchain.2, hrevoked]
    · rintro _ ⟨⟩ t' k r hr hchain
      exact hcond t' k r hr hchain.1 hchain.2
  | revokeRow t r k targets presented now hphase hfree => exact h.revokeRow now hphase hfree
  | finishRevoking t r presented hphase =>
    cases presented with
    | none => exact h.enter_plain hbase rfl nofun
    | some row =>
      refine h.enter (by nofun) (by nofun) hbase ?_ ?_
      · rintro _ ⟨⟩
        exact h.taken t _ hphase row rfl
      · rintro _ ⟨⟩
        exact h.undisturbed t _ hphase row rfl
  | commit t answer hphase hvalid => exact h.commit hbase hphase
  | rollback t ph hphase hopen => exact h.rollback hbase

end

/-! ## Which tokens are answered as reused -/

/-- A rotation has consumed the token, in this run or before it. -/
def Consumed (s₀ s : RefreshState τ) (tokenHash : String) : Prop :=
  (∃ k r, s₀.db.committed k = some r ∧ r.tokenHash = tokenHash ∧ r.replacedBy.isSome) ∨
    ∃ t row child, s.phase t = some (.committed (.rotated row child)) ∧ row.tokenHash = tokenHash

/-- The token a transaction has found revoked. -/
def Phase.compromised? : Phase → Option RefreshToken
  | .compromised row | .committed (.reused row) => some row
  | ph => ph.reuse?

structure ConsumedInv (s₀ s : RefreshState τ) : Prop where
  base : RefreshInv s
  committed : ∀ k r, s.db.committed k = some r → r.replacedBy.isSome → Consumed s₀ s r.tokenHash
  written : ∀ t k r, s.db.writes t k = some (some r) → r.replacedBy.isSome →
    (∃ row child, s.phase t = some (.answered (.rotated row child)) ∧
      row.tokenHash = r.tokenHash) ∨ Consumed s₀ s r.tokenHash
  found : ∀ t, ∀ ph ∈ s.phase t, ∀ row ∈ ph.compromised?, Consumed s₀ s row.tokenHash

variable {s₀ : RefreshState τ}

theorem Consumed.enter {t : τ} {tokenHash : String} (h : Consumed s₀ s tokenHash)
    (hphase : ∀ t', s'.phase t' = if t' = t then some ph else s.phase t')
    (hopen : ∀ answer, s.phase t ≠ some (.committed answer)) : Consumed s₀ s' tokenHash := by
  refine h.imp_right ?_
  rintro ⟨t', row, child, ht', hhash⟩
  refine ⟨t', row, child, ?_, hhash⟩
  rw [hphase, if_neg ?_, ht']
  rintro rfl
  exact hopen _ ht'

omit [DecidableEq τ] in
/-- What a transaction sees replaced is consumed, unless it has rotated itself. -/
theorem ConsumedInv.of_view {t : τ} (h : ConsumedInv s₀ s)
    (hview : s.db.view t k = some r) (hreplaced : r.replacedBy.isSome) :
    (∃ row child, s.phase t = some (.answered (.rotated row child)) ∧
      row.tokenHash = r.tokenHash) ∨ Consumed s₀ s r.tokenHash := by
  rcases Db.view_cases hview with hown | ⟨-, hrow⟩
  · exact h.written t k r hown hreplaced
  · exact .inr (h.committed k r hrow hreplaced)

omit [DecidableEq τ] in
theorem ConsumedInv.of_plain {t : τ} (h : ConsumedInv s₀ s)
    (hplain : ∀ row child, s.phase t ≠ some (.answered (.rotated row child)))
    (hview : s.db.view t k = some r) (hreplaced : r.replacedBy.isSome) :
    Consumed s₀ s r.tokenHash :=
  (h.of_view hview hreplaced).resolve_left fun ⟨row, child, hrotated, _⟩ =>
    hplain row child hrotated

/-- A transaction moves to a phase and only its own writes change. -/
theorem ConsumedInv.move {t : τ} (h : ConsumedInv s₀ s)
    (hbase : RefreshInv s') (hphase : ∀ t', s'.phase t' = if t' = t then some ph else s.phase t')
    (hopen : ∀ answer, s.phase t ≠ some (.committed answer))
    (hcommitted : ∀ k r, s'.db.committed k = some r → s.db.committed k ≠ some r →
      r.replacedBy.isSome → Consumed s₀ s' r.tokenHash)
    (hothers : ∀ t', t' ≠ t → ∀ k, s'.db.writes t' k = s.db.writes t' k)
    (hwritten : ∀ k r, s'.db.writes t k = some (some r) → r.replacedBy.isSome → (∃ row child, ph =
      .answered (.rotated row child) ∧ row.tokenHash = r.tokenHash) ∨ Consumed s₀ s r.tokenHash)
    (hfound : ∀ row ∈ ph.compromised?, Consumed s₀ s row.tokenHash) : ConsumedInv s₀ s' := by
  have hkeep : ∀ {tokenHash}, Consumed s₀ s tokenHash → Consumed s₀ s' tokenHash :=
    fun hc => hc.enter hphase hopen
  refine ⟨hbase, fun k r hr hreplaced => ?_, fun t' k r hr hreplaced => ?_,
    forall_phase hphase (fun row hrow => hkeep (hfound row hrow))
      fun t' _ ph' hph' row hrow => hkeep (h.found t' ph' hph' row hrow)⟩
  · by_cases hold : s.db.committed k = some r
    · exact hkeep (h.committed k r hold hreplaced)
    · exact hcommitted k r hr hold hreplaced
  · by_cases ht : t' = t
    · subst ht
      refine (hwritten k r hr hreplaced).imp ?_ hkeep
      rintro ⟨row, child, rfl, hhash⟩
      exact ⟨row, child, by rw [hphase, if_pos rfl], hhash⟩
    · rw [hothers t' ht] at hr
      refine (h.written t' k r hr hreplaced).imp ?_ hkeep
      rintro ⟨row, child, ht', hhash⟩
      exact ⟨row, child, by rw [hphase, if_neg ht, ht'], hhash⟩

section

variable {s₀ : RefreshState τ} {ph : Phase} (h : ConsumedInv s₀ s)
  (hopen : ∀ answer, s.phase t ≠ some (.committed answer))

include h hopen

theorem ConsumedInv.rollback (hbase : RefreshInv ((s.undo t).enter t .rolledBack)) :
    ConsumedInv s₀ ((s.undo t).enter t .rolledBack) := by
  refine h.move hbase (fun _ => rfl) hopen (fun _ _ hr hne => absurd hr hne)
    (fun _ ht' _ => if_neg ht') (fun k r hr _ => ?_) nofun
  exact absurd ((if_pos rfl).symm.trans hr) (by simp)

variable (hplain : ∀ row child, s.phase t ≠ some (.answered (.rotated row child)))

include hplain

theorem ConsumedInv.enter (hbase : RefreshInv (s.enter t ph))
    (hfound : ∀ row ∈ ph.compromised?, Consumed s₀ s row.tokenHash) :
    ConsumedInv s₀ (s.enter t ph) := by
  refine h.move hbase (fun _ => rfl) hopen (fun _ _ hr hne => absurd hr hne) (fun _ _ _ => rfl)
    (fun k r hr hreplaced => .inr ?_) hfound
  exact h.of_plain hplain (Db.view_of_writes_eq_some hr) hreplaced

theorem ConsumedInv.issue {token : RefreshToken} (hbase : RefreshInv ((s.issue t token).enter t ph))
    (htoken : token.replacedBy = none) (hph : ph.compromised? = none) :
    ConsumedInv s₀ ((s.issue t token).enter t ph) := by
  refine h.move hbase (fun _ => rfl) hopen (fun _ _ hr hne => absurd hr hne)
    (fun _ ht' _ => Db.writes_write_of_ne ht') (fun k r hr hreplaced => .inr ?_) (by simp [hph])
  rcases Db.writes_of_write hr with hold | ⟨-, -, hnew⟩
  · exact h.of_plain hplain (Db.view_of_writes_eq_some hold) hreplaced
  · cases hnew
    rw [htoken] at hreplaced
    cases hreplaced

theorem ConsumedInv.update {p : RefreshToken → Bool} {f : RefreshToken → RefreshToken} {k : Uuid}
    (hbase : RefreshInv ((s.update t p f k).enter t ph))
    (hchanged : ∀ r, s.db.view t k = some r → (f r).replacedBy.isSome →
      (r.replacedBy.isSome ∧ r.tokenHash = (f r).tokenHash) ∨
      ∃ row child, ph = .answered (.rotated row child) ∧ row.tokenHash = (f r).tokenHash)
    (hfound : ∀ row ∈ ph.compromised?, Consumed s₀ s row.tokenHash) :
    ConsumedInv s₀ ((s.update t p f k).enter t ph) := by
  refine h.move hbase (fun _ => rfl) hopen (fun k' r hr hne => absurd ?_ hne)
    (fun _ ht' _ => Db.writes_updateRow_of_ne ht') (fun k' r hr hreplaced => ?_) hfound
  · exact (congrFun Db.committed_updateRow k').symm.trans hr
  rcases Db.writes_of_updateRow hr with hold | ⟨-, rfl, r₀, hview, -, hnew⟩
  · exact .inr (h.of_plain hplain (Db.view_of_writes_eq_some hold) hreplaced)
  · cases hnew
    rcases hchanged r₀ hview hreplaced with ⟨hold, hhash⟩ | hrotated
    · exact .inr (hhash ▸ h.of_plain hplain hview hold)
    · exact .inl hrotated

end

theorem ConsumedInv.commit {answer : Answer} (h : ConsumedInv s₀ s)
    (hbase : RefreshInv ((s.close t answer).enter t (.committed answer)))
    (hphase : s.phase t = some (.answered answer)) :
    ConsumedInv s₀ ((s.close t answer).enter t (.committed answer)) := by
  have hopen : ∀ answer', s.phase t ≠ some (.committed answer') := by simp [hphase]
  refine h.move hbase (fun _ => rfl) hopen (fun k r hr _ hreplaced => ?_)
    (fun _ ht' _ => if_neg ht') (fun k r hr _ => absurd ((if_pos rfl).symm.trans hr) (by simp))
    fun row hrow => h.found t _ hphase row (by cases answer <;> exact hrow)
  rcases h.of_view (show s.db.view t k = some r from hr) hreplaced with
    ⟨row, child, hrotated, hhash⟩ | hconsumed
  · cases hphase.symm.trans hrotated
    exact .inr ⟨t, row, child, by simp, hhash⟩
  · exact hconsumed.enter (fun _ => rfl) hopen

theorem ConsumedInv.step (h : ConsumedInv s₀ s) (hstep : RefreshStep s a s')
    (hcond : Undisturbed s a) : ConsumedInv s₀ s' := by
  have hbase := h.base.step hstep
  cases hstep with
  | beginCreate t grant hnew | beginConsume t tokenHash clientID hnew
  | beginRevoke t tokenHash clientID targets hnew hselects =>
    exact h.enter (by simp [hnew]) (by simp [hnew]) hbase nofun
  | insertFirst _ _ _ _ _ hphase | insertChild _ _ _ _ _ hphase =>
    exact h.issue (by simp [hphase]) (by simp [hphase]) hbase rfl rfl
  | readNone _ _ _ hphase | readExpired _ _ _ _ _ _ hphase | readLive _ _ _ _ _ _ hphase =>
    exact h.enter (by simp [hphase]) (by simp [hphase]) hbase nofun
  | readRevoked t tokenHash clientID k row hphase hrow hhash hclient hrevoked =>
    refine h.enter (by simp [hphase]) (by simp [hphase]) hbase ?_
    rintro _ ⟨⟩
    have hreplaced := hcond tokenHash clientID hphase k row hrow hhash hclient hrevoked
    rw [h.base.view_eq hphase rfl] at hrow
    exact h.committed k row hrow hreplaced
  | replaceOld t row child now hphase hfree =>
    refine h.update (by simp [hphase]) (by simp [hphase]) hbase ?_ nofun
    intro r hview _
    obtain ⟨r₀, hr₀, hhash, -⟩ := h.base.held t _ hphase row rfl
    have hsame := (h.base.table.same row.id r₀ r (.inl hr₀) (Db.version_of_view hview)).1
    exact .inr ⟨row, child, rfl, (hsame.trans hhash).symm⟩
  | selectChain t row targets hphase hselects =>
    refine h.enter (by simp [hphase]) (by simp [hphase]) hbase ?_
    rintro _ ⟨⟩
    exact h.found t _ hphase row rfl
  | revokeRow t r k targets presented now hphase hfree =>
    exact h.update (by simp [hphase]) (by simp [hphase]) hbase
      (fun r' _ hreplaced => .inl ⟨hreplaced, rfl⟩) fun row hrow => h.found t _ hphase row hrow
  | finishRevoking t r presented hphase =>
    refine h.enter (by simp [hphase]) (by simp [hphase]) hbase ?_
    intro row hrow
    refine h.found t _ hphase row ?_
    cases presented <;> exact hrow
  | commit t answer hphase hvalid => exact h.commit hbase hphase
  | rollback t ph hphase hopen =>
    refine h.rollback (fun answer hcommitted => ?_) hbase
    cases hphase.symm.trans hcommitted
    exact hopen answer rfl

/-- A step that disturbs no reuse answer. -/
def UndisturbedStep (s : RefreshState τ) (a : RefreshAction τ) (s' : RefreshState τ) : Prop :=
  RefreshStep s a s' ∧ Undisturbed s a

/-- In every run that disturbs no reuse answer, a committed one leaves no live token of its chain
that was there or whose transaction had begun, and is for a token that a rotation consumed. -/
theorem reuse_ends_chain {s₀ s : RefreshState τ} {as : List (RefreshAction τ)}
    (hinit : s₀.Initial) (hrun : Run UndisturbedStep s₀ as s) :
    (∀ t row, s.phase t = some (.committed (.reused row)) → ∀ k r, s.db.committed k = some r →
      SameChain row r → s.Before row k → r.revokedAt.isSome) ∧
    ∀ t row, (s.phase t = some (.answered (.reused row)) ∨
      s.phase t = some (.committed (.reused row))) → Consumed s₀ s row.tokenHash := by
  have hstart : ConsumedInv s₀ s₀ := by
    refine ⟨hinit.inv, fun k r hr hreplaced => .inl ⟨k, r, hr, rfl, hreplaced⟩, ?_, ?_⟩
    · intro t k
      simp [hinit.writes t k]
    · intro t
      simp [hinit.phase t]
  have hinv : ReuseInv s ∧ ConsumedInv s₀ s := by
    refine hrun.invariant (I := fun s => ReuseInv s ∧ ConsumedInv s₀ s) (C := fun _ => True) ?_
      (fun _ _ => trivial) ⟨hinit.reuseInv, hstart⟩
    exact fun s a s' _ hstep h => ⟨h.1.step hstep.1 hstep.2, h.2.step hstep.1 hstep.2⟩
  refine ⟨hinv.1.ended, ?_⟩
  rintro t row (ht | ht) <;> exact hinv.2.found t _ ht row rfl

end

/-! ## A rotation in flight -/

def chainGrant : Grant :=
  { clientID := 1, tenantID := 2, userID := 3, scope := "read:*" }

/-- A token a rotation consumed, and the one it was replaced by. -/
def firstToken : RefreshToken := markReplaced 1 11 (freshToken 10 "hash0" chainGrant 0)

def secondToken : RefreshToken := freshToken 11 "hash1" chainGrant 1

def chainStart : RefreshState Bool where
  db := .idle fun k => if k = 10 then some firstToken else if k = 11 then some secondToken else none

theorem eq_of_committed_chainStart {k : Uuid} {r : RefreshToken}
    (hr : chainStart.db.committed k = some r) :
    k = 10 ∧ r = firstToken ∨ k = 11 ∧ r = secondToken := by
  change (if k = 10 then some firstToken else if k = 11 then some secondToken else none) =
    some r at hr
  split at hr
  · next hk => exact .inl ⟨hk, (Option.some.inj hr).symm⟩
  split at hr
  · next hk => exact .inr ⟨hk, (Option.some.inj hr).symm⟩
  · cases hr

theorem initial_chainStart : chainStart.Initial := by
  refine ⟨fun _ _ => rfl, fun _ => rfl, fun _ => rfl, fun _ _ _ h => h, ?_, ?_⟩
  · intro k r hr
    rcases eq_of_committed_chainStart hr with ⟨rfl, rfl⟩ | ⟨rfl, rfl⟩ <;> rfl
  · intro k k' r r' hr hr' hhash
    rcases eq_of_committed_chainStart hr with ⟨rfl, rfl⟩ | ⟨rfl, rfl⟩ <;>
    rcases eq_of_committed_chainStart hr' with ⟨rfl, rfl⟩ | ⟨rfl, rfl⟩ <;>
    first | rfl | exact absurd hhash (by decide)

theorem selects_chainStart {s : RefreshState Bool}
    (hview : s.db.view true = chainStart.db.committed) :
    s.db.Selects true (Revocation.chain 1 3).selects [11] := by
  intro k
  rw [hview, List.mem_singleton]
  constructor
  · rintro rfl
    exact ⟨secondToken, rfl, by decide⟩
  · rintro ⟨r, hr, hselects⟩
    rcases eq_of_committed_chainStart hr with ⟨rfl, rfl⟩ | ⟨rfl, rfl⟩
    · exact absurd hselects (by decide)
    · rfl

/-- With nothing else under way, presenting the consumed token revokes the one that replaced it. -/
theorem reuse_ends_chain_chainStart : ∃ as s, Run UndisturbedStep chainStart as s ∧
    s.phase true = some (.committed (.reused firstToken)) ∧
    (∀ k r, s.db.committed k = some r → SameChain firstToken r → s.Before firstToken k →
      r.revokedAt.isSome) ∧ Consumed chainStart s "hash0" := by
  have hrun : ∃ as s, Run UndisturbedStep chainStart as s ∧
      s.phase true = some (.committed (.reused firstToken)) := by
    refine ⟨_, _, .snoc (.snoc (.snoc (.snoc (.snoc (.snoc (.nil _)
      ⟨.beginConsume true "hash0" 1 rfl, trivial⟩)
      ⟨.readRevoked true "hash0" 1 10 firstToken rfl rfl rfl rfl rfl, ?_⟩)
      ⟨.selectChain true firstToken [11] rfl (selects_chainStart rfl), ?_⟩)
      ⟨.revokeRow true (.chain 1 3) 11 [] (some firstToken) 4 rfl fun _ _ => rfl, trivial⟩)
      ⟨.finishRevoking true (.chain 1 3) (some firstToken) rfl, trivial⟩)
      ⟨.commit true (.reused firstToken) rfl (by decide), trivial⟩, rfl⟩
    · rintro tokenHash c hphase k row hrow - - hrevoked
      rcases eq_of_committed_chainStart hrow with ⟨rfl, rfl⟩ | ⟨rfl, rfl⟩
      · rfl
      · cases hrevoked
    · exact nofun
  obtain ⟨as, s, hrun, hreused⟩ := hrun
  have hends := reuse_ends_chain initial_chainStart hrun
  exact ⟨as, s, hrun, hreused, hends.1 true firstToken hreused,
    hends.2 true firstToken (.inr hreused)⟩

/-- The rotation inserts its token before the revoking statement selects its rows, and commits
before that statement ends. -/
theorem rotation_in_flight_survives : ∃ as s, Run RefreshStep chainStart as s ∧
    s.phase true = some (.committed (.reused firstToken)) ∧
    s.db.committed 12 = some (freshToken 12 "hash2" chainGrant 2) ∧
    SameChain firstToken (freshToken 12 "hash2" chainGrant 2) ∧ s.Before firstToken 12 := by
  refine ⟨_, _, .snoc (.snoc (.snoc (.snoc (.snoc (.snoc (.snoc (.snoc (.snoc (.snoc (.snoc (.nil _)
    (.beginConsume false "hash1" 1 rfl))
    (.readLive false "hash1" 1 11 secondToken 2 rfl rfl rfl rfl rfl (by decide)))
    (.insertChild false secondToken 12 "hash2" 2 rfl ?_))
    (.beginConsume true "hash0" 1 rfl))
    (.readRevoked true "hash0" 1 10 firstToken rfl rfl rfl rfl rfl))
    (.selectChain true firstToken [11] rfl (selects_chainStart rfl)))
    (.replaceOld false secondToken 12 3 rfl ?_))
    (.commit false (.rotated secondToken 12) rfl (by decide)))
    (.revokeRow true (.chain 1 3) 11 [] (some firstToken) 4 rfl ?_))
    (.finishRevoking true (.chain 1 3) (some firstToken) rfl))
    (.commit true (.reused firstToken) rfl (by decide)), rfl, rfl, ⟨rfl, rfl⟩, ?_⟩
  · rintro k r (hr | ⟨t, hr⟩)
    · rcases eq_of_committed_chainStart hr with ⟨rfl, rfl⟩ | ⟨rfl, rfl⟩ <;> decide
    · cases hr
  · exact Bool.forall_bool.mpr ⟨fun h => absurd rfl h, fun _ => rfl⟩
  · exact Bool.forall_bool.mpr ⟨fun _ => rfl, fun h => absurd rfl h⟩
  · exact .inr ⟨false, rfl, .inr ⟨Option.some_ne_none _, firstToken, rfl, rfl, rfl⟩⟩

end Metap.OAuth
