import Metap.Framework.SingleUse
import Metap.OAuth.Store

/-!
# Codes and pending authorizations are used once

An authorization code is redeemed by an update that marks it used, a pending authorization is
decided by a statement that deletes it; each checks everything it asks of the row in the statement
itself.  So both are consumptions in the sense of `Metap.SingleUse`, and whatever calls overlap, one
code and one pending authorization are returned once, as they were issued, to a call that names
the client and redirect URI, or the tenant and user, they were issued to, before they expire.

Rows of the codes table are kept under the hash of the code, which is unique there; a code is drawn
so that its hash is new.
-/

namespace Metap.OAuth

open ReadCommitted Transition SingleUse

/-- A call of `ConsumeAuthorizationCode`; `now` is the time its statement sees. -/
structure CodeRequest where
  now : ℤ
  rawCode : String
  clientID : Uuid
  redirectURI : String
  deriving DecidableEq, Repr

/-- A call of `ConsumePendingAuthorization`. -/
structure PendingRequest where
  now : ℤ
  id : Uuid
  tenantID : Uuid
  userID : Uuid
  deriving DecidableEq, Repr

def codeConsumption (hashToken : String → String) :
    Consumption String AuthorizationCode CodeRequest where
  keyOf := AuthorizationCode.codeHash
  key q := hashToken q.rawCode
  accepts q := Store.codeMatches q.now (hashToken q.rawCode) q.clientID q.redirectURI
  use q c := some { c with usedAt := some q.now }
  key_of_accepts q c h := by
    simp only [Store.codeMatches, Bool.and_eq_true, decide_eq_true_eq] at h
    exact h.1.1.1.1
  keyOf_use q c c' h := by
    cases h
    rfl
  spent q c c' h q' := by
    cases h
    simp [Store.codeMatches]

def pendingConsumption : Consumption Uuid PendingAuthorization PendingRequest where
  keyOf := PendingAuthorization.id
  key := PendingRequest.id
  accepts q := Store.pendingMatches q.now q.id q.tenantID q.userID
  use _ _ := none
  key_of_accepts q p h := by
    simp only [Store.pendingMatches, Bool.and_eq_true, decide_eq_true_eq] at h
    exact h.1.1.1
  keyOf_use q p p' h := by cases h
  spent q p p' h := by cases h

section

variable {τ : Type} [DecidableEq τ] (hashToken : String → String)

abbrev CodeCalls (τ : Type) := Calls τ String AuthorizationCode CodeRequest

abbrev PendingCalls (τ : Type) := Calls τ Uuid PendingAuthorization PendingRequest

/-- Whatever calls overlap, one code is returned to one call, and to one that presented it in time
as the client it was issued to, with the redirect URI it was issued for; and one pending
authorization to one call, made in time by the user it was issued to. -/
theorem codes_and_requests_used_once {c₀ c : CodeCalls τ} {p₀ p : PendingCalls τ}
    {as : List (SingleUse.Action τ String AuthorizationCode CodeRequest)}
    {bs : List (SingleUse.Action τ Uuid PendingAuthorization PendingRequest)}
    (hc₀ : c₀.Initial (codeConsumption hashToken)) (hp₀ : p₀.Initial pendingConsumption)
    (hc : Run (SingleUse.Step (codeConsumption hashToken)) c₀ as c)
    (hp : Run (SingleUse.Step pendingConsumption) p₀ bs p) :
    (∀ t t' q q' r r', c.call t = some (.returned q (some r)) →
      c.call t' = some (.returned q' (some r')) → q.rawCode = q'.rawCode → t = t') ∧
    (∀ t q r, c.call t = some (.returned q (some r)) →
      (c₀.db.committed (hashToken q.rawCode) = some r ∨ ∃ t', .insert t' r ∈ as) ∧
      r.codeHash = hashToken q.rawCode ∧ r.grant.clientID = q.clientID ∧
      r.redirectURI = q.redirectURI ∧ q.now < r.expiresAt) ∧
    (∀ t t' q q' r r', p.call t = some (.returned q (some r)) →
      p.call t' = some (.returned q' (some r')) → q.id = q'.id → t = t') ∧
    ∀ t q r, p.call t = some (.returned q (some r)) →
      (p₀.db.committed q.id = some r ∨ ∃ t', .insert t' r ∈ bs) ∧
      r.id = q.id ∧ r.grant.tenantID = q.tenantID ∧ r.grant.userID = q.userID ∧
      q.now < r.expiresAt := by
  refine ⟨?_, ?_, ?_, ?_⟩
  · intro t t' q q' r r' ht ht' hcode
    exact single_use hc₀ hc ht ht' (congrArg hashToken hcode)
  · intro t q r ht
    obtain ⟨haccepts, hissued⟩ := returned_spec hc₀ hc ht
    simp only [codeConsumption, Store.codeMatches, Bool.and_eq_true, decide_eq_true_eq] at haccepts
    obtain ⟨⟨⟨⟨hhash, hclient⟩, huri⟩, -⟩, hlive⟩ := haccepts
    exact ⟨hissued, hhash, hclient, huri, hlive⟩
  · intro t t' q q' r r' ht ht' hid
    exact single_use hp₀ hp ht ht' hid
  · intro t q r ht
    obtain ⟨haccepts, hissued⟩ := returned_spec hp₀ hp ht
    simp only [pendingConsumption, Store.pendingMatches, Bool.and_eq_true, decide_eq_true_eq]
      at haccepts
    obtain ⟨⟨⟨hid, htenant⟩, huser⟩, hlive⟩ := haccepts
    exact ⟨hissued, hid, htenant, huser, hlive⟩

end

/-! ## A code redeemed twice at once -/

def issuedCode : AuthorizationCode where
  codeHash := "raw"
  grant := { clientID := 1, tenantID := 2, userID := 3, scope := "read:*" }
  redirectURI := "app:callback"
  codeChallenge := none
  codeChallengeMethod := none
  expiresAt := authorizationCodeTTLSeconds

def codesStart : CodeCalls Bool where
  db := .idle fun k => if k = "raw" then some issuedCode else none

def redeem (now : ℤ) : CodeRequest := ⟨now, "raw", 1, "app:callback"⟩

def pendingStart : PendingCalls Bool where
  db := .idle fun _ => none

def consentRequest : PendingAuthorization where
  id := 20
  grant := { clientID := 1, tenantID := 2, userID := 3, scope := "read:*" }
  redirectURI := "app:callback"
  codeChallenge := none
  codeChallengeMethod := none
  clientState := none
  expiresAt := pendingAuthorizationTTLSeconds

theorem initial_codesStart : codesStart.Initial (codeConsumption id) := by
  refine ⟨fun _ _ => rfl, fun _ => rfl, rfl, ?_⟩
  intro k r hr
  change (if k = "raw" then some issuedCode else none) = some r at hr
  split at hr
  · next hk =>
    cases hr
    exact hk.symm
  · cases hr

theorem selects_issuedCode {s : CodeCalls Bool} {t : Bool} {now : ℤ}
    (hview : s.db.view t = codesStart.db.committed) (hnow : now < authorizationCodeTTLSeconds) :
    s.db.Selects t ((codeConsumption id).accepts (redeem now)) ["raw"] := by
  intro k
  rw [hview, List.mem_singleton]
  constructor
  · rintro rfl
    refine ⟨issuedCode, rfl, ?_⟩
    simp [codeConsumption, Store.codeMatches, redeem, issuedCode, hnow]
  · rintro ⟨r, hr, haccepts⟩
    exact (initial_codesStart.key_eq k r hr).symm.trans
      ((codeConsumption id).key_of_accepts _ r haccepts)

/-- Two calls select one code before either has taken it; the second finds it used.  A consent
request is inserted and then decided. -/
theorem codes_and_requests_used_once_overlap : ∃ as bs c p,
    Run (SingleUse.Step (codeConsumption id)) codesStart as c ∧
    Run (SingleUse.Step pendingConsumption) pendingStart bs p ∧
    c.call false = some (.returned (redeem 1) (some issuedCode)) ∧
    c.call true = some (.returned (redeem 2) none) ∧
    p.call true = some (.returned ⟨5, 20, 2, 3⟩ (some consentRequest)) ∧
    (∀ t q r, c.call t = some (.returned q (some r)) → "raw" = q.rawCode → false = t) ∧
    ∀ t q r, p.call t = some (.returned q (some r)) → 20 = q.id → true = t := by
  have hcodes : ∃ as c, Run (SingleUse.Step (codeConsumption id)) codesStart as c ∧
      c.call false = some (.returned (redeem 1) (some issuedCode)) ∧
      c.call true = some (.returned (redeem 2) none) := by
    refine ⟨_, _, .snoc (.snoc (.snoc (.snoc (.snoc (.snoc (.nil _)
      (.start false (redeem 1) ["raw"] rfl (selects_issuedCode rfl (by decide))))
      (.start true (redeem 2) ["raw"] rfl (selects_issuedCode rfl (by decide))))
      (.take false (redeem 1) "raw" [] none rfl fun _ _ => rfl))
      (.finish false (redeem 1) (some issuedCode) rfl))
      (.take true (redeem 2) "raw" [] none rfl ?_))
      (.finish true (redeem 2) none rfl), rfl, rfl⟩
    exact Bool.forall_bool.mpr ⟨fun _ => rfl, fun h => absurd rfl h⟩
  have hpending : ∃ bs p, Run (SingleUse.Step pendingConsumption) pendingStart bs p ∧
      p.call true = some (.returned ⟨5, 20, 2, 3⟩ (some consentRequest)) := by
    refine ⟨_, _, .snoc (.snoc (.snoc (.snoc (.snoc (.nil _)
      (.insert false consentRequest (by rintro c ⟨⟩) rfl))
      (.commit false rfl))
      (.start true ⟨5, 20, 2, 3⟩ [20] rfl ?_))
      (.take true ⟨5, 20, 2, 3⟩ 20 [] none rfl ?_))
      (.finish true ⟨5, 20, 2, 3⟩ (some consentRequest) rfl), rfl⟩
    · intro k
      rw [List.mem_singleton]
      constructor
      · rintro rfl
        exact ⟨consentRequest, rfl, by decide⟩
      · rintro ⟨r, hr, haccepts⟩
        by_contra hk
        change (pendingStart.db.write false 20 (some consentRequest)).view false k = some r at hr
        rw [Db.view, Db.writes_write_of_key_ne hk] at hr
        cases hr
    · exact Bool.forall_bool.mpr ⟨fun _ => rfl, fun h => absurd rfl h⟩
  obtain ⟨as, c, hc, hfirst, hsecond⟩ := hcodes
  obtain ⟨bs, p, hp, hdecided⟩ := hpending
  have honce := codes_and_requests_used_once id initial_codesStart
    ⟨fun _ _ => rfl, fun _ => rfl, rfl, fun _ _ hr => by cases hr⟩ hc hp
  exact ⟨as, bs, c, p, hc, hp, hfirst, hsecond, hdecided,
    fun t q r ht hcode => honce.1 false t _ q _ r hfirst ht hcode,
    fun t q r ht hid => honce.2.2.1 true t _ q _ r hdecided ht hid⟩

end Metap.OAuth
