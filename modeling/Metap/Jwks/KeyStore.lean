import Metap.Framework.Transition

/-!
# Rotation of signing keys

The issuer signs with the first published key of the signing kid.  A client that refreshes keeps
under each kid the last published key.  The two are one key unless a key was published under a kid
that another published key has: then fresh tokens are checked against the wrong public half.
-/

namespace Metap.Jwks

/-- Ed25519, and the text of its public keys. -/
structure Ed25519 (κ π : Type) where
  publicKey : κ → π
  sign : κ → String → String
  verify : π → String → String → Bool
  encodeToString : π → String
  decodeString : String → Except String π
  verify_sign : ∀ key message, verify (publicKey key) message (sign key message) = true
  decode_encode : ∀ key, decodeString (encodeToString key) = .ok key

variable {κ π : Type} {x : Ed25519 κ π}

structure JwksKeyPair (x : Ed25519 κ π) where
  kid : String
  privateKey : κ

def JwksKeyPair.publicKey (k : JwksKeyPair x) : π := x.publicKey k.privateKey

structure Jwk where
  kty : String
  crv : String
  kid : String
  use : String
  alg : String
  x : String

def JwksKeyPair.jwk (k : JwksKeyPair x) : Jwk :=
  ⟨"OKP", "Ed25519", k.kid, "sig", "EdDSA", x.encodeToString k.publicKey⟩

structure JwksKeyStore (x : Ed25519 κ π) where
  keys : List (JwksKeyPair x)
  signingKid : String

namespace JwksKeyStore

def new (signingKey : JwksKeyPair x) : JwksKeyStore x := ⟨[signingKey], signingKey.kid⟩

def addKey (s : JwksKeyStore x) (key : JwksKeyPair x) : JwksKeyStore x :=
  { s with keys := s.keys ++ [key] }

def promote (s : JwksKeyStore x) (kid : String) : Except String (JwksKeyStore x) :=
  if ∃ k ∈ s.keys, k.kid = kid then .ok { s with signingKid := kid }
  else .error s!"cannot promote {kid}: not in the published key set yet"

def removeKey (s : JwksKeyStore x) (kid : String) : Except String (JwksKeyStore x) :=
  if kid = s.signingKid then
    .error s!"cannot remove {kid}: it is the currently signing key — promote another key first"
  else .ok { s with keys := s.keys.filter (·.kid ≠ kid) }

/-- `none` is the panic. -/
def signingKey (s : JwksKeyStore x) : Option (JwksKeyPair x) :=
  s.keys.find? (·.kid = s.signingKid)

def jwkSet (s : JwksKeyStore x) : List Jwk := s.keys.map (·.jwk)

end JwksKeyStore

/-- The keys a client has cached by kid, after a refresh from a published set. -/
def refresh (x : Ed25519 κ π) (cache : String → Option π) (jwkSet : List Jwk) :
    Except String (String → Option π) :=
  jwkSet.foldlM (fun cache jwk => do
    let raw ← x.decodeString jwk.x
    return Function.update cache jwk.kid (some raw)) cache

/-- What the issuer signs, every client that has just refreshed verifies. -/
def Verifies (s : JwksKeyStore x) : Prop :=
  ∃ key, s.signingKey = some key ∧ ∀ cache, ∃ cache', refresh x cache s.jwkSet = .ok cache' ∧
    cache' key.kid = some key.publicKey ∧
      ∀ message, x.verify key.publicKey message (x.sign key.privateKey message) = true

inductive Rotation (x : Ed25519 κ π) where
  | addKey (key : JwksKeyPair x)
  | promote (kid : String)
  | removeKey (kid : String)

/-- The store after a call; one that is refused changes nothing. -/
def apply (s : JwksKeyStore x) : Rotation x → JwksKeyStore x
  | .addKey key => s.addKey key
  | .promote kid => (s.promote kid).toOption.getD s
  | .removeKey kid => (s.removeKey kid).toOption.getD s

/-- A key is only published under a kid that no other published key has. -/
def Unambiguous (s : JwksKeyStore x) : Rotation x → Prop
  | .addKey key => ∀ k ∈ s.keys, k.kid = key.kid → k.publicKey = key.publicKey
  | _ => True

/-- The first and the last key published under the signing kid have one public half. -/
def SigningAgrees (s : JwksKeyStore x) : Prop :=
  ∀ key ∈ s.signingKey, ∀ last ∈ (s.keys.filter (·.kid = s.signingKid)).getLast?,
    last.publicKey = key.publicKey

variable {s : JwksKeyStore x}

/-- A signing key is published whatever is called. -/
theorem exists_signing_apply (h : ∃ k ∈ s.keys, k.kid = s.signingKid) (op : Rotation x) :
    ∃ k ∈ (apply s op).keys, k.kid = (apply s op).signingKid := by
  obtain ⟨key, hkey, hkid⟩ := h
  cases op with
  | addKey new => exact ⟨key, List.mem_append_left _ hkey, hkid⟩
  | promote kid =>
    simp only [Jwks.apply, JwksKeyStore.promote]
    split
    · next hpublished => exact hpublished
    · exact ⟨key, hkey, hkid⟩
  | removeKey kid =>
    simp only [Jwks.apply, JwksKeyStore.removeKey]
    split
    · exact ⟨key, hkey, hkid⟩
    · next hother =>
      refine ⟨key, List.mem_filter.mpr ⟨hkey, ?_⟩, hkid⟩
      simpa [hkid] using Ne.symm hother

/-- A refresh caches under each kid the last key published under it. -/
theorem refresh_jwks (keys : List (JwksKeyPair x)) (cache : String → Option π) :
    ∃ cache', refresh x cache (keys.map (·.jwk)) = .ok cache' ∧
      ∀ kid, ∀ last ∈ (keys.filter (·.kid = kid)).getLast?, cache' kid = some last.publicKey := by
  induction keys using List.reverseRecOn with
  | nil => exact ⟨cache, rfl, by simp⟩
  | append_singleton keys new ih =>
    obtain ⟨cache', hcache, hheld⟩ := ih
    refine ⟨Function.update cache' new.kid (some new.publicKey), ?_, fun kid last hlast => ?_⟩
    · rw [refresh] at hcache ⊢
      rw [List.map_append, List.foldlM_append, hcache]
      simp [JwksKeyPair.jwk, x.decode_encode, bind, Except.bind, pure, Except.pure]
    · by_cases hnew : new.kid = kid
      · subst hnew
        rw [List.filter_append, List.filter_singleton, decide_eq_true rfl] at hlast
        cases List.getLast?_concat.symm.trans hlast
        exact Function.update_self ..
      · rw [List.filter_append, List.filter_singleton, decide_eq_false hnew] at hlast
        rw [Function.update_of_ne (Ne.symm hnew)]
        exact hheld kid last (by simpa using hlast)

/-- The issuer signs with the first key of the signing kid, the client verifies with the last. -/
theorem verifies_iff (h : ∃ k ∈ s.keys, k.kid = s.signingKid) :
    Verifies s ↔ SigningAgrees s := by
  obtain ⟨key, hkey⟩ := Option.isSome_iff_exists.mp
    (List.find?_isSome.mpr (by simpa using h) : (s.signingKey).isSome)
  have hkid : key.kid = s.signingKid := by simpa using List.find?_some hkey
  have hmem : key ∈ s.keys.filter (·.kid = s.signingKid) :=
    List.mem_filter.mpr ⟨List.mem_of_find?_eq_some hkey, by simpa using hkid⟩
  constructor
  · rintro ⟨key', hkey', hclient⟩ _ hsigning last hlast
    cases hkey.symm.trans hkey'
    cases hkey.symm.trans hsigning
    obtain ⟨cache', hcache, hheld, -⟩ := hclient fun _ => none
    obtain ⟨cache'', hcache', hlasts⟩ := refresh_jwks s.keys fun _ => none
    cases hcache.symm.trans hcache'
    rw [hkid, hlasts _ last hlast] at hheld
    exact Option.some.inj hheld
  · intro hagrees
    refine ⟨key, hkey, fun cache => ?_⟩
    obtain ⟨cache', hcache, hlasts⟩ := refresh_jwks s.keys cache
    have hlast := List.getLast?_eq_some_getLast (List.ne_nil_of_mem hmem)
    refine ⟨cache', hcache, ?_, x.verify_sign _⟩
    rw [hkid, hlasts _ _ hlast, hagrees key hkey _ hlast]

/-- Keys of one kid have one public half. -/
structure Consistent (s : JwksKeyStore x) : Prop where
  signing : ∃ k ∈ s.keys, k.kid = s.signingKid
  same : ∀ k ∈ s.keys, ∀ k' ∈ s.keys, k.kid = k'.kid → k.publicKey = k'.publicKey

theorem Consistent.apply (h : Consistent s) {op : Rotation x}
    (hop : Unambiguous s op) : Consistent (apply s op) := by
  refine ⟨exists_signing_apply h.signing op, ?_⟩
  cases op with
  | addKey new =>
    simp only [Jwks.apply, JwksKeyStore.addKey, List.forall_mem_append, List.forall_mem_singleton]
    exact ⟨fun k hk => ⟨h.same k hk, hop k hk⟩, fun k hk heq => (hop k hk heq.symm).symm,
      fun _ => trivial⟩
  | promote kid =>
    simp only [Jwks.apply, JwksKeyStore.promote]
    split <;> exact h.same
  | removeKey kid =>
    simp only [Jwks.apply, JwksKeyStore.removeKey]
    split
    · exact h.same
    · exact fun k hk k' hk' => h.same k (List.mem_filter.mp hk).1 k' (List.mem_filter.mp hk').1

theorem Consistent.signingAgrees (h : Consistent s) : SigningAgrees s := by
  intro key hkey last hlast
  obtain ⟨hmem, hkid⟩ := List.mem_filter.mp (List.mem_of_getLast? hlast)
  have hsigning := List.find?_some hkey
  exact h.same last hmem key (List.mem_of_find?_eq_some hkey)
    ((decide_eq_true_eq.mp hkid).trans (decide_eq_true_eq.mp hsigning).symm)

/-- After any calls, what the issuer signs verifies exactly if the first and the last key under the
signing kid have one public half; it does as long as no key is published under the kid of
another. -/
theorem rotation_verifies (first : JwksKeyPair x) :
    (∀ ops s, Transition.Run (fun s op t => t = apply s op) (.new first) ops s →
      (Verifies s ↔ SigningAgrees s)) ∧
    ∀ ops s, Transition.Run (fun s op t => Unambiguous s op ∧ t = apply s op) (.new first) ops s →
      Verifies s := by
  have hinit : Consistent (.new first) :=
    ⟨⟨first, by simp [JwksKeyStore.new], rfl⟩, by simp [JwksKeyStore.new]⟩
  constructor
  · intro ops s hrun
    refine verifies_iff (hrun.history (I := fun _ s => ∃ k ∈ s.keys, k.kid = s.signingKid)
      hinit.signing ?_)
    rintro _ s op _ hs rfl
    exact exists_signing_apply hs op
  · intro ops s hrun
    have hs : Consistent s := by
      refine hrun.history (I := fun _ => Consistent) hinit ?_
      rintro _ s op _ hs ⟨hop, rfl⟩
      exact hs.apply hop
    exact (verifies_iff hs.signing).mpr hs.signingAgrees

/-- A scheme of two keys, each its own public half. -/
def twoKeys : Ed25519 Bool Bool where
  publicKey := id
  sign key message := toString key ++ message
  verify key message signature := signature == toString key ++ message
  encodeToString := toString
  decodeString text := .ok (text == "true")
  verify_sign _ _ := beq_self_eq_true _
  decode_encode := by decide

theorem rotation_verifies_promoted : Verifies (x := twoKeys) ⟨[⟨"a", true⟩, ⟨"b", false⟩], "b"⟩ :=
  (rotation_verifies (x := twoKeys) ⟨"a", true⟩).2 [.addKey ⟨"b", false⟩, .promote "b"] _
    (.snoc (.snoc (.nil _) ⟨by simp [Unambiguous, JwksKeyStore.new], rfl⟩) ⟨trivial, rfl⟩)

/-- A key published under the signing kid replaces the signing key in every cache. -/
theorem republished_kid_breaks_verification :
    ¬Verifies (apply (.new (x := twoKeys) ⟨"a", true⟩) (.addKey ⟨"a", false⟩)) := by
  rintro ⟨key, hkey, hclient⟩
  cases hkey
  obtain ⟨_, hcache, hheld, -⟩ := hclient fun _ => none
  cases hcache
  exact absurd hheld (by decide)

end Metap.Jwks
