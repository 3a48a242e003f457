import Metap.Framework.Builder

/-!
# Two runs in lockstep

A two-run property compares a program with itself on two inputs, or two programs with each other.
`Lockstep S R m m'` says that from states related by `S` the runs of `m` and `m'` either both fail,
or both return, with results related by `R` and states related by `S` again.  The rules follow the
program: one for each way of putting programs together.
-/

namespace Metap

/-- Both computations fail, or both return and their results are related. -/
inductive SameOutcome {ε ε' α β : Type} (R : α → β → Prop) : Except ε α → Except ε' β → Prop
  | error (e : ε) (e' : ε') : SameOutcome R (.error e) (.error e')
  | ok {a : α} {b : β} : R a b → SameOutcome R (.ok a) (.ok b)

/-- From related states, both programs fail, or both return related results in related states. -/
def Lockstep {σ σ' ε ε' α β : Type} (S : σ → σ' → Prop) (R : α → β → Prop)
    (m : StateT σ (Except ε) α) (m' : StateT σ' (Except ε') β) : Prop :=
  ∀ s s', S s s' → SameOutcome (fun p q => R p.1 q.1 ∧ S p.2 q.2) (m s) (m' s')

section

variable {σ σ' ε ε' α β γ δ : Type} {S : σ → σ' → Prop} {R : α → β → Prop} {Q : γ → δ → Prop}
  {x : Except ε α} {y : Except ε' β} {f : α → StateT σ (Except ε) γ} {m : StateT σ (Except ε) α}
  {m' : StateT σ' (Except ε') β}

theorem SameOutcome.mono {R' : α → β → Prop} (h : SameOutcome R x y) (himp : ∀ a b, R a b → R' a b)
    : SameOutcome R' x y := by
  cases h with
  | error e e' => exact .error e e'
  | ok hab => exact .ok (himp _ _ hab)

theorem SameOutcome.bind {f : α → Except ε γ} {g : β → Except ε' δ} (h : SameOutcome R x y)
    (hfg : ∀ a b, R a b → SameOutcome Q (f a) (g b)) : SameOutcome Q (x >>= f) (y >>= g) := by
  cases h with
  | error e e' => exact .error e e'
  | ok hab => exact hfg _ _ hab

theorem lockstep_pure {a : α} {b : β} (h : R a b) :
    Lockstep S R (pure a : StateT σ (Except ε) α) (pure b : StateT σ' (Except ε') β) :=
  fun _ _ hs => .ok ⟨h, hs⟩

theorem lockstep_throw (e : ε) (e' : ε') :
    Lockstep S R (throw e : StateT σ (Except ε) α) (throw e' : StateT σ' (Except ε') β) :=
  fun _ _ _ => .error e e'

theorem lockstep_bind {g : β → StateT σ' (Except ε') δ} (hm : Lockstep S R m m')
    (hfg : ∀ a b, R a b → Lockstep S Q (f a) (g b)) : Lockstep S Q (m >>= f) (m' >>= g) := by
  intro s s' hs
  refine (hm s s' hs).bind ?_
  rintro ⟨a, t⟩ ⟨b, t'⟩ ⟨hab, ht⟩
  exact hfg a b hab t t' ht

theorem lockstep_get :
    Lockstep S S (get : StateT σ (Except ε) σ) (get : StateT σ' (Except ε') σ') :=
  fun _ _ hs => .ok ⟨hs, hs⟩

theorem lockstep_set {s : σ} {s' : σ'} (h : S s s') :
    Lockstep S (fun _ _ => True) (set s : StateT σ (Except ε) PUnit)
      (set s' : StateT σ' (Except ε') PUnit) :=
  fun _ _ _ => .ok ⟨trivial, h⟩

end

namespace Builder

/-- Two lists of one length. -/
def SameLength {ω : Type} (ws ws' : List ω) : Prop := ws.length = ws'.length

end Builder

end Metap
