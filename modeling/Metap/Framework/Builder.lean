import Mathlib

/-!
# Append-only builders

A text generator that numbers its parameters keeps one list that only grows: `push` appends a
value and returns its position, and every other computation is built from it.  Such a
computation is specified relative to the *final* list, the one the finished text is evaluated
with: `Builds m P` says that whenever `m` succeeds, the list it leaves extends the list it
found, and its result satisfies `P` together with every later extension.  Since a position once
given never changes its value, the specifications of the parts hold for the whole unchanged.
-/

namespace Metap

/-- A fallible computation that appends to a list. -/
abbrev Builder (ε ω α : Type) := StateT (List ω) (Except ε) α

namespace Builder

variable {ε ω α β : Type}

/-- Append a value; the result is its position, counted from one. -/
def push (w : ω) : Builder ε ω ℕ := fun ws => .ok (ws.length + 1, ws ++ [w])

def fail (e : ε) : Builder ε ω α := fun _ => .error e

/-- `m` only appends, and its result satisfies `P` with every final list. -/
def Builds (m : Builder ε ω α) (P : α → List ω → Prop) : Prop :=
  ∀ ws a ws', m ws = .ok (a, ws') → ws <+: ws' ∧ ∀ fin, ws' <+: fin → P a fin

variable {P : α → List ω → Prop} {a : α} {f : α → Builder ε ω β} {m : Builder ε ω α}
  {Q : β → List ω → Prop}

theorem builds_pure (h : ∀ fin, P a fin) : Builds (pure a : Builder ε ω α) P := by
  intro ws a' ws' hrun
  simp only [pure, StateT.pure, Except.pure, Except.ok.injEq, Prod.mk.injEq] at hrun
  obtain ⟨rfl, rfl⟩ := hrun
  exact ⟨List.prefix_rfl, fun fin _ => h fin⟩

theorem builds_fail {e : ε} : Builds (fail e) P := by
  intro ws a ws' hrun
  simp [fail] at hrun

theorem except_bind_eq_ok {m : Except ε α} {f : α → Except ε β} {b : β}
    (h : (m >>= f) = .ok b) : ∃ a, m = .ok a ∧ f a = .ok b := by
  cases m with
  | error e => cases h
  | ok a => exact ⟨a, rfl, h⟩

theorem mapError_eq_ok {ε' : Type} {f : ε → ε'} {m : Except ε α} :
    m.mapError f = .ok a ↔ m = .ok a := by
  cases m <;> simp [Except.mapError]

theorem exists_eq_ok_of_isOk {m : Except ε α} (h : m.isOk = true) : ∃ a, m = .ok a := by
  cases m with
  | error e => cases h
  | ok a => exact ⟨a, rfl⟩

theorem exists_ok_of_decide (m : Except ε α) (P : α → Prop) [DecidablePred P]
    (h : (m.map fun a => decide (P a)).toOption = some true) : ∃ a, m = .ok a ∧ P a := by
  cases m with
  | error e => cases h
  | ok a => exact ⟨a, rfl, of_decide_eq_true (Option.some.inj h)⟩

variable {ws ws' : List ω}

theorem bind_eq_ok {b : β} (h : (m >>= f) ws = .ok (b, ws')) :
    ∃ a ws₁, m ws = .ok (a, ws₁) ∧ f a ws₁ = .ok (b, ws') := by
  simp only [bind, StateT.bind, Except.bind] at h
  cases hm : m ws with
  | error e => simp [hm] at h
  | ok p =>
    rw [hm] at h
    exact ⟨p.1, p.2, rfl, h⟩

theorem run_bind_of_ok (h : m ws = .ok (a, ws')) : (m >>= f) ws = f a ws' := by
  simp only [bind, StateT.bind, Except.bind, h]

theorem builds_bind (hm : Builds m P) (hf : ∀ a, Builds (f a) fun b fin => P a fin → Q b fin) :
    Builds (m >>= f) Q := by
  intro ws b ws' hrun
  obtain ⟨a, ws₁, hrun₁, hrun₂⟩ := bind_eq_ok hrun
  obtain ⟨hext₁, hP⟩ := hm ws a ws₁ hrun₁
  obtain ⟨hext₂, hQ⟩ := hf a ws₁ b ws' hrun₂
  exact ⟨hext₁.trans hext₂, fun fin hfin => hQ fin hfin (hP fin (hext₂.trans hfin))⟩

theorem Builds.mono {Q : α → List ω → Prop} (hm : Builds m P) (h : ∀ a fin, P a fin → Q a fin) :
    Builds m Q := by
  intro ws a ws' hrun
  obtain ⟨hext, hP⟩ := hm ws a ws' hrun
  exact ⟨hext, fun fin hfin => h a fin (hP fin hfin)⟩

theorem builds_map {g : α → β} (hm : Builds m P) (h : ∀ a fin, P a fin → Q (g a) fin) :
    Builds (g <$> m) Q := by
  rw [map_eq_pure_bind]
  exact builds_bind hm fun a => builds_pure fun fin hP => h a fin hP

/-- The pushed value stands at its position in every final list. -/
theorem builds_push (w : ω) :
    Builds (push w : Builder ε ω ℕ) fun k fin => k ≠ 0 ∧ fin[k - 1]? = some w := by
  intro ws k ws' hrun
  simp only [push, Except.ok.injEq, Prod.mk.injEq] at hrun
  obtain ⟨rfl, rfl⟩ := hrun
  refine ⟨List.prefix_append _ _, fun fin hfin => ⟨by omega, ?_⟩⟩
  obtain ⟨rest, rfl⟩ := hfin
  simp

/-- A loop over a list: each element's specification holds of its result. -/
theorem builds_mapM {P : α → β → List ω → Prop} (xs : List α) (h : ∀ x ∈ xs, Builds (f x) (P x)) :
    Builds (xs.mapM f) fun ys fin => List.Forall₂ (fun x y => P x y fin) xs ys := by
  induction xs with
  | nil => exact builds_pure fun _ => .nil
  | cons x xs ih =>
    rw [List.mapM_cons]
    refine builds_bind (h x (by simp)) fun y => ?_
    refine builds_bind (ih fun z hz => h z (by simp [hz])) fun ys => ?_
    exact builds_pure fun _ hys hy => .cons hy hys

/-- In a loop that succeeds, the body succeeded on every element. -/
theorem exists_run_of_mapM {xs : List α} {ys : List β}
    (h : xs.mapM f ws = .ok (ys, ws')) : ∀ x ∈ xs, ∃ ws₁ y ws₂, f x ws₁ = .ok (y, ws₂) := by
  induction xs generalizing ws ws' ys with
  | nil => simp
  | cons x xs ih =>
    rw [List.mapM_cons] at h
    obtain ⟨y, ws₁, hx, hrest⟩ := bind_eq_ok h
    obtain ⟨ys', ws₂, hxs, _⟩ := bind_eq_ok hrest
    intro z hz
    rcases List.mem_cons.mp hz with rfl | hz
    · exact ⟨_, _, _, hx⟩
    · exact ih hxs z hz

/-- What a successful run says of its own final list. -/
theorem Builds.run (hm : Builds m P) (hrun : m ws = .ok (a, ws')) : P a ws' :=
  (hm ws a ws' hrun).2 ws' List.prefix_rfl

end Builder

end Metap
