import Mathlib

/-!
# Computations that log what they do

`Logged σ ω ε α` is a computation on a state of type `σ` that returns an `α` or fails with an `ε`,
and logs entries of type `ω` on the way.  A failure keeps the state and the log made so far, so
the log of a run is the record of everything that happened in it.

Two kinds of statement are made about a log.  `Emits P m` says that every entry of every run of `m`
satisfies `P`; it is closed under the monad operations, so it is proved along the text of a
computation.  `filterMap_log_forEach` computes the log of a loop whose body never fails.
-/

namespace Metap

/-- What a run leaves behind. -/
structure Outcome (σ ω ε α : Type) where
  result : Except ε α
  state : σ
  log : List ω

def Logged (σ ω ε α : Type) : Type := σ → Outcome σ ω ε α

namespace Logged

variable {σ ω ε ε' α β κ : Type}

/-! ## Operations -/

protected def pure (a : α) : Logged σ ω ε α := fun s => ⟨.ok a, s, []⟩

protected def bind (m : Logged σ ω ε α) (f : α → Logged σ ω ε β) : Logged σ ω ε β := fun s =>
  match m s with
  | ⟨.error e, s', l⟩ => ⟨.error e, s', l⟩
  | ⟨.ok a, s', l⟩ => ⟨(f a s').result, (f a s').state, l ++ (f a s').log⟩

instance : Monad (Logged σ ω ε) where
  pure := Logged.pure
  bind := Logged.bind

def ofExcept (x : Except ε α) : Logged σ ω ε α := fun s => ⟨x, s, []⟩

/-- Log entries. -/
def emit (entries : List ω) : Logged σ ω ε Unit := fun s => ⟨.ok (), s, entries⟩

/-- The current state. -/
def state : Logged σ ω ε σ := fun s => ⟨.ok s, s, []⟩

def modify (f : σ → σ) : Logged σ ω ε Unit := fun s => ⟨.ok (), f s, []⟩

/-- Run a computation that may fail and return its result, the failure included. -/
def attempt (m : Logged σ ω ε α) : Logged σ ω ε' (Except ε α) := fun s =>
  ⟨.ok (m s).result, (m s).state, (m s).log⟩

def mapError (f : ε → ε') (m : Logged σ ω ε α) : Logged σ ω ε' α := fun s =>
  ⟨(m s).result.mapError f, (m s).state, (m s).log⟩

/-- Run a computation for each item in turn. -/
def forEach (f : α → Logged σ ω ε β) : List α → Logged σ ω ε (List β)
  | [] => pure []
  | x :: xs => do
    let y ← f x
    let ys ← forEach f xs
    return y :: ys

/-! ## What is logged -/

/-- Every entry of every run satisfies `P`. -/
def Emits (P : ω → Prop) (m : Logged σ ω ε α) : Prop := ∀ s, ∀ w ∈ (m s).log, P w

section

variable {P : ω → Prop}

theorem emits_pure (a : α) : Emits P (pure a : Logged σ ω ε α) := by
  intro s w hw
  cases hw

theorem emits_ofExcept (x : Except ε α) : Emits P (ofExcept x : Logged σ ω ε α) := by
  intro s w hw
  cases hw

theorem emits_state : Emits P (state : Logged σ ω ε σ) := by
  intro s w hw
  cases hw

theorem emits_modify (f : σ → σ) : Emits P (modify f : Logged σ ω ε Unit) := by
  intro s w hw
  cases hw

theorem emits_emit {entries : List ω} (h : ∀ w ∈ entries, P w) :
    Emits P (emit entries : Logged σ ω ε Unit) :=
  fun _ => h

variable {m : Logged σ ω ε α} {f : α → Logged σ ω ε β}

/-- The rule of sequencing; the continuation may assume that its argument was returned. -/
theorem emits_bind' (hm : Emits P m)
    (hf : ∀ s a, (m s).result = .ok a → Emits P (f a)) : Emits P (m >>= f) := by
  intro s w hw
  change w ∈ (Logged.bind m f s).log at hw
  have hlog := hm s
  have hresult := hf s
  unfold Logged.bind at hw
  cases hms : m s with
  | mk result s' l =>
    rw [hms] at hw hlog hresult
    cases result with
    | error e => exact hlog w hw
    | ok a =>
      rcases List.mem_append.mp hw with hleft | hright
      · exact hlog w hleft
      · exact hresult a rfl s' w hright

theorem emits_bind (hm : Emits P m) (hf : ∀ a, Emits P (f a)) : Emits P (m >>= f) :=
  emits_bind' hm fun _ a _ => hf a

/-- The rule of sequencing after a pure check. -/
theorem emits_ofExcept_bind {x : Except ε α}
    (hf : ∀ a, x = .ok a → Emits P (f a)) : Emits P (ofExcept x >>= f) :=
  emits_bind' (emits_ofExcept x) fun _ a h => hf a h

theorem emits_attempt (hm : Emits P m) : Emits P (attempt m : Logged σ ω ε' (Except ε α)) :=
  hm

theorem emits_mapError {f : ε → ε'} (hm : Emits P m) : Emits P (mapError f m) :=
  hm

theorem emits_forEach (hf : ∀ a, Emits P (f a)) (xs : List α) : Emits P (forEach f xs) := by
  induction xs with
  | nil => exact emits_pure []
  | cons x xs ih => exact emits_bind (hf x) fun _ => emits_bind ih fun _ => emits_pure _

end

/-! ## Running -/

variable {f : α → Logged σ ω ε β} {s : σ} {m : Logged σ ω ε α}

theorem bind_of_ok {a : α} (h : (m s).result = .ok a) :
    (m >>= f) s = ⟨(f a (m s).state).result, (f a (m s).state).state,
      (m s).log ++ (f a (m s).state).log⟩ := by
  change Logged.bind m f s = _
  unfold Logged.bind
  cases hms : m s with
  | mk result s' l =>
    rw [hms] at h
    cases h
    rfl

theorem bind_of_error {e : ε} (h : (m s).result = .error e) :
    (m >>= f) s = ⟨.error e, (m s).state, (m s).log⟩ := by
  change Logged.bind m f s = _
  unfold Logged.bind
  cases hms : m s with
  | mk result s' l =>
    rw [hms] at h
    cases h
    rfl

/-- A sequence that succeeds: both parts did. -/
theorem exists_of_bind_ok {b : β} (h : ((m >>= f) s).result = .ok b) :
    ∃ a, (m s).result = .ok a ∧ (f a (m s).state).result = .ok b ∧
      ((m >>= f) s).log = (m s).log ++ (f a (m s).state).log := by
  cases hm : (m s).result with
  | error e =>
    rw [bind_of_error hm] at h
    cases h
  | ok a =>
    rw [bind_of_ok hm] at h ⊢
    exact ⟨a, rfl, h, rfl⟩

/-- A pure check that succeeds leaves no trace. -/
theorem exists_of_ofExcept_bind_ok {x : Except ε α} {b : β}
    (h : ((ofExcept x >>= f) s).result = .ok b) :
    ∃ a, x = .ok a ∧ (ofExcept x >>= f) s = f a s := by
  obtain ⟨a, ha, -, -⟩ := exists_of_bind_ok h
  exact ⟨a, ha, bind_of_ok ha⟩

theorem result_mapError_eq_ok {f : ε → ε'} {a : α} :
    (mapError f m s).result = .ok a ↔ (m s).result = .ok a := by
  change (m s).result.mapError f = .ok a ↔ _
  cases (m s).result <;> simp [Except.mapError]

/-- A loop whose body never fails and logs one observed entry logs one for each item in turn. -/
theorem filterMap_log_forEach (observe : ω → Option κ) (expected : α → κ)
    (hok : ∀ a s, ∃ b, (f a s).result = .ok b)
    (hlog : ∀ a s, (f a s).log.filterMap observe = [expected a]) (xs : List α) (s : σ) :
    (∃ ys, (forEach f xs s).result = .ok ys) ∧
      (forEach f xs s).log.filterMap observe = xs.map expected := by
  induction xs generalizing s with
  | nil => exact ⟨⟨[], rfl⟩, rfl⟩
  | cons x xs ih =>
    obtain ⟨y, hy⟩ := hok x s
    obtain ⟨⟨ys, hys⟩, hrest⟩ := ih (f x s).state
    have hstep : forEach f (x :: xs) s = _ := bind_of_ok hy
    have htail : (forEach f xs >>= fun ys => (pure (y :: ys) : Logged σ ω ε (List β)))
        (f x s).state = _ := bind_of_ok hys
    rw [hstep, htail]
    refine ⟨⟨y :: ys, rfl⟩, ?_⟩
    rw [List.filterMap_append, List.filterMap_append, hlog, hrest, List.map_cons]
    exact congrArg ([expected x] ++ ·) (List.append_nil _)

end Logged
end Metap
