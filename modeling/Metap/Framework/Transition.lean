import Mathlib

/-!
# Runs of transition systems

A system is a relation `step s a t`: in state `s` the action `a` may lead to `t`.  `Run` is its
closure under sequences of actions, kept so that a theorem can speak of the actions of a run.
An invariant is proved once per step; `Run.invariant` carries it along every run, under a
condition on the actions when it needs one.
-/

namespace Metap.Transition

variable {σ α : Type*}

/-- The run of `step` through the given actions. -/
inductive Run (step : σ → α → σ → Prop) : σ → List α → σ → Prop where
  | nil (s : σ) : Run step s [] s
  | snoc {s t u : σ} {as : List α} {a : α} (hrun : Run step s as t) (hstep : step t a u) :
      Run step s (as ++ [a]) u

variable {step : σ → α → σ → Prop} {s t : σ} {as : List α}

/-- A run of a system given by a function, computed. -/
theorem run_of_foldlM {next : σ → α → Option σ} (h : as.foldlM next s = some t) :
    Run (fun s a t => next s a = some t) s as t := by
  induction as using List.reverseRecOn generalizing t with
  | nil =>
    cases h
    exact .nil s
  | append_singleton as a ih =>
    rw [List.foldlM_append] at h
    obtain ⟨u, hfront, hlast⟩ := Option.bind_eq_some_iff.mp h
    rw [List.foldlM_cons] at hlast
    obtain ⟨v, hstep, hend⟩ := Option.bind_eq_some_iff.mp hlast
    cases hend
    exact .snoc (ih hfront) hstep

/-- Each action of a list and those before it: the last one, and those of the list before it. -/
theorem forall_prefix_snoc {C : List α → α → Prop} {a : α} :
    (∀ bs b, bs ++ [b] <+: as ++ [a] → C bs b) ↔ (∀ bs b, bs ++ [b] <+: as → C bs b) ∧ C as a := by
  constructor
  · exact fun h => ⟨fun bs b hbs => h bs b (hbs.trans (List.prefix_append _ _)),
      h as a List.prefix_rfl⟩
  · rintro ⟨hbefore, hlast⟩ bs b hbs
    rcases List.prefix_concat_iff.mp hbs with hlong | hshort
    · obtain ⟨rfl, rfl⟩ := List.append_singleton_inj.mp hlong
      exact hlast
    · exact hbefore bs b hshort

section

variable {C : α → Prop} {I : σ → Prop} (hrun : Run step s as t)

include hrun

/-- Induction on a run with the actions taken so far in view. -/
theorem Run.history {I : List α → σ → Prop} (hinit : I [] s)
    (hstep : ∀ as t a u, I as t → step t a u → I (as ++ [a]) u) : I as t := by
  induction hrun with
  | nil => exact hinit
  | snoc _ hlast ih => exact hstep _ _ _ _ ih hlast

/-- Every action of a run was taken in a state that keeps the invariant. -/
theorem Run.exists_step (hpreserved : ∀ s a t, step s a t → I s → I t) (hinit : I s)
    {a : α} (ha : a ∈ as) : ∃ u v, I u ∧ step u a v := by
  have hboth : I t ∧ ∀ a ∈ as, ∃ u v, I u ∧ step u a v := by
    refine hrun.history (I := fun as t => I t ∧ ∀ a ∈ as, ∃ u v, I u ∧ step u a v)
      ⟨hinit, by simp⟩ ?_
    rintro as t a u ⟨ht, hall⟩ hlast
    refine ⟨hpreserved t a u hlast ht, List.forall_mem_append.mpr ⟨hall, ?_⟩⟩
    exact List.forall_mem_singleton.mpr ⟨t, u, ht, hlast⟩
  exact hboth.2 a ha

/-- What every action that may follow those before it preserves, a run of such actions keeps. -/
theorem Run.invariant_history {I : List α → σ → Prop} {C : List α → α → Prop}
    (hpreserved : ∀ as s a t, C as a → step s a t → I as s → I (as ++ [a]) t)
    (hactions : ∀ bs a, bs ++ [a] <+: as → C bs a) (hinit : I [] s) : I as t := by
  refine hrun.history (I := fun as t => (∀ bs a, bs ++ [a] <+: as → C bs a) → I as t)
    (fun _ => hinit) ?_ hactions
  intro as t a u ih hlast hall
  obtain ⟨hbefore, ha⟩ := forall_prefix_snoc.mp hall
  exact hpreserved as t a u ha hlast (ih hbefore)

/-- A property of steps that an action which may follow those before it has, from what such actions
preserve, and that any other action lacks, holds of all steps of a run exactly when each action may
follow those before it. -/
theorem Run.every_step_iff_history {I : List α → σ → Prop} {C : List α → α → Prop}
    {P : σ → α → σ → Prop}
    (hpreserved : ∀ as s a t, C as a → step s a t → I as s → I (as ++ [a]) t)
    (hstep : ∀ as s a t, C as a → step s a t → I as s → P s a t)
    (hbreaks : ∀ as s a t, step s a t → I as s → P s a t → C as a) (hinit : I [] s) :
    (∀ bs a u v, bs ++ [a] <+: as → Run step s bs u → step u a v → P u a v) ↔
      ∀ bs a, bs ++ [a] <+: as → C bs a := by
  constructor
  · intro hall
    induction hrun with
    | nil => simp
    | @snoc t u as a hrun hlast ih =>
      have hbefore := ih fun bs b v w hbs => hall bs b v w (hbs.trans (List.prefix_append _ _))
      have ht : I as t := hrun.invariant_history hpreserved hbefore hinit
      have ha : C as a := hbreaks as t a u hlast ht (hall as a t u List.prefix_rfl hrun hlast)
      exact forall_prefix_snoc.mpr ⟨hbefore, ha⟩
  · intro hall bs a u v hbs hrun' hlast
    have hu : I bs u := hrun'.invariant_history hpreserved
      (fun cs b hcs => hall cs b (hcs.trans ((List.prefix_append _ _).trans hbs))) hinit
    exact hstep bs u a v (hall bs a hbs) hlast hu

variable (hpreserved : ∀ s a t, C a → step s a t → I s → I t)

include hpreserved

/-- What every permitted step preserves, every run of permitted steps preserves. -/
theorem Run.invariant (hactions : ∀ a ∈ as, C a) (hinit : I s) : I t :=
  hrun.invariant_history (I := fun _ => I) (C := fun _ => C) (fun _ => hpreserved)
    (fun bs a hbs => hactions a (hbs.subset (by simp))) hinit

/-- A property of steps that permitted steps from what they preserve have, and that a step which is
not permitted lacks, holds of all steps of a run exactly when they are permitted. -/
theorem Run.every_step_iff {P : σ → α → σ → Prop}
    (hstep : ∀ s a t, C a → step s a t → I s → P s a t)
    (hbreaks : ∀ s a t, step s a t → I s → P s a t → C a) (hinit : I s) :
    (∀ bs a u v, bs ++ [a] <+: as → Run step s bs u → step u a v → P u a v) ↔ ∀ a ∈ as, C a := by
  rw [hrun.every_step_iff_history (I := fun _ => I) (C := fun _ => C) (fun _ => hpreserved)
    (fun _ => hstep) (fun _ => hbreaks) hinit]
  constructor
  · intro hall a ha
    obtain ⟨bs, cs, rfl⟩ := List.append_of_mem ha
    exact hall bs a ⟨cs, by simp⟩
  · exact fun hall bs a hbs => hall a (hbs.subset (by simp))

/-- The same for a property of states. -/
theorem Run.always_iff {P : σ → Prop} (hinv : ∀ s, I s → P s)
    (hbreaks : ∀ s a t, step s a t → I s → P t → C a) (hinit : I s) :
    (∀ bs u, bs <+: as → Run step s bs u → P u) ↔ ∀ a ∈ as, C a := by
  rw [← hrun.every_step_iff (P := fun _ _ t => P t) hpreserved
    (fun s a t hC hstep hs => hinv t (hpreserved s a t hC hstep hs)) hbreaks hinit]
  constructor
  · exact fun hall bs a u v hbs hrun' hlast => hall _ v hbs (.snoc hrun' hlast)
  · intro hall bs u hbs hrun'
    cases hrun' with
    | nil => exact hinv s hinit
    | snoc hrun' hlast => exact hall _ _ _ _ hbs hrun' hlast

end

/-- The processes of a system after one of them has moved. -/
theorem of_update_eq_some {ι β : Type*} [DecidableEq ι] {f : ι → Option β} {i j : ι}
    {v : Option β} {b : β} (h : Function.update f i v j = some b) :
    (j = i ∧ v = some b) ∨ (j ≠ i ∧ f j = some b) := by
  rw [Function.update_apply] at h
  split at h
  · next hj => exact .inl ⟨hj, h⟩
  · next hj => exact .inr ⟨hj, h⟩

end Metap.Transition
