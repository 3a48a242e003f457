import Mathlib

/-!
# Layers of a finite graph

Nodes are taken away in layers: first those that depend on nothing, then those that depend on
nothing that is left, and so on.  When every node left depends on another one left, they make up one
last layer.

Every node is in one layer.  A node of the last such layer is *trapped*: from it one reaches a cycle
(`trapped_iff_reaches_cycle`).  What a node that is not trapped depends on lies in an earlier layer
(`mem_earlier_of_dep`), and trapped nodes are in the last layer (`last_of_trapped`).
-/

namespace Metap.Layers

variable {α : Type*} {dep : α → α → Bool}

/-! ## Ready nodes and trapped ones -/

/-- The nodes that depend on nothing that is left. -/
def ready (dep : α → α → Bool) (rest : List α) : List α :=
  rest.filter fun a => rest.all fun b => !dep a b

variable {a : α} {rest nodes : List α}

theorem mem_ready : a ∈ ready dep rest ↔ a ∈ rest ∧ ∀ b ∈ rest, dep a b = false := by
  simp [ready]

/-- From the node one can go on forever among the given ones. -/
def Trapped (dep : α → α → Bool) (rest : List α) (a : α) : Prop :=
  ∃ s : Set α, a ∈ s ∧ ∀ x ∈ s, x ∈ rest ∧ ∃ y ∈ s, dep x y = true

theorem Trapped.mono {rest' : List α} (h : Trapped dep rest a)
    (hsub : ∀ x ∈ rest, Trapped dep rest x → x ∈ rest') : Trapped dep rest' a := by
  obtain ⟨s, ha, hs⟩ := h
  exact ⟨s, ha, fun x hx => ⟨hsub x (hs x hx).1 ⟨s, hx, hs⟩, (hs x hx).2⟩⟩

theorem Trapped.notMem_ready (h : Trapped dep rest a) : a ∉ ready dep rest := by
  obtain ⟨s, ha, hs⟩ := h
  obtain ⟨-, b, hb, hdep⟩ := hs a ha
  intro hready
  rw [(mem_ready.mp hready).2 b (hs b hb).1] at hdep
  cases hdep

/-- If nothing is ready, everything is trapped. -/
theorem trapped_of_ready_eq_nil (h : ready dep rest = []) (ha : a ∈ rest) : Trapped dep rest a := by
  refine ⟨{x | x ∈ rest}, ha, fun x hx => ⟨hx, ?_⟩⟩
  by_contra hnone
  have hready : x ∈ ready dep rest := by
    refine mem_ready.mpr ⟨hx, fun b hb => ?_⟩
    by_contra hdep
    exact hnone ⟨b, hb, by simpa using hdep⟩
  rw [h] at hready
  cases hready

/-! ## Cycles -/

open Relation

/-- One node depends on another, both among the given ones. -/
def Edge (dep : α → α → Bool) (nodes : List α) (a b : α) : Prop :=
  a ∈ nodes ∧ b ∈ nodes ∧ dep a b = true

/-- From the node one reaches a cycle. -/
def ReachesCycle (dep : α → α → Bool) (nodes : List α) (a : α) : Prop :=
  ∃ b, ReflTransGen (Edge dep nodes) a b ∧ TransGen (Edge dep nodes) b b

/-- Whoever reaches a cycle has a next node that does. -/
theorem ReachesCycle.next (h : ReachesCycle dep nodes a) :
    ∃ b, Edge dep nodes a b ∧ ReachesCycle dep nodes b := by
  obtain ⟨c, hac, hcycle⟩ := h
  rcases hac.cases_head with rfl | ⟨b, hab, hbc⟩
  · obtain ⟨b, hab, hba⟩ := TransGen.head'_iff.mp hcycle
    exact ⟨b, hab, a, hba, hcycle⟩
  · exact ⟨b, hab, c, hbc, hcycle⟩

theorem trapped_iff_reaches_cycle : Trapped dep nodes a ↔ ReachesCycle dep nodes a := by
  constructor
  · rintro ⟨s, ha, hs⟩
    classical
    by_contra hnone
    -- among the nodes reached from `a` inside `s`, going on is transitive and never returns
    let t : Set {x // x ∈ nodes} := {x | x.1 ∈ s ∧ ReflTransGen (Edge dep nodes) a x.1}
    have hwf : WellFounded fun x y : t => TransGen (Edge dep nodes) y.1.1 x.1.1 := by
      have : IsTrans t fun x y => TransGen (Edge dep nodes) y.1.1 x.1.1 :=
        ⟨fun _ _ _ hxy hyz => hyz.trans hxy⟩
      have : Std.Irrefl fun x y : t => TransGen (Edge dep nodes) y.1.1 x.1.1 :=
        ⟨fun x hx => hnone ⟨x.1.1, x.2.2, hx⟩⟩
      exact Finite.wellFounded_of_trans_of_irrefl _
    obtain ⟨m, -, hmin⟩ := hwf.has_min Set.univ ⟨⟨⟨a, (hs a ha).1⟩, ha, .refl⟩, trivial⟩
    obtain ⟨hm, y, hy, hdep⟩ := hs m.1.1 m.2.1
    have hedge : Edge dep nodes m.1.1 y := ⟨hm, (hs y hy).1, hdep⟩
    exact hmin ⟨⟨y, (hs y hy).1⟩, hy, m.2.2.tail hedge⟩ trivial (.single hedge)
  · intro h
    refine ⟨{x | ReachesCycle dep nodes x}, h, fun x hx => ?_⟩
    obtain ⟨y, hedge, hy⟩ := ReachesCycle.next hx
    exact ⟨hedge.1, y, hy, hedge.2.2⟩

/-! ## Layers -/

variable [DecidableEq α]

/-- The layers of what is left, at most so many. -/
def layersFrom (dep : α → α → Bool) : ℕ → List α → List (List α)
  | 0, _ => []
  | _ + 1, [] => []
  | n + 1, a :: as =>
    if ready dep (a :: as) = [] then [a :: as]
    else ready dep (a :: as) ::
      layersFrom dep n ((a :: as).filter fun b => !(ready dep (a :: as)).contains b)

/-- A layer takes at least one node away, so as many layers as nodes are enough. -/
def layers (dep : α → α → Bool) (nodes : List α) : List (List α) :=
  layersFrom dep nodes.length nodes

/-- What is left after a layer. -/
theorem mem_left :
    a ∈ rest.filter (fun b => !(ready dep rest).contains b) ↔ a ∈ rest ∧ a ∉ ready dep rest := by
  simp

theorem length_left_lt (h : ready dep rest ≠ []) :
    (rest.filter fun b => !(ready dep rest).contains b).length < rest.length := by
  obtain ⟨a, ha⟩ := List.exists_mem_of_ne_nil _ h
  refine List.length_filter_lt_length_iff_exists.mpr ⟨a, (mem_ready.mp ha).1, ?_⟩
  simpa using ha

theorem ready_append_left_perm (rest : List α) :
    (ready dep rest ++ rest.filter fun b => !(ready dep rest).contains b).Perm rest := by
  have hready : ready dep rest = rest.filter fun b => (ready dep rest).contains b := by
    refine List.filter_congr fun a ha => ?_
    rw [Bool.eq_iff_iff, List.contains_iff_mem, mem_ready]
    simp [ha]
  nth_rewrite 1 [hready]
  exact List.filter_append_perm _ _

/-- Every node is in a layer, as often as it is given. -/
theorem flatten_layersFrom_perm {n : ℕ} (h : rest.length ≤ n) :
    (layersFrom dep n rest).flatten.Perm rest := by
  induction n generalizing rest with
  | zero =>
    rw [List.length_eq_zero_iff.mp (Nat.le_zero.mp h)]
    exact .nil
  | succ n ih =>
    cases rest with
    | nil => exact .nil
    | cons a as =>
      rw [layersFrom]
      split
      · simp
      · next hready =>
        have hlen := length_left_lt hready
        rw [List.flatten_cons]
        exact ((ih (by omega)).append_left _).trans (ready_append_left_perm _)

theorem flatten_layers_perm (dep : α → α → Bool) (nodes : List α) :
    (layers dep nodes).flatten.Perm nodes :=
  flatten_layersFrom_perm le_rfl

/-- What a node that is not trapped depends on lies in an earlier layer. -/
theorem mem_earlier_of_dep {b : α} {j : ℕ}
    (ha : a ∈ (layers dep nodes).getD j []) (hb : b ∈ nodes) (hdep : dep a b = true)
    (hfree : ¬Trapped dep nodes a) : ∃ i < j, b ∈ (layers dep nodes).getD i [] := by
  -- on the number of layers; a node trapped in what is left is trapped in the whole
  have hloop : ∀ (n : ℕ) (rest : List α) (j : ℕ), a ∈ (layersFrom dep n rest).getD j [] →
      b ∈ rest → ¬Trapped dep rest a → ∃ i < j, b ∈ (layersFrom dep n rest).getD i [] := by
    intro n
    induction n with
    | zero =>
      intro rest j ha
      simp [layersFrom] at ha
    | succ n ih =>
      intro rest j ha hb hfree
      cases rest with
      | nil => cases hb
      | cons c cs =>
        rw [layersFrom] at ha ⊢
        split at ha
        · next hready =>
          rw [if_pos hready]
          cases j with
          | zero => exact absurd (trapped_of_ready_eq_nil hready ha) hfree
          | succ j => simp at ha
        · next hready =>
          rw [if_neg hready]
          cases j with
          | zero =>
            rw [(mem_ready.mp ha).2 b hb] at hdep
            cases hdep
          | succ j =>
            by_cases hbready : b ∈ ready dep (c :: cs)
            · exact ⟨0, by omega, hbready⟩
            · obtain ⟨i, hi, hbi⟩ := ih _ j ha (mem_left.mpr ⟨hb, hbready⟩)
                fun htrapped => hfree (htrapped.mono fun x hx _ => (mem_left.mp hx).1)
              exact ⟨i + 1, by omega, hbi⟩
  exact hloop _ nodes j ha hb hfree

/-- Trapped nodes are in the last layer. -/
theorem last_of_trapped {j : ℕ} (ha : a ∈ (layers dep nodes).getD j [])
    (htrapped : Trapped dep nodes a) : (layers dep nodes).length = j + 1 := by
  have hloop : ∀ (n : ℕ) (rest : List α) (j : ℕ), a ∈ (layersFrom dep n rest).getD j [] →
      Trapped dep rest a → (layersFrom dep n rest).length = j + 1 := by
    intro n
    induction n with
    | zero =>
      intro rest j ha
      simp [layersFrom] at ha
    | succ n ih =>
      intro rest j ha htrapped
      cases rest with
      | nil => simp [layersFrom] at ha
      | cons c cs =>
        rw [layersFrom] at ha ⊢
        split at ha
        · next hready =>
          rw [if_pos hready]
          cases j with
          | zero => rfl
          | succ j => simp at ha
        · next hready =>
          rw [if_neg hready]
          cases j with
          | zero => exact absurd ha htrapped.notMem_ready
          | succ j =>
            have hleft := htrapped.mono fun x hx h => mem_left.mpr ⟨hx, h.notMem_ready⟩
            rw [List.length_cons, ih _ j ha hleft]
  exact hloop _ nodes j ha htrapped

end Metap.Layers
