import Mathlib

/-!
# Keyset pagination

A client reads a long list page by page: with each page it gets a key of the last row it has seen,
and asks for the rows after that key.  `follow` is the client's loop.  `Serves` says what the server
does at any moment of the loop: whatever was read so far, it answers with the next page of the
list, and with a key unless the page reaches the end.  `Serves.follow_eq` says that the loop then
ends and reads the list: every row once and in order.

A server that answers by filtering serves the list when the filter is its strict order
(`filter_after`).
-/

namespace Metap.Keyset

/-- Of a list in strict order, the rows after one of its rows are those that stand after it. -/
theorem filter_after {α : Type} {lt : α → α → Prop} [DecidableRel lt] {done rest : List α} {c : α}
    (h : (done ++ c :: rest).Pairwise lt)
    (hasymm : ∀ a ∈ done ++ [c], ∀ b ∈ done ++ [c], lt a b → ¬lt b a) :
    (done ++ c :: rest).filter (fun r => decide (lt c r)) = rest := by
  obtain ⟨_, htail, hcross⟩ := List.pairwise_append.mp h
  have hdone : done.filter (fun r => decide (lt c r)) = [] := by
    refine List.filter_eq_nil_iff.mpr fun r hr => ?_
    have hrc : lt r c := hcross r hr c (by simp)
    simpa using hasymm r (by simp [hr]) c (by simp) hrc
  have hself : ¬lt c c := fun hcc => hasymm c (by simp) c (by simp) hcc hcc
  have hrest : rest.filter (fun r => decide (lt c r)) = rest := by
    refine List.filter_eq_self.mpr fun r hr => ?_
    simpa using List.rel_of_pairwise_cons htail hr
  rw [List.filter_append, hdone, List.filter_cons_of_neg (by simpa using hself), hrest,
    List.nil_append]

section

variable {α β κ ε π : Type}

/-- Ask for page after page until there is no key; `none` when the fuel runs out before. -/
def follow (fetch : Option κ → Except ε (π × Option κ)) : ℕ → Option κ →
    Except ε (Option (List π))
  | 0, _ => .ok none
  | n + 1, cursor => do
    let (page, next) ← fetch cursor
    match next with
    | none => return some [page]
    | some c =>
      let pages ← follow fetch n (some c)
      return pages.map (page :: ·)

/-- A server answers each request with the next page of `rows`, shown as `view`, and with the key
of the page's last row unless the page reaches the end. -/
def Serves (fetch : Option κ → Except ε (π × Option κ)) (rowsOf : π → List β) (view : α → β)
    (key : α → κ) (n : ℕ) (rows : List α) : Prop :=
  ∀ done rest, rows = done ++ rest → ∃ page,
    fetch (done.getLast?.map key) =
      .ok (page, if n < rest.length then (rest.take n).getLast?.map key else none) ∧
    rowsOf page = (rest.take n).map view

/-- Following the keys reads the list and ends. -/
theorem Serves.follow_eq {fetch : Option κ → Except ε (π × Option κ)} {rowsOf : π → List β}
    {view : α → β} {key : α → κ} {n : ℕ} {rows : List α}
    (h : Serves fetch rowsOf view key n rows) (hn : 0 < n) (fuel : ℕ) (done rest : List α)
    (hrows : rows = done ++ rest) (hfuel : rest.length < fuel) :
    ∃ pages, follow fetch fuel (done.getLast?.map key) = .ok (some pages) ∧
      pages.flatMap rowsOf = rest.map view := by
  induction fuel generalizing done rest with
  | zero => omega
  | succ fuel ih =>
    obtain ⟨page, hfetch, hpage⟩ := h done rest hrows
    by_cases hmore : n < rest.length
    · -- the page is full, and its last row is the last one read so far
      rw [if_pos hmore] at hfetch
      have hne : rest.take n ≠ [] := by
        rw [Ne, List.take_eq_nil_iff]
        rintro (rfl | rfl)
        · omega
        · simp at hmore
      have hsplit : rows = (done ++ rest.take n) ++ rest.drop n := by
        rw [List.append_assoc, List.take_append_drop, hrows]
      have hlast : (done ++ rest.take n).getLast? = (rest.take n).getLast? :=
        List.getLast?_append_of_ne_nil _ hne
      obtain ⟨pages, hfollow, hread⟩ := ih (done ++ rest.take n) (rest.drop n) hsplit (by
        rw [List.length_drop]
        omega)
      rw [hlast] at hfollow
      refine ⟨page :: pages, ?_, ?_⟩
      · have hkey : (rest.take n).getLast?.map key = some (key ((rest.take n).getLast hne)) := by
          rw [List.getLast?_eq_some_getLast hne]
          rfl
        rw [hkey] at hfetch hfollow
        simp [follow, hfetch, hfollow, bind, Except.bind, pure, Except.pure]
      · rw [List.flatMap_cons, hpage, hread, ← List.map_append, List.take_append_drop]
    · rw [if_neg hmore] at hfetch
      refine ⟨[page], ?_, ?_⟩
      · simp [follow, hfetch, bind, Except.bind, pure, Except.pure]
      · rw [List.flatMap_singleton, hpage, List.take_of_length_le (not_lt.mp hmore)]

end

end Metap.Keyset
