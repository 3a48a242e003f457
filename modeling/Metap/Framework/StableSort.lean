import Mathlib

/-!
# Stable sorting by rank

Sorting by a rank with insertion is stable: the elements of each rank stay in their order.  So the
sorted list is the concatenation, rank by rank, of what the list has of that rank.
-/

namespace Metap.StableSort

variable {α : Type*} (rank : α → ℕ)

/-- Sort by rank, keeping the order of elements of the same rank. -/
def sortByRank (l : List α) : List α := l.insertionSort fun a b => rank a ≤ rank b

/-- The elements of each rank below a bound, rank by rank. -/
def byRank (n : ℕ) (l : List α) : List α :=
  (List.range n).flatMap fun r => l.filter fun a => rank a = r

variable {rank} {n : ℕ} {a : α}

/-- An element goes before the first one that does not rank below it. -/
theorem orderedInsert_append {front back : List α} (hfront : ∀ b ∈ front, rank b < rank a)
    (hback : ∀ b ∈ back, rank a ≤ rank b) :
    List.orderedInsert (fun a b => rank a ≤ rank b) a (front ++ back) = front ++ a :: back := by
  induction front with
  | nil =>
    cases back with
    | nil => rfl
    | cons b back => exact if_pos (hback b List.mem_cons_self)
  | cons b front ih =>
    have hb : ¬rank a ≤ rank b := not_le.mpr (hfront b List.mem_cons_self)
    have htail := ih fun c hc => hfront c (List.mem_cons_of_mem _ hc)
    rw [List.cons_append, List.orderedInsert, if_neg hb, htail]
    rfl

theorem byRank_succ (n : ℕ) (l : List α) :
    byRank rank (n + 1) l = byRank rank n l ++ l.filter fun a => rank a = n := by
  simp [byRank, List.range_succ]

theorem byRank_cons_of_le (ha : n ≤ rank a) (l : List α) :
    byRank rank n (a :: l) = byRank rank n l := by
  refine List.flatMap_congr fun r hr => List.filter_cons_of_neg ?_
  have hlt := List.mem_range.mp hr
  simp only [decide_eq_true_eq]
  omega

-- the induction is on the ranks above that of the new element
theorem byRank_cons (ha : rank a < n) (l : List α) : ∃ front back, byRank rank n l = front ++ back ∧
      byRank rank n (a :: l) = front ++ a :: back ∧ (∀ b ∈ front, rank b < rank a) ∧
      ∀ b ∈ back, rank a ≤ rank b := by
  induction n, ha using Nat.le_induction with
  | base =>
    refine ⟨_, _, byRank_succ .., ?_, fun b hb => ?_, fun b hb => ?_⟩
    · rw [Nat.succ_eq_add_one, byRank_succ, byRank_cons_of_le le_rfl,
        List.filter_cons_of_pos (by simp)]
    · obtain ⟨r, hr, hb⟩ := List.mem_flatMap.mp hb
      simp_all
    · simp_all
  | succ n ha ih =>
    obtain ⟨front, back, hl, hcons, hfront, hback⟩ := ih
    refine ⟨front, back ++ l.filter fun a => rank a = n, ?_, ?_, hfront, fun b hb => ?_⟩
    · rw [byRank_succ, hl, List.append_assoc]
    · rw [byRank_succ, hcons, List.append_assoc, List.filter_cons_of_neg (by simp; omega)]
      rfl
    · rcases List.mem_append.mp hb with hb | hb
      · exact hback b hb
      · rw [List.mem_filter, decide_eq_true_eq] at hb
        omega

/-- A list is sorted by concatenating its parts of each rank. -/
theorem sortByRank_eq_byRank {l : List α} (h : ∀ a ∈ l, rank a < n) :
    sortByRank rank l = byRank rank n l := by
  induction l with
  | nil => simp [sortByRank, byRank]
  | cons a l ih =>
    obtain ⟨front, back, hl, hcons, hfront, hback⟩ := byRank_cons (h a List.mem_cons_self) l
    have htail : sortByRank rank l = front ++ back :=
      (ih fun b hb => h b (List.mem_cons_of_mem _ hb)).trans hl
    rw [hcons, sortByRank, List.insertionSort_cons, ← sortByRank, htail]
    exact orderedInsert_append hfront hback

end Metap.StableSort
