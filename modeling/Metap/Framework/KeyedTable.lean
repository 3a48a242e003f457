import Mathlib

/-!
# Tables with a primary key

A table is a list of rows no two of which have the same key.  Rows are looked up by key, inserted
under a key that is not taken, and replaced by a row with the same key; the lemmas say what a
lookup finds afterwards.
-/

namespace Metap

/-- Rows with distinct keys. -/
structure KeyedTable {α κ : Type*} (key : α → κ) where
  rows : List α
  nodup : (rows.map key).Nodup

namespace KeyedTable

variable {α κ : Type*} [DecidableEq κ] {key : α → κ}

def empty : KeyedTable key := ⟨[], by simp⟩

def find (t : KeyedTable key) (k : κ) : Option α := t.rows.find? fun r => key r = k

variable {k : κ} {f : α → α} {t : KeyedTable key} {row : α}

theorem mem_of_find (h : t.find k = some row) : row ∈ t.rows :=
  List.mem_of_find?_eq_some h

theorem key_of_find (h : t.find k = some row) : key row = k := by
  have hkey := List.find?_some h
  exact of_decide_eq_true hkey

/-- A row is found under its own key. -/
theorem find_of_mem (hrow : row ∈ t.rows) : t.find (key row) = some row := by
  have hsome : (t.find (key row)).isSome := by
    rw [find, List.find?_isSome]
    exact ⟨row, hrow, decide_eq_true rfl⟩
  obtain ⟨found, hfound⟩ := Option.isSome_iff_exists.mp hsome
  have heq : found = row :=
    List.inj_on_of_nodup_map t.nodup (mem_of_find hfound) hrow (key_of_find hfound)
  rw [hfound, heq]

theorem find_eq_none_iff : t.find k = none ↔ ∀ row ∈ t.rows, key row ≠ k := by
  simp [find]

/-- Insert a row under a key that is not taken. -/
def insert (t : KeyedTable key) (row : α) (h : t.find (key row) = none) : KeyedTable key where
  rows := t.rows ++ [row]
  nodup := by
    rw [List.map_append, List.nodup_append]
    refine ⟨t.nodup, by simp, ?_⟩
    intro k hk k' hk' heq
    obtain ⟨r, hr, rfl⟩ := List.mem_map.mp hk
    rw [List.map_singleton, List.mem_singleton] at hk'
    exact find_eq_none_iff.mp h r hr (heq.trans hk')

/-- Replace the row that has the key of `row`, if there is one. -/
def replace (t : KeyedTable key) (row : α) : KeyedTable key where
  rows := t.rows.map fun r => if key r = key row then row else r
  nodup := by
    have hkeys : (t.rows.map fun r => if key r = key row then row else r).map key =
        t.rows.map key := by
      rw [List.map_map]
      refine List.map_congr_left fun r _ => ?_
      by_cases h : key r = key row <;> simp [h]
    rw [hkeys]
    exact t.nodup

theorem find_insert (t : KeyedTable key) (row : α) (h : t.find (key row) = none) (k : κ) :
    (t.insert row h).find k = if k = key row then some row else t.find k := by
  by_cases hk : k = key row
  · rw [if_pos hk, hk]
    exact find_of_mem (by simp [insert])
  · rw [if_neg hk]
    have hlast : [row].find? (fun r => key r = k) = none := by
      simpa using fun h => hk h.symm
    rw [find, insert, List.find?_append, hlast, Option.or_none]
    rfl

theorem find_replace (t : KeyedTable key) (row : α) (k : κ) : (t.replace row).find k =
      if k = key row then (t.find k).map fun _ => row else t.find k := by
  -- the replacement keeps every key, so the row found is the image of the row found before
  have hkey : ((fun r => decide (key r = k)) ∘ fun r => if key r = key row then row else r) =
      fun r => decide (key r = k) := by
    funext r
    by_cases hr : key r = key row <;> simp [hr]
  rw [find, replace, List.find?_map, hkey]
  change (t.find k).map _ = _
  cases hfind : t.find k with
  | none => simp
  | some r =>
    have hr : key r = k := key_of_find hfind
    by_cases hk : k = key row <;> simp [hr, hk]

/-- A row that was not replaced has another key. -/
theorem mem_rows_replace {r : α} (h : r ∈ (t.replace row).rows) :
    r = row ∨ r ∈ t.rows ∧ key r ≠ key row := by
  obtain ⟨r', hr', rfl⟩ := List.mem_map.mp h
  by_cases hkey : key r' = key row
  · exact .inl (if_pos hkey)
  · rw [if_neg hkey]
    exact .inr ⟨hr', hkey⟩

/-! ## Updates -/

/-- Change the rows that satisfy a condition, keeping their keys. -/
def update (t : KeyedTable key) (p : α → Bool) (f : α → α) (hf : ∀ r, key (f r) = key r) :
    KeyedTable key where
  rows := t.rows.map fun r => if p r then f r else r
  nodup := by
    have hkeys : (t.rows.map fun r => if p r then f r else r).map key = t.rows.map key := by
      rw [List.map_map]
      refine List.map_congr_left fun r _ => ?_
      by_cases h : p r <;> simp [h, hf]
    rw [hkeys]
    exact t.nodup

omit [DecidableEq κ] in
theorem mem_rows_update {p : α → Bool} {hf : ∀ r, key (f r) = key r} :
    row ∈ (t.update p f hf).rows ↔ ∃ r ∈ t.rows, (if p r then f r else r) = row :=
  List.mem_map

theorem find_update (t : KeyedTable key) (p : α → Bool) (f : α → α) (hf : ∀ r, key (f r) = key r)
    (k : κ) : (t.update p f hf).find k = (t.find k).map fun r => if p r then f r else r := by
  have hkey : ((fun r => decide (key r = k)) ∘ fun r => if p r then f r else r) =
      fun r => decide (key r = k) := by
    funext r
    by_cases hr : p r <;> simp [hr, hf]
  rw [find, update, List.find?_map, hkey]
  rfl

/-- Change the row under one key. -/
theorem find_update_key (t : KeyedTable key) (k : κ) (f : α → α) (hf : ∀ r, key (f r) = key r)
    (k' : κ) : (t.update (fun r => key r = k) f hf).find k' =
      if k' = k then (t.find k).map f else t.find k' := by
  rw [find_update]
  by_cases hk : k' = k
  · subst hk
    rw [if_pos rfl]
    cases hr : t.find k' with
    | none => rfl
    | some r => rw [Option.map_some, Option.map_some, if_pos (decide_eq_true (key_of_find hr))]
  · rw [if_neg hk]
    cases hr : t.find k' with
    | none => rfl
    | some r =>
      have hr' : key r ≠ k := fun h => hk ((key_of_find hr).symm.trans h)
      rw [Option.map_some, if_neg (by simpa using hr')]

/-! ## Inserting or updating -/

/-- Insert a row, or change the row that has its key. -/
def upsert (t : KeyedTable key) (row : α) (f : α → α) (hf : ∀ r, key (f r) = key r) :
    KeyedTable key :=
  match h : t.find (key row) with
  | none => t.insert row h
  | some _ => t.update (fun r => key r = key row) f hf

/-- The rows of the table afterwards: the new row, the changed one, and the others. -/
theorem mem_rows_upsert {r : α} {hf : ∀ r, key (f r) = key r}
    (h : r ∈ (t.upsert row f hf).rows) : r = row ∨ (∃ r' ∈ t.rows, r = f r') ∨ r ∈ t.rows := by
  unfold upsert at h
  split at h
  · rcases List.mem_append.mp h with h | h
    · exact .inr (.inr h)
    · exact .inl (List.mem_singleton.mp h)
  · obtain ⟨r', hr', rfl⟩ := mem_rows_update.mp h
    split
    · exact .inr (.inl ⟨r', hr', rfl⟩)
    · exact .inr (.inr hr')

/-! ## Deleting -/

/-- Delete the rows that satisfy a condition. -/
def delete (t : KeyedTable key) (p : α → Bool) : KeyedTable key where
  rows := t.rows.filter fun r => !p r
  nodup := t.nodup.sublist (List.filter_sublist.map key)

theorem find_delete (t : KeyedTable key) (p : α → Bool) (k : κ) :
    (t.delete p).find k = (t.find k).filter fun r => !p r := by
  cases hfind : t.find k with
  | none =>
    refine find_eq_none_iff.mpr fun r hr => ?_
    exact find_eq_none_iff.mp hfind r (List.mem_of_mem_filter hr)
  | some r =>
    have hmem := mem_of_find hfind
    have hkey := key_of_find hfind
    by_cases hp : p r = true
    · rw [Option.filter_some_neg (by simp [hp])]
      refine find_eq_none_iff.mpr fun r' hr' hkey' => ?_
      have heq : r' = r :=
        List.inj_on_of_nodup_map t.nodup (List.mem_of_mem_filter hr') hmem (hkey'.trans hkey.symm)
      have hkept := List.of_mem_filter hr'
      rw [heq, hp] at hkept
      cases hkept
    · rw [Option.filter_some_pos (by simp [hp]), ← hkey]
      exact find_of_mem (List.mem_filter.mpr ⟨hmem, by simp [hp]⟩)

/-! ## Two tables row by row -/

section

variable {R : α → α → Prop} {t t' : KeyedTable key}

/-- Tables whose rows correspond under their keys have corresponding rows under each key. -/
theorem rel_find (h : List.Forall₂ R t.rows t'.rows) (hkey : ∀ r r', R r r' → key r = key r')
    (k : κ) : Option.Rel R (t.find k) (t'.find k) := by
  unfold find
  generalize t.rows = rs at h ⊢
  generalize t'.rows = rs' at h ⊢
  induction h with
  | nil => exact .none
  | @cons r r' rs rs' hrel _ ih =>
    rw [List.find?_cons, List.find?_cons, ← hkey r r' hrel]
    cases decide (key r = k) with
    | true => exact .some hrel
    | false => exact ih

theorem forall₂_of_keys (h : List.Forall₂ R t.rows t'.rows) (hkey : ∀ r r', R r r' → key r = key r')
    {rs rs' : List α} (hrs : ∀ r ∈ rs, r ∈ t.rows) (hrs' : ∀ r ∈ rs', r ∈ t'.rows)
    (hkeys : rs.map key = rs'.map key) : List.Forall₂ R rs rs' := by
  induction rs generalizing rs' with
  | nil =>
    cases List.map_eq_nil_iff.mp hkeys.symm
    exact .nil
  | cons r rs ih =>
    cases rs' with
    | nil => cases hkeys
    | cons r' rs' =>
      obtain ⟨hhead, htail⟩ := List.cons.inj hkeys
      have hfound := rel_find h hkey (key r)
      rw [find_of_mem (hrs r (by simp)), hhead, find_of_mem (hrs' r' (by simp))] at hfound
      cases hfound with
      | some hrel =>
        exact .cons hrel (ih (fun x hx => hrs x (by simp [hx])) (fun x hx => hrs' x (by simp [hx]))
          htail)

end

end KeyedTable

end Metap
