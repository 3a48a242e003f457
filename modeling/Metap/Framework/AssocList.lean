import Mathlib

/-!
# Association lists

Finite maps from keys to values of one type, with what several of them have in common: mapping their
values, and inserting or erasing the keys of a list.  The lemmas say what a lookup finds afterwards.
-/

namespace Metap.AssocList

variable {κ α β : Type*} [DecidableEq κ]

section

variable (f : κ → α → β)

/-- An entry with its value mapped. -/
def mapEntry (e : Sigma fun _ : κ => α) : Sigma fun _ : κ => β := ⟨e.1, f e.1 e.2⟩

omit [DecidableEq κ] in
theorem keys_map_mapEntry (l : List (Sigma fun _ : κ => α)) :
    (l.map (mapEntry f)).keys = l.keys := by
  simp [List.keys, mapEntry, Function.comp_def]

/-- Map the values of a map. -/
def mapVals (m : AList fun _ : κ => α) : AList fun _ : κ => β :=
  ⟨m.entries.map (mapEntry f), by
    rw [List.NodupKeys, keys_map_mapEntry]
    exact m.nodupKeys⟩

theorem lookup_mapVals (m : AList fun _ : κ => α) (k : κ) :
    (mapVals f m).lookup k = (m.lookup k).map (f k) := by
  change List.dlookup k (m.entries.map (mapEntry f)) = (List.dlookup k m.entries).map (f k)
  induction m.entries with
  | nil => rfl
  | cons e l ih =>
    by_cases hk : e.1 = k
    · subst hk
      rw [List.map_cons, List.dlookup_cons_eq l e.1 e.2]
      exact List.dlookup_cons_eq _ e.1 _
    · rw [List.map_cons, List.dlookup_cons_ne l e fun h => hk h.symm, ← ih]
      exact List.dlookup_cons_ne _ _ fun h => hk h.symm

end

/-! ## Lists of entries -/

/-- Insert entries, the later ones over the earlier ones. -/
def insertAll (m : AList fun _ : κ => α) (es : List (κ × α)) : AList fun _ : κ => α :=
  es.foldl (fun m e => m.insert e.1 e.2) m

variable {es : List (κ × α)} {k : κ} {m : AList fun _ : κ => α}

theorem lookup_insertAll (m : AList fun _ : κ => α) (hnodup : (es.map Prod.fst).Nodup) (k : κ) :
    (insertAll m es).lookup k = (es.lookup k).or (m.lookup k) := by
  induction es generalizing m with
  | nil => rfl
  | cons e es ih =>
    rw [List.map_cons, List.nodup_cons] at hnodup
    rw [insertAll, List.foldl_cons, ← insertAll, ih _ hnodup.2, List.lookup_cons]
    by_cases hk : k = e.1
    · subst hk
      have hnone : es.lookup e.1 = none := by
        rw [List.lookup_eq_none_iff]
        intro e' he'
        simpa using fun h => hnodup.1 (List.mem_map.mpr ⟨e', he', h.symm⟩)
      rw [hnone, AList.lookup_insert]
      simp
    · rw [AList.lookup_insert_ne hk, beq_false_of_ne hk]

theorem insertAll_append (m : AList fun _ : κ => α) (es es' : List (κ × α)) :
    insertAll m (es ++ es') = insertAll (insertAll m es) es' :=
  List.foldl_append

/-- What is found was inserted, or was there. -/
theorem mem_of_lookup_insertAll {a : α} (h : (insertAll m es).lookup k = some a) :
    (k, a) ∈ es ∨ m.lookup k = some a := by
  induction es generalizing m with
  | nil => exact .inr h
  | cons e es ih =>
    rcases ih h with hmem | hlookup
    · exact .inl (List.mem_cons_of_mem _ hmem)
    · by_cases hk : k = e.1
      · subst hk
        rw [AList.lookup_insert] at hlookup
        cases hlookup
        exact .inl List.mem_cons_self
      · rw [AList.lookup_insert_ne hk] at hlookup
        exact .inr hlookup

theorem lookup_insertAll_of_notMem (h : k ∉ es.map Prod.fst) :
    (insertAll m es).lookup k = m.lookup k := by
  induction es generalizing m with
  | nil => rfl
  | cons e es ih =>
    rw [List.map_cons, List.mem_cons, not_or] at h
    exact (ih h.2).trans (AList.lookup_insert_ne h.1)

/-- An entry that no other entry has the key of is found. -/
theorem lookup_insertAll_of_mem {e : κ × α} (m : AList fun _ : κ => α) (he : e ∈ es)
    (honly : ∀ e' ∈ es, e'.1 = e.1 → e' = e) : (insertAll m es).lookup e.1 = some e.2 := by
  induction es generalizing m with
  | nil => cases he
  | cons e' es ih =>
    have hes : ∀ e'' ∈ es, e''.1 = e.1 → e'' = e :=
      fun e'' he'' => honly e'' (List.mem_cons_of_mem _ he'')
    by_cases hmem : e ∈ es
    · exact ih _ hmem hes
    · obtain rfl := (List.mem_cons.mp he).resolve_right hmem
      have hother : e.1 ∉ es.map Prod.fst := fun hkey => by
        obtain ⟨e', he', hname⟩ := List.mem_map.mp hkey
        exact hmem (hes e' he' hname ▸ he')
      have hrest := lookup_insertAll_of_notMem (m := m.insert e.1 e.2) hother
      exact hrest.trans (AList.lookup_insert _)

theorem mem_insertAll : k ∈ insertAll m es ↔ k ∈ es.map Prod.fst ∨ k ∈ m := by
  induction es generalizing m with
  | nil => simp [insertAll]
  | cons e es ih =>
    rw [insertAll, List.foldl_cons, ← insertAll, ih, AList.mem_insert, List.map_cons, List.mem_cons]
    tauto

/-- Insert the entries whose keys are not there. -/
def addAll (m : AList fun _ : κ => α) (es : List (κ × α)) : AList fun _ : κ => α :=
  es.foldl (fun m e => if e.1 ∈ m then m else m.insert e.1 e.2) m

theorem lookup_addAll (m : AList fun _ : κ => α) (es : List (κ × α)) (k : κ) :
    (addAll m es).lookup k = (m.lookup k).or (es.lookup k) := by
  induction es generalizing m with
  | nil => simp [addAll]
  | cons e es ih =>
    rw [addAll, List.foldl_cons, ← addAll, ih, List.lookup_cons]
    by_cases hk : k = e.1
    · subst hk
      rw [beq_self_eq_true]
      split
      · next hmem =>
        obtain ⟨a, ha⟩ := Option.isSome_iff_exists.mp (AList.lookup_isSome.mpr hmem)
        rw [ha, Option.some_or, Option.some_or]
      · next hmem =>
        rw [AList.lookup_insert, AList.lookup_eq_none.mpr hmem]
        rfl
    · have hlookup : (if e.1 ∈ m then m else m.insert e.1 e.2).lookup k = m.lookup k := by
        split
        · rfl
        · exact AList.lookup_insert_ne hk
      rw [hlookup, beq_false_of_ne hk]

theorem mem_addAll : k ∈ addAll m es ↔ k ∈ m ∨ k ∈ es.map Prod.fst := by
  induction es generalizing m with
  | nil => simp [addAll]
  | cons e es ih =>
    rw [addAll, List.foldl_cons, ← addAll, ih, List.map_cons, List.mem_cons]
    split
    · next hmem =>
      refine or_congr_right' fun hk => ⟨.inr, fun h => h.resolve_left fun heq => hk ?_⟩
      rw [heq]
      exact hmem
    · rw [AList.mem_insert]
      tauto

/-- A list of entries with its values mapped. -/
theorem lookup_map_val (f : α → β) (es : List (κ × α)) (k : κ) :
    (es.map fun e => (e.1, f e.2)).lookup k = (es.lookup k).map f := by
  induction es with
  | nil => rfl
  | cons e es ih =>
    rw [List.map_cons, List.lookup_cons, List.lookup_cons, ih]
    cases k == e.1 <;> rfl

def eraseAll (m : AList fun _ : κ => α) (keys : List κ) : AList fun _ : κ => α :=
  keys.foldl (fun m k => m.erase k) m

theorem lookup_eraseAll (m : AList fun _ : κ => α) (keys : List κ) (k : κ) :
    (eraseAll m keys).lookup k = if k ∈ keys then none else m.lookup k := by
  induction keys generalizing m with
  | nil => simp [eraseAll]
  | cons k' keys ih =>
    rw [eraseAll, List.foldl_cons, ← eraseAll, ih]
    by_cases hk : k ∈ keys
    · rw [if_pos hk, if_pos (List.mem_cons_of_mem _ hk)]
    · rw [if_neg hk]
      by_cases hhead : k = k'
      · subst hhead
        rw [AList.lookup_erase, if_pos List.mem_cons_self]
      · rw [AList.lookup_erase_ne hhead, if_neg]
        simp [hhead, hk]

/-- The entries of some keys. -/
def entriesOf (m : AList fun _ : κ => α) (keys : List κ) : List (κ × α) :=
  keys.filterMap fun k => (m.lookup k).map fun a => (k, a)

variable {keys : List κ}

theorem mem_entriesOf {e : κ × α} :
    e ∈ entriesOf m keys ↔ e.1 ∈ keys ∧ m.lookup e.1 = some e.2 := by
  simp only [entriesOf, List.mem_filterMap, Option.map_eq_some_iff]
  constructor
  · rintro ⟨k, hk, a, ha, rfl⟩
    exact ⟨hk, ha⟩
  · exact fun h => ⟨e.1, h.1, e.2, h.2, rfl⟩

theorem mem_keys_entriesOf : k ∈ (entriesOf m keys).map Prod.fst ↔ k ∈ keys ∧ k ∈ m := by
  simp only [List.mem_map, mem_entriesOf]
  constructor
  · rintro ⟨e, ⟨hkey, hlookup⟩, rfl⟩
    exact ⟨hkey, AList.lookup_isSome.mp (by rw [hlookup]; rfl)⟩
  · rintro ⟨hkey, hmem⟩
    obtain ⟨a, ha⟩ := Option.isSome_iff_exists.mp (AList.lookup_isSome.mpr hmem)
    exact ⟨(k, a), ⟨hkey, ha⟩, rfl⟩

theorem lookup_entriesOf (m : AList fun _ : κ => α) (keys : List κ) (k : κ) :
    (entriesOf m keys).lookup k = if k ∈ keys then m.lookup k else none := by
  induction keys with
  | nil => rfl
  | cons k' keys ih =>
    rw [entriesOf, List.filterMap_cons, ← entriesOf]
    by_cases hk : k = k'
    · subst hk
      rw [if_pos List.mem_cons_self]
      cases ha : m.lookup k with
      | none =>
        simp only [Option.map_none]
        rw [ih, ha, ite_self]
      | some a => simp
    · have hmem : (k ∈ k' :: keys) = (k ∈ keys) := by simp [hk]
      simp only [hmem]
      rw [← ih]
      cases m.lookup k' with
      | none => rfl
      | some a => simp only [Option.map_some, List.lookup_cons, beq_false_of_ne hk]

theorem nodup_keys_entriesOf (h : keys.Nodup) : ((entriesOf m keys).map Prod.fst).Nodup := by
  refine h.sublist ?_
  induction keys with
  | nil => exact List.Sublist.refl _
  | cons k keys ih =>
    have htail := ih h.of_cons
    rw [entriesOf, List.filterMap_cons, ← entriesOf]
    cases m.lookup k with
    | none => exact htail.cons k
    | some a => exact htail.cons_cons k

end Metap.AssocList
