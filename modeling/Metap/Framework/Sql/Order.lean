import Metap.Framework.Sql.Select

/-!
# Ordering a column

The order of an `ORDER BY` key is a total order on the values of a column: null, and values of one
type that has an order (`OneType`).  For texts this needs that the collation is a strict total
order.  `OrderKey.compare_swap`, `OrderKey.compare_lt_trans` and `OrderKey.eq_of_compare_eq` are its
laws; `sortRows_eq_some` says that the sorted rows are the one arrangement of the rows that
ascends strictly.
-/

namespace Metap.Sql

/-- The collation is a strict total order of texts. -/
structure Collation (pg : Backend) : Prop where
  irrefl : ∀ a, pg.collateLt a a = false
  trans : ∀ a b c, pg.collateLt a b = true → pg.collateLt b c = true → pg.collateLt a c = true
  total : ∀ a b, a ≠ b → pg.collateLt a b = true ∨ pg.collateLt b a = true

variable {pg : Backend}

theorem Collation.asymm (hc : Collation pg) {a b : String} (h : pg.collateLt a b = true) :
    pg.collateLt b a = false := by
  by_contra hba
  rw [Bool.not_eq_false] at hba
  have hself := hc.trans a b a h hba
  rw [hc.irrefl a] at hself
  cases hself

/-! ## Values -/

theorem compareValues_swap (hc : Collation pg) {u v : Value} {o : Ordering}
    (h : compareValues pg u v = some o) : compareValues pg v u = some o.swap := by
  cases u <;> cases v <;> simp only [compareValues, Option.some.injEq, reduceCtorEq] at h ⊢ <;>
    subst h
  case bool.bool | uuid.uuid | date.date | timestamptz.timestamptz =>
    exact Std.OrientedOrd.eq_swap
  case text.text a b =>
    by_cases hab : a = b
    · simp [hab]
    · have hba : b ≠ a := fun h => hab h.symm
      rcases hc.total a b hab with hlt | hlt
      · simp [hab, hba, hlt, hc.asymm hlt]
      · simp [hab, hba, hlt, hc.asymm hlt]
  case numeric.numeric a b | float8.float8 a b =>
    rcases lt_trichotomy a b with hlt | heq | hgt
    · simp [hlt, hlt.ne, hlt.ne', hlt.not_gt]
    · simp [heq]
    · simp [hgt, hgt.ne, hgt.ne', hgt.not_gt]

/-- A comparison spelled out with its tests. -/
theorem ite_compare_eq_lt {p q : Prop} [Decidable p] [Decidable q] :
    (if p then Ordering.eq else if q then .lt else .gt) = .lt ↔ ¬p ∧ q := by
  by_cases hp : p <;> by_cases hq : q <;> simp [hp, hq]

theorem compareValues_lt_trans (hc : Collation pg) {u v w : Value}
    (huv : compareValues pg u v = some .lt) (hvw : compareValues pg v w = some .lt) :
    compareValues pg u w = some .lt := by
  cases u <;> cases v <;> simp only [compareValues, Option.some.injEq, reduceCtorEq] at huv <;>
    cases w <;> simp only [compareValues, Option.some.injEq, reduceCtorEq] at hvw ⊢
  case bool | uuid | date | timestamptz => exact Std.TransCmp.lt_trans huv hvw
  case text a b c =>
    rw [ite_compare_eq_lt] at huv hvw ⊢
    have hac := hc.trans a b c huv.2 hvw.2
    refine ⟨fun heq => ?_, hac⟩
    rw [heq, hc.irrefl] at hac
    cases hac
  case numeric | float8 =>
    rw [ite_compare_eq_lt] at huv hvw ⊢
    have hac := lt_trans huv.2 hvw.2
    exact ⟨hac.ne, hac⟩

/-! ## Keys -/

/-- The values are null or values of one ordered type. -/
def OneType (pg : Backend) (S : Set Value) : Prop :=
  ∀ u ∈ S, ∀ v ∈ S, u ≠ .null → v ≠ .null → (compareValues pg u v).isSome = true

namespace OrderKey

variable {key : OrderKey} {S : Set Value} {u v w : Value}

/-- Two values that are not null. -/
theorem compare_of_ne_null (hu : u ≠ .null) (hv : v ≠ .null) {o : Ordering}
    (h : compareValues pg u v = some o) :
    key.compare pg u v = if key.descending then o.swap else o := by
  unfold OrderKey.compare
  split
  · exact absurd rfl hu
  · exact absurd rfl hu
  · exact absurd rfl hv
  · rw [h]

theorem compare_null_left (hv : v ≠ .null) :
    key.compare pg .null v = if key.nullsFirst then .lt else .gt := by
  cases v <;> first | rfl | exact absurd rfl hv

theorem compare_null_right (hu : u ≠ .null) :
    key.compare pg u .null = if key.nullsFirst then .gt else .lt := by
  cases u <;> first | rfl | exact absurd rfl hu

theorem compare_swap (hc : Collation pg) (hS : OneType pg S) (hu : u ∈ S) (hv : v ∈ S) :
    key.compare pg v u = (key.compare pg u v).swap := by
  by_cases hu' : u = .null
  · by_cases hv' : v = .null
    · rw [hu', hv']
      rfl
    · rw [hu', compare_null_left hv', compare_null_right hv']
      cases key.nullsFirst <;> rfl
  · by_cases hv' : v = .null
    · rw [hv', compare_null_left hu', compare_null_right hu']
      cases key.nullsFirst <;> rfl
    · obtain ⟨o, ho⟩ := Option.isSome_iff_exists.mp (hS u hu v hv hu' hv')
      rw [compare_of_ne_null hu' hv' ho, compare_of_ne_null hv' hu' (compareValues_swap hc ho)]
      cases key.descending <;> rfl

theorem eq_of_compare_eq (hS : OneType pg S) (hu : u ∈ S) (hv : v ∈ S)
    (h : key.compare pg u v = .eq) : u = v := by
  by_cases hu' : u = .null
  · by_cases hv' : v = .null
    · rw [hu', hv']
    · rw [hu', compare_null_left hv'] at h
      split at h <;> cases h
  · by_cases hv' : v = .null
    · rw [hv', compare_null_right hu'] at h
      split at h <;> cases h
    · obtain ⟨o, ho⟩ := Option.isSome_iff_exists.mp (hS u hu v hv hu' hv')
      rw [compare_of_ne_null hu' hv' ho] at h
      have heq : o = .eq := by
        split at h
        · exact Ordering.swap_eq_eq.mp h
        · exact h
      exact eq_of_compareValues_eq (heq ▸ ho)

theorem compare_lt_trans (hc : Collation pg) (hS : OneType pg S) (hu : u ∈ S) (hv : v ∈ S)
    (hw : w ∈ S) (huv : key.compare pg u v = .lt) (hvw : key.compare pg v w = .lt) :
    key.compare pg u w = .lt := by
  by_cases hv' : v = .null
  · -- a null between two values would be both below and above them
    subst hv'
    by_cases hu' : u = .null
    · rw [hu']
      exact hvw
    · by_cases hw' : w = .null
      · rw [hw']
        exact huv
      · rw [compare_null_right hu'] at huv
        rw [compare_null_left hw'] at hvw
        cases hnulls : key.nullsFirst <;> simp [hnulls] at huv hvw
  by_cases hu' : u = .null
  · rw [hu', compare_null_left hv'] at huv
    by_cases hw' : w = .null
    · rw [hw', compare_null_right hv'] at hvw
      cases hnulls : key.nullsFirst <;> simp [hnulls] at huv hvw
    · rw [hu', compare_null_left hw']
      exact huv
  by_cases hw' : w = .null
  · rw [hw', compare_null_right hv'] at hvw
    rw [hw', compare_null_right hu']
    exact hvw
  obtain ⟨o, ho⟩ := Option.isSome_iff_exists.mp (hS u hu v hv hu' hv')
  obtain ⟨o', ho'⟩ := Option.isSome_iff_exists.mp (hS v hv w hw hv' hw')
  rw [compare_of_ne_null hu' hv' ho] at huv
  rw [compare_of_ne_null hv' hw' ho'] at hvw
  by_cases hdesc : key.descending = true
  · rw [if_pos hdesc, Ordering.swap_eq_lt] at huv hvw
    have hvu := compareValues_swap hc (huv ▸ ho)
    have hwv := compareValues_swap hc (hvw ▸ ho')
    have hwu := compareValues_lt_trans hc hwv hvu
    rw [compare_of_ne_null hu' hw' (compareValues_swap hc hwu), if_pos hdesc]
    rfl
  · rw [if_neg hdesc] at huv hvw
    have huw := compareValues_lt_trans hc (huv ▸ ho) (hvw ▸ ho')
    rw [compare_of_ne_null hu' hw' huw, if_neg hdesc]

end OrderKey

/-! ## Positions -/

/-- A row's place in an order by a key and then by a unique id. -/
abbrev Position := Value × Uuid

def comparePosition (pg : Backend) (key : OrderKey) (a b : Position) : Ordering :=
  (key.compare pg a.1 b.1).then (compare a.2.toNat b.2.toNat)

/-- The key that orders by the id. -/
def idKey : OrderKey := { expr := .col "id" }

theorem compareKeys_position (key : OrderKey) (a b : Position) :
    compareKeys pg [key, idKey] [a.1, .uuid a.2] [b.1, .uuid b.2] = comparePosition pg key a b := by
  have hid : idKey.compare pg (.uuid a.2) (.uuid b.2) = compare a.2.toNat b.2.toNat := rfl
  simp only [compareKeys, hid, comparePosition, Ordering.then_eq]

section

variable {key : OrderKey} {S : Set Value} {a b c : Position}

theorem comparePosition_swap (hc : Collation pg) (hS : OneType pg S) (ha : a.1 ∈ S)
    (hb : b.1 ∈ S) : comparePosition pg key b a = (comparePosition pg key a b).swap := by
  unfold comparePosition
  rw [OrderKey.compare_swap hc hS ha hb, Ordering.swap_then]
  exact congrArg _ Std.OrientedOrd.eq_swap

theorem comparePosition_lt_trans (hc : Collation pg) (hS : OneType pg S) (ha : a.1 ∈ S)
    (hb : b.1 ∈ S) (hc' : c.1 ∈ S) (hab : comparePosition pg key a b = .lt)
    (hbc : comparePosition pg key b c = .lt) : comparePosition pg key a c = .lt := by
  unfold comparePosition at hab hbc ⊢
  rw [Ordering.then_eq_lt] at hab hbc ⊢
  rcases hab with hab | ⟨hab, hid⟩
  · rcases hbc with hbc | ⟨hbc, _⟩
    · exact .inl (OrderKey.compare_lt_trans hc hS ha hb hc' hab hbc)
    · rw [← OrderKey.eq_of_compare_eq hS hb hc' hbc]
      exact .inl hab
  · rw [OrderKey.eq_of_compare_eq hS ha hb hab]
    rcases hbc with hbc | ⟨hbc, hid'⟩
    · exact .inl hbc
    · exact .inr ⟨hbc, Std.TransCmp.lt_trans hid hid'⟩

theorem id_eq_of_comparePosition_eq (h : comparePosition pg key a b = .eq) : a.2 = b.2 := by
  unfold comparePosition at h
  rw [Ordering.then_eq_eq] at h
  exact BitVec.eq_of_toNat_eq (compare_eq_iff_eq.mp h.2)

end

/-! ## Sorted rows -/

/-- Insertion sort sorts by a relation that is total and transitive on the list. -/
theorem pairwise_insertionSort_on {α : Type} {r : α → α → Prop} [DecidableRel r] {l : List α}
    (htotal : ∀ a ∈ l, ∀ b ∈ l, r a b ∨ r b a)
    (htrans : ∀ a ∈ l, ∀ b ∈ l, ∀ c ∈ l, r a b → r b c → r a c) :
    (l.insertionSort r).Pairwise r := by
  let s : {a // a ∈ l} → {a // a ∈ l} → Prop := fun a b => r a b
  have : Std.Total s := ⟨fun a b => htotal a a.2 b b.2⟩
  have : IsTrans _ s := ⟨fun a b c => htrans a a.2 b b.2 c c.2⟩
  have hsorted := List.pairwise_insertionSort s l.attach
  have hmap := List.map_insertionSort (r := s) (s := r) Subtype.val l.attach
    (fun a _ b _ => Iff.rfl)
  rw [List.attach_map_subtype_val] at hmap
  rw [← hmap]
  exact List.pairwise_map.mpr hsorted

section

variable {α : Type} {env : α → Env} {key : OrderKey} {position : α → Position} {rows : List α}

/-- Sorting by a key and the id is sorting by position. -/
theorem sortRows_eq_insertionSort
    (heval : ∀ r ∈ rows, eval pg (env r) key.expr = some (position r).1)
    (hid : ∀ r ∈ rows, (env r).row "id" = some (.uuid (position r).2)) :
    sortRows pg env [key, idKey] rows = some (rows.insertionSort fun r r' =>
      comparePosition pg key (position r) (position r') ≠ .gt) := by
  have hkeyed : rows.mapM (keyed pg env [key, idKey]) =
      some (rows.map fun r => ([(position r).1, .uuid (position r).2], r)) := by
    induction rows with
    | nil => rfl
    | cons r rows ih =>
      obtain ⟨hvalue, hvalues⟩ := List.forall_mem_cons.mp heval
      obtain ⟨hfirst, hids⟩ := List.forall_mem_cons.mp hid
      have hr : keyed pg env [key, idKey] r =
          some ([(position r).1, .uuid (position r).2], r) := by
        simp [keyed, idKey, hvalue, eval, hfirst]
      rw [List.mapM_cons, hr, ih hvalues hids]
      rfl
  have hmap := List.map_insertionSort
    (r := fun a b => compareKeys pg [key, idKey] a.1 b.1 ≠ .gt)
    (s := fun r r' => comparePosition pg key (position r) (position r') ≠ .gt) Prod.snd
    (rows.map fun r => ([(position r).1, Value.uuid (position r).2], r)) ?_
  · rw [sortRows, hkeyed, Option.map_some, hmap, List.map_map]
    exact congrArg (fun l => some (List.insertionSort _ l)) (List.map_id _)
  · intro kr hkr kr' hkr'
    obtain ⟨r, _, rfl⟩ := List.mem_map.mp hkr
    obtain ⟨r', _, rfl⟩ := List.mem_map.mp hkr'
    rw [compareKeys_position]

variable {S : Set Value}

/-- Sorted rows with distinct ids ascend strictly. -/
theorem pairwise_sorted (key : OrderKey) (hc : Collation pg) (hS : OneType pg S)
    (hmem : ∀ r ∈ rows, (position r).1 ∈ S) (hnodup : (rows.map fun r => (position r).2).Nodup) :
    (rows.insertionSort fun r r' =>
        comparePosition pg key (position r) (position r') ≠ .gt).Pairwise
      fun r r' => comparePosition pg key (position r) (position r') = .lt := by
  -- two rows at one place are one row
  have hsame : ∀ r ∈ rows, ∀ r' ∈ rows,
      comparePosition pg key (position r) (position r') = .eq → r = r' := fun r hr r' hr' h =>
    List.inj_on_of_nodup_map hnodup hr hr' (id_eq_of_comparePosition_eq h)
  have hlt : ∀ r ∈ rows, ∀ r' ∈ rows, comparePosition pg key (position r) (position r') ≠ .gt →
      comparePosition pg key (position r) (position r') = .lt ∨ r = r' := by
    intro r hr r' hr' hle
    cases hcmp : comparePosition pg key (position r) (position r') with
    | lt => exact .inl rfl
    | eq => exact .inr (hsame r hr r' hr' hcmp)
    | gt => exact absurd hcmp hle
  have hle := pairwise_insertionSort_on (l := rows)
    (r := fun r r' => comparePosition pg key (position r) (position r') ≠ .gt) ?_ ?_
  · have hmemSorted : ∀ r, r ∈ rows.insertionSort (fun r r' =>
        comparePosition pg key (position r) (position r') ≠ .gt) → r ∈ rows :=
      fun r hr => (List.mem_insertionSort _).mp hr
    have hne := (List.perm_insertionSort (fun r r' =>
      comparePosition pg key (position r) (position r') ≠ .gt) rows).nodup_iff.mpr
        (List.Nodup.of_map _ hnodup)
    refine (hle.and hne).imp_of_mem fun {r r'} hr hr' h => ?_
    exact (hlt r (hmemSorted r hr) r' (hmemSorted r' hr') h.1).resolve_right h.2
  · intro r hr r' hr'
    cases hcmp : comparePosition pg key (position r) (position r') with
    | lt => simp
    | eq => simp
    | gt =>
      right
      rw [comparePosition_swap hc hS (hmem r hr) (hmem r' hr'), hcmp]
      decide
  · intro r hr s hs t ht hrs hst
    rcases hlt r hr s hs hrs with hrs | rfl
    · rcases hlt s hs t ht hst with hst | rfl
      · rw [comparePosition_lt_trans hc hS (hmem r hr) (hmem s hs) (hmem t ht) hrs hst]
        decide
      · rw [hrs]
        decide
    · exact hst

/-- The sorted rows are the one arrangement of the rows that ascends strictly. -/
theorem sortRows_eq_some (hc : Collation pg) (hS : OneType pg S)
    (heval : ∀ r ∈ rows, eval pg (env r) key.expr = some (position r).1)
    (hid : ∀ r ∈ rows, (env r).row "id" = some (.uuid (position r).2))
    (hmem : ∀ r ∈ rows, (position r).1 ∈ S) (hnodup : (rows.map fun r => (position r).2).Nodup)
    {sorted : List α} : sortRows pg env [key, idKey] rows = some sorted ↔
      sorted.Perm rows ∧
        sorted.Pairwise fun r r' => comparePosition pg key (position r) (position r') = .lt := by
  rw [sortRows_eq_insertionSort heval hid, Option.some_inj]
  have hpairwise := pairwise_sorted key hc hS hmem hnodup
  have hperm := List.perm_insertionSort (fun r r' =>
    comparePosition pg key (position r) (position r') ≠ .gt) rows
  constructor
  · rintro rfl
    exact ⟨hperm, hpairwise⟩
  · rintro ⟨hperm', hpairwise'⟩
    refine List.Perm.eq_of_pairwise ?_ hpairwise hpairwise' (hperm.trans hperm'.symm)
    intro r r' hr hr' hlt hgt
    rw [comparePosition_swap hc hS (hmem r (hperm.mem_iff.mp hr))
      (hmem r' (hperm'.mem_iff.mp hr')), hlt] at hgt
    cases hgt

end

end Metap.Sql
