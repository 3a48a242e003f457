import Metap.Framework.Sql.Eval
import Metap.Framework.Sql.Text

/-!
# Selecting rows

The meaning of `SELECT … FROM t WHERE w ORDER BY o LIMIT n` on the rows of a table, from the texts
`w` and `o`.  An `ORDER BY` text is a comma-separated list of keys, each an expression with an
optional direction and an optional place of the nulls.

The rows may be of any type: `env` says what an expression sees of one.  A query fails when one of
its texts is no expression, or when its condition fails on some row.  A query that succeeds
returns a beginning of a rearrangement of the rows its condition is TRUE on (`select_eq_some`).
-/

namespace Metap.Sql

/-! ## Order keys -/

/-- One key of an `ORDER BY`. -/
structure OrderKey where
  expr : Expr
  descending : Bool := false
  nullsFirst : Bool := false

/-- An optional `ASC` or `DESC`. -/
def parseDirection : List Tok → Bool × List Tok
  | .ident "asc" :: ts => (false, ts)
  | .ident "desc" :: ts => (true, ts)
  | ts => (false, ts)

/-- An optional `NULLS FIRST` or `NULLS LAST`; without it nulls count as the greatest value. -/
def parseNulls (descending : Bool) : List Tok → Bool × List Tok
  | .ident "nulls" :: .ident "first" :: ts => (true, ts)
  | .ident "nulls" :: .ident "last" :: ts => (false, ts)
  | ts => (descending, ts)

/-- Parse at most `n` keys. -/
def parseOrderKeys : ℕ → List Tok → Option (List OrderKey)
  | 0, _ => none
  | n + 1, ts =>
    (parseExpr (fuel .or ts + 1) .or ts).bind fun (expr, rest) =>
      let (descending, rest) := parseDirection rest
      let (nullsFirst, rest) := parseNulls descending rest
      let key : OrderKey := { expr, descending, nullsFirst }
      match rest with
      | [] => some [key]
      | .comma :: rest => (parseOrderKeys n rest).map (key :: ·)
      | _ => none

/-- The keys an `ORDER BY` text denotes. -/
def parseOrderBy (s : String) : Option (List OrderKey) :=
  (lex s).bind fun ts => parseOrderKeys ts.length ts

/-- A key with its direction and the place of its nulls, and the keys after it. -/
theorem parseOrderKeys_cons {ts rest : List Tok} {e : Expr} (h : Parses .or ts e)
    (descending nullsFirst : Bool) (n : ℕ) :
    parseOrderKeys (n + 1) (ts ++ (.ident (if descending then "desc" else "asc") ::
      .ident "nulls" :: .ident (if nullsFirst then "first" else "last") :: .comma :: rest)) =
      (parseOrderKeys n rest).map ({ expr := e, descending, nullsFirst } :: ·) := by
  have hfollow : ∀ ts', Follow .or (.ident (if descending then "desc" else "asc") :: ts') :=
    fun ts' => follow_cons (by simp [continuesAt])
  rw [parseOrderKeys, h _ _ (by simp [fuel]) (hfollow _), Option.bind_some]
  cases descending <;> cases nullsFirst <;> rfl

/-! ## Sorting -/

/-- The order of two values under a key; values that have no order count as equal. -/
def OrderKey.compare (pg : Backend) (key : OrderKey) : Value → Value → Ordering
  | .null, .null => .eq
  | .null, _ => if key.nullsFirst then .lt else .gt
  | _, .null => if key.nullsFirst then .gt else .lt
  | a, b =>
    match compareValues pg a b with
    | some o => if key.descending then o.swap else o
    | none => .eq

/-- Lexicographic comparison of the rows' values under the keys. -/
def compareKeys (pg : Backend) : List OrderKey → List Value → List Value → Ordering
  | key :: keys, a :: as, b :: bs => (key.compare pg a b).then (compareKeys pg keys as bs)
  | _, _, _ => .eq

section

variable {α : Type} (pg : Backend) (env : α → Env)

/-- A row with the values of the keys on it. -/
def keyed (keys : List OrderKey) (r : α) : Option (List Value × α) :=
  (keys.mapM fun k => eval pg (env r) k.expr).map fun vs => (vs, r)

def sortRows (keys : List OrderKey) (rows : List α) : Option (List α) :=
  (rows.mapM (keyed pg env keys)).map fun krs =>
    (krs.insertionSort fun a b => compareKeys pg keys a.1 b.1 ≠ .gt).map Prod.snd

/-- The first `limit` rows that satisfy the condition, in order. -/
def select (whereSQL orderBySQL : String) (limit : ℕ) (rows : List α) : Option (List α) := do
  let cond ← parse whereSQL
  let keys ← parseOrderBy orderBySQL
  guard (rows.all fun r => truth pg (env r) cond ≠ .err)
  let sorted ← sortRows pg env keys (rows.filter fun r => truth pg (env r) cond = .tt)
  return sorted.take limit

end

variable {α : Type} {pg : Backend} {env : α → Env} {rows : List α} {keys : List OrderKey}

theorem snd_of_mapM_keyed {krs : List (List Value × α)}
    (h : rows.mapM (keyed pg env keys) = some krs) : krs.map Prod.snd = rows := by
  induction rows generalizing krs with
  | nil =>
    rw [List.mapM_nil] at h
    cases h
    rfl
  | cons r rows ih =>
    rw [List.mapM_cons] at h
    obtain ⟨kr, hkr, h⟩ := Option.bind_eq_some_iff.mp h
    obtain ⟨krs', hkrs', h⟩ := Option.bind_eq_some_iff.mp h
    cases h
    obtain ⟨vs, _, rfl⟩ := Option.map_eq_some_iff.mp hkr
    rw [List.map_cons, ih hkrs']

theorem isSome_of_mapM {β γ : Type} {f : β → Option γ} {xs : List β} {ys : List γ}
    (h : xs.mapM f = some ys) : ∀ x ∈ xs, (f x).isSome = true := by
  induction xs generalizing ys with
  | nil => exact fun x hx => (nomatch hx)
  | cons x xs ih =>
    rw [List.mapM_cons] at h
    obtain ⟨y, hy, h⟩ := Option.bind_eq_some_iff.mp h
    obtain ⟨ys', hys', -⟩ := Option.bind_eq_some_iff.mp h
    exact List.forall_mem_cons.mpr ⟨Option.isSome_of_eq_some hy, ih hys'⟩

/-- The keys of sorted rows have values. -/
theorem isSome_eval_of_sortRows {sorted : List α} (h : sortRows pg env keys rows = some sorted)
    {r : α} (hr : r ∈ rows) {key : OrderKey} (hkey : key ∈ keys) :
    (eval pg (env r) key.expr).isSome = true := by
  obtain ⟨krs, hkrs, -⟩ := Option.map_eq_some_iff.mp h
  obtain ⟨kr, hkr⟩ := Option.isSome_iff_exists.mp (isSome_of_mapM hkrs r hr)
  obtain ⟨vs, hvs, -⟩ := Option.map_eq_some_iff.mp hkr
  exact isSome_of_mapM hvs key hkey

/-- Sorting rearranges. -/
theorem perm_of_sortRows {sorted : List α}
    (h : sortRows pg env keys rows = some sorted) : sorted.Perm rows := by
  obtain ⟨krs, hkrs, rfl⟩ := Option.map_eq_some_iff.mp h
  have hsnd : krs.map Prod.snd = rows := snd_of_mapM_keyed hkrs
  have hperm := (List.perm_insertionSort
    (fun a b => compareKeys pg keys a.1 b.1 ≠ .gt) krs).map Prod.snd
  rwa [hsnd] at hperm

variable {whereSQL orderBySQL : String} {page : List α}

theorem select_eq_some_iff {limit : ℕ} {cond : Expr} (hcond : parse whereSQL = some cond)
    (hkeys : parseOrderBy orderBySQL = some keys) :
    select pg env whereSQL orderBySQL limit rows = some page ↔
      (∀ r ∈ rows, truth pg (env r) cond ≠ .err) ∧ ∃ sorted : List α,
        sortRows pg env keys (rows.filter fun r => truth pg (env r) cond = .tt) = some sorted ∧
        page = sorted.take limit := by
  unfold select
  rw [hcond, hkeys]
  simp only [Option.bind_eq_bind, Option.bind_some]
  by_cases hall : (rows.all fun r => truth pg (env r) cond ≠ .err) = true
  · have hforall : ∀ r ∈ rows, truth pg (env r) cond ≠ .err := by simpa using hall
    simp only [guard, hall, if_true, Option.pure_def, Option.bind_some, Option.bind_eq_some_iff,
      Option.some.injEq]
    constructor
    · rintro ⟨sorted, hsorted, rfl⟩
      exact ⟨hforall, sorted, hsorted, rfl⟩
    · rintro ⟨-, sorted, hsorted, rfl⟩
      exact ⟨sorted, hsorted, rfl⟩
  · have hforall : ¬∀ r ∈ rows, truth pg (env r) cond ≠ .err := by simpa using hall
    simp only [guard, hall, hforall, false_and, iff_false]
    simp [failure]

/-- What a query that succeeds returns. -/
theorem select_eq_some {limit : ℕ} (h : select pg env whereSQL orderBySQL limit rows = some page) :
    ∃ cond, ∃ sorted : List α, parse whereSQL = some cond ∧
      sorted.Perm (rows.filter fun r => truth pg (env r) cond = .tt) ∧
      page = sorted.take limit := by
  obtain ⟨cond, hcond, h⟩ := Option.bind_eq_some_iff.mp h
  obtain ⟨keys, _, h⟩ := Option.bind_eq_some_iff.mp h
  obtain ⟨_, _, h⟩ := Option.bind_eq_some_iff.mp h
  obtain ⟨sorted, hsorted, h⟩ := Option.bind_eq_some_iff.mp h
  cases h
  exact ⟨cond, sorted, hcond, perm_of_sortRows hsorted, rfl⟩

/-- A selected row is a row of the table on which the condition is TRUE. -/
theorem mem_of_select {limit : ℕ}
    (h : select pg env whereSQL orderBySQL limit rows = some page) {r : α} (hr : r ∈ page) :
    r ∈ rows ∧ ∃ cond, parse whereSQL = some cond ∧ truth pg (env r) cond = .tt := by
  obtain ⟨cond, sorted, hcond, hperm, rfl⟩ := select_eq_some h
  have hsorted : r ∈ sorted := List.mem_of_mem_take hr
  have hfilter := List.mem_filter.mp (hperm.mem_iff.mp hsorted)
  exact ⟨hfilter.1, cond, hcond, of_decide_eq_true hfilter.2⟩

end Metap.Sql
