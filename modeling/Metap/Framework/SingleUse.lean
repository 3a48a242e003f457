import Metap.Framework.ReadCommitted
import Metap.Framework.Transition

/-!
# Single-use records

A record that may be used once is consumed by one statement that finds it, changes or deletes it
and returns it.  At READ COMMITTED such a statement selects its rows first and evaluates its
condition again on each row once it holds the lock, so of any number of statements that overlap
only one finds the record unused.

`Consumption` says what is asked of the condition and of the change: a record that has been used
satisfies no statement's condition, and a statement selects by a key that never changes.  Over it,
`Step` is the system of all transactions that insert, discard and consume records, in any order;
`single_use` says that one record is returned to one call, and `returned_spec` what that call had
asked for.
-/

namespace Metap.SingleUse

open ReadCommitted Transition

/-- Statements `σ` that consume records `ρ` kept under keys `κ`. -/
structure Consumption (κ ρ σ : Type*) where
  keyOf : ρ → κ
  /-- The key a statement asks for. -/
  key : σ → κ
  accepts : σ → ρ → Bool
  /-- What a statement leaves of a record it accepts; `none` deletes it. -/
  use : σ → ρ → Option ρ
  key_of_accepts : ∀ q r, accepts q r = true → keyOf r = key q
  keyOf_use : ∀ q r r', use q r = some r' → keyOf r' = keyOf r
  spent : ∀ q r r', use q r = some r' → ∀ q', accepts q' r' = false

/-- How far a transaction has come. -/
inductive Call (κ ρ σ : Type*) where
  /-- It inserts or discards records. -/
  | writing
  | running (q : σ) (targets : List κ) (row : Option ρ)
  | returned (q : σ) (row : Option ρ)
  | closed

/-- The record a call has taken, and for which statement. -/
def Call.Took {κ ρ σ : Type*} : Call κ ρ σ → σ → ρ → Prop
  | .running q _ row, q', r => q = q' ∧ row = some r
  | .returned q row, q', r => q = q' ∧ row = some r
  | _, _, _ => False

/-- The call may have written. -/
def Call.mayWrite {κ ρ σ : Type*} : Call κ ρ σ → Bool
  | .writing | .running _ _ _ => true
  | _ => false

/-- The table, the calls, and, as history, the record each key was issued with. -/
structure Calls (τ κ ρ σ : Type*) where
  db : Db τ κ ρ
  call : τ → Option (Call κ ρ σ) := fun _ => none
  issued : κ → Option ρ := db.committed

inductive Action (τ κ ρ σ : Type*) where
  | insert (t : τ) (r : ρ)
  | discard (t : τ) (k : κ)
  | commit (t : τ)
  | start (t : τ) (q : σ)
  | take (t : τ) (k : κ)
  | finish (t : τ)
  | rollback (t : τ)

namespace Calls

variable {τ κ ρ σ : Type*} [DecidableEq τ] (s : Calls τ κ ρ σ)

def enter (t : τ) (c : Call κ ρ σ) : Calls τ κ ρ σ :=
  { s with call := fun t' => if t' = t then some c else s.call t' }

@[simp]
theorem call_enter (t t' : τ) (c : Call κ ρ σ) :
    (s.enter t c).call t' = if t' = t then some c else s.call t' := rfl

/-- The transaction is new, or has only inserted and discarded. -/
def Writable (t : τ) : Prop := ∀ c ∈ s.call t, c = .writing

end Calls

variable {τ κ ρ σ : Type*}

/-- A table before any of the calls. -/
structure Calls.Initial (C : Consumption κ ρ σ) (s : Calls τ κ ρ σ) : Prop where
  writes : ∀ t k, s.db.writes t k = none
  call : ∀ t, s.call t = none
  issued : s.issued = s.db.committed
  key_eq : ∀ k r, s.db.committed k = some r → C.keyOf r = k

/-- No statement accepts the record. -/
def Consumption.Spent (C : Consumption κ ρ σ) (r : ρ) : Prop := ∀ q, C.accepts q r = false

/-- What holds of a transaction's call. -/
structure CallInv (C : Consumption κ ρ σ) (s : Calls τ κ ρ σ) (t : τ) (c : Call κ ρ σ) : Prop where
  accepted : ∀ q r, c.Took q r → C.accepts q r = true ∧ s.issued (C.key q) = some r
  locked : ∀ q targets r, c = .running q targets (some r) →
    s.db.writes t (C.key q) = some (C.use q r)
  used : ∀ q r, c = .returned q (some r) → ∀ r', s.db.Version (C.key q) r' → C.Spent r'

structure Inv (C : Consumption κ ρ σ) (s : Calls τ κ ρ σ) : Prop where
  exclusive : s.db.Exclusive
  /-- Every version is the record that was issued, or has been used. -/
  versions : ∀ k r, s.db.Version k r → C.keyOf r = k ∧
    ∃ r₀, s.issued k = some r₀ ∧ (r = r₀ ∨ C.Spent r)
  born : ∀ t k, (s.db.writes t k).isSome → (s.issued k).isSome
  idle : ∀ t, (∀ c ∈ s.call t, c.mayWrite = false) → ∀ k, s.db.writes t k = none
  calls : ∀ t, ∀ c ∈ s.call t, CallInv C s t c
  unique : ∀ t t' q q' r r', s.call t = some (.returned q (some r)) →
    ∀ c ∈ s.call t', c.Took q' r' → C.key q = C.key q' → t = t'

inductive Step [DecidableEq τ] [DecidableEq κ] (C : Consumption κ ρ σ) :
    Calls τ κ ρ σ → Action τ κ ρ σ → Calls τ κ ρ σ → Prop where
  /-- A record is inserted under a key that was never used. -/
  | insert {s} (t : τ) (r : ρ) (hopen : s.Writable t) (hnew : s.issued (C.keyOf r) = none) :
      Step C s (.insert t r) (Calls.enter
        { s with
          db := s.db.write t (C.keyOf r) (some r)
          issued := fun k => if k = C.keyOf r then some r else s.issued k } t .writing)
  | discard {s} (t : τ) (k : κ) (hopen : s.Writable t) (hfree : s.db.Free t k)
      (hrow : (s.db.view t k).isSome) :
      Step C s (.discard t k) (Calls.enter { s with db := s.db.write t k none } t .writing)
  | commit {s} (t : τ) (hcall : s.call t = some .writing) :
      Step C s (.commit t) (Calls.enter { s with db := s.db.commit t } t .closed)
  | start {s} (t : τ) (q : σ) (targets : List κ) (hnew : s.call t = none)
      (hselects : s.db.Selects t (C.accepts q) targets) :
      Step C s (.start t q) (s.enter t (.running q targets none))
  /-- The condition is evaluated on the row there is once nobody else holds its lock. -/
  | take {s} (t : τ) (q : σ) (k : κ) (targets : List κ) (row : Option ρ)
      (hcall : s.call t = some (.running q (k :: targets) row)) (hfree : s.db.Free t k) :
      Step C s (.take t k) (Calls.enter
        { s with db := s.db.updateRow t (C.accepts q) (C.use q) k } t
        (.running q targets (row.or ((s.db.view t k).filter (C.accepts q)))))
  /-- The statement is a transaction of its own. -/
  | finish {s} (t : τ) (q : σ) (row : Option ρ) (hcall : s.call t = some (.running q [] row)) :
      Step C s (.finish t) (Calls.enter { s with db := s.db.commit t } t (.returned q row))
  | rollback {s} (t : τ) (c : Call κ ρ σ) (hcall : s.call t = some c) (hopen : c.mayWrite) :
      Step C s (.rollback t) (Calls.enter { s with db := s.db.rollback t } t .closed)

/-! ## What every step keeps -/

variable {C : Consumption κ ρ σ} {s : Calls τ κ ρ σ} {t : τ}

theorem Calls.Initial.inv (h : s.Initial C) : Inv C s := by
  have hversion : ∀ {k r}, s.db.Version k r → s.db.committed k = some r := by
    rintro k r (hr | ⟨t, hr⟩)
    · exact hr
    · rw [h.writes t k] at hr
      cases hr
  refine ⟨?_, fun k r hr => ⟨h.key_eq k r (hversion hr), r, ?_, .inl rfl⟩, ?_,
    fun t _ k => h.writes t k, fun t => by simp [h.call t], fun t => by simp [h.call t]⟩
  · intro t t' k ht
    rw [h.writes t k] at ht
    cases ht
  · rw [h.issued, hversion hr]
  · intro t k ht
    rw [h.writes t k] at ht
    cases ht

variable [DecidableEq τ]

section

variable {c : Call κ ρ σ} {db : Db τ κ ρ} {issued : κ → Option ρ} (h : Inv C s)
  (hexclusive : db.Exclusive)
  (hversions : ∀ k r, db.Version k r → C.keyOf r = k ∧
    ∃ r₀, issued k = some r₀ ∧ (r = r₀ ∨ C.Spent r))
  (hissued : ∀ k r, s.issued k = some r → issued k = some r)
  (hborn : ∀ k, (db.writes t k).isSome → (issued k).isSome)
  (hothers : ∀ t', t' ≠ t → ∀ k, db.writes t' k = s.db.writes t' k)
  (hidle : c.mayWrite = false → ∀ k, db.writes t k = none)
  (hspent : ∀ k, (s.issued k).isSome → (∀ r, s.db.Version k r → C.Spent r) →
    ∀ r, db.Version k r → C.Spent r)
include h hexclusive hversions hissued hborn hothers hidle hspent

/-- A transaction moves on: the others keep their writes, and used records stay used. -/
theorem Inv.enter (hcall : CallInv C ⟨db, s.call, issued⟩ t c)
    (hunique : ∀ t', t' ≠ t → ∀ c' ∈ s.call t', ∀ q q' r r', C.key q = C.key q' →
      (c = .returned q (some r) → ¬c'.Took q' r') ∧ (c' = .returned q (some r) → ¬c.Took q' r')) :
    Inv C (Calls.enter ⟨db, s.call, issued⟩ t c) := by
  refine ⟨hexclusive, hversions, ?_, ?_, ?_, ?_⟩
  · intro t' k ht'
    by_cases ht : t' = t
    · subst ht
      exact hborn k ht'
    · obtain ⟨r, hr⟩ := Option.isSome_iff_exists.mp (h.born t' k (hothers t' ht k ▸ ht'))
      simp [Calls.enter, hissued k r hr]
  · intro t' hc k
    by_cases ht : t' = t
    · subst ht
      exact hidle (hc c (by simp)) k
    · refine (hothers t' ht k).trans (h.idle t' (fun c' hc' => hc c' ?_) k)
      simpa [ht] using hc'
  · intro t' c' hc'
    rcases ite_eq_iff.mp hc' with ⟨rfl, ⟨⟩⟩ | ⟨ht, hc'⟩
    · exact ⟨hcall.accepted, hcall.locked, hcall.used⟩
    · have hc := h.calls t' c' hc'
      refine ⟨fun q r htook => ⟨(hc.accepted q r htook).1, hissued _ r (hc.accepted q r htook).2⟩,
        fun q targets r heq => (hothers t' ht _).trans (hc.locked q targets r heq),
        fun q r heq => hspent _ ?_ (hc.used q r heq)⟩
      subst heq
      simp [(hc.accepted q r ⟨rfl, rfl⟩).2]
  · intro t₁ t₂ q q' r r' hc₁ c₂ hc₂ htook hkey
    rcases ite_eq_iff.mp hc₁ with ⟨rfl, ⟨⟩⟩ | ⟨ht₁, h₁⟩ <;>
    rcases ite_eq_iff.mp hc₂ with ⟨rfl, ⟨⟩⟩ | ⟨ht₂, h₂⟩
    · rfl
    · exact absurd htook ((hunique t₂ ht₂ c₂ h₂ q q' r r' hkey).1 rfl)
    · exact absurd htook ((hunique t₁ ht₁ _ h₁ q q' r r' hkey).2 rfl)
    · exact h.unique t₁ t₂ q q' r r' h₁ c₂ h₂ htook hkey

/-- A transaction that takes no record moves on. -/
theorem Inv.move (htook : ∀ q r, ¬c.Took q r) : Inv C (Calls.enter ⟨db, s.call, issued⟩ t c) := by
  have hfree : ∀ {q r}, c = .returned q (some r) → False := by
    rintro q r rfl
    exact htook q r ⟨rfl, rfl⟩
  refine h.enter hexclusive hversions hissued hborn hothers hidle hspent
    ⟨fun q r h => absurd h (htook q r), ?_, fun q r h => (hfree h).elim⟩
    fun t' _ c' _ q q' r r' _ => ⟨fun h => (hfree h).elim, fun _ => htook q' r'⟩
  rintro q targets r rfl
  exact absurd ⟨rfl, rfl⟩ (htook q r)

end

/-- A transaction without a taken record ends. -/
theorem Inv.close (h : Inv C s) {db : Db τ κ ρ} (hexclusive : db.Exclusive)
    (hwrites : ∀ t' k, db.writes t' k = if t' = t then none else s.db.writes t' k)
    (hold : ∀ {k r}, db.Version k r → s.db.Version k r) :
    Inv C (Calls.enter { s with db } t .closed) := by
  refine h.move hexclusive (fun k r hr => h.versions k r (hold hr)) (fun _ _ hr => hr) ?_ ?_ ?_
    (fun k _ hused r hr => hused r (hold hr)) nofun
  · intro k hk
    rw [hwrites, if_pos rfl] at hk
    cases hk
  · exact fun t' ht' k => by rw [hwrites, if_neg ht']
  · exact fun _ k => by rw [hwrites, if_pos rfl]

variable {k : κ} {q : σ} {targets : List κ} {row : Option ρ}

/-- A call passes over a row it no longer accepts. -/
theorem Inv.skip (h : Inv C s) (hcall : s.call t = some (.running q (k :: targets) row)) :
    Inv C (s.enter t (.running q targets row)) := by
  have hc := h.calls t _ hcall
  refine h.enter h.exclusive h.versions (fun _ _ hr => hr) (h.born t) (fun _ _ _ => rfl)
    (by simp [Call.mayWrite]) (fun _ _ hused => hused) ⟨hc.accepted, ?_, by simp⟩ ?_
  · rintro _ _ r ⟨⟩
    exact hc.locked q _ r rfl
  · intro t' ht' c' hc' q₁ q₂ r₁ r₂ hkey
    refine ⟨by simp, ?_⟩
    rintro rfl htook
    exact ht' (h.unique t' t q₁ q₂ r₁ r₂ hc' _ hcall htook hkey)

theorem Inv.finish (h : Inv C s) (hcall : s.call t = some (.running q [] row)) :
    Inv C (Calls.enter { s with db := s.db.commit t } t (.returned q row)) := by
  have hc := h.calls t _ hcall
  have hold : ∀ {k r}, (s.db.commit t).Version k r → s.db.Version k r := Db.version_of_commit
  have hwrites : ∀ k, (s.db.commit t).writes t k = none := fun k => by
    rw [Db.writes_commit, if_pos rfl]
  have hothers : ∀ t', t' ≠ t → ∀ k, (s.db.commit t).writes t' k = s.db.writes t' k :=
    fun t' ht' k => by rw [Db.writes_commit, if_neg ht']
  refine h.enter h.exclusive.commit (fun k r hr => h.versions k r (hold hr)) (fun _ _ hr => hr)
    (fun k hk => h.born t k (Db.isSome_of_ended hk)) hothers (fun _ => hwrites)
    (fun k _ hused r hr => hused r (hold hr)) ⟨hc.accepted, by simp, ?_⟩ ?_
  · rintro _ r ⟨⟩ r' hr'
    -- what is committed now is what the call left, and nobody else holds the row
    have hlocked := hc.locked q [] r rfl
    rcases hr' with hr' | ⟨t₂, hr'⟩
    · exact C.spent q r r' ((Db.view_of_writes_eq_some hlocked).symm.trans hr')
    · obtain ⟨ht₂, hr'⟩ := Option.ite_none_left_eq_some.mp hr'
      exact absurd (h.exclusive t₂ t (C.key q) (by simp [hr']) (by simp [hlocked])) ht₂
  · intro t' ht' c' hc' q₁ q₂ r₁ r₂ hkey
    constructor
    · rintro ⟨⟩ htook
      cases c' with
      | writing | closed => exact htook
      | running q' targets row' =>
        -- two calls that hold a record of one key would both have its lock
        obtain ⟨rfl, rfl⟩ := htook
        have h₁ := hc.locked q [] r₁ rfl
        have h₂ := (h.calls t' _ hc').locked q' targets r₂ rfl
        rw [← hkey] at h₂
        exact ht' (h.exclusive t' t (C.key q) (by simp [h₂]) (by simp [h₁]))
      | returned q' row' =>
        obtain ⟨rfl, rfl⟩ := htook
        exact ht' (h.unique t' t q' q r₂ r₁ hc' _ hcall ⟨rfl, rfl⟩ hkey.symm)
    · rintro rfl htook
      exact ht' (h.unique t' t q₁ q₂ r₁ r₂ hc' _ hcall htook hkey)

variable [DecidableEq κ]

theorem Inv.insert (h : Inv C s) {r : ρ} (hnew : s.issued (C.keyOf r) = none) :
    Inv C (Calls.enter
      { s with
        db := s.db.write t (C.keyOf r) (some r)
        issued := fun k => if k = C.keyOf r then some r else s.issued k } t .writing) := by
  have hunborn : ∀ {k r'}, s.db.Version k r' → k ≠ C.keyOf r := by
    rintro k r' hr' rfl
    obtain ⟨-, r₀, hr₀, -⟩ := h.versions _ r' hr'
    rw [hnew] at hr₀
    cases hr₀
  have hfree : s.db.Free t (C.keyOf r) := by
    intro t' _
    by_contra hwritten
    have := h.born t' _ (Option.isSome_iff_ne_none.mpr hwritten)
    rw [hnew] at this
    cases this
  refine h.move (h.exclusive.write hfree) ?_ ?_ ?_ (fun _ ht' _ => Db.writes_write_of_ne ht')
    (by simp [Call.mayWrite]) ?_ (by simp [Call.Took])
  · intro k r' hr'
    rcases Db.version_of_write hr' with hold | ⟨rfl, hnew'⟩
    · simp only [if_neg (hunborn hold)]
      exact h.versions k r' hold
    · cases hnew'
      exact ⟨rfl, r, by simp, .inl rfl⟩
  · intro k r' hr'
    have hne : k ≠ C.keyOf r := by
      rintro rfl
      rw [hnew] at hr'
      cases hr'
    simp [hne, hr']
  · intro k hk
    by_cases hself : k = C.keyOf r
    · simp [hself]
    · rw [Db.writes_write_of_key_ne hself] at hk
      simpa [hself] using h.born t k hk
  · intro k hborn hused r' hr'
    rcases Db.version_of_write hr' with hold | ⟨rfl, -⟩
    · exact hused r' hold
    · rw [hnew] at hborn
      cases hborn

theorem Inv.discard (h : Inv C s) (hfree : s.db.Free t k) (hrow : (s.db.view t k).isSome) :
    Inv C (Calls.enter { s with db := s.db.write t k none } t .writing) := by
  have hold : ∀ {k' r}, (s.db.write t k none).Version k' r → s.db.Version k' r := by
    intro k' r hr
    rcases Db.version_of_write hr with hr | ⟨-, hnone⟩
    · exact hr
    · cases hnone
  refine h.move (h.exclusive.write hfree) (fun k' r hr => h.versions k' r (hold hr))
    (fun _ _ hr => hr) ?_
    (fun _ ht' _ => Db.writes_write_of_ne ht') (by simp [Call.mayWrite])
    (fun k' _ hused r hr => hused r (hold hr)) (by simp [Call.Took])
  intro k' hk'
  by_cases hself : k' = k
  · obtain ⟨r, hr⟩ := Option.isSome_iff_exists.mp hrow
    obtain ⟨-, r₀, hr₀, -⟩ := h.versions k r (Db.version_of_view hr)
    simp [hself, hr₀]
  · rw [Db.writes_write_of_key_ne hself] at hk'
    exact h.born t k' hk'

/-- A call takes the record only as it was issued, and only if no call has returned it. -/
theorem Inv.takes (h : Inv C s) {r : ρ} (hfree : s.db.Free t (C.key q))
    (hview : s.db.view t (C.key q) = some r) (haccepts : C.accepts q r = true) :
    Inv C (Calls.enter { s with db := s.db.write t (C.key q) (C.use q r) } t
      (.running q targets (some r))) := by
  have hversion := Db.version_of_view hview
  obtain ⟨-, r₀, hissued, hr₀⟩ := h.versions _ r hversion
  have hunspent : ¬C.Spent r := by
    intro hspent
    rw [hspent q] at haccepts
    cases haccepts
  obtain rfl : r = r₀ := hr₀.resolve_right hunspent
  have hversions : ∀ {k r'}, (s.db.write t (C.key q) (C.use q r)).Version k r' →
      s.db.Version k r' ∨ k = C.key q ∧ C.keyOf r' = k ∧ C.Spent r' := by
    intro k r' hr'
    rcases Db.version_of_write hr' with hold | ⟨rfl, hnew⟩
    · exact .inl hold
    · refine .inr ⟨rfl, ?_, C.spent q r r' hnew⟩
      rw [C.keyOf_use q r r' hnew, C.key_of_accepts q r haccepts]
  refine h.enter (h.exclusive.write hfree) ?_ (fun _ _ hr => hr) ?_
    (fun _ ht' _ => Db.writes_write_of_ne ht') (by simp [Call.mayWrite]) ?_ ⟨?_, ?_, by simp⟩ ?_
  · intro k r' hr'
    rcases hversions hr' with hold | ⟨rfl, hkey, hspent⟩
    · exact h.versions k r' hold
    · exact ⟨hkey, r, hissued, .inr hspent⟩
  · intro k hk
    by_cases hself : k = C.key q
    · simp [hself, hissued]
    · rw [Db.writes_write_of_key_ne hself] at hk
      exact h.born t k hk
  · intro k _ hused r' hr'
    rcases hversions hr' with hold | hnew
    · exact hused r' hold
    · exact hnew.2.2
  · rintro _ _ ⟨rfl, ⟨⟩⟩
    exact ⟨haccepts, hissued⟩
  · rintro _ _ _ ⟨⟩
    exact Db.writes_write_self
  · intro t' _ c' hc' q₁ q₂ r₁ r₂ hkey
    refine ⟨by simp, ?_⟩
    rintro rfl ⟨rfl, -⟩
    exact hunspent ((h.calls t' _ hc').used q₁ r₁ rfl r (hkey ▸ hversion))

theorem Inv.take (h : Inv C s) (hcall : s.call t = some (.running q (k :: targets) row))
    (hfree : s.db.Free t k) :
    Inv C (Calls.enter { s with db := s.db.updateRow t (C.accepts q) (C.use q) k } t
      (.running q targets (row.or ((s.db.view t k).filter (C.accepts q))))) := by
  rcases Db.updateRow_cases s.db t (C.accepts q) (C.use q) k with ⟨r, hview, haccepts, heq⟩ |
    ⟨hfails, heq⟩
  · have hkey : k = C.key q :=
      (h.versions k r (Db.version_of_view hview)).1.symm.trans (C.key_of_accepts q r haccepts)
    -- a record taken before would be seen as it was left
    have hfirst : row = none := by
      cases row with
      | none => rfl
      | some r₀ =>
        have hlocked := (h.calls t _ hcall).locked q _ r₀ rfl
        rw [← hkey] at hlocked
        rw [Db.view_of_writes_eq_some hlocked] at hview
        rw [C.spent q r₀ r hview q] at haccepts
        cases haccepts
    subst hkey hfirst
    rw [heq, hview, Option.none_or, Option.filter_some, if_pos haccepts]
    exact h.takes hfree hview haccepts
  · have hnone : (s.db.view t k).filter (C.accepts q) = none := by
      cases hview : s.db.view t k with
      | none => rfl
      | some r => simp [Option.filter_some, hfails r hview]
    rw [heq, hnone, Option.or_none]
    exact h.skip hcall

theorem Inv.step (h : Inv C s) {a : Action τ κ ρ σ} {s' : Calls τ κ ρ σ}
    (hstep : Step C s a s') : Inv C s' := by
  cases hstep with
  | insert t r hopen hnew => exact h.insert hnew
  | discard t k hopen hfree hrow => exact h.discard hfree hrow
  | commit t hcall =>
    exact h.close h.exclusive.commit (fun _ _ => rfl) Db.version_of_commit
  | start t q targets hnew hselects =>
    exact h.move h.exclusive h.versions (fun _ _ hr => hr) (h.born t) (fun _ _ _ => rfl)
      (by simp [Call.mayWrite]) (fun k _ hused => hused) (by simp [Call.Took])
  | take t q k targets row hcall hfree => exact h.take hcall hfree
  | finish t q row hcall => exact h.finish hcall
  | rollback t c hcall hopen =>
    exact h.close h.exclusive.rollback (fun _ _ => rfl) Db.version_of_rollback

/-! ## Whole runs -/

section

variable {s₀ : Calls τ κ ρ σ} {as : List (Action τ κ ρ σ)} (hinit : s₀.Initial C)
  (hrun : Run (Step C) s₀ as s)

include hinit hrun

theorem Inv.run : Inv C s :=
  hrun.invariant (C := fun _ => True) (fun _ _ _ _ hstep h => h.step hstep) (fun _ _ => trivial)
    hinit.inv

/-- A record was there before the run, or was inserted in it. -/
theorem issued_spec {k : κ} {r : ρ} (hissued : s.issued k = some r) :
    s₀.db.committed k = some r ∨ ∃ t, .insert t r ∈ as := by
  have hall : ∀ k r, s.issued k = some r →
      s₀.db.committed k = some r ∨ ∃ t, .insert t r ∈ as := by
    refine hrun.history (I := fun as s => ∀ k r, s.issued k = some r →
      s₀.db.committed k = some r ∨ ∃ t, .insert t r ∈ as) ?_ ?_
    · intro k r hr
      rw [hinit.issued] at hr
      exact .inl hr
    · intro as s a s' ih hstep k r hr
      have hmore : s.issued k = some r → s₀.db.committed k = some r ∨
          ∃ t, .insert t r ∈ as ++ [a] :=
        fun hr => (ih k r hr).imp_right fun hold => hold.imp fun t ht => List.mem_append_left _ ht
      cases hstep with
      | insert t r' hopen hnew =>
        change (if k = C.keyOf r' then some r' else s.issued k) = some r at hr
        split at hr
        · cases hr
          exact .inr ⟨t, by simp⟩
        · exact hmore hr
      | discard | commit | start | take | finish | rollback => exact hmore hr
  exact hall k r hissued

/-- One record is returned to one call. -/
theorem single_use {t t' : τ} {q q' : σ} {r r' : ρ} (ht : s.call t = some (.returned q (some r)))
    (ht' : s.call t' = some (.returned q' (some r'))) (hkey : C.key q = C.key q') : t = t' :=
  (Inv.run hinit hrun).unique t t' q q' r r' ht _ ht' ⟨rfl, rfl⟩ hkey

/-- What a call returns is a record as it was issued, which the call's statement accepts. -/
theorem returned_spec {q : σ} {r : ρ} (ht : s.call t = some (.returned q (some r))) :
    C.accepts q r = true ∧
      (s₀.db.committed (C.key q) = some r ∨ ∃ t', .insert t' r ∈ as) := by
  obtain ⟨haccepts, hissued⟩ := ((Inv.run hinit hrun).calls t _ ht).accepted q r ⟨rfl, rfl⟩
  exact ⟨haccepts, issued_spec hinit hrun hissued⟩

end

end Metap.SingleUse
