import Metap.Framework.KeyedTable
import Metap.Framework.Transition
import Metap.Framework.Uuid

/-!
# Quarantine

Rows a migration cannot transform are moved to a second table, one transaction a row, and moved back
once somebody has corrected them.  The transaction reads the row without locking it and then deletes
whatever version is there, so that an update in between is lost, and it does not look at the
predicate again (`update_lost_in_quarantine`).

`quarantine_conserves_iff`: over any interleaving of calls, writers, resolutions and crashes, rows
and their data are conserved exactly when every row that is moved is still as it was read, and still
bad if it was updated between the query of the bad rows and that reading.
-/

namespace Metap.Reconciler

open Transition

/-! ## Tables -/

structure MainRow (D : Type*) where
  id : Uuid
  tenantID : Uuid
  data : D

structure QuarantineRow (D : Type*) where
  id : Uuid
  tenantID : Uuid
  originalData : D
  migrationID : String
  reason : String
  resolved : Bool := false

abbrev MainTable (D : Type*) := KeyedTable (@MainRow.id D)

abbrev QuarantineTable (D : Type*) := KeyedTable (@QuarantineRow.id D)

/-! ## Moving bad rows -/

variable {D : Type*}

/-- A call of `QuarantineBadRows` under way: the candidates still to be moved, and the data of the
first one once it is read. -/
structure QuarantineCall (D : Type*) where
  tenantID : Uuid
  badPredicate : D → Bool
  migrationID : String
  reason : String
  candidateIDs : List Uuid
  /-- The data of the rows when the candidates were queried. -/
  found : Uuid → Option D
  data : Option D := none
  quarantined : ℕ := 0
  skippedReferenced : ℕ := 0

namespace QuarantineCall

/-- The row of the tenant with the given id. -/
def findRow (c : QuarantineCall D) (main : MainTable D) (id : Uuid) : Option (MainRow D) :=
  (main.find id).filter fun r => r.tenantID = c.tenantID

/-- The ids of the bad rows, and no row read yet. -/
def select (main : MainTable D) (tenantID : Uuid) (badPredicate : D → Bool)
    (migrationID reason : String) : QuarantineCall D where
  tenantID
  badPredicate
  migrationID
  reason
  candidateIDs :=
    (main.rows.filter fun r => r.tenantID = tenantID && badPredicate r.data).map MainRow.id
  found id := (main.find id).map MainRow.data

/-- The first statement of a row's transaction; a row that is gone is passed over. -/
def read (c : QuarantineCall D) (main : MainTable D) (id : Uuid) (rest : List Uuid) :
    QuarantineCall D :=
  match c.findRow main id with
  | none => { c with candidateIDs := rest }
  | some r => { c with data := some r.data }

def next (c : QuarantineCall D) (rest : List Uuid) (quarantined skippedReferenced : ℕ) :
    QuarantineCall D :=
  { c with
    candidateIDs := rest
    data := none
    quarantined := c.quarantined + quarantined
    skippedReferenced := c.skippedReferenced + skippedReferenced }

/-- The row a call inserts. -/
def quarantineRow (c : QuarantineCall D) (id : Uuid) (data : D) : QuarantineRow D where
  id
  tenantID := c.tenantID
  originalData := data
  migrationID := c.migrationID
  reason := c.reason

end QuarantineCall

inductive MoveOutcome where
  | quarantined | skippedReferenced | failed
  deriving DecidableEq, Repr

/-- The rest of the transaction: delete the row, unless it is referenced, and insert what was read,
unless the id is there already. -/
def moveRow (main : MainTable D) (quarantine : QuarantineTable D) (references : List Uuid)
    (c : QuarantineCall D) (id : Uuid) (data : D) :
    MoveOutcome × MainTable D × QuarantineTable D :=
  if (c.findRow main id).isSome && references.contains id then
    (.skippedReferenced, main, quarantine)
  else
    match h : quarantine.find id with
    | some _ => (.failed, main, quarantine)
    | none => (.quarantined, main.delete fun r => r.id = id && r.tenantID = c.tenantID,
        quarantine.insert (c.quarantineRow id data) h)

/-! ## The system -/

structure QuarantineState (D : Type*) where
  main : MainTable D
  quarantine : QuarantineTable D
  /-- The ids that rows of other tables refer to. -/
  references : List Uuid
  calls : ℕ → Option (QuarantineCall D)
  /-- The ids that transactions of `Resolve` have found unresolved. -/
  resolving : List Uuid
  /-- The data last committed for a row. -/
  latest : Uuid → Option D

inductive QuarantineEvent (D : Type*) where
  | insert (row : MainRow D)
  | update (id : Uuid) (data : D)
  | refer (id : Uuid)
  | unrefer (id : Uuid)
  | select (pid : ℕ) (tenantID : Uuid) (badPredicate : D → Bool) (migrationID reason : String)
  | read (pid : ℕ)
  /-- A row is moved: the call, the data it has read, what came of it, and the data of the row when
  the candidates were queried and when it is deleted. -/
  | move (pid : ℕ) (badPredicate : D → Bool) (data : D) (outcome : MoveOutcome)
      (found current : Option D)
  /-- A call returns, or its process dies. -/
  | leave (pid : ℕ)
  | findUnresolved (id : Uuid)
  | resolve (id : Uuid) (correctedData : D)

/-- The state of a call after a move; a failed one is over. -/
def QuarantineCall.moved (c : QuarantineCall D) (rest : List Uuid) :
    MoveOutcome → Option (QuarantineCall D)
  | .quarantined => some (c.next rest 1 0)
  | .skippedReferenced => some (c.next rest 0 1)
  | .failed => none

def MainRow.withData (data : D) (r : MainRow D) : MainRow D := { r with data }

def QuarantineRow.asResolved (q : QuarantineRow D) : QuarantineRow D := { q with resolved := true }

inductive QuarantineStep : QuarantineState D → QuarantineEvent D → QuarantineState D → Prop where
  | insert {s : QuarantineState D} {row : MainRow D} (hfresh : s.latest row.id = none)
      (hnew : s.main.find row.id = none) :
      QuarantineStep s (.insert row)
        { s with
          main := s.main.insert row hnew
          latest := Function.update s.latest row.id (some row.data) }
  | update {s : QuarantineState D} {id : Uuid} {row : MainRow D} (data : D)
      (hrow : s.main.find id = some row) :
      QuarantineStep s (.update id data)
        { s with
          main := s.main.update (fun r => r.id = id) (.withData data) fun _ => rfl
          latest := Function.update s.latest id (some data) }
  | refer {s : QuarantineState D} {id : Uuid} (hrow : (s.main.find id).isSome = true) :
      QuarantineStep s (.refer id) { s with references := id :: s.references }
  | unrefer (s : QuarantineState D) (id : Uuid) :
      QuarantineStep s (.unrefer id) { s with references := s.references.erase id }
  | select {s : QuarantineState D} {pid : ℕ} (tenantID : Uuid) (badPredicate : D → Bool)
      (migrationID reason : String) (hfree : s.calls pid = none) :
      QuarantineStep s (.select pid tenantID badPredicate migrationID reason)
        { s with
          calls := Function.update s.calls pid
            (some (.select s.main tenantID badPredicate migrationID reason)) }
  | read {s : QuarantineState D} {pid : ℕ} {c : QuarantineCall D} {id : Uuid} {rest : List Uuid}
      (hcall : s.calls pid = some c) (hids : c.candidateIDs = id :: rest) (hdata : c.data = none) :
      QuarantineStep s (.read pid)
        { s with calls := Function.update s.calls pid (some (c.read s.main id rest)) }
  | move {s : QuarantineState D} {pid : ℕ} {c : QuarantineCall D} {id : Uuid} {rest : List Uuid}
      {data : D} {outcome : MoveOutcome} {main : MainTable D} {quarantine : QuarantineTable D}
      (hcall : s.calls pid = some c) (hids : c.candidateIDs = id :: rest)
      (hdata : c.data = some data)
      (hmove : moveRow s.main s.quarantine s.references c id data = (outcome, main, quarantine)) :
      QuarantineStep s
        (.move pid c.badPredicate data outcome (c.found id)
          ((c.findRow s.main id).map MainRow.data))
        { s with main, quarantine, calls := Function.update s.calls pid (c.moved rest outcome) }
  | leave (s : QuarantineState D) (pid : ℕ) :
      QuarantineStep s (.leave pid) { s with calls := Function.update s.calls pid none }
  | findUnresolved {s : QuarantineState D} {id : Uuid} {q : QuarantineRow D}
      (hq : s.quarantine.find id = some q) (hresolved : q.resolved = false) :
      QuarantineStep s (.findUnresolved id) { s with resolving := id :: s.resolving }
  | resolve {s : QuarantineState D} {id : Uuid} {tenantID : Uuid} (correctedData : D)
      (hfound : id ∈ s.resolving)
      (htenant : (s.quarantine.find id).map QuarantineRow.tenantID = some tenantID)
      (hnew : s.main.find id = none) :
      QuarantineStep s (.resolve id correctedData)
        { s with
          main := s.main.insert ⟨id, tenantID, correctedData⟩ hnew
          quarantine := s.quarantine.update (fun q => q.id = id) .asResolved fun _ => rfl
          latest := Function.update s.latest id (some correctedData) }

def QuarantineState.initial : QuarantineState D :=
  ⟨.empty, .empty, [], fun _ => none, [], fun _ => none⟩

/-! ## Conservation -/

/-- The latest data of a row is in the main table or, unresolved, in quarantine, and not in both. -/
def QuarantineState.Located (s : QuarantineState D) (id : Uuid) : Option D → Prop
  | none => s.main.find id = none ∧ s.quarantine.find id = none
  | some data =>
    ((∃ row, s.main.find id = some row ∧ row.data = data) ∧
      ∀ q, s.quarantine.find id = some q → q.resolved = true) ∨
    (s.main.find id = none ∧
      ∃ q, s.quarantine.find id = some q ∧ q.resolved = false ∧ q.originalData = data)

def QuarantineState.Conserved (s : QuarantineState D) : Prop := ∀ id, s.Located id (s.latest id)

/-- A step after which all rows are conserved; a moved row was bad, and a skipped one stays. -/
def Conserves (s : QuarantineState D) (e : QuarantineEvent D) (t : QuarantineState D) : Prop :=
  t.Conserved ∧
    match e with
    | .move _ badPredicate data .quarantined _ _ => badPredicate data = true
    | .move _ _ _ .skippedReferenced _ current => current.isSome = true ∧ t.main = s.main
    | _ => True

/-- A row that is moved is still as it was read, and what it was updated to between the query of the
candidates and the reading is bad. -/
def QuarantineEvent.MovesCurrent : QuarantineEvent D → Prop
  | .move _ badPredicate data .quarantined found current =>
    current = some data ∧ (found ≠ some data → badPredicate data = true)
  | _ => True

/-- The candidates of every call were bad when they were queried. -/
def QuarantineState.Queried (s : QuarantineState D) : Prop :=
  ∀ pid, ∀ c ∈ s.calls pid, ∀ id ∈ c.candidateIDs,
    ∃ data, c.found id = some data ∧ c.badPredicate data = true

/-! ## Steps -/

variable {id : Uuid}

/-- All that a move can do. -/
theorem moveRow_spec {main main' : MainTable D} {quarantine quarantine' : QuarantineTable D}
    {references : List Uuid} {c : QuarantineCall D} {data : D} {outcome : MoveOutcome}
    (h : moveRow main quarantine references c id data = (outcome, main', quarantine')) :
    match outcome with
    | .quarantined => quarantine.find id = none ∧
        (∀ k, main'.find k = if k = id ∧ (c.findRow main id).isSome then none else main.find k) ∧
        ∀ k, quarantine'.find k =
          if k = id then some (c.quarantineRow id data) else quarantine.find k
    | .skippedReferenced => (c.findRow main id).isSome = true ∧ main' = main ∧
        quarantine' = quarantine
    | .failed => main' = main ∧ quarantine' = quarantine := by
  unfold moveRow at h
  split at h
  · next hskip =>
    cases h
    rw [Bool.and_eq_true] at hskip
    exact ⟨hskip.1, rfl, rfl⟩
  · split at h
    · cases h
      exact ⟨rfl, rfl⟩
    · next hnone =>
      cases h
      refine ⟨hnone, fun k => ?_, KeyedTable.find_insert _ _ _⟩
      rw [KeyedTable.find_delete]
      by_cases hk : k = id
      · subst hk
        cases hrow : main.find k with
        | none => simp
        | some r =>
          have hid : r.id = k := KeyedTable.key_of_find hrow
          by_cases htenant : r.tenantID = c.tenantID <;>
            simp [QuarantineCall.findRow, hrow, hid, htenant]
      · cases hrow : main.find k with
        | none => simp [hk]
        | some r =>
          have hid : r.id ≠ id := fun h => hk ((KeyedTable.key_of_find hrow).symm.trans h)
          simp [hk, hid]

section

variable {s t : QuarantineState D}

theorem QuarantineState.Queried.of_call (h : s.Queried) {pid : ℕ} {call : Option (QuarantineCall D)}
    (hcall : ∀ c ∈ call, ∀ id ∈ c.candidateIDs,
      ∃ data, c.found id = some data ∧ c.badPredicate data = true)
    (ht : t.calls = Function.update s.calls pid call) : t.Queried := by
  intro k c hc
  rw [ht] at hc
  rcases of_update_eq_some hc with ⟨-, hc⟩ | ⟨-, hc⟩
  · exact hcall c hc
  · exact h k c hc

theorem queried_step {e : QuarantineEvent D} (h : s.Queried) (hstep : QuarantineStep s e t) :
    t.Queried := by
  cases hstep with
  | insert | update | refer | unrefer | findUnresolved | resolve => exact h
  | leave pid => exact h.of_call (by simp) rfl
  | select tenantID badPredicate migrationID reason hfree =>
    refine h.of_call ?_ rfl
    rintro _ ⟨⟩ id hid
    obtain ⟨r, hr, rfl⟩ := List.mem_map.mp hid
    obtain ⟨hmem, hbad⟩ := List.mem_filter.mp hr
    refine ⟨r.data, ?_, (Bool.and_eq_true_iff.mp hbad).2⟩
    exact congrArg (Option.map MainRow.data) (KeyedTable.find_of_mem hmem)
  | @read pid c id rest hcall hids hdata =>
    have hc := h pid c hcall
    refine h.of_call ?_ rfl
    rintro _ ⟨⟩
    unfold QuarantineCall.read
    split
    · exact fun k hk => hc k (hids ▸ List.mem_cons_of_mem id hk)
    · exact hc
  | @move pid c id rest data outcome main quarantine hcall hids hdata hmove =>
    have hc := h pid c hcall
    refine h.of_call ?_ rfl
    intro c' hc' k hk
    cases outcome <;> cases hc' <;> exact hc k (hids ▸ List.mem_cons_of_mem id hk)

theorem QuarantineState.Located.congr {data : Option D} (h : s.Located id data)
    (hmain : t.main.find id = s.main.find id)
    (hquarantine : t.quarantine.find id = s.quarantine.find id) : t.Located id data := by
  cases data with
  | none | some data =>
    unfold Located
    rw [hmain, hquarantine]
    exact h

section

variable (h : s.Conserved)

include h

/-- A step that changes one row. -/
theorem QuarantineState.Conserved.of_row (id : Uuid) (data : Option D)
    (hlatest : t.latest = Function.update s.latest id data)
    (hother : ∀ k, k ≠ id → t.main.find k = s.main.find k ∧
      t.quarantine.find k = s.quarantine.find k) (hrow : t.Located id data) : t.Conserved := by
  intro k
  rw [hlatest]
  by_cases hk : k = id
  · rw [hk, Function.update_self]
    exact hrow
  · obtain ⟨hmain, hquarantine⟩ := hother k hk
    rw [Function.update_of_ne hk]
    exact (h k).congr hmain hquarantine

variable {row : MainRow D}

/-- What is in the main table is the latest, and nothing of it is unresolved. -/
theorem QuarantineState.Conserved.latest_of_main (hrow : s.main.find id = some row) :
    s.latest id = some row.data ∧ ∀ q, s.quarantine.find id = some q → q.resolved = true := by
  have hid := h id
  cases hlatest : s.latest id with
  | none =>
    rw [hlatest] at hid
    rw [hid.1] at hrow
    cases hrow
  | some data =>
    rw [hlatest] at hid
    rcases hid with ⟨⟨row', hrow', hdata⟩, hresolved⟩ | ⟨hnone, -⟩
    · rw [hrow] at hrow'
      cases hrow'
      exact ⟨congrArg some hdata.symm, hresolved⟩
    · rw [hnone] at hrow
      cases hrow

theorem conserved_insert {hnew : s.main.find row.id = none}
    (hfresh : s.latest row.id = none) :
    QuarantineState.Conserved { s with
      main := s.main.insert row hnew
      latest := Function.update s.latest row.id (some row.data) } := by
  have hid := h row.id
  rw [hfresh] at hid
  have hinsert := KeyedTable.find_insert s.main row hnew
  refine h.of_row row.id (some row.data) rfl (fun k hk => ⟨(hinsert k).trans (if_neg hk), rfl⟩)
    (.inl ⟨⟨row, (hinsert row.id).trans (if_pos rfl), rfl⟩, fun q hq => ?_⟩)
  rw [hid.2] at hq
  cases hq

theorem conserved_update (data : D) (hrow : s.main.find id = some row) :
    QuarantineState.Conserved { s with
      main := s.main.update (fun r => r.id = id) (.withData data) fun _ => rfl
      latest := Function.update s.latest id (some data) } := by
  have hfind := KeyedTable.find_update_key s.main id (MainRow.withData data) fun _ => rfl
  refine h.of_row id (some data) rfl (fun k hk => ⟨(hfind k).trans (if_neg hk), rfl⟩)
    (.inl ⟨⟨row.withData data, ?_, rfl⟩, (h.latest_of_main hrow).2⟩)
  refine (hfind id).trans ?_
  rw [if_pos rfl, hrow, Option.map_some]

theorem conserved_resolve {tenantID : Uuid} {hnew : s.main.find id = none} (correctedData : D) :
    QuarantineState.Conserved { s with
      main := s.main.insert ⟨id, tenantID, correctedData⟩ hnew
      quarantine := s.quarantine.update (fun q => q.id = id) .asResolved fun _ => rfl
      latest := Function.update s.latest id (some correctedData) } := by
  have hinsert := KeyedTable.find_insert s.main ⟨id, tenantID, correctedData⟩ hnew
  have hfind := KeyedTable.find_update_key s.quarantine id QuarantineRow.asResolved fun _ => rfl
  refine h.of_row id (some correctedData) rfl
    (fun k hk => ⟨(hinsert k).trans (if_neg hk), (hfind k).trans (if_neg hk)⟩)
    (.inl ⟨⟨_, (hinsert id).trans (if_pos rfl), rfl⟩, fun q hq => ?_⟩)
  have hresolved := (hfind id).symm.trans hq
  rw [if_pos rfl] at hresolved
  obtain ⟨q', -, rfl⟩ := Option.map_eq_some_iff.mp hresolved
  rfl

/-- A row that is moved as it is in the main table is then in quarantine. -/
theorem conserved_move {c : QuarantineCall D} {data : D}
    (hcurrent : (c.findRow s.main id).map MainRow.data = some data) (hlatest : t.latest = s.latest)
    (hmain : ∀ k, t.main.find k =
      if k = id ∧ (c.findRow s.main id).isSome then none else s.main.find k)
    (hquarantine : ∀ k, t.quarantine.find k =
      if k = id then some (c.quarantineRow id data) else s.quarantine.find k) : t.Conserved := by
  obtain ⟨row, hrow, rfl⟩ := Option.map_eq_some_iff.mp hcurrent
  have hfind : s.main.find id = some row := (Option.filter_eq_some_iff.mp hrow).1
  refine h.of_row id (s.latest id) (hlatest.trans (Function.update_eq_self _ _).symm)
    (fun k hk => ⟨?_, ?_⟩) ?_
  · rw [hmain, if_neg (fun h => hk h.1)]
  · rw [hquarantine, if_neg hk]
  · rw [(h.latest_of_main hfind).1]
    refine .inr ⟨?_, _, (hquarantine id).trans (if_pos rfl), rfl, rfl⟩
    rw [hmain, if_pos ⟨rfl, by rw [hrow]; rfl⟩]

variable {e : QuarantineEvent D}

theorem conserves_of_movesCurrent (hqueried : s.Queried) (hcurrent : e.MovesCurrent)
    (hstep : QuarantineStep s e t) : Conserves s e t := by
  cases hstep with
  | insert hfresh hnew => exact ⟨conserved_insert h hfresh, trivial⟩
  | update data hrow => exact ⟨conserved_update h data hrow, trivial⟩
  | refer | unrefer | select | read | leave | findUnresolved => exact ⟨h, trivial⟩
  | resolve correctedData hfound htenant hnew => exact ⟨conserved_resolve h correctedData, trivial⟩
  | @move pid c id rest data outcome main quarantine hcall hids hdata hmove =>
    have hspec := moveRow_spec hmove
    cases outcome with
    | quarantined =>
      obtain ⟨-, hmain, hquarantine⟩ := hspec
      obtain ⟨found, hfound, hbad⟩ := hqueried pid c hcall id (hids ▸ List.mem_cons_self)
      refine ⟨conserved_move h hcurrent.1 rfl hmain hquarantine, ?_⟩
      -- a row that was not updated since the query is as bad as it was then
      by_cases hsame : c.found id = some data
      · cases hfound.symm.trans hsame
        exact hbad
      · exact hcurrent.2 hsame
    | skippedReferenced =>
      obtain ⟨hrow, rfl, rfl⟩ := hspec
      exact ⟨h, by rwa [Option.isSome_map], rfl⟩
    | failed =>
      obtain ⟨rfl, rfl⟩ := hspec
      exact ⟨h, trivial⟩

/-- After a move the data that was read is the latest only if it was in the main table. -/
theorem movesCurrent_of_conserves (hstep : QuarantineStep s e t) (ht : Conserves s e t) :
    e.MovesCurrent := by
  cases hstep with
  | @move pid c id rest data outcome main quarantine hcall hids hdata hmove =>
    cases outcome with
    | skippedReferenced => trivial
    | failed => trivial
    | quarantined =>
      obtain ⟨hnone, hmain, hquarantine⟩ := moveRow_spec hmove
      have hid := ht.1 id
      have hq : quarantine.find id = some (c.quarantineRow id data) :=
        (hquarantine id).trans (if_pos rfl)
      refine ⟨?_, fun _ => ht.2⟩
      cases hlatest : s.latest id with
      | none =>
        simp only [hlatest] at hid
        rw [hid.2] at hq
        cases hq
      | some latest =>
        simp only [hlatest] at hid
        -- without a quarantine row the latest data were in the main table
        have hbefore := h id
        rw [hlatest] at hbefore
        obtain ⟨⟨row, hrow, rfl⟩, -⟩ := hbefore.resolve_right fun ⟨_, q, hq, _⟩ => by
          cases hnone.symm.trans hq
        rcases hid with ⟨-, hresolved⟩ | ⟨hgone, q, hq', -, hdata'⟩
        · cases hresolved _ hq
        · -- the row has left the main table, so it was the call's, and holds what was read
          rw [hq] at hq'
          cases hq'
          have hfound : (c.findRow s.main id).isSome = true := by
            by_contra hother
            have hkept := hmain id
            rw [if_neg (fun h => hother h.2), hgone, hrow] at hkept
            cases hkept
          obtain ⟨row', hrow'⟩ := Option.isSome_iff_exists.mp hfound
          have hsame := (Option.filter_eq_some_iff.mp hrow').1
          rw [hrow] at hsame
          cases hsame
          rw [hrow', Option.map_some]
          exact congrArg some hdata'.symm
  | _ => trivial

end

/-- All along a run of calls, writers, resolutions and crashes rows are conserved, moved only when
bad and kept when referenced, exactly when every row that is moved is as it was read, and bad if it
was updated before that. -/
theorem quarantine_conserves_iff {events : List (QuarantineEvent D)}
    (hrun : Run QuarantineStep .initial events s) :
    (∀ earlier e t u, earlier ++ [e] <+: events → Run QuarantineStep .initial earlier t →
      QuarantineStep t e u → Conserves t e u) ↔ ∀ e ∈ events, e.MovesCurrent := by
  refine hrun.every_step_iff (I := fun s => s.Conserved ∧ s.Queried) (P := Conserves) ?_ ?_ ?_ ?_
  · exact fun s e t hcurrent hstep h =>
      ⟨(conserves_of_movesCurrent h.1 h.2 hcurrent hstep).1, queried_step h.2 hstep⟩
  · exact fun s e t hcurrent hstep h => conserves_of_movesCurrent h.1 h.2 hcurrent hstep
  · exact fun s e t hstep h ht => movesCurrent_of_conserves h.1 hstep ht
  · exact ⟨fun id => ⟨rfl, rfl⟩, fun pid c hc => by cases hc⟩

end

/-! ## A row that is updated while it is moved -/

/-- The id of a row whose data, a number here, is bad when it is zero. -/
def rowID : Uuid := 1

def isZero (n : ℕ) : Bool := n = 0

def rowTable (data : ℕ) : MainTable ℕ := ⟨[⟨rowID, 9, data⟩], by simp⟩

def zeroCall (candidateIDs : List Uuid) (data : Option ℕ) : QuarantineCall ℕ where
  tenantID := 9
  badPredicate := isZero
  migrationID := "m"
  reason := "bad"
  candidateIDs
  found id := ((rowTable 0).find id).map MainRow.data
  data

/-- The row is in the main table with the given data, beside at most one call. -/
def rowState (data : ℕ) (call : Option (QuarantineCall ℕ)) : QuarantineState ℕ where
  main := rowTable data
  quarantine := .empty
  references := []
  calls := Function.update (fun _ => none) 0 call
  resolving := []
  latest := Function.update (fun _ => none) rowID (some data)

theorem rowState_calls (data : ℕ) (call call' : Option (QuarantineCall ℕ)) : rowState data call' =
      { rowState data call with calls := Function.update (rowState data call).calls 0 call' } := by
  simp [rowState]

/-- The row is in quarantine, with what the call has read. -/
def quarantinedState (data : ℕ) : QuarantineState ℕ :=
  { rowState data (some (zeroCall [rowID] (some 0))) with
    main := .empty
    quarantine := ⟨[(zeroCall [] none).quarantineRow rowID 0], by simp⟩
    calls := Function.update (rowState data (some (zeroCall [rowID] (some 0)))).calls 0
      (some { zeroCall [] none with quarantined := 1 }) }

theorem step_move_zero (data : ℕ) :
    QuarantineStep (rowState data (some (zeroCall [rowID] (some 0))))
      (.move 0 isZero 0 .quarantined (some 0) (some data)) (quarantinedState data) :=
  .move (c := zeroCall [rowID] (some 0)) rfl rfl rfl rfl

/-- A bad row is inserted, and a call has read it. -/
theorem run_read_zero : ∃ events,
    Run QuarantineStep .initial events (rowState 0 (some (zeroCall [rowID] (some 0)))) ∧
      ∀ e ∈ events, e.MovesCurrent := by
  have hinsert : QuarantineStep .initial (.insert ⟨rowID, 9, 0⟩) (rowState 0 none) := by
    have h : QuarantineStep (D := ℕ) .initial (.insert ⟨rowID, 9, 0⟩) _ := .insert rfl rfl
    simpa [rowState, rowTable, QuarantineState.initial, KeyedTable.insert, KeyedTable.empty] using h
  have hselect : QuarantineStep (rowState 0 none) (.select 0 9 isZero "m" "bad")
      (rowState 0 (some (zeroCall [rowID] none))) := by
    rw [rowState_calls 0 none (some (zeroCall [rowID] none))]
    exact .select 9 isZero "m" "bad" rfl
  have hread : QuarantineStep (rowState 0 (some (zeroCall [rowID] none))) (.read 0)
      (rowState 0 (some (zeroCall [rowID] (some 0)))) := by
    rw [rowState_calls 0 (some (zeroCall [rowID] none)) (some (zeroCall [rowID] (some 0)))]
    exact .read (c := zeroCall [rowID] none) rfl rfl rfl
  exact ⟨_, (((Run.nil _).snoc hinsert).snoc hselect).snoc hread,
    by simp [QuarantineEvent.MovesCurrent]⟩

/-- A row nobody touches is moved. -/
theorem quarantine_conserves_iff_untouched :
    ∃ events e, Run QuarantineStep .initial (events ++ [e]) (quarantinedState 0) ∧
      (∀ e' ∈ events ++ [e], e'.MovesCurrent) ∧
      Conserves (rowState 0 (some (zeroCall [rowID] (some 0)))) e (quarantinedState 0) := by
  obtain ⟨events, hrun, hcurrent⟩ := run_read_zero
  have hall :
      ∀ e ∈ events ++ [.move 0 isZero 0 .quarantined (some 0) (some 0)], e.MovesCurrent := by
    rw [List.forall_mem_append, List.forall_mem_singleton]
    exact ⟨hcurrent, rfl, fun _ => rfl⟩
  have hmoved := hrun.snoc (step_move_zero 0)
  exact ⟨events, _, hmoved, hall,
    (quarantine_conserves_iff hmoved).mpr hall _ _ _ _ List.prefix_rfl hrun (step_move_zero 0)⟩

/-- The row is corrected after the call has read it: the correction is deleted, what was read is
kept in quarantine, and the correction is nowhere. -/
theorem update_lost_in_quarantine :
    ∃ events s, Run QuarantineStep .initial events s ∧ s.latest rowID = some 7 ∧
      s.main.find rowID = none ∧
      s.quarantine.rows.map QuarantineRow.originalData = [0] ∧ isZero 7 = false ∧
      ¬s.Conserved := by
  obtain ⟨events, hrun, -⟩ := run_read_zero
  have hupdate : QuarantineStep (rowState 0 (some (zeroCall [rowID] (some 0)))) (.update rowID 7)
      (rowState 7 (some (zeroCall [rowID] (some 0)))) := by
    have h : QuarantineStep (rowState 0 (some (zeroCall [rowID] (some 0)))) (.update rowID 7) _ :=
      .update 7 rfl
    simpa [rowState, rowTable, KeyedTable.update, MainRow.withData] using h
  refine ⟨_, _, (hrun.snoc hupdate).snoc (step_move_zero 7), rfl, rfl, rfl, rfl, fun h => ?_⟩
  rcases h rowID with ⟨⟨row, hrow, -⟩, -⟩ | ⟨-, q, hq, -, hdata⟩
  · cases hrow
  · cases hq
    cases hdata

end Metap.Reconciler
