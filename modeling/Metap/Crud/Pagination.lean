import Metap.Crud.Masking
import Metap.Framework.Keyset
import Metap.Query.Continuation

/-!
# Reading a list to its end

A page that is not the last one comes with a cursor, and the request for the next page sends it
back.  `followPages` is a client that does so until no cursor comes.  On a table that does not
change, the client reads the whole answer of the query, each row once and in order, and comes to an
end: `followPages_reads_full`.

The proof instantiates the keyset library: by `Query.cursorTruth_position` the rows of a later page
are those of the full answer that stand after the cursor.
-/

namespace Metap.Crud

open Sql Query Builder

/-! ## The client -/

/-- The text form of cursors: what is written is read back, and the identifiers have the shape the
reader checks. -/
structure CursorCodec (svc : Service) where
  write : Cursor → String
  read_write : ∀ c, svc.readCursor (write c) = some c
  shape : ∀ id, isCursorUUID (svc.codec.format id) = true

section

variable (svc : Service) (store : Store) (rc : RequestContext) (entityName : String)
  (input : ListInput)

/-- One request, with the cursor of the page before. -/
def requestPage (codec : CursorCodec svc) (cursor : Option Cursor) :
    Except ServiceError (ListPage × Option Cursor) :=
  (list svc store rc entityName { input with cursor := cursor.map codec.write }).map fun page =>
    (page, page.page.nextCursor)

/-- Request page after page, at most `fuel` of them. -/
def followPages (codec : CursorCodec svc) (fuel : ℕ) :
    Except ServiceError (Option (List ListPage)) :=
  Keyset.follow (requestPage svc store rc entityName input codec) fuel none

end

section

variable (svc : Service) (store : Store) (o : Opened) (planned : PlannedListQuery)

/-- The rows of an entity's table. -/
def tableRows : List StoredRecord := (store o.entity.tableName).records.rows

/-- The answer of the planned query without its limit. -/
def fullResult : Option (List StoredRecord) :=
  Sql.select svc.pg (fun r => envOf r.row planned.params) planned.whereSQL planned.orderBySQL
    (tableRows store o).length (tableRows store o)

/-- The value of the sort expression on a row. -/
def sortValue (r : StoredRecord) : Option Value :=
  resolvedValue svc.pg o.entity planned.resolvedSort.field r.row

/-- The text the cursor takes from a row is read back, at the type of the sort expression, as the
row's sort value. -/
def CarriesSortValue (r : StoredRecord) : Prop :=
  (match sortFieldValue svc (recordDto o.entity.name r) planned.resolvedSort.field with
    | none => some .null
    | some text =>
      boundAt svc.pg (sortColType o.entity planned.resolvedSort.field).sqlType
        (sortValue svc o planned r) (some (.text text))) = sortValue svc o planned r

/-- A row as the answer shows it. -/
def presentRow (r : StoredRecord) : RecordDto :=
  hydrateRelatedDisplay svc store o
    (maskRecordForRead o.entity o.ctx.rc o.ctx.snapshot (recordDto o.entity.name r))

/-- Every row has a sort value, and they are null or of one ordered type. -/
structure Sortable : Prop where
  collation : Collation svc.pg
  defined : ∀ r ∈ tableRows store o, (sortValue svc o planned r).isSome = true
  oneType : OneType svc.pg {v | ∃ r ∈ tableRows store o, sortValue svc o planned r = some v}

/-- The cursor of a row. -/
abbrev rowCursor (r : StoredRecord) : Cursor := nextCursor svc planned (recordDto o.entity.name r)

/-- A row's place in the order of the page. -/
def rowPosition (r : StoredRecord) : Position := ((sortValue svc o planned r).getD .null, r.id)

end

/-! ## One page -/

section

variable {svc : Service} {store : Store} {rc : RequestContext} {entityName : String}
  {input : ListInput} {o : Opened} {planned : PlannedListQuery}

/-- A page and its cursor, from the rows that are still to be read. -/
theorem requestPage_eq {codec : CursorCodec svc} {cursor : Option Cursor}
    {planned' : PlannedListQuery} {rest : List StoredRecord}
    (hopen : openForRead svc store rc entityName = .ok o)
    (hplan : planPage svc o { input with cursor := cursor.map codec.write } = .ok planned')
    (hrows : fetchPage svc store o planned' = .ok (rest.take (planned'.limit + 1).toNat))
    (hsort : planned'.resolvedSort = planned.resolvedSort) (hlimit : 0 ≤ planned'.limit) :
    ∃ page, requestPage svc store rc entityName input codec cursor =
        .ok (page, if planned'.limit.toNat < rest.length then
          (rest.take planned'.limit.toNat).getLast?.map fun r =>
            rowCursor svc o planned r else none) ∧
      page.data = (rest.take planned'.limit.toNat).map (presentRow svc store o) := by
  obtain ⟨n, hn⟩ := Int.eq_ofNat_of_zero_le hlimit
  have htoNat : planned'.limit.toNat = n := by omega
  have hfetched : (planned'.limit + 1).toNat = n + 1 := by omega
  rw [hfetched] at hrows
  rw [htoNat]
  have hlist := list_of_rows hopen hplan hrows
  have hmore : planned'.limit < ((rest.take (n + 1)).length : ℤ) ↔ n < rest.length := by
    rw [List.length_take]
    omega
  have htake : (rest.take (n + 1)).take n = rest.take n := by
    rw [List.take_take, Nat.min_eq_left (Nat.le_succ n)]
  have hcursor : pageCursor svc o planned' (rest.take (n + 1)) =
      if n < rest.length then (rest.take n).getLast?.map fun r =>
        rowCursor svc o planned r else none := by
    unfold pageCursor
    rw [htoNat, htake, Option.map_map]
    have hkey : nextCursor svc planned' = nextCursor svc planned := by
      funext last
      rw [nextCursor, nextCursor, hsort]
    rw [hkey]
    simp only [hmore]
    rfl
  have hdata : maskedPage o planned' (rest.take (n + 1)) = (rest.take n).map fun r =>
      maskRecordForRead o.entity o.ctx.rc o.ctx.snapshot (recordDto o.entity.name r) := by
    rw [maskedPage_eq hlimit, htoNat, htake]
  refine ⟨presentPage svc store o planned' (rest.take (n + 1)), ?_, ?_⟩
  · rw [requestPage, hlist, ← hcursor]
    rfl
  · show (maskedPage o planned' (rest.take (n + 1))).map _ = _
    rw [hdata, List.map_map]
    rfl

/-! ## The rows of a page -/

/-- The order of the page: strictly before, by sort value and id. -/
def RowLt (svc : Service) (o : Opened) (planned : PlannedListQuery) (r r' : StoredRecord) : Prop :=
  comparePosition svc.pg ⟨.star, planned.resolvedSort.descending, planned.resolvedSort.descending⟩
    (rowPosition svc o planned r) (rowPosition svc o planned r') = .lt

instance (svc : Service) (o : Opened) (planned : PlannedListQuery) :
    DecidableRel (RowLt svc o planned) :=
  fun _ _ => inferInstanceAs (Decidable (_ = _))

variable {r c : StoredRecord} {full : List StoredRecord}

theorem Sortable.mem (h : Sortable svc store o planned) (hr : r ∈ tableRows store o) :
    (rowPosition svc o planned r).1 ∈
      {v | ∃ r ∈ tableRows store o, sortValue svc o planned r = some v} := by
  obtain ⟨v, hv⟩ := Option.isSome_iff_exists.mp (h.defined r hr)
  exact ⟨r, hr, by rw [rowPosition, hv, Option.getD_some]⟩

theorem Sortable.asymm (h : Sortable svc store o planned) {r' : StoredRecord}
    (hr : r ∈ tableRows store o) (hr' : r' ∈ tableRows store o) (hlt : RowLt svc o planned r r') :
    ¬RowLt svc o planned r' r := by
  unfold RowLt at hlt ⊢
  rw [comparePosition_swap h.collation h.oneType (h.mem hr) (h.mem hr'), hlt]
  decide

variable {listView : Option EntityListView}

/-- The conditions of a request on a row. -/
abbrev rowTruth (svc : Service) (o : Opened) (listView : Option EntityListView) (input : ListInput)
    (r : StoredRecord) : Truth :=
  allTruth (listTruths svc.pg svc.codec.parse svc.readCursor o.entity listView input o.tenantID
    o.ctx.rc (o.ctx.snapshot.getRecordPolicies .read)) r.row

section

variable (hmeans : ListMeaning svc.pg svc.codec.parse svc.readCursor o.entity o.tenantID listView
    input o.ctx.rc (o.ctx.snapshot.getRecordPolicies .read) planned)
  (hsortable : Sortable svc store o planned)

include hmeans hsortable

/-- What a planned query selects of a sortable table. -/
theorem select_eq_some_iff_sorted {limit : ℕ} {page : List StoredRecord} :
    Sql.select svc.pg (fun r => envOf r.row planned.params) planned.whereSQL planned.orderBySQL
        limit (tableRows store o) = some page ↔
      (∀ r ∈ tableRows store o, rowTruth svc o listView input r ≠ .err) ∧
      ∃ sorted : List StoredRecord,
        (sorted.Perm ((tableRows store o).filter (selects svc o listView input)) ∧
          sorted.Pairwise (RowLt svc o planned)) ∧ page = sorted.take limit := by
  obtain ⟨cond, hcond, htruth⟩ := hmeans.where_means
  obtain ⟨e, hkeys, heval⟩ := hmeans.order_means
  rw [select_eq_some_iff hcond hkeys]
  simp only [htruth]
  refine and_congr_right fun _ => exists_congr fun sorted => and_congr_left fun _ => ?_
  have hfiltered : ∀ {r}, r ∈ (tableRows store o).filter (fun r =>
      rowTruth svc o listView input r = .tt) → r ∈ tableRows store o :=
    fun hr => List.mem_of_mem_filter hr
  refine sortRows_eq_some hsortable.collation hsortable.oneType ?_ ?_ ?_ ?_
  · intro r hr
    obtain ⟨v, hv⟩ := Option.isSome_iff_exists.mp (hsortable.defined r (hfiltered hr))
    show eval svc.pg (envOf r.row planned.params) e = some (rowPosition svc o planned r).1
    rw [heval, rowPosition, hv, Option.getD_some]
    exact hv
  · exact fun r hr => rfl
  · exact fun r hr => hsortable.mem (hfiltered hr)
  · exact (List.filter_sublist.map _).nodup (store o.entity.tableName).records.nodup

/-- The whole answer: the rows the request selects, in strict order. -/
theorem fullResult_eq_some_iff : fullResult svc store o planned = some full ↔
      (∀ r ∈ tableRows store o, rowTruth svc o listView input r ≠ .err) ∧
      full.Perm ((tableRows store o).filter (selects svc o listView input)) ∧
      full.Pairwise (RowLt svc o planned) := by
  unfold fullResult
  rw [select_eq_some_iff_sorted hmeans hsortable]
  refine and_congr_right fun _ => ⟨?_, fun h => ⟨full, h, ?_⟩⟩
  · rintro ⟨sorted, hsorted, rfl⟩
    have hlength : sorted.length ≤ (tableRows store o).length :=
      hsorted.1.length_eq.trans_le (List.length_filter_le _ _)
    rwa [List.take_of_length_le hlength]
  · have hlength : full.length ≤ (tableRows store o).length :=
      h.1.length_eq.trans_le (List.length_filter_le _ _)
    exact (List.take_of_length_le hlength).symm

end

/-! ## The page after a row -/

/-- What a text is read as depends on the type beside it only. -/
theorem boundAt_congr {pg : Backend} {ty : Option SqlType} {v w : Value}
    (h : v.sqlType = w.sqlType) (text : String) :
    boundAt pg ty (some v) (some (.text text)) = boundAt pg ty (some w) (some (.text text)) := by
  cases ty with
  | none => simp only [boundAt, readBeside, Option.bind_some, h]
  | some ty => rfl

theorem boundAt_ne_null (pg : Backend) (ty : Option SqlType) (text : String) :
    boundAt pg ty (some .null) (some (.text text)) ≠ some .null := by
  intro h
  cases ty with
  | none => cases h
  | some ty =>
    have hcast : castText pg text ty = some .null := h
    cases ty <;> simp [castText] at hcast

/-- Beside a null the text of another row is still read, if only as a text. -/
theorem isSome_boundAt_null {pg : Backend} {ty : Option SqlType} {w : Value} {text : String}
    (h : boundAt pg ty (some w) (some (.text text)) = some w) :
    (boundAt pg ty (some .null) (some (.text text))).isSome = true := by
  cases ty with
  | none => rfl
  | some ty => exact Option.isSome_of_eq_some (show castText pg text ty = some w from h)

/-- The cursor of a row asks of another one to stand after the row's sort value. -/
theorem cursorTruth_carried {v w : Value} (hcarried : CarriesSortValue svc o planned c)
    (hw : sortValue svc o planned c = some w)
    (htype : v ≠ .null → w ≠ .null → v.sqlType = w.sqlType) (descending : Bool) (cursorID : Uuid)
    (id : Option Value) : cursorTruth svc.pg descending
        (cursorBound svc.pg o.entity planned.resolvedSort (rowCursor svc o planned c) (some v))
        cursorID (some v) id =
      cursorTruth svc.pg descending (boundOf w) cursorID (some v) id := by
  unfold CarriesSortValue at hcarried
  rw [hw] at hcarried
  unfold cursorBound rowCursor nextCursor boundOf
  dsimp only
  cases htext : sortFieldValue svc (recordDto o.entity.name c) planned.resolvedSort.field with
  | none =>
    rw [htext] at hcarried
    rw [if_pos (Option.some.inj hcarried).symm]
    rfl
  | some text =>
    rw [htext] at hcarried
    have hne : w ≠ .null := by
      rintro rfl
      exact boundAt_ne_null svc.pg _ text hcarried
    rw [if_neg hne, Option.map_some]
    by_cases hv : v = .null
    · -- a null is neither before nor after a value
      subst hv
      obtain ⟨x, hx⟩ := Option.isSome_iff_exists.mp (isSome_boundAt_null hcarried)
      rw [hx]
      cases descending <;> rfl
    · rw [boundAt_congr (htype hv hne)]
      exact congrArg (fun w => cursorTruth svc.pg descending (some w) cursorID (some v) id) hcarried

theorem decodeCursor_write (codec : CursorCodec svc) (r : StoredRecord) :
    decodeCursor svc.readCursor (codec.write (rowCursor svc o planned r)) =
      some (rowCursor svc o planned r) := by
  rw [decodeCursor, codec.read_write, Option.filter_some]
  exact if_pos (codec.shape r.id)

/-- What the cursor of `c` asks of `r`. -/
abbrev afterTruth (svc : Service) (o : Opened) (planned : PlannedListQuery) (c r : StoredRecord) :
    Truth :=
  cursorTruth svc.pg planned.resolvedSort.descending (boundOf (rowPosition svc o planned c).1)
    c.id (some (rowPosition svc o planned r).1) (some (.uuid r.id))

section

variable (hsortable : Sortable svc store o planned) (hc : c ∈ tableRows store o)
  (hr : r ∈ tableRows store o)

include hsortable hc hr

/-- The conditions of the request after a row: those of the first request, and being after the
row. -/
theorem allTruth_after (codec : CursorCodec svc) (hfirst : input.cursor = none)
    (hsort : planned.resolvedSort = pageSort o.entity listView input)
    (hcarried : CarriesSortValue svc o planned c) :
    rowTruth svc o listView { input with cursor := some (codec.write (rowCursor svc o planned c)) }
        r = (rowTruth svc o listView input r).and (afterTruth svc o planned c r) := by
  obtain ⟨v, hv⟩ := Option.isSome_iff_exists.mp (hsortable.defined r hr)
  obtain ⟨w, hw⟩ := Option.isSome_iff_exists.mp (hsortable.defined c hc)
  have hposition : cursorPosition svc.codec.parse svc.readCursor
      (some (codec.write (rowCursor svc o planned c))) =
      some (rowCursor svc o planned c, c.id) := by
    simp only [cursorPosition, decodeCursor_write, Option.bind_eq_bind, Option.bind_some]
    show (svc.codec.parse (svc.codec.format c.id)).bind _ = _
    rw [svc.codec.parse_format]
    rfl
  have hcursor : cursorTruths svc.pg svc.codec.parse svc.readCursor o.entity
      (pageSort o.entity listView input)
      (some (codec.write (rowCursor svc o planned c))) =
      [fun row => cursorTruth svc.pg planned.resolvedSort.descending
        (cursorBound svc.pg o.entity planned.resolvedSort (rowCursor svc o planned c)
          (resolvedValue svc.pg o.entity planned.resolvedSort.field row)) c.id
        (resolvedValue svc.pg o.entity planned.resolvedSort.field row) (row "id")] := by
    rw [cursorTruths, hposition, ← hsort]
    rfl
  have hnone : cursorTruths svc.pg svc.codec.parse svc.readCursor o.entity
      (pageSort o.entity listView input) input.cursor = [] := by
    rw [hfirst]
    rfl
  show allTruth (scopeTruths _ _ _ _ _ ++ (filterTruths _ _ _ input ++
    cursorTruths _ _ _ _ (pageSort o.entity listView input) _)) r.row = _
  rw [hcursor, ← List.append_assoc, allTruth_append, rowTruth, listTruths, hnone, List.append_nil]
  congr 1
  have hone : ∀ t : (String → Option Value) → Truth, allTruth [t] r.row = t r.row := by
    intro t
    show (t r.row).and .tt = t r.row
    cases t r.row <;> rfl
  rw [hone]
  show cursorTruth svc.pg _ (cursorBound _ _ _ _ (sortValue svc o planned r)) c.id
    (sortValue svc o planned r) (some (.uuid r.id)) = _
  rw [afterTruth, rowPosition, rowPosition, hv, hw, cursorTruth_carried hcarried hw]
  · rfl
  · exact fun hvne hwne => sqlType_of_compareValues
      (hsortable.oneType v ⟨r, hr, hv⟩ w ⟨c, hc, hw⟩ hvne hwne)

theorem afterTruth_rowLt : (afterTruth svc o planned c r = .tt ↔ RowLt svc o planned c r) ∧
    afterTruth svc o planned c r ≠ .err :=
  cursorTruth_position hsortable.collation hsortable.oneType .star _ (hsortable.mem hr)
    (hsortable.mem hc) r.id c.id

end

/-! ## The whole answer -/

section

variable (codec : CursorCodec svc) (hopen : openForRead svc store rc entityName = .ok o)
  (hfirst : input.cursor = none) (hplan : planPage svc o input = .ok planned)
  (hlimit : 0 ≤ planned.limit) (hfull : fullResult svc store o planned = some full)
  (hsortable : Sortable svc store o planned)
  (hcarried : ∀ r ∈ full, CarriesSortValue svc o planned r)

include hopen hfirst hplan hlimit hfull hsortable hcarried

/-- What the request after a row fetches: the rows of the whole answer after it. -/
theorem fetchPage_after {done rest : List StoredRecord} (hsplit : full = done ++ c :: rest) :
    ∃ planned', planPage svc o { input with cursor := some (codec.write
        (rowCursor svc o planned c)) } = .ok planned' ∧
      fetchPage svc store o planned' = .ok (rest.take (planned'.limit + 1).toNat) ∧
      planned'.resolvedSort = planned.resolvedSort ∧ planned'.limit = planned.limit := by
  have hentity := (openForRead_eq_ok hopen).1
  obtain ⟨listView, hview, hmeans⟩ := planPage_means hentity hplan
  obtain ⟨herr, hperm, hstrict⟩ := (fullResult_eq_some_iff hmeans hsortable).mp hfull
  have htable : ∀ r ∈ full, r ∈ tableRows store o := fun r hr =>
    List.mem_of_mem_filter (hperm.mem_iff.mp hr)
  have hcfull : c ∈ full := by simp [hsplit]
  have hc := htable c hcfull
  obtain ⟨planned', hplan'⟩ := planList_continues (decodeCursor_write (o := o) codec c)
    (svc.codec.parse_format c.id) (planPage_eq_ok.mp hplan) rfl rfl
  have hplan'' := planPage_eq_ok.mpr hplan'
  obtain ⟨listView', hview', hmeans'⟩ := planPage_means hentity hplan''
  have hviews : listView' = listView := Except.ok.inj (hview'.symm.trans hview)
  subst hviews
  have hsort : planned'.resolvedSort = planned.resolvedSort :=
    hmeans'.sort_eq.trans hmeans.sort_eq.symm
  have hsame : planned'.limit = planned.limit := hmeans'.limit_eq.trans hmeans.limit_eq.symm
  have hsortable' : Sortable svc store o planned' := by
    have hvalue : sortValue svc o planned' = sortValue svc o planned := by
      funext r
      rw [sortValue, sortValue, hsort]
    exact ⟨hsortable.collation, hvalue ▸ hsortable.defined, hvalue ▸ hsortable.oneType⟩
  have hlt : RowLt svc o planned' = RowLt svc o planned := by
    funext r r'
    unfold RowLt rowPosition sortValue
    rw [hsort]
  -- a row is selected after `c` exactly when it is selected and stands after `c`
  have hand := fun r hr => allTruth_after hsortable hc (r := r) hr codec hfirst hmeans.sort_eq
    (hcarried c hcfull)
  have hselects : (tableRows store o).filter (selects svc o listView' { input with
        cursor := some (codec.write (rowCursor svc o planned c)) }) =
      ((tableRows store o).filter (selects svc o listView' input)).filter
        fun r => decide (RowLt svc o planned c r) := by
    rw [List.filter_filter]
    refine List.filter_congr fun r hr => ?_
    rw [Bool.eq_iff_iff, Bool.and_eq_true, selects, selects, decide_eq_true_iff,
      decide_eq_true_iff, decide_eq_true_iff, show allTruth _ r.row = _ from hand r hr,
      Truth.and_eq_tt, (afterTruth_rowLt hsortable hc hr).1, and_comm]
  have hrest : full.filter (fun r => decide (RowLt svc o planned c r)) = rest := by
    rw [hsplit]
    refine Keyset.filter_after (hsplit ▸ hstrict) fun a ha b hb hab => ?_
    have hdone : ∀ r ∈ done ++ [c], r ∈ full := by
      intro r hr
      rw [hsplit]
      simp only [List.mem_append, List.mem_cons, List.not_mem_nil, or_false] at hr ⊢
      exact hr.imp id Or.inl
    exact hsortable.asymm (htable a (hdone a ha)) (htable b (hdone b hb)) hab
  refine ⟨planned', hplan'', fetchPage_eq_ok.mpr ⟨hsame ▸ hlimit, ?_⟩, hsort, hsame⟩
  refine (select_eq_some_iff_sorted hmeans' hsortable').mpr
    ⟨fun r hr => ?_, rest, ⟨?_, ?_⟩, rfl⟩
  · rw [hand r hr]
    have hbase := herr r hr
    have hcursor := (afterTruth_rowLt hsortable hc hr).2
    revert hbase hcursor
    generalize rowTruth _ _ _ _ r = a
    generalize afterTruth _ _ _ _ _ = b
    cases a <;> cases b <;> decide
  · rw [hselects, ← hrest]
    exact hperm.filter _
  · rw [hlt]
    rw [hsplit] at hstrict
    exact (List.pairwise_append.mp hstrict).2.1.of_cons

/-- The list operation serves the whole answer. -/
theorem serves_full : Keyset.Serves (requestPage svc store rc entityName input codec) ListPage.data
      (presentRow svc store o) (rowCursor svc o planned) planned.limit.toNat full := by
  intro done rest hrows
  have hpage : ∃ planned', planPage svc o { input with
        cursor := (done.getLast?.map (rowCursor svc o planned)).map codec.write } = .ok planned' ∧
      fetchPage svc store o planned' = .ok (rest.take (planned'.limit + 1).toNat) ∧
      planned'.resolvedSort = planned.resolvedSort ∧ planned'.limit = planned.limit := by
    rcases List.eq_nil_or_concat done with rfl | ⟨done', c, rfl⟩
    · -- the first page
      have hinput : { input with cursor := none } = input := by rw [← hfirst]
      obtain ⟨listView, -, hmeans⟩ := planPage_means (openForRead_eq_ok hopen).1 hplan
      obtain ⟨herr, hsorted⟩ := (fullResult_eq_some_iff hmeans hsortable).mp hfull
      rw [List.nil_append] at hrows
      subst hrows
      refine ⟨planned, ?_, fetchPage_eq_ok.mpr ⟨hlimit, ?_⟩, rfl, rfl⟩
      · exact (congrArg (planPage svc o) hinput).trans hplan
      · exact (select_eq_some_iff_sorted hmeans hsortable).mpr ⟨herr, full, hsorted, rfl⟩
    · rw [List.concat_eq_append] at hrows ⊢
      rw [List.getLast?_concat]
      exact fetchPage_after codec hopen hfirst hplan hlimit hfull hsortable hcarried
        (by rw [hrows, List.append_assoc, List.singleton_append])
  obtain ⟨planned', hplan', hfetch, hsort, hsame⟩ := hpage
  obtain ⟨page, hrequest, hdata⟩ :=
    requestPage_eq hopen hplan' hfetch hsort (hsame ▸ hlimit)
  rw [hsame] at hrequest hdata
  exact ⟨page, hrequest, hdata⟩

end

/-- A client that follows the cursors of an unchanging table comes to an end, after at most one
request more than there are rows.  It has then read the whole answer of the query: every selected
row once, in the order of the query. -/
theorem followPages_reads_full (codec : CursorCodec svc) {full : List StoredRecord}
    (hopen : openForRead svc store rc entityName = .ok o) (hfirst : input.cursor = none)
    (hplan : planPage svc o input = .ok planned) (hlimit : 1 ≤ planned.limit)
    (hfull : fullResult svc store o planned = some full) (hsortable : Sortable svc store o planned)
    (hcarried : ∀ r ∈ full, CarriesSortValue svc o planned r) {fuel : ℕ}
    (hfuel : full.length < fuel) :
    (full.map (·.id)).Nodup ∧
      ∃ pages, followPages svc store rc entityName input codec fuel = .ok (some pages) ∧
        pages.flatMap ListPage.data = full.map (presentRow svc store o) := by
  constructor
  · obtain ⟨listView, -, hmeans⟩ := planPage_means (openForRead_eq_ok hopen).1 hplan
    have hperm := ((fullResult_eq_some_iff hmeans hsortable).mp hfull).2.1
    refine (hperm.map _).nodup_iff.mpr ?_
    exact (List.filter_sublist.map _).nodup (store o.entity.tableName).records.nodup
  · have hserves := serves_full codec hopen hfirst hplan (by omega) hfull hsortable hcarried
    exact hserves.follow_eq (by omega) fuel [] full rfl hfuel

end

/-! ## A team read page by page -/

theorem hexDigit_isHex : ∀ d < 16, ((UuidCodec.hexDigit d).isDigit ||
    ('a' ≤ UuidCodec.hexDigit d && UuidCodec.hexDigit d ≤ 'f') ||
    ('A' ≤ UuidCodec.hexDigit d && UuidCodec.hexDigit d ≤ 'F')) = true := by decide

theorem isCursorUUID_dashed (u : Uuid) : isCursorUUID (UuidCodec.dashed.format u) = true := by
  have hdigit : ∀ c ∈ UuidCodec.digits 32 u.toNat,
      (c.isDigit || ('a' ≤ c && c ≤ 'f') || ('A' ≤ c && c ≤ 'F')) = true := by
    intro c hc
    obtain ⟨d, hd, rfl⟩ := UuidCodec.exists_hexDigit_of_mem_digits hc
    exact hexDigit_isHex d hd
  have hlen : (UuidCodec.digits 32 u.toNat).length = 32 := UuidCodec.length_digits 32 _
  show isCursorUUID (String.ofList (UuidCodec.dash (UuidCodec.digits 32 u.toNat))) = true
  revert hdigit hlen
  generalize UuidCodec.digits 32 u.toNat = ds
  intro hdigit hlen
  -- a group of digits that covers none of the four places
  have hgroup : ∀ (cs : List Char) (k : ℕ), (∀ c ∈ cs, c ∈ ds) →
      (∀ i, k ≤ i → i < k + cs.length → ¬(i = 8 ∨ i = 13 ∨ i = 18 ∨ i = 23)) →
      ((cs.zipIdx k).all fun p => if p.2 = 8 ∨ p.2 = 13 ∨ p.2 = 18 ∨ p.2 = 23 then p.1 = '-'
        else p.1.isDigit || ('a' ≤ p.1 && p.1 ≤ 'f') || ('A' ≤ p.1 && p.1 ≤ 'F')) = true := by
    intro cs k hcs hk
    refine List.all_eq_true.mpr fun p hp => ?_
    obtain ⟨c, i⟩ := p
    obtain ⟨hki, hik, hget⟩ := List.mem_zipIdx hp
    have hnot := hk i hki (by omega)
    simp only [if_neg hnot]
    exact hdigit c (hcs c (hget ▸ List.getElem_mem _))
  have hsub : ∀ k n, ∀ c ∈ (ds.drop k).take n, c ∈ ds := fun k n c hc =>
    List.mem_of_mem_drop (List.mem_of_mem_take hc)
  unfold isCursorUUID UuidCodec.dash
  simp only [String.toList_ofList, Bool.and_eq_true, decide_eq_true_eq, List.length_append,
    List.length_cons, List.length_take, List.length_drop, hlen, List.zipIdx_append,
    List.zipIdx_cons, List.all_append, List.all_cons]
  refine ⟨by norm_num, ?_, by simp, ?_, by simp, ?_, by simp, ?_, by simp, ?_⟩
  · exact hgroup _ _ (hsub 0 8) (by simp [hlen]; omega)
  · exact hgroup _ _ (hsub 8 4) (by simp [hlen]; omega)
  · exact hgroup _ _ (hsub 12 4) (by simp [hlen]; omega)
  · exact hgroup _ _ (hsub 16 4) (by simp [hlen]; omega)
  · exact hgroup _ _ (fun c hc => List.mem_of_mem_drop hc) (by simp [hlen]; omega)

/-- A text behind its length in unary. -/
def frame (s : String) : List Char := List.replicate s.toList.length '1' ++ '0' :: s.toList

/-- A framed text and what follows it. -/
def unframe (cs : List Char) : String × List Char :=
  let n := (cs.takeWhile (· = '1')).length
  (String.ofList ((cs.drop (n + 1)).take n), (cs.drop (n + 1)).drop n)

theorem unframe_frame (s : String) (cs : List Char) : unframe (frame s ++ cs) = (s, cs) := by
  have hones : (frame s ++ cs).takeWhile (· = '1') = List.replicate s.toList.length '1' := by
    rw [frame, List.append_assoc, List.takeWhile_append_of_pos (by simp)]
    simp
  have hdrop : (frame s ++ cs).drop (s.toList.length + 1) = s.toList ++ cs := by
    rw [frame, List.append_assoc, List.drop_append, List.drop_of_length_le (by simp)]
    simp
  simp only [unframe, hones, List.length_replicate, hdrop]
  simp

def writeCursor (c : Cursor) : String :=
  String.ofList ((if c.dir = .asc then 'a' else 'd') :: (if c.value.isSome then 's' else 'n') ::
    (frame c.field ++ (frame c.id ++ frame (c.value.getD ""))))

def readCursor (raw : String) : Option Cursor :=
  match raw.toList with
  | dir :: null :: cs =>
    let (field, cs) := unframe cs
    let (id, cs) := unframe cs
    let (value, _) := unframe cs
    some { field, id, value := if null = 's' then some value else none,
           dir := if dir = 'a' then .asc else .desc }
  | _ => none

theorem readCursor_writeCursor (c : Cursor) : readCursor (writeCursor c) = some c := by
  obtain ⟨field, value, id, dir⟩ := c
  have hlast := fun s => unframe_frame s []
  simp only [List.append_nil] at hlast
  simp only [readCursor, writeCursor, String.toList_ofList, unframe_frame, hlast]
  cases value <;> cases dir <;> rfl

def pagingService : Service := { employeeService with codec := .dashed, readCursor := readCursor }

def pagingCaller : RequestContext := { tenantID := UuidCodec.dashed.format 1 }

def pagingCodec : CursorCodec pagingService where
  write := writeCursor
  read_write := readCursor_writeCursor
  shape := isCursorUUID_dashed

/-- Two employees of one team and one without a team. -/
def pagingStore : Store := fun table =>
  { records := ⟨if table = "app.employee" then
      [{ id := 9, tenantID := 1, data := [] }, employee 8 "senior", employee 7 "junior"] else [],
      by split <;> simp [employee]⟩ }

def openedPages : Opened := openedOn pagingService pagingStore pagingCaller 1 employeeEntity

theorem sortValue_openedPages {planned : PlannedListQuery} {r : StoredRecord}
    (hsort : planned.resolvedSort = ⟨"team", false⟩) (hr : r ∈ tableRows pagingStore openedPages) :
    CarriesSortValue pagingService openedPages planned r ∧
      (sortValue pagingService openedPages planned r = some .null ∨
        sortValue pagingService openedPages planned r = some (.text "red")) := by
  have hrows : tableRows pagingStore openedPages =
      [{ id := 9, tenantID := 1, data := [] }, employee 8 "senior", employee 7 "junior"] := rfl
  rw [hrows] at hr
  unfold CarriesSortValue sortValue
  rw [hsort]
  simp only [List.mem_cons, List.not_mem_nil, or_false] at hr
  rcases hr with rfl | rfl | rfl
  · exact ⟨rfl, .inl rfl⟩
  · exact ⟨rfl, .inr rfl⟩
  · exact ⟨rfl, .inr rfl⟩

/-- The employees by team, two to a page: the one without a team comes last. -/
theorem followPages_reads_team :
    ((followPages pagingService pagingStore pagingCaller "app.employee"
      { limit := 2, sort := some "team" } pagingCodec 4).map fun pages =>
        pages.map fun pages => (pages.flatMap ListPage.data).map RecordDto.id) =
      .ok (some [7, 8, 9]) := by
  let answer : Except ServiceError (PlannedListQuery × Option (List StoredRecord)) := do
    let planned ← planPage pagingService openedPages { limit := 2, sort := some "team" }
    return (planned, fullResult pagingService pagingStore openedPages planned)
  obtain ⟨⟨planned, full?⟩, hanswer, hsort, hlimit, hids⟩ := exists_ok_of_decide answer
    (fun a => a.1.resolvedSort = ⟨"team", false⟩ ∧ a.1.limit = 2 ∧
      a.2.map (·.map StoredRecord.id) = some [7, 8, 9]) (by decide +kernel)
  have hone : 1 ≤ planned.limit := by
    show 1 ≤ (planned, full?).1.limit
    omega
  obtain ⟨_, hplan, hanswer⟩ := except_bind_eq_ok hanswer
  cases hanswer
  obtain ⟨full, hfull, hids⟩ := Option.map_eq_some_iff.mp hids
  have hrow := fun r => sortValue_openedPages (r := r) hsort
  have hsortable : Sortable pagingService pagingStore openedPages planned := by
    refine ⟨⟨?_, ?_, ?_⟩, ?_, ?_⟩
    · exact fun a => decide_eq_false (lt_irrefl a)
    · intro a b c hab hbc
      exact decide_eq_true (lt_trans (of_decide_eq_true hab) (of_decide_eq_true hbc))
    · intro a b hab
      exact (lt_or_gt_of_ne hab).imp decide_eq_true decide_eq_true
    · intro r hr
      rcases (hrow r hr).2 with h | h <;> rw [h] <;> rfl
    · rintro u ⟨r, hr, hu⟩ v ⟨r', hr', hv⟩ hune hvne
      rcases (hrow r hr).2 with h | h <;> rcases (hrow r' hr').2 with h' | h' <;>
        rw [hu] at h <;> rw [hv] at h' <;> cases h <;> cases h' <;>
        first | exact absurd rfl hune | exact absurd rfl hvne | rfl
  have hlength : full.length < 4 := by
    have hcount := congrArg List.length hids
    simp only [List.length_map, List.length_cons, List.length_nil] at hcount
    omega
  have htable : ∀ r ∈ full, r ∈ tableRows pagingStore openedPages := fun r hr =>
    (mem_of_select hfull hr).1
  obtain ⟨-, pages, hpages, hdata⟩ := followPages_reads_full pagingCodec
    (show openForRead pagingService pagingStore pagingCaller "app.employee" =
        .ok openedPages from rfl)
    rfl hplan hone hfull hsortable (fun r hr => (hrow r (htable r hr)).1) hlength
  rw [hpages]
  show Except.ok (some ((pages.flatMap ListPage.data).map RecordDto.id)) = _
  rw [hdata, List.map_map]
  exact congrArg (fun ids => Except.ok (some ids)) hids

end Metap.Crud
