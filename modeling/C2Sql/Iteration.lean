import C2Sql.Selection

/-!
# Iteration over the rows of a query

`SqlRDBReadMany` and the calls of `SqlRDBStmtNext` on its iterator, on an engine of tables. Between
two calls the statement has some rows left: those behind its cursor and, at its end, all of them
again with SQLite and none with PostgreSQL.

* `replies`, `nextAll_eq`: what a sequence of calls returns;
* `expected`: what it should return;
* `iterator_yields_iff`: the calls up to the first one past the end return that, and with PostgreSQL
  all of them do.
-/

namespace C2Sql

open SqlText StateLogic

variable {Db : Type} {dialect : C2SqlDialect} {e : Engine Db}

/-! ## Sequences of calls -/

/-- The memory that a call is given for a row and for its null map. -/
abbrev RowBuffers := Buffer × Option Mem

/-- The memory as the argument of a call. -/
def RowBuffers.out (b : RowBuffers) : ReadOut := ⟨some b.1, b.2⟩

/-- The reply that delivers a row. -/
def deliver (dialect : C2SqlDialect) (e : Engine Db) (schema : SqlRDBSchema)
    (cells : List SqlValue) (b : RowBuffers) : SqlRDBResult × ReadOut :=
  let (r, row, nullMap) := readCells dialect e (fun i => (cells[i]?).getD .null) 0 schema.cols false
    b.1 b.2
  (r, ⟨some row, nullMap⟩)

/-- Calls of `SqlRDBStmtNext` with the given memory. -/
def nextAll {σ : Type} (d : SqlRDBDriver σ) (it : SqlRDBStmt) :
    List RowBuffers → Api σ (List (SqlRDBResult × ReadOut))
  | [] => pure []
  | b :: bs => do
    let reply ← sqlRDBStmtNext d (some it) b.out
    let rest ← nextAll d it bs
    pure (reply :: rest)

/-- What the calls return for a statement with the result `rows` and the rows `left`. -/
def replies (dialect : C2SqlDialect) (e : Engine Db) (schema : SqlRDBSchema)
    (rows : List (List SqlValue)) :
    List (List SqlValue) → List RowBuffers → List (SqlRDBResult × ReadOut)
  | _, [] => []
  | [], b :: bs =>
    (.errNotFound, b.out) ::
      replies dialect e schema rows (Cursor.left dialect rows .done) bs
  | r :: rs, b :: bs => deliver dialect e schema r b :: replies dialect e schema rows rs bs

/-- What the calls should return: the rows that are left, one each, and then that there is none,
with the memory as it was. -/
def expected (dialect : C2SqlDialect) (e : Engine Db) (schema : SqlRDBSchema) :
    List (List SqlValue) → List RowBuffers → List (SqlRDBResult × ReadOut)
  | _, [] => []
  | [], b :: bs => (.errNotFound, b.out) :: expected dialect e schema [] bs
  | r :: rs, b :: bs => deliver dialect e schema r b :: expected dialect e schema rs bs

/-- What a call returns once the cursor has moved. -/
theorem nextReply_at (schema : SqlRDBSchema) (st : Stmt) (left : List (List SqlValue))
    (b : RowBuffers) :
    nextReply dialect e schema .ok { st with cursor := .at left } b.1 b.out =
      match left with
      | [] => (.errNotFound, b.out)
      | r :: _ => deliver dialect e schema r b := by
  cases left with
  | nil => rfl
  | cons r rs => rfl

/-- **The replies of a sequence of calls** on an iterator whose statement selects the rows. -/
theorem nextAll_eq {h : SqlRDBHandle (Session Db)} {it : SqlRDBStmt} {st : Stmt}
    {rows : List (List SqlValue)} (hst : h.ctx.stmts it.rawStmt = some st)
    (hsel : st.Selects e h.ctx.conn.store.contents rows)
    (hf : ∀ call k, h.ctx.conn.faults call k = none) (bs : List RowBuffers) :
    (nextAll (driver dialect e) it bs h).1 =
      replies dialect e (h.deref it.schema) rows (st.cursor.left dialect rows) bs := by
  induction bs generalizing h st with
  | nil =>
    cases st.cursor.left dialect rows <;> rfl
  | cons b bs ih =>
    obtain ⟨reply, h', hnext⟩ : ∃ reply h',
        sqlRDBStmtNext (driver dialect e) (some it) b.out h = (reply, h') := ⟨_, _, rfl⟩
    obtain ⟨hreply, hheap, hreg, hctx⟩ := (stmtNext_spec hst it.schema rfl).of_eq hnext
    rw [Stmt.step_eq hsel (hf _ _)] at hreply hctx
    rw [nextReply_at] at hreply
    have hrest := ih (h := h') (hctx ▸ Session.stmts_put ..)
      (by rw [hctx]; exact hsel) (by rw [hctx]; exact hf)
    have hderef : h'.deref it.schema = h.deref it.schema := by
      rw [SqlRDBHandle.deref, SqlRDBHandle.deref, hheap, hreg]
    rw [hderef] at hrest
    have hrun : (nextAll (driver dialect e) it (b :: bs) h).1 =
        reply :: (nextAll (driver dialect e) it bs h').1 := by
      rw [nextAll, bind_of_run hnext]
      rfl
    rw [hrun, hrest, hreply]
    cases st.cursor.left dialect rows with
    | nil => rfl
    | cons r rs => rfl

/-! ## Past the end -/

theorem readCell_ne_notFound (col : SqlRDBColumnDef) (v : SqlValue) (row : Buffer) :
    (readCell dialect e col v row).1 ≠ .errNotFound := by
  unfold readCell
  cases col.type with
  | int32 =>
    dsimp only
    split <;> nofun
  | int64 => nofun
  | real => nofun
  | text =>
    dsimp only
    split
    · nofun
    · dsimp only
      split <;> nofun
  | blob =>
    dsimp only
    split <;> nofun
  | other _ => nofun

theorem readCells_ne_notFound (vals : ℕ → SqlValue) (i : ℕ) (cols : List SqlRDBColumnDef)
    (anyTruncated : Bool) (row : Buffer) (nullMap : Option Mem) :
    (readCells dialect e vals i cols anyTruncated row nullMap).1 ≠ .errNotFound := by
  induction cols generalizing i anyTruncated row nullMap with
  | nil =>
    rw [readCells]
    split <;> rintro ⟨⟩
  | cons col cols ih =>
    have hcell : (readCell dialect e col (vals i) row).1 ≠ .errNotFound :=
      readCell_ne_notFound col (vals i) row
    unfold readCells
    split
    · exact ih _ _ _ _
    · generalize readCell dialect e col (vals i) row = cell at hcell
      obtain ⟨r, row'⟩ := cell
      dsimp only
      split
      · exact ih _ _ _ _
      · split
        · exact hcell
        · exact ih _ _ _ _

/-- A call that delivers a row does not report the end. -/
theorem deliver_ne_notFound (schema : SqlRDBSchema) (cells : List SqlValue) (b : RowBuffers) :
    (deliver dialect e schema cells b).1 ≠ .errNotFound :=
  readCells_ne_notFound _ _ _ _ _ _

/-- **The replies are the expected ones** if nothing is left at the end of the result, or if at most
one call goes past the end. -/
theorem replies_eq_expected_iff (schema : SqlRDBSchema) (rows left : List (List SqlValue))
    (bs : List RowBuffers) :
    replies dialect e schema rows left bs = expected dialect e schema left bs ↔
      Cursor.left dialect rows .done = [] ∨ bs.length ≤ left.length + 1 := by
  induction left generalizing bs with
  | nil =>
    cases bs with
    | nil => simp [replies, expected]
    | cons b bs =>
      rw [replies, expected, List.cons_inj_right]
      cases hdone : Cursor.left dialect rows .done with
      | nil =>
        simp only [true_or, iff_true]
        -- with nothing left at the end, all calls past the end are alike
        induction bs with
        | nil => rfl
        | cons b bs ih => rw [replies, expected, hdone, ih]
      | cons r rs =>
        cases bs with
        | nil => simp [replies, expected]
        | cons b' bs =>
          have hne : deliver dialect e schema r b' ≠ (.errNotFound, b'.out) := fun heq =>
            deliver_ne_notFound schema r b' (congrArg Prod.fst heq)
          rw [replies, expected]
          simp [hne]
  | cons r rs ih =>
    cases bs with
    | nil => simp [replies, expected]
    | cons b bs =>
      rw [replies, expected, List.cons_inj_right, ih]
      simp

theorem left_done_eq_nil_iff (rows : List (List SqlValue)) :
    Cursor.left dialect rows .done = [] ↔ dialect = .postgres ∨ rows = [] := by
  cases dialect <;> simp [Cursor.left]

/-! ## The iterator of a query -/

/-- **The iterator yields every matching row once and stays at its end** exactly with PostgreSQL, if
no row matches, or if at most one call goes past the end: SQLite executes a statement again that is
stepped past its end. -/
theorem iterator_yields_iff {dialect : C2SqlDialect} {sem : SqlSemantics} {name : CStr}
    {ptr : SchemaPtr} {h : TableHandle} {cond : Option SqlRDBCondition}
    (hs : CacheSound dialect (sqlEngine sem) h) (hv : h.valid = true)
    (hptr : h.lookupPtr name = some ptr) (hacc : (h.deref ptr).Accepted) (hcalm : h.Calm)
    (hc : CondCarried cond)
    (hex : Executes dialect sem (condSpec .select cond dialect (h.deref ptr)) (condValues cond)
      h.store.contents) :
    ∃ it h' t,
      sqlRDBReadMany (driver dialect (sqlEngine sem)) (some name) cond true h =
        ((.ok, some it), h') ∧
      h.store.contents (sem.fold (h.deref ptr).name) = some t ∧
      ∀ bs : List RowBuffers,
        (nextAll (driver dialect (sqlEngine sem)) it bs h').1 =
            expected dialect (sqlEngine sem) (h.deref ptr)
              ((matching sem cond t.rows).map (rowCells sem (h.deref ptr))) bs ↔
          dialect = .postgres ∨ matching sem cond t.rows = [] ∨
            bs.length ≤ (matching sem cond t.rows).length + 1 := by
  have hwf := (SqlRDBSchema.accepted_iff _).1 hacc
  obtain ⟨res, h', hread⟩ : ∃ res h', sqlRDBReadMany (driver dialect (sqlEngine sem)) (some name)
      cond true h = (res, h') := ⟨_, _, rfl⟩
  obtain ⟨-, hframe, ⟨tick, hconn⟩, hres⟩ := (readMany_spec hs hv hptr hwf cond).of_eq hread
  obtain ⟨sql, n, o, hp, hlen, hrun⟩ := hex
  obtain ⟨-, -, hnone⟩ | ⟨sql', n', id, st, hp', -, rfl, hst, hsql, hvalues, hcur⟩ := hres
  · exact absurd hcalm (hnone sql n hp hlen)
  cases hp.build_eq.symm.trans hp'.build_eq
  obtain ⟨hroot, t, ht, rfl⟩ := run_select hwf hrun hlen hp.build_eq
  rw [selects_condValues hroot hc] at hrun
  refine ⟨⟨id, ptr⟩, h', t, hread, ht, fun bs => ?_⟩
  have hsel : st.Selects (sqlEngine sem) h'.ctx.conn.store.contents
      ((matching sem cond t.rows).map (rowCells sem (h.deref ptr))) := by
    rw [Stmt.Selects, hsql, hvalues, hconn]
    exact hrun
  have hfaults : ∀ call k, h'.ctx.conn.faults call k = none := by
    rw [hconn]
    exact hcalm.faults
  have hall : (nextAll (driver dialect (sqlEngine sem)) ⟨id, ptr⟩ bs h').1 = _ :=
    nextAll_eq hst hsel hfaults bs
  rw [hcur, Cursor.left, SqlRDBHandle.deref_of_frame hframe] at hall
  rw [hall]
  refine (replies_eq_expected_iff ..).trans ?_
  rw [left_done_eq_nil_iff, List.map_eq_nil_iff, List.length_map, or_assoc]

/-! ## Samples -/

/-- A table with one person. -/
def onePerson : Table SqlValue :=
  ⟨personsSchema.cols.map (columnDeclOf .sqlite), [fun n =>
    if n = lit "id" then .int 1 else if n = lit "name" then .text (lit "a") else .null]⟩

/-- The handle over this table. -/
def onePersonHandle : TableHandle := tableHandle personsSchema onePerson

/-- Memory for a row of the struct. -/
def personBuffers : RowBuffers := (⟨48, fun _ => 0, false⟩, some fun _ => 0)

theorem executes_onePerson :
    Executes .sqlite plainSemantics (condSpec .select none .sqlite personsSchema) (condValues none)
      onePersonHandle.store.contents := by
  have hs := (SqlRDBSchema.accepted_iff _).1 personsSchema_accepted
  have hroot : RootOnly none := nofun
  have hleaves : condLeaves none < 2 ^ 31 := show 0 < 2 ^ 31 by norm_num
  have hvalues : (condValues none).length < 2 ^ 31 := show 0 < 2 ^ 31 by norm_num
  refine Executes.of_statement hs rfl (fun hfield => ?_) List.not_mem_nil rfl hroot hleaves hvalues
    rfl
  cases hfield

/-- The row, and the end. -/
theorem iterator_yields_person :
    ∃ it h', sqlRDBReadMany (driver .sqlite (sqlEngine plainSemantics)) (some (lit "persons")) none
        true onePersonHandle = ((.ok, some it), h') ∧
      (nextAll (driver .sqlite (sqlEngine plainSemantics)) it [personBuffers, personBuffers] h').1 =
        expected .sqlite (sqlEngine plainSemantics) personsSchema
          (onePerson.rows.map (rowCells plainSemantics personsSchema))
          [personBuffers, personBuffers] := by
  have hcalm : onePersonHandle.Calm := ⟨fun _ _ => rfl, fun _ => rfl⟩
  have hcarried : CondCarried none := fun b hb => absurd hb List.not_mem_nil
  obtain ⟨it, h', t, hread, ht, hiff⟩ :=
    iterator_yields_iff (cacheSound_tableHandle .sqlite personsSchema onePerson) rfl
      (show onePersonHandle.lookupPtr (lit "persons") = some ⟨0, 0⟩ by decide +kernel)
      personsSchema_accepted hcalm hcarried executes_onePerson
  obtain rfl : onePerson = t := Option.some.inj ht
  exact ⟨it, h', hread, (hiff _).2 (.inr (.inr le_rfl))⟩

/-- A third call delivers the only row again. -/
theorem iterator_restarts :
    let opened := sqlRDBReadMany (driver .sqlite (sqlEngine plainSemantics)) (some (lit "persons"))
      none true onePersonHandle
    (matching plainSemantics none onePerson.rows).length = 1 ∧
      opened.1 = (.ok, some ⟨1, ⟨0, 0⟩⟩) ∧
      (nextAll (driver .sqlite (sqlEngine plainSemantics)) ⟨1, ⟨0, 0⟩⟩
        [personBuffers, personBuffers, personBuffers] opened.2).1.map Prod.fst =
          [.ok, .errNotFound, .ok] :=
  ⟨rfl, by decide +kernel, by decide +kernel⟩

end C2Sql
