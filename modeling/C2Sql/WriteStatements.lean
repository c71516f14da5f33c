import C2Sql.Execution
import C2Sql.StatementText

/-!
# The statement of a write and its table

`SqlRDBWrite` has three places that look for the primary key: registration takes the first column
with the flag, `build_create` marks every column with it, and `build_upsert` names the one that
registration took.

* `writeStatement`, `parsed_writeSql`: the statement of a write;
* `exists_of_filter_pk`: the three agree on a schema with one flagged column;
* `WriteMatches`: the statement is one of SQL, and fits the table that is created;
* `writeMatches_iff`: it does exactly for the schemas without a key, and for those with one key
  column and another column.
-/

namespace C2Sql

open SqlText

/-- The statement of `SqlRDBWrite`. -/
def writeStatement (s : SqlRDBSchema) : Statement :=
  insertStatement s (if s.pkIndex.isSome then some (upsertOf s) else none)

theorem parsed_writeSql {s : SqlRDBSchema} (hs : s.WellFormed) (d : C2SqlDialect)
    (hset : s.pkIndex.isSome = true → nonPkCols s ≠ []) :
    parsed (writeSql d s) = some (writeStatement s) := by
  rw [writeSql, writeStatement]
  split_ifs with hpk
  · exact parsed_buildUpsert hs d hpk (hset hpk)
  · exact parsed_buildInsert hs d

/-- The text of a write with a key and nothing to set is no statement. -/
theorem parsed_writeSql_eq_none {s : SqlRDBSchema} (hs : s.WellFormed) (d : C2SqlDialect)
    (hpk : s.pkIndex.isSome = true) (hset : nonPkCols s = []) : parsed (writeSql d s) = none := by
  rw [writeSql, if_pos hpk]
  exact parsed_buildUpsert_eq_none hs d hpk hset

/-! ## The key of a schema -/

section Key

variable {s : SqlRDBSchema} (hs : s.WellFormed)

include hs

theorem pkIndex_eq_none_iff : s.pkIndex = none ↔ ∀ c ∈ s.cols, c.pk = false := by
  rw [hs.pkIndex_eq, List.findIdx?_eq_none_iff]

/-- The column that registration takes for the key. -/
theorem exists_of_pkIndex {i : ℕ} (hi : s.pkIndex = some i) :
    ∃ k, s.cols[i]? = some k ∧ k.pk = true ∧ pkName s = k.name := by
  obtain ⟨hlt, hpk, -⟩ := List.findIdx?_eq_some_iff_getElem.1 (hs.pkIndex_eq ▸ hi)
  refine ⟨s.cols[i], List.getElem?_eq_getElem hlt, hpk, ?_⟩
  simp [pkName, hi, List.getElem?_eq_getElem hlt]

omit hs in
/-- A column at another place than that of the key is set. -/
theorem mem_nonPkCols_iff {i : ℕ} (hi : s.pkIndex = some i) {c : SqlRDBColumnDef} :
    c ∈ nonPkCols s ↔ ∃ j, s.cols[j]? = some c ∧ j ≠ i := by
  simp only [nonPkCols, List.mem_map, List.mem_filter, List.mem_zipIdx_iff_getElem?, hi]
  constructor
  · rintro ⟨⟨c', j⟩, ⟨hj, hne⟩, rfl⟩
    exact ⟨j, hj, by simpa using hne⟩
  · rintro ⟨j, hj, hne⟩
    exact ⟨(c, j), ⟨hj, by simpa using hne⟩, rfl⟩

/-- **One flagged column**: it is the key, and the others are set. -/
theorem exists_of_filter_pk {k : SqlRDBColumnDef} (hk : (s.cols.filter fun c => c.pk) = [k]) :
    ∃ i, s.pkIndex = some i ∧ s.cols[i]? = some k ∧ k.pk = true ∧ pkName s = k.name ∧
      nonPkCols s = s.cols.filter fun c => !c.pk := by
  have hpk : ∀ c, c ∈ s.cols → c.pk = true → c = k := by
    intro c hc hp
    have hmem : c ∈ s.cols.filter fun c => c.pk := List.mem_filter.2 ⟨hc, hp⟩
    rw [hk] at hmem
    exact List.mem_singleton.1 hmem
  have hkmem : k ∈ s.cols.filter fun c => c.pk := by
    rw [hk]
    exact List.mem_singleton_self k
  obtain ⟨hkc, hkpk⟩ := List.mem_filter.1 hkmem
  obtain ⟨i, hi⟩ : ∃ i, s.pkIndex = some i := by
    rw [← Option.isSome_iff_exists, Option.isSome_iff_ne_none, Ne, pkIndex_eq_none_iff hs]
    intro hnone
    rw [hnone k hkc] at hkpk
    cases hkpk
  obtain ⟨k', hik, hk'pk, hname⟩ := exists_of_pkIndex hs hi
  obtain rfl := hpk k' (List.mem_of_getElem? hik) hk'pk
  refine ⟨i, hi, hik, hkpk, hname, ?_⟩
  have hfilter : (s.cols.zipIdx.filter fun p => some p.2 ≠ s.pkIndex) =
      s.cols.zipIdx.filter fun p => !p.1.pk := by
    refine List.filter_congr fun p hp => ?_
    obtain ⟨c, j⟩ := p
    have hj : s.cols[j]? = some c := List.mem_zipIdx_iff_getElem?.1 hp
    rw [hi]
    cases hc : c.pk with
    | true =>
      obtain rfl := hpk c (List.mem_of_getElem? hj) hc
      have hji : j = i := (List.getElem?_inj (List.getElem?_eq_some_iff.1 hj).1
        (List.Nodup.of_map _ hs.nodup)).1 (hj.trans hik.symm)
      simp [hji]
    | false =>
      have hji : j ≠ i := by
        rintro rfl
        obtain rfl := Option.some.inj (hj.symm.trans hik)
        rw [hkpk] at hc
        cases hc
      simpa using hji
  rw [nonPkCols, hfilter]
  conv_rhs => rw [← List.zipIdx_map_fst 0 s.cols, List.filter_map]
  rfl

/-- If every flagged column has one name, there is one flagged column. -/
theorem filter_pk_of_names {k : SqlRDBColumnDef} (hkc : k ∈ s.cols) (hkpk : k.pk = true)
    (h : ∀ c ∈ s.cols, c.pk = true → c.name = k.name) :
    (s.cols.filter fun c => c.pk) = [k] := by
  have hall : ∀ c ∈ s.cols.filter (fun c => c.pk), c = k := by
    intro c hc
    obtain ⟨hc, hpk⟩ := List.mem_filter.1 hc
    exact List.inj_on_of_nodup_map hs.nodup hc hkc (h c hc hpk)
  have hmem : k ∈ s.cols.filter fun c => c.pk := List.mem_filter.2 ⟨hkc, hkpk⟩
  have hnd : (s.cols.filter fun c => c.pk).Nodup := (List.Nodup.of_map _ hs.nodup).filter _
  rw [List.eq_replicate_of_mem hall] at hmem hnd ⊢
  have hlen := List.nodup_replicate.1 hnd
  have hpos := List.length_pos_of_mem hmem
  rw [List.length_replicate] at hpos
  rw [show (s.cols.filter fun c => c.pk).length = 1 by omega]
  rfl

end Key

/-! ## The statement and the table -/

/-- The write statement of a schema is derivable, with as many values as columns, the columns that
are no key in its SET list, and the key of the created table as its conflict target. -/
def WriteMatches (d : C2SqlDialect) (s : SqlRDBSchema) : Prop :=
  ∃ cols values conflict decls options,
    parsed (writeSql d s) = some (.insert s.name cols values conflict) ∧
    parsed (buildCreate s d) = some (.create s.name decls options) ∧
    cols.length = values.length ∧ cols ≠ [] ∧ conflict.isSome = s.pkIndex.isSome ∧
    ∀ u, conflict = some u → u.sets ≠ [] ∧
      (u.sets.map Prod.fst).Perm ((s.cols.filter fun c => !c.pk).map fun c => c.name) ∧
      ∀ n, n ∈ u.target ↔ ∃ c ∈ decls, c.primaryKey = true ∧ c.name = n

/-- No column is flagged as a key, or one is and there is another column. -/
def KeyFits (s : SqlRDBSchema) : Prop :=
  (∀ c ∈ s.cols, c.pk = false) ∨
    (∃ k, (s.cols.filter fun c => c.pk) = [k]) ∧ ∃ c ∈ s.cols, c.pk = false

section Matches

variable {s : SqlRDBSchema} (hs : s.WellFormed) (d : C2SqlDialect)

include hs

theorem writeMatches_of_keyFits (h : KeyFits s) : WriteMatches d s := by
  have hcreate := parsed_buildCreate hs d
  have hne : (s.cols.map fun c => c.name) ≠ [] := by simpa using hs.cols_ne_nil
  rcases h with hnone | ⟨⟨k, hk⟩, c, hc, hcpk⟩
  · have hpk := (pkIndex_eq_none_iff hs).2 hnone
    have hparsed := parsed_writeSql hs d (by rw [hpk]; nofun)
    rw [writeStatement, hpk] at hparsed
    exact ⟨_, _, _, _, _, hparsed, hcreate, by simp, hne, by rw [hpk]; rfl, nofun⟩
  · obtain ⟨i, hi, hik, hkpk, hname, hset⟩ := exists_of_filter_pk hs hk
    have hsets : nonPkCols s ≠ [] := by
      rw [hset]
      exact List.ne_nil_of_mem (List.mem_filter.2 ⟨hc, by simp [hcpk]⟩)
    have hparsed := parsed_writeSql hs d fun _ => hsets
    rw [writeStatement, hi, if_pos (show (some i).isSome = true from rfl)] at hparsed
    refine ⟨_, _, _, _, _, hparsed, hcreate, by simp, hne, by rw [hi]; rfl, ?_⟩
    rintro u ⟨rfl⟩
    refine ⟨by simpa [upsertOf] using hsets, ?_, fun n => ?_⟩
    · rw [upsertOf, hset, List.map_map]
      exact List.Perm.refl _
    · have hdecl : (∃ c ∈ s.cols.map (columnDeclOf d), c.primaryKey = true ∧ c.name = n) ↔
          ∃ c ∈ s.cols.filter (fun c => c.pk), c.name = n := by
        simp [columnDeclOf, and_assoc]
      rw [hdecl, hk, upsertOf, hname]
      simp [eq_comm]

theorem keyFits_of_writeMatches (h : WriteMatches d s) : KeyFits s := by
  obtain ⟨cols, values, conflict, decls, options, hparsed, hcreate, -, -, -, hu⟩ := h
  cases hi : s.pkIndex with
  | none => exact .inl ((pkIndex_eq_none_iff hs).1 hi)
  | some i =>
    have hsome : s.pkIndex.isSome = true := by rw [hi]; rfl
    by_cases hset : nonPkCols s = []
    · rw [parsed_writeSql_eq_none hs d hsome hset] at hparsed
      cases hparsed
    · rw [parsed_writeSql hs d fun _ => hset, writeStatement, if_pos hsome] at hparsed
      rw [parsed_buildCreate hs d] at hcreate
      cases hparsed
      cases hcreate
      obtain ⟨-, -, htarget⟩ := hu _ rfl
      obtain ⟨k, hik, hkpk, hname⟩ := exists_of_pkIndex hs hi
      -- the target is one name, so every flagged column has it
      have hnames : ∀ c ∈ s.cols, c.pk = true → c.name = k.name := by
        intro c hc hpk
        have hmem := (htarget c.name).2 ⟨_, List.mem_map_of_mem hc, hpk, rfl⟩
        rw [upsertOf, hname] at hmem
        exact List.mem_singleton.1 hmem
      refine .inr ⟨⟨k, filter_pk_of_names hs (List.mem_of_getElem? hik) hkpk hnames⟩, ?_⟩
      obtain ⟨c, hc⟩ := List.exists_mem_of_ne_nil _ hset
      obtain ⟨j, hj, hji⟩ := (mem_nonPkCols_iff hi).1 hc
      refine ⟨c, List.mem_of_getElem? hj, Bool.eq_false_iff.2 fun hpk => hji ?_⟩
      have hck := List.inj_on_of_nodup_map hs.nodup (List.mem_of_getElem? hj)
        (List.mem_of_getElem? hik) (hnames c (List.mem_of_getElem? hj) hpk)
      rw [hck, ← hik] at hj
      exact (List.getElem?_inj (List.getElem?_eq_some_iff.1 (hj.trans hik)).1
        (List.Nodup.of_map _ hs.nodup)).1 hj

end Matches

/-- **The write statement of a schema is one of SQL and fits its table exactly if no column is
flagged as a key, or one is and there is another column.** -/
theorem writeMatches_iff {s : SqlRDBSchema} (hacc : s.Accepted) (d : C2SqlDialect) :
    WriteMatches d s ↔ KeyFits s :=
  have hs := (SqlRDBSchema.accepted_iff s).1 hacc
  ⟨keyFits_of_writeMatches hs d, writeMatches_of_keyFits hs d⟩

/-- The sample struct has one key column and others. -/
theorem writeMatches_persons : WriteMatches .postgres personsSchema := by
  have hkey : KeyFits personsSchema :=
    .inr ⟨⟨⟨lit "id", .int32, 0, 4, flagPrimaryKey⟩, by decide⟩,
      ⟨lit "name", .text, 4, 32, 0⟩, by decide, by decide⟩
  exact (writeMatches_iff personsSchema_accepted .postgres).2 hkey

/-- A struct whose only column is its key has no write statement; with two flagged columns, the
statement names the first and the table is created with both. -/
theorem write_statement_unfit :
    let id : SqlRDBColumnDef := ⟨lit "id", .int32, 0, 4, flagPrimaryKey⟩
    let nr : SqlRDBColumnDef := ⟨lit "nr", .int32, 4, 4, flagPrimaryKey⟩
    let single : SqlRDBSchema := ⟨lit "tags", [id], some 0⟩
    let double : SqlRDBSchema := ⟨lit "tags", [id, nr], some 0⟩
    single.Accepted ∧ parsed (writeSql .sqlite single) = none ∧ double.Accepted ∧
      (∃ cols values sets, parsed (writeSql .sqlite double) =
        some (.insert (lit "tags") cols values (some ⟨[lit "id"], sets⟩))) ∧
      (∃ a b options, parsed (buildCreate double .sqlite) =
        some (.create (lit "tags") [a, b] options) ∧ a.primaryKey = true ∧
          b.primaryKey = true) ∧
      ¬WriteMatches .sqlite single ∧ ¬WriteMatches .sqlite double := by
  intro id nr single double
  have hsingle : single.Accepted :=
    ⟨[], some (lit "tags"), some [some id], by decide +kernel⟩
  have hdouble : double.Accepted :=
    ⟨[], some (lit "tags"), some [some id, some nr], by decide +kernel⟩
  have hs := (SqlRDBSchema.accepted_iff _).1 hsingle
  have hs' := (SqlRDBSchema.accepted_iff _).1 hdouble
  refine ⟨hsingle, parsed_writeSql_eq_none hs .sqlite rfl rfl, hdouble,
    ⟨_, _, _, parsed_writeSql hs' .sqlite (by decide)⟩,
    ⟨_, _, _, parsed_buildCreate hs' .sqlite, by decide, by decide⟩, fun h => ?_, fun h => ?_⟩
  · rcases keyFits_of_writeMatches hs .sqlite h with hn | ⟨-, c, hc, hpk⟩
    · exact absurd (hn id (by decide)) (by decide)
    · rw [List.mem_singleton.1 hc] at hpk
      exact absurd hpk (by decide)
  · rcases keyFits_of_writeMatches hs' .sqlite h with hn | ⟨⟨k, hk⟩, -⟩
    · exact absurd (hn id (by decide)) (by decide)
    · have hlen : (double.cols.filter fun c => c.pk).length = 1 := congrArg List.length hk
      exact absurd hlen (by decide)

end C2Sql
