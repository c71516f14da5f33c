import C2Sql.ReadBack

/-!
# The capacity guard

For a specification with `enforce_max_records` the tool generates a write that counts the rows of
its table first, and the rows with the key of the new row, and refuses a row that would be one too
many.

* `writeGuarded`: the generated function;
* `Model.Within`: the table has no more rows than it may, now and where a rollback leads to;
* `StoreStep.within`, `writeGuarded_within`: what other calls and the guard keep;
* `capacity_kept`: the bound in every state that is reached by guarded writes and calls that do not
  insert into the table, whatever fails.
-/

namespace C2Sql

open SnapshotStack SqlText StateLogic

/-! ## The generated function -/

/-- `strlen` of the string at an address, which is looked for in `n` bytes. -/
def strlenIn (m : Mem) (off : ℕ) : ℕ → ℕ
  | 0 => 0
  | n + 1 => if m off = 0 then 0 else strlenIn m (off + 1) n + 1

/-- The value that the condition on the key of a row compares with, by `PK_COND_FN`: a member of the
row, or the string that starts at the member, wherever it ends. There is none for a BLOB, which
`validate` refuses as the key of a guarded struct. -/
def pkCondValue (k : SqlRDBColumnDef) (row : Mem) : Option CondValue :=
  match k.type with
  | .int32 => some (.int ((ofBytes 32 (row.read k.offset 4)).signExtend 64))
  | .int64 => some (.int (ofBytes 64 (row.read k.offset 8)))
  | .real => some (.real (ofBytes 64 (row.read k.offset 8)))
  | .text => some (.text (row.read k.offset (strlenIn row k.offset (2 ^ 64))))
  | _ => none

/-- What `_guard_impl` puts into the generated text. -/
structure GuardSpec where
  table : CStr
  pk : Option SqlRDBColumnDef
  maxRecords : ℕ

/-- The function that `_guard_impl` generates, for example `WriteSessionsGuarded`. -/
def writeGuarded {σ : Type} (d : SqlRDBDriver σ) (g : GuardSpec) (row nullMap : Option Mem) :
    Api σ SqlRDBResult := do
  match row with
  | none => pure .errInvalidArg
  | some m =>
    let total ← sqlRDBCount d (some g.table) none (some 0)
    if total.1 ≠ .ok then pure total.1
    else match g.pk with
      | some k =>
        let allocOk ← malloc
        match allocOk, pkCondValue k m with
        | true, some v =>
          let existing ← sqlRDBCount d (some g.table) (some (.leaf k.name .eq v)) (some 0)
          if existing.1 ≠ .ok then pure existing.1
          else if existing.2.getD 0 = 0 ∧ total.2.getD 0 ≥ g.maxRecords then
            pure .errCapacityExceeded
          else sqlRDBWrite d (some g.table) (some m) nullMap
        | _, _ => pure .errNoMemory
      | none =>
        if total.2.getD 0 ≥ g.maxRecords then pure .errCapacityExceeded
        else sqlRDBWrite d (some g.table) (some m) nullMap

/-! ## The bound -/

section Bound

variable (sem : SqlSemantics) (g : GuardSpec) (schema : SqlRDBSchema)

/-- The table of the struct has no more rows than it may. -/
def WithinBound (db : Catalog SqlValue) : Prop :=
  ∃ t, db (sem.fold schema.name) = some t ∧ t.rows.length ≤ g.maxRecords ∧
    (g.pk.isSome = true → TableOf sem schema t)

/-- The bound holds now, and where a rollback leads to. -/
def Model.Within (s : Model) : Prop :=
  WithinBound sem g schema s.db ∧ ∀ f ∈ s.store.frames, WithinBound sem g schema f.saved

/-- What the tool knows of the struct that it guards. -/
structure GuardSpec.Fits : Prop where
  lt : g.maxRecords < 2 ^ 63
  key : ∀ k, g.pk = some k →
    (schema.cols.filter fun c => c.pk) = [k] ∧ k.nullable = false ∧ k.size ≤ intMax

variable {g schema} in
theorem GuardSpec.Fits.mem (h : g.Fits schema) {k : SqlRDBColumnDef} (hpk : g.pk = some k) :
    k ∈ schema.cols := by
  have hk : k ∈ schema.cols.filter fun c => c.pk := by
    rw [(h.key k hpk).1]
    exact List.mem_singleton_self k
  exact (List.mem_filter.1 hk).1

/-- The string in a TEXT key ends within its member. -/
def GuardSpec.Ended (m : Mem) : Prop :=
  ∀ k, g.pk = some k → k.type = .text → 0 ∈ m.read k.offset k.size

/-- The calls that insert rows. -/
def Call.inserts : Call → Bool
  | .write _ _ _ => true
  | .writeMany _ _ _ _ _ => true
  | _ => false

/-- A call that inserts no rows into the table of the struct, and names no other struct on it. -/
def Call.SparesCapacity (lookup : CStr → Option SqlRDBSchema) (c : Call) : Prop :=
  ∀ name schema', c.target = some name → lookup name = some schema' →
    sem.fold schema'.name = sem.fold schema.name → schema' = schema ∧ c.inserts = false

end Bound

section Steps

variable {dialect : C2SqlDialect} {sem : SqlSemantics} {g : GuardSpec} {schema : SqlRDBSchema}
  {lookup : CStr → Option SqlRDBSchema} {calm : Prop} {s s' : Model} {c : Call} {reply : Reply}

/-- A step on another table keeps the bound. -/
theorem Moves.within (h : Moves sem lookup s c s')
    (hc : ∀ name schema', c.target = some name → lookup name = some schema' →
      sem.fold schema.name ≠ sem.fold schema'.name) (hs : s.Within sem g schema) :
    s'.Within sem g schema := by
  obtain ⟨hdb, hsaved⟩ := hs
  cases h with
  | stays hstore =>
    rw [Model.Within, Model.db, hstore]
    exact ⟨hdb, hsaved⟩
  | writes htarget hlook hother hframes =>
    rw [Model.Within, hframes, WithinBound, hother _ (hc _ _ htarget hlook)]
    exact ⟨hdb, hsaved⟩
  | begins name hdb' hframes =>
    rw [Model.Within, hframes, hdb']
    exact ⟨hdb, List.forall_mem_cons.2 ⟨hdb, hsaved⟩⟩
  | commits hdb' hframes =>
    rw [hframes] at hsaved
    rw [Model.Within, hdb']
    exact ⟨hdb, (List.forall_mem_cons.1 hsaved).2⟩
  | rewinds hc hframes hdb' hframes' =>
    rw [hframes] at hsaved
    obtain ⟨hf, hfs⟩ := List.forall_mem_cons.1 hsaved
    rw [Model.Within, hdb']
    rcases hframes' with h | h
    · rw [h]
      exact ⟨hf, hfs⟩
    · rw [h]
      exact ⟨hf, hsaved⟩

section Statements

variable {cond : Option SqlRDBCondition} {db : Catalog SqlValue} {res : Result SqlValue}
  (hdb : WithinBound sem g schema db)

include hdb

/-- A deletion keeps the bound. -/
theorem StatementYields.delete_withinBound {vs : List SqlValue}
    (hy : StatementYields sem .delete schema cond [] vs db res) :
    WithinBound sem g schema res.db := by
  obtain ⟨t, ht, hlen, htable⟩ := hdb
  obtain ⟨t', ht', -, rfl⟩ := Semantics.effect_delete_iff.1 (Semantics.effect_of_exec hy.exec).2
  cases ht.symm.trans ht'
  exact ⟨_, Function.update_self .., (List.length_filter_le _ _).trans hlen,
    fun hpk => (htable hpk).delete _⟩

/-- Setting a field keeps the bound. -/
theorem StatementYields.update_withinBound {col : CStr} {c : SqlRDBColumnDef} {bytes : List UInt8}
    {vs : List SqlValue} (hcol : findCol schema col = some c) (htype : c.type = .blob)
    (hy : StatementYields sem .updateField schema cond col (.blob bytes :: vs) db res) :
    WithinBound sem g schema res.db := by
  obtain ⟨t, ht, hlen, htable⟩ := hdb
  obtain ⟨t', ht', -, hunique, rfl⟩ :=
    Semantics.effect_update_iff.1 (Semantics.effect_of_exec hy.exec).2
  cases ht.symm.trans ht'
  refine ⟨_, Function.update_self .., ?_, fun hpk => (htable hpk).setBlob hcol htype hunique⟩
  exact ((sem.order_perm t _).length_eq.trans (List.length_map _)).trans_le hlen

end Statements

/-- A call that inserts nothing into the table keeps the bound. -/
theorem StoreStep.within (hc : c.SparesCapacity sem schema lookup)
    (hstep : StoreStep dialect sem lookup calm s c reply s') (hs : s.Within sem g schema) :
    s'.Within sem g schema := by
  by_cases hT : ∃ name schema', c.target = some name ∧ lookup name = some schema' ∧
      sem.fold schema'.name = sem.fold schema.name
  · obtain ⟨name, schema', htarget, hlook, hfold⟩ := hT
    obtain ⟨rfl, hins⟩ := hc name schema' htarget hlook hfold
    cases hstep with
    | refused hr hcalm => exact hs
    | nullsLost => exact hs
    | stopped => cases hins
    | rewound hcalm hr hframes => cases htarget
    | meant hmeant =>
      cases hmeant with
      | write => cases hins
      | writeMany => cases hins
      | delete hlook' hans hn =>
        cases htarget
        cases hlook.symm.trans hlook'
        exact ⟨hans.delete_withinBound hs.1, hs.2⟩
      | writeBlobField hlook' hcol htype hfound hone hans =>
        cases htarget
        cases hlook.symm.trans hlook'
        exact ⟨hans.update_withinBound hs.1 hcol htype, hs.2⟩
      | notOneRow => exact hs
      | count => exact hs
      | read => exact hs
      | readBlobField => exact hs
      | beginTx => cases htarget
      | commitTx => cases htarget
      | rollbackTx => cases htarget
      | setConfig => cases htarget
      | setLogger => exact hs
  · refine hstep.moves.within (fun name schema' htarget hlook heq => hT ?_) hs
    exact ⟨name, schema', htarget, hlook, heq.symm⟩

end Steps

/-! ## The guard -/

section Guard

variable {dialect : C2SqlDialect} {sem : SqlSemantics} {g : GuardSpec} {schema : SqlRDBSchema}
  {lookup : CStr → Option SqlRDBSchema} {calm : Prop} {s s' : Model}

theorem toNat_ofNat_count {n : ℕ} (h : n < 2 ^ 63) : (BitVec.ofNat 64 n).toInt.toNat = n := by
  rw [BitVec.toInt_ofNat', Int.bmod_eq_of_le (by omega) (by omega), Int.toNat_natCast]

/-- A count changes nothing, and returns how many rows its condition selects. Without failures it
succeeds if the engine executes its statement. -/
theorem StoreStep.count {name : CStr} {cond : Option SqlRDBCondition} {r : SqlRDBResult}
    {n : Option ℕ} (hlook : lookup name = some schema)
    (hstep : StoreStep dialect sem lookup calm s (.count (some name) cond (some 0))
      ⟨some r, .number n⟩ s') :
    s' = s ∧ (r = .ok → ∃ t, s.db (sem.fold schema.name) = some t ∧
      n = some (BitVec.ofNat 64 (t.rows.filter (sem.selects (whereExpr cond 0)
        (storedValues (condValues cond)))).length).toInt.toNat) ∧
      (calm → ∀ res, StatementYields sem .count schema cond [] (condValues cond) s.db res →
        r = .ok) := by
  cases hstep with
  | refused hr hcalm =>
    exact ⟨rfl, fun h => absurd h hr, fun h _ hans => absurd (.count hlook hans) (hcalm h _ _)⟩
  | meant hmeant =>
    cases hmeant with
    | count hlook' hans =>
      cases hlook.symm.trans hlook'
      refine ⟨rfl, fun _ => ?_, fun _ _ _ => rfl⟩
      obtain ⟨t, ht, -, rfl⟩ := Semantics.effect_count_iff.1 (Semantics.effect_of_exec hans.exec).2
      refine ⟨t, ht, ?_⟩
      simp [countOf, sem.ofCount_eq, sqlEngine, sem.toInt64_int]

theorem strlenIn_eq {m : Mem} {off s n : ℕ} (hne : ∀ i < s, m (off + i) ≠ 0)
    (hzero : m (off + s) = 0) (hlt : s < n) : strlenIn m off n = s := by
  induction s generalizing off n with
  | zero =>
    obtain ⟨n, rfl⟩ := Nat.exists_eq_succ_of_ne_zero (Nat.ne_of_gt hlt)
    exact if_pos hzero
  | succ s ih =>
    obtain ⟨n, rfl⟩ := Nat.exists_eq_succ_of_ne_zero (Nat.ne_of_gt (Nat.zero_lt_of_lt hlt))
    have hfirst : m off ≠ 0 := hne 0 s.succ_pos
    have hrest : strlenIn m (off + 1) n = s := by
      refine ih (fun i hi => ?_) ?_ (Nat.lt_of_succ_lt_succ hlt)
      · rw [show off + 1 + i = off + (i + 1) by omega]
        exact hne (i + 1) (Nat.succ_lt_succ hi)
      · rw [show off + 1 + s = off + (s + 1) by omega]
        exact hzero
    rw [strlenIn, if_neg hfirst, hrest]

/-- A string that ends within its member has the length that is bound for it. -/
theorem strlenIn_of_ended {m : Mem} {off size n : ℕ} (hzero : 0 ∈ m.read off size)
    (hle : size ≤ n) : strlenIn m off n = boundedStrlen m off size := by
  obtain ⟨hlt, hend⟩ := eq_zero_at_boundedStrlen hzero
  exact strlenIn_eq (fun _ => ne_zero_of_lt_boundedStrlen) hend (hlt.trans_le hle)

/-- The condition on the key has the value that is bound for it. -/
theorem boundValue_of_pkCondValue {k : SqlRDBColumnDef} {m : Mem} {v : CondValue}
    (hsize : k.size ≤ intMax) (hended : k.type = .text → 0 ∈ m.read k.offset k.size)
    (h : pkCondValue k m = some v) : boundValue k m = some v.toSql := by
  rw [pkCondValue] at h
  rw [boundValue]
  cases hty : k.type with
  | int32 =>
    simp only [hty, Option.some.injEq] at h
    exact h ▸ rfl
  | int64 =>
    simp only [hty, Option.some.injEq] at h
    exact h ▸ rfl
  | real =>
    simp only [hty, Option.some.injEq] at h
    exact h ▸ rfl
  | text =>
    have hlen := (boundedStrlen_le m k.offset k.size).trans hsize
    have hbound : k.size ≤ 2 ^ 64 := hsize.trans (by norm_num [intMax])
    simp only [hty, Option.some.injEq] at h
    rw [strlenIn_of_ended (hended hty) hbound] at h
    simp only [Nat.min_eq_left hlen, ← h]
    rfl
  | blob => simp [hty] at h
  | other n => simp [hty] at h

theorem toSql_ne_blob {k : SqlRDBColumnDef} {m : Mem} {v : CondValue}
    (hv : pkCondValue k m = some v) {b : List UInt8} : v.toSql ≠ .blob b := by
  rintro hb
  rw [pkCondValue] at hv
  split at hv <;> cases hv <;> cases hb

/-- What the condition on the key selects. -/
theorem selects_pkCond {k : SqlRDBColumnDef} {m : Mem} {v : CondValue}
    (hv : pkCondValue k m = some v) :
    sem.selects (whereExpr (some (.leaf k.name .eq v)) 0)
      (storedValues (condValues (some (.leaf k.name .eq v)))) = hasKey sem (k.name, v.toSql) := by
  have hroot : RootOnly (some (.leaf k.name .eq v)) := by
    rintro c ⟨⟩
    exact .inr trivial
  exact selects_condValues hroot fun b hb =>
    absurd (List.mem_singleton.1 hb).symm (toSql_ne_blob hv)

/-- A table of the struct with room for a row: there are fewer rows than it may have, or one of them
has the key of the row. -/
def RoomFor (sem : SqlSemantics) (g : GuardSpec) (m : Mem) (t : Table SqlValue) : Prop :=
  t.rows.length < g.maxRecords ∨ ∃ k v, g.pk = some k ∧ pkCondValue k m = some v ∧
    ∃ r ∈ t.rows, hasKey sem (k.name, v.toSql) r = true

/-- Without a key there is room in a table that is not full. -/
theorem roomFor_iff_of_none {m : Mem} {t : Table SqlValue} (hpk : g.pk = none) :
    RoomFor sem g m t ↔ t.rows.length < g.maxRecords := by
  simp [RoomFor, hpk]

/-- There is room for a row in a table that is not full, and if its key is counted in the table. -/
theorem roomFor_iff_of_counted {k : SqlRDBColumnDef} {m : Mem} {v : CondValue} {t : Table SqlValue}
    (hpk : g.pk = some k) (hv : pkCondValue k m = some v) :
    RoomFor sem g m t ↔ t.rows.length < g.maxRecords ∨
      (t.rows.filter (sem.selects (whereExpr (some (.leaf k.name .eq v)) 0)
        (storedValues (condValues (some (.leaf k.name .eq v)))))).length ≠ 0 := by
  rw [selects_pkCond hv, ← Nat.pos_iff_ne_zero, List.length_pos_iff_exists_mem]
  simp only [RoomFor, hpk, List.mem_filter]
  refine or_congr_right ⟨?_, fun hr => ⟨k, v, rfl, hv, hr⟩⟩
  rintro ⟨k', v', hk', hv', hr⟩
  cases hk'
  cases hv.symm.trans hv'
  exact hr

/-- A write adds at most one row. -/
theorem length_of_executed {binds : Binds} {db : Catalog SqlValue} {res : Result SqlValue}
    {t : Table SqlValue} (hdb : db (sem.fold schema.name) = some t)
    (hex : executed sem schema binds db = some res) :
    ∃ t', res.db (sem.fold schema.name) = some t' ∧ t'.rows.length ≤ t.rows.length + 1 := by
  obtain ⟨-, vs, -, hexec⟩ := executed_eq_some_iff.1 hex
  have heff := (Semantics.effect_of_exec hexec).2
  rw [writeStatement, insertStatement] at heff
  obtain ⟨t', rows, ht', -, hrows, -, rfl⟩ := Semantics.effect_insert_iff.1 heff
  cases hdb.symm.trans ht'
  refine ⟨_, Function.update_self .., ?_⟩
  unfold Semantics.inserted at hrows
  split at hrows
  · cases hrows
    exact ((sem.order_perm t _).length_eq.trans List.length_append).le
  · split_ifs at hrows
    cases hrows
    rw [(sem.order_perm t _).length_eq, length_upsertRows]
    split_ifs <;> omega

/-- A row that there is room for keeps the bound. -/
theorem executed_withinBound (hwf : schema.WellFormed) (hfits : g.Fits schema) {m : Mem}
    {nullMap : Option Mem} {db : Catalog SqlValue} {res : Result SqlValue} {t : Table SqlValue}
    (hdb : db (sem.fold schema.name) = some t) (hlen : t.rows.length ≤ g.maxRecords)
    (htable : g.pk.isSome = true → TableOf sem schema t) (hended : g.Ended m)
    (hroom : RoomFor sem g m t)
    (hex : executed sem schema (rowBinds m nullMap 0 schema.cols) db = some res) :
    WithinBound sem g schema res.db := by
  cases hpk : g.pk with
  | none =>
    obtain hlt | ⟨k, v, hk, -⟩ := hroom
    · obtain ⟨t', ht', hlen'⟩ := length_of_executed hdb hex
      exact ⟨t', ht', by omega, fun h => by simp [hpk] at h⟩
    · cases hpk.symm.trans hk
  | some k =>
    obtain ⟨hfilter, hnull, hsize⟩ := hfits.key k hpk
    have hone : OneFlag schema := ⟨k, hfilter⟩
    have ht := htable (by rw [hpk]; rfl)
    obtain ⟨-, vs, hvs, hexec⟩ := executed_eq_some_iff.1 hex
    refine ⟨_, (congrFun (exec_writeStatement hwf hone ht hdb hexec) _).trans
      (Function.update_self ..), ?_, fun _ => ht.write hwf hvs hone⟩
    change (writtenRows sem schema vs t).length ≤ _
    rw [writtenRows_perm.length_eq, length_upsertRows]
    obtain hlt | ⟨k', v, hk', hv, r, hr, hkey⟩ := hroom
    · split_ifs <;> omega
    · -- the row with the key is merged with the new one
      cases hpk.symm.trans hk'
      obtain ⟨i, k', -, hik, -, hfilter', hname, -⟩ := hone.spec hwf
      cases hfilter.symm.trans hfilter'
      have hbound := boundValue_of_pkCondValue hsize (hended k hpk) hv
      obtain ⟨w, hw, hwritten⟩ := writtenRow_of_colBind hvs ht.nodup hik
      have hwv : w = v.toSql := by
        cases hbit : nullBitGet nullMap i with
        | true => simp [colBind, hbit, hnull] at hw
        | false =>
          simp only [colBind, hbit, hbound] at hw
          cases hw
          rfl
      have hsame : sameKeyOf sem schema r (writtenRow sem schema vs) = true := by
        rw [sameKeyOf_eq, hname, hwritten, hwv, hasKey,
          SqlSemantics.cmp_taken _ _ fun b hb => absurd hb (toSql_ne_blob hv)]
        exact hkey
      rw [if_pos (List.any_eq_true.2 ⟨r, hr, hsame⟩)]
      exact hlen

/-- A write that there is room for keeps the bound. -/
theorem StoreStep.write_within (hwf : schema.WellFormed) (hfits : g.Fits schema) {name : CStr}
    {m : Mem} {nullMap : Option Mem} {reply : Reply} (hlook : lookup name = some schema)
    (hended : g.Ended m)
    (hroom : ∀ t, s.db (sem.fold schema.name) = some t → RoomFor sem g m t)
    (hs : s.Within sem g schema)
    (hstep : StoreStep dialect sem lookup calm s (.write (some name) (some m) nullMap) reply s') :
    s'.Within sem g schema := by
  cases hstep with
  | refused hr hcalm => exact hs
  | meant hmeant =>
    cases hmeant with
    | write hlook' hexec =>
      cases hlook.symm.trans hlook'
      obtain ⟨⟨t, ht, hlen, htable⟩, hsaved⟩ := hs
      exact ⟨executed_withinBound hwf hfits ht hlen htable hended (hroom t ht) hexec, hsaved⟩

/-- The engine executes the COUNT of the rows that a condition selects. -/
def ExecutesCount (sem : SqlSemantics) (schema : SqlRDBSchema) (cond : Option SqlRDBCondition)
    (db : Catalog SqlValue) : Prop :=
  sem.refuses (condStatement .count schema cond []) (storedValues (condValues cond)) db = false

/-- The engine executes the COUNT statements of the guard: the one of all rows, and the one of the
rows with the key of a row. -/
structure GuardSpec.Counts (sem : SqlSemantics) (g : GuardSpec) (schema : SqlRDBSchema) (m : Mem)
    (db : Catalog SqlValue) : Prop where
  all : ExecutesCount sem schema none db
  key : ∀ k, g.pk = some k → ∃ v, pkCondValue k m = some v ∧
    ExecutesCount sem schema (some (.leaf k.name .eq v)) db

section Counts

variable {db : Catalog SqlValue} {t : Table SqlValue} (hdb : db (sem.fold schema.name) = some t)

include hdb

theorem ExecutesCount.exec {cond : Option SqlRDBCondition} (h : ExecutesCount sem schema cond db)
    (hknown : sem.condKnown t (whereExpr cond 0) = true) :
    sem.exec (condStatement .count schema cond []) (storedValues (condValues cond)) db =
      some ⟨[[sem.ofCount (t.rows.filter (sem.selects (whereExpr cond 0)
        (storedValues (condValues cond)))).length]], db, none⟩ := by
  rw [Semantics.exec, if_neg (Bool.eq_false_iff.1 h)]
  exact Semantics.effect_count_iff.2 ⟨t, hdb, hknown, rfl⟩

theorem ExecutesCount.yields (h : ExecutesCount sem schema none db) :
    ∃ out, StatementYields sem .count schema none [] (condValues none) db out :=
  ⟨_, by rintro c ⟨⟩, rfl, by rintro ⟨⟩, by decide, by decide, h.exec hdb rfl⟩

theorem ExecutesCount.yields_leaf (htable : TableOf sem schema t) {k : SqlRDBColumnDef}
    (hk : k ∈ schema.cols) {v : CondValue}
    (h : ExecutesCount sem schema (some (.leaf k.name .eq v)) db) :
    ∃ out, StatementYields sem .count schema (some (.leaf k.name .eq v)) []
      (condValues (some (.leaf k.name .eq v))) db out := by
  have hknown : sem.condKnown t (whereExpr (some (.leaf k.name .eq v)) 0) = true := by
    simp [Semantics.condKnown, whereExpr, condExpr, Expr.cols, Operand.cols, htable.has_col k hk]
  have hlt : 1 < 2 ^ 31 := by norm_num
  refine ⟨_, ?_, ?_, by rintro ⟨⟩, hlt, hlt, h.exec hdb hknown⟩
  · rintro c ⟨⟩
    exact .inr trivial
  · refine knownCols_iff.2 fun col hcol => ?_
    rw [List.mem_singleton.1 hcol, schemaHasColumn, List.any_eq_true]
    exact ⟨k, hk, beq_self_eq_true _⟩

end Counts

/-- A handle whose table keeps the bound. -/
structure SqlRDBHandle.Guarded (dialect : C2SqlDialect) (sem : SqlSemantics) (g : GuardSpec)
    (schema : SqlRDBSchema) (h : TableHandle) : Prop where
  serving : h.Serving dialect sem
  lookup_eq : h.lookup g.table = some schema
  within : h.model.Within sem g schema

variable {h h' : TableHandle}

theorem RefinesCall.guarded {c : Call} {reply : Reply} (hr : RefinesCall dialect sem h c reply h')
    (hg : h.Guarded dialect sem g schema) (hw : h'.model.Within sem g schema) :
    h'.Guarded dialect sem g schema :=
  ⟨hr.serving, by rw [hr.lookup_eq, hg.lookup_eq], hw⟩

variable (hg : h.Guarded dialect sem g schema)

include hg

/-- The guard learns the number of rows that a condition selects. -/
theorem count_guarded (hfits : g.Fits schema) (cond : Option SqlRDBCondition) :
    wp (sqlRDBCount (driver dialect (sqlEngine sem)) (some g.table) cond (some 0))
      (fun res h' => h'.Guarded dialect sem g schema ∧ h'.model = h.model ∧
        (res.1 = .ok → ∃ t, h.model.db (sem.fold schema.name) = some t ∧
          res.2 = some (t.rows.filter (sem.selects (whereExpr cond 0)
            (storedValues (condValues cond)))).length) ∧
        (h.Calm → h'.Calm ∧ ∀ out, StatementYields sem .count schema cond [] (condValues cond)
          h.model.db out → res.1 = .ok)) h := by
  have hone := exec_refines (w := ⟨h, []⟩) hg.serving
    (c := .count (some g.table) cond (some 0)) trivial rfl
  change RefinesCall dialect sem h _ ⟨some (sqlRDBCount (driver dialect (sqlEngine sem))
    (some g.table) cond (some 0) h).1.1, .number (sqlRDBCount (driver dialect (sqlEngine sem))
    (some g.table) cond (some 0) h).1.2⟩ (sqlRDBCount (driver dialect (sqlEngine sem))
    (some g.table) cond (some 0) h).2 at hone
  rw [wp]
  generalize sqlRDBCount (driver dialect (sqlEngine sem)) (some g.table) cond (some 0) h = res
    at hone ⊢
  obtain ⟨⟨r, n⟩, h'⟩ := res
  obtain ⟨hmodel, hok, hyields⟩ := hone.step.count hg.lookup_eq
  refine ⟨hone.guarded hg (by rw [show SqlRDBHandle.model _ = _ from hmodel]; exact hg.within),
    hmodel, fun hr => ?_, fun hcalm => ⟨hone.calm_iff.2 hcalm, hyields hcalm⟩⟩
  obtain ⟨t, ht, hn⟩ := hok hr
  obtain ⟨t', ht', hlen, -⟩ := hg.within.1
  cases ht.symm.trans ht'
  have hlt := ((List.length_filter_le (sem.selects (whereExpr cond 0)
    (storedValues (condValues cond))) _).trans hlen).trans_lt hfits.lt
  exact ⟨t, ht, by rw [show n = _ from hn, toNat_ofNat_count hlt]⟩

theorem write_guarded (hfits : g.Fits schema) {m : Mem} (hended : g.Ended m)
    (hroom : ∀ t, h.model.db (sem.fold schema.name) = some t → RoomFor sem g m t)
    (nullMap : Option Mem) :
    wp (sqlRDBWrite (driver dialect (sqlEngine sem)) (some g.table) (some m) nullMap)
      (fun _ h' => h'.Guarded dialect sem g schema ∧ (h.Calm → h'.Calm)) h := by
  have hone := exec_refines (w := ⟨h, []⟩) hg.serving
    (c := .write (some g.table) (some m) nullMap) trivial rfl
  have hwf := hg.serving.schemas _ _ hg.lookup_eq
  exact ⟨hone.guarded hg (hone.step.write_within hwf hfits hg.lookup_eq hended hroom hg.within),
    hone.calm_iff.2⟩

/-- The guard returns a code and leaves the store as it is, or writes a row that there is room for.
Without failures, if the engine executes the COUNT statements, it turns away the rows that there is
no room for. -/
theorem wp_writeGuarded (hfits : g.Fits schema) {m : Mem} {nullMap : Option Mem}
    {Q : SqlRDBResult → TableHandle → Prop}
    (hrefuse : ∀ r h₁, h₁.Guarded dialect sem g schema → h₁.model = h.model →
      (h.Calm → h₁.Calm ∧ (g.Counts sem schema m h.model.db → r = .errCapacityExceeded ∧
        ∀ t, h.model.db (sem.fold schema.name) = some t → ¬RoomFor sem g m t)) → Q r h₁)
    (hwrite : ∀ h₁, h₁.Guarded dialect sem g schema → h₁.model = h.model → (h.Calm → h₁.Calm) →
      (∀ t, h.model.db (sem.fold schema.name) = some t → RoomFor sem g m t) →
      wp (sqlRDBWrite (driver dialect (sqlEngine sem)) (some g.table) (some m) nullMap) Q h₁) :
    wp (writeGuarded (driver dialect (sqlEngine sem)) g (some m) nullMap) Q h := by
  obtain ⟨t, ht, -, htable⟩ := hg.within.1
  have hany {t' : Table SqlValue} (ht' : h.model.db (sem.fold schema.name) = some t') : t' = t :=
    Option.some.inj (ht'.symm.trans ht)
  simp only [writeGuarded, wp_bind]
  refine wp_mono (count_guarded hg hfits none) ?_
  rintro ⟨r, n⟩ h₁ ⟨hg₁, hmodel, hok, hcalm⟩
  by_cases hr : r = .ok
  swap
  · rw [if_pos hr]
    refine hrefuse _ _ hg₁ hmodel fun hc => ⟨(hcalm hc).1, fun hcounts => absurd ?_ hr⟩
    obtain ⟨out, hout⟩ := hcounts.all.yields ht
    exact (hcalm hc).2 out hout
  rw [if_neg (not_not.2 hr)]
  have htotal : n.getD 0 = t.rows.length := by
    obtain ⟨t', ht', hn⟩ := hok hr
    have hall : t'.rows.filter
        (sem.selects (whereExpr none 0) (storedValues (condValues none))) = t'.rows :=
      List.filter_eq_self.2 fun _ _ => rfl
    rw [show n = _ from hn, hall, Option.getD_some, hany ht']
  cases hpk : g.pk with
  | none =>
    simp only [wp_ite, wp_pure]
    split_ifs with hfull
    · refine hrefuse _ _ hg₁ hmodel fun hc => ⟨(hcalm hc).1, fun _ => ⟨rfl, fun t' ht' => ?_⟩⟩
      rw [hany ht', roomFor_iff_of_none hpk]
      omega
    · refine hwrite _ hg₁ hmodel (fun hc => (hcalm hc).1) fun t' ht' => ?_
      rw [hany ht', roomFor_iff_of_none hpk]
      omega
  | some k =>
    have hg₂ : SqlRDBHandle.Guarded dialect sem g schema { h₁ with heap := h₁.heap.next } :=
      ⟨⟨hg₁.serving.sound, hg₁.serving.nesting.of_eq rfl rfl rfl, hg₁.serving.schemas⟩,
        hg₁.lookup_eq, hg₁.within⟩
    have hcalm₂ (hc : h.Calm) : SqlRDBHandle.Calm { h₁ with heap := h₁.heap.next } :=
      ⟨(hcalm hc).1.faults, (hcalm hc).1.heap⟩
    simp only [wp_bind, wp_malloc]
    split
    swap
    case h_2 hnot =>
      refine hrefuse _ _ hg₂ hmodel fun hc => ⟨hcalm₂ hc, fun hcounts => ?_⟩
      obtain ⟨v, hv, -⟩ := hcounts.key k hpk
      exact absurd hv (hnot v (by simp [(hcalm hc).1.heap]))
    case h_1 _ _ v halloc hv =>
      rw [wp_bind]
      have hcount := count_guarded hg₂ hfits (some (.leaf k.name .eq v))
      rw [show SqlRDBHandle.model { h₁ with heap := h₁.heap.next } = h.model from hmodel] at hcount
      refine wp_mono hcount ?_
      rintro ⟨r', n'⟩ h₂ ⟨hg₃, hmodel₃, hok', hcalm'⟩
      have hcalm₃ (hc : h.Calm) := hcalm' (hcalm₂ hc)
      by_cases hr' : r' = .ok
      swap
      · rw [if_pos hr']
        refine hrefuse _ _ hg₃ hmodel₃ fun hc => ⟨(hcalm₃ hc).1, fun hcounts => absurd ?_ hr'⟩
        obtain ⟨v', hv', hkey⟩ := hcounts.key k hpk
        cases hv.symm.trans hv'
        obtain ⟨out, hout⟩ := hkey.yields_leaf ht (htable (by rw [hpk]; rfl)) (hfits.mem hpk)
        exact (hcalm₃ hc).2 out hout
      rw [if_neg (not_not.2 hr'), wp_ite]
      have hexisting : n'.getD 0 = (t.rows.filter (sem.selects
          (whereExpr (some (.leaf k.name .eq v)) 0)
          (storedValues (condValues (some (.leaf k.name .eq v)))))).length := by
        obtain ⟨t', ht', hn'⟩ := hok' hr'
        rw [show n' = _ from hn', Option.getD_some, hany ht']
      split_ifs with hfull
      · refine hrefuse _ _ hg₃ hmodel₃ fun hc => ⟨(hcalm₃ hc).1, fun _ => ⟨rfl, fun t' ht' => ?_⟩⟩
        dsimp only at hfull
        rw [hany ht', roomFor_iff_of_counted hpk hv]
        omega
      · refine hwrite _ hg₃ hmodel₃ (fun hc => (hcalm₃ hc).1) fun t' ht' => ?_
        dsimp only at hfull
        rw [hany ht', roomFor_iff_of_counted hpk hv]
        omega

/-- **The guard keeps the bound**, whether or not it writes the row. -/
theorem writeGuarded_guarded (hfits : g.Fits schema) {row : Option Mem}
    (hended : ∀ m ∈ row, g.Ended m) (nullMap : Option Mem) :
    wp (writeGuarded (driver dialect (sqlEngine sem)) g row nullMap)
      (fun _ h' => h'.Guarded dialect sem g schema ∧ (h.Calm → h'.Calm)) h := by
  cases row with
  | none => exact ⟨hg, id⟩
  | some m =>
    refine wp_writeGuarded hg hfits (fun _ _ hg₁ _ hcalm => ⟨hg₁, fun hc => (hcalm hc).1⟩)
      fun h₁ hg₁ hmodel hcalm hroom => ?_
    rw [← hmodel] at hroom
    refine wp_mono (write_guarded hg₁ hfits (hended m rfl) hroom nullMap) ?_
    rintro _ h₂ ⟨hg₂, hcalm₂⟩
    exact ⟨hg₂, fun hc => hcalm₂ (hcalm hc)⟩

end Guard

/-! ## Every reachable state -/

section Runs

variable (dialect : C2SqlDialect) (sem : SqlSemantics) (g : GuardSpec) (schema : SqlRDBSchema)
  (h : TableHandle)

/-- The states that are reached by guarded writes of rows whose TEXT key ends, and by calls that
insert nothing into the table of the struct. -/
inductive GuardedRun : TableHandle → Prop
  | start : GuardedRun h
  | guarded {h₁ : TableHandle} (hrun : GuardedRun h₁) (row nullMap : Option Mem)
      (hended : ∀ m ∈ row, g.Ended m) :
      GuardedRun (writeGuarded (driver dialect (sqlEngine sem)) g row nullMap h₁).2
  | call {h₁ : TableHandle} (hrun : GuardedRun h₁) {c : Call} (hon : c.OnStore h₁.ctx.conn.faults)
      (hret : (c.exec (driver dialect (sqlEngine sem)) ⟨h₁, []⟩).1.code.isSome = true)
      (hc : c.SparesCapacity sem schema h₁.lookup) :
      GuardedRun (c.exec (driver dialect (sqlEngine sem)) ⟨h₁, []⟩).2.handle

variable {dialect sem g schema h}

/-- Every state of a run keeps the bound, and has no failures if the first one has none. -/
theorem GuardedRun.guarded_calm (hserving : h.Serving dialect sem)
    (hlook : h.lookup g.table = some schema) (hfits : g.Fits schema) (hidle : h.store.frames = [])
    (hbound : WithinBound sem g schema h.store.contents) {h' : TableHandle}
    (hrun : GuardedRun dialect sem g schema h h') :
    h'.Guarded dialect sem g schema ∧ (h.Calm → h'.Calm) := by
  induction hrun with
  | start =>
    refine ⟨⟨hserving, hlook, hbound, ?_⟩, id⟩
    rw [show h.model.store.frames = [] from hidle]
    exact List.forall_mem_nil _
  | guarded hrun row nullMap hended ih =>
    obtain ⟨hg, hcalm⟩ := writeGuarded_guarded ih.1 hfits hended nullMap
    exact ⟨hg, fun hc => hcalm (ih.2 hc)⟩
  | call hrun hon hret hc ih =>
    have hone := exec_refines ih.1.serving hon hret
    exact ⟨hone.guarded ih.1 (hone.step.within hc ih.1.within), fun hc => hone.calm_iff.2 (ih.2 hc)⟩

end Runs

/-- A guard that allows one person. -/
def onePersonGuard : GuardSpec :=
  ⟨lit "persons", some ⟨lit "id", .int32, 0, 4, flagPrimaryKey⟩, 1⟩

/-- The table after one person has been written. -/
def fullTables : TableHandle :=
  (writeGuarded (driver .sqlite (sqlEngine plainSemantics)) onePersonGuard (some fun _ => 0) none
    emptyTables).2

theorem fits_onePersonGuard : onePersonGuard.Fits personsSchema where
  lt := by decide
  key := by
    rintro k ⟨⟩
    exact ⟨by decide, by decide, by norm_num [intMax]⟩

theorem ended_onePersonGuard {row : Option Mem} : ∀ m ∈ row, onePersonGuard.Ended m := by
  rintro m - k ⟨⟩ ⟨⟩

end C2Sql
