import C2Sql.BlobFields
import C2Sql.Frame
import C2Sql.StoreModel

/-!
# Steps of a handle on rows

Each call that writes, deletes, counts or reads rows makes a step of the store (`StoreStep`). The
step is proved for every state of the cache and every failure of the driver and the allocator.

* `SqlRDBHandle.Serving`: a handle between two calls;
* `Call.refusal`, `exec_refusal`: the calls that are refused before a statement is built, once for
  all of them;
* `Operated.yields`, `Looked.yields`: what a prepared text does is what its statement yields;
* `serves_write`, `serves_delete`, `serves_count`, `serves_read`, `serves_readBlobField`,
  `serves_writeBlobField`: the steps.
-/

namespace C2Sql

open SnapshotStack SqlText StateLogic

/-- What a client sees of a handle: the tables, the open transactions and the configuration. -/
def SqlRDBHandle.model (h : TableHandle) : Model := ⟨h.store, h.config⟩

/-- A handle between two calls. -/
structure SqlRDBHandle.Serving (dialect : C2SqlDialect) (sem : SqlSemantics) (h : TableHandle) :
    Prop where
  sound : CacheSound dialect (sqlEngine sem) h
  nesting : h.Nesting
  schemas : ∀ name schema, h.lookup name = some schema → schema.WellFormed

/-- What every call keeps, apart from the registry. -/
structure Kept (dialect : C2SqlDialect) (sem : SqlSemantics) (h h' : TableHandle) : Prop where
  sound : CacheSound dialect (sqlEngine sem) h'
  faults : h'.ctx.conn.faults = h.ctx.conn.faults
  fails : h'.heap.fails = h.heap.fails
  nesting : h'.Nesting

/-- A call that does not configure the handle makes a step of the store. -/
def ServesCall (dialect : C2SqlDialect) (sem : SqlSemantics) (h : TableHandle) (c : Call)
    (reply : Reply) (h' : TableHandle) : Prop :=
  Kept dialect sem h h' ∧
    StoreStep dialect sem h.lookup h.Calm h.model c reply ⟨h'.store, h.config⟩

theorem store_ext {N D : Type} {s t : Store N D} (hc : s.contents = t.contents)
    (hf : s.frames = t.frames) : s = t := by
  cases s
  cases t
  cases hc
  cases hf
  rfl

section Data

variable {dialect : C2SqlDialect} {sem : SqlSemantics} {h h' : TableHandle}

/-! ## Calls that fail early -/

theorem SqlRDBHandle.Nesting.of_eq (hn : h.Nesting) (hmagic : h'.magic = h.magic)
    (htxn : h'.txn = h.txn) (hframes : h'.store.frames = h.store.frames) : h'.Nesting where
  valid := by
    have hv := hn.valid
    rw [SqlRDBHandle.valid] at hv ⊢
    rw [hmagic]
    exact hv
  depth_le := htxn ▸ hn.depth_le
  frames_names := by
    rw [hframes, htxn]
    exact hn.frames_names
  spNames_eq := htxn ▸ hn.spNames_eq

theorem SqlRDBHandle.Nesting.of_frame (hn : h.Nesting) (hframe : h'.frame = h.frame)
    (hframes : h'.store.frames = h.store.frames) : h'.Nesting :=
  hn.of_eq (congrArg (fun v : SqlRDBHandle Unit => v.magic) hframe)
    (SqlRDBHandle.txn_of_frame hframe) hframes

theorem Kept.calm (hk : Kept dialect sem h h') (hcalm : h.Calm) : h'.Calm where
  faults := by
    rw [hk.faults]
    exact hcalm.faults
  heap := by
    rw [hk.fails]
    exact hcalm.heap

/-- The mutex does not matter. -/
theorem Kept.withMutex {m m' : SqlRDBMutex}
    (hk : Kept dialect sem { h with mutex := m } h') : Kept dialect sem h { h' with mutex := m' } :=
  ⟨hk.sound, hk.faults, hk.fails, hk.nesting.of_eq rfl rfl rfl⟩

/-- A call that does not change the tables. -/
theorem Kept.serves {c : Call} {reply : Reply} (hk : Kept dialect sem h h')
    (hstore : h'.store = h.store)
    (hstep : StoreStep dialect sem h.lookup h.Calm h.model c reply h.model) :
    ServesCall dialect sem h c reply h' := by
  refine ⟨hk, ?_⟩
  rw [hstore]
  exact hstep

theorem Kept.trans {h₁ : TableHandle} (hk : Kept dialect sem h h₁) (hk' : Kept dialect sem h₁ h') :
    Kept dialect sem h h' :=
  ⟨hk'.sound, hk'.faults.trans hk.faults, hk'.fails.trans hk.fails, hk'.nesting⟩

/-- The code of a call on the rows of a struct that is refused at once: an argument is not given, or
no struct has the name. -/
def refuse (lookup : CStr → Option SqlRDBSchema) (given : Bool) (name : Option CStr) :
    Option SqlRDBResult :=
  match name with
  | none => some .errInvalidArg
  | some name =>
    if given = false then some .errInvalidArg
    else if lookup name = none then some .errUnknownStruct
    else none

/-- The code of a call on a BLOB field that is refused for its column. -/
def refuseColumn (lookup : CStr → Option SqlRDBSchema) (name col : Option CStr) :
    Option SqlRDBResult :=
  match name.bind lookup, col with
  | some schema, some col =>
    match findCol schema col with
    | none => some .errUnknownColumn
    | some c => if c.type = .blob then none else some .errInvalidArg
  | _, _ => none

/-- The code of a call that is refused before a statement is built for it. -/
def Call.refusal (lookup : CStr → Option SqlRDBSchema) : Call → Option SqlRDBResult
  | .write name row _ => refuse lookup row.isSome name
  | .writeMany name rows n stride _ => refuse lookup (rows.isSome && n != 0 && stride != 0) name
  | .read name _ out _ => refuse lookup out.row.isSome name
  | .delete name cond _ => refuse lookup cond.isSome name
  | .count name _ out => refuse lookup out.isSome name
  | .writeBlobField name key col bytes =>
    (refuse lookup (key.isSome && col.isSome && bytes.isSome) name).or
      (refuseColumn lookup name col)
  | .readBlobField name key col out =>
    (refuse lookup (key.isSome && col.isSome && out.isSome) name).or (refuseColumn lookup name col)
  | .setConfig cfg => if cfg.isNone then some .errInvalidArg else none
  | _ => none

theorem refuse_eq_none {lookup : CStr → Option SqlRDBSchema} {given : Bool} {name : Option CStr}
    (h : refuse lookup given name = none) :
    given = true ∧ ∃ n schema, name = some n ∧ lookup n = some schema := by
  cases name with
  | none => cases h
  | some n =>
    rw [refuse] at h
    split_ifs at h with hgiven hlook
    obtain ⟨schema, hschema⟩ := Option.ne_none_iff_exists'.1 hlook
    exact ⟨Bool.eq_true_of_not_eq_false hgiven, n, schema, rfl, hschema⟩

theorem refuseColumn_eq_none {lookup : CStr → Option SqlRDBSchema} {name col : CStr}
    {schema : SqlRDBSchema} (hlook : lookup name = some schema)
    (h : refuseColumn lookup (some name) (some col) = none) :
    ∃ c, findCol schema col = some c ∧ c.type = .blob := by
  simp only [refuseColumn, Option.bind_some, hlook] at h
  split at h
  case h_1 => cases h
  case h_2 c hcol =>
    split_ifs at h with htype
    exact ⟨c, hcol, htype⟩

theorem field_of_refusal {β : Type} {lookup : CStr → Option SqlRDBSchema} {name col : Option CStr}
    {key : Option SqlRDBCondition} {arg : Option β}
    (h : (refuse lookup (key.isSome && col.isSome && arg.isSome) name).or
      (refuseColumn lookup name col) = none) :
    ∃ name' schema key' col' arg' c, name = some name' ∧ key = some key' ∧ col = some col' ∧
      arg = some arg' ∧ lookup name' = some schema ∧ findCol schema col' = some c ∧
      c.type = .blob := by
  obtain ⟨hrefuse, hcolumn⟩ := Option.or_eq_none_iff.1 h
  obtain ⟨hgiven, name', schema, rfl, hlook⟩ := refuse_eq_none hrefuse
  simp only [Bool.and_eq_true] at hgiven
  obtain ⟨⟨hkey, hcol⟩, harg⟩ := hgiven
  obtain ⟨key', rfl⟩ := Option.isSome_iff_exists.1 hkey
  obtain ⟨col', rfl⟩ := Option.isSome_iff_exists.1 hcol
  obtain ⟨arg', rfl⟩ := Option.isSome_iff_exists.1 harg
  obtain ⟨c, hfound, htype⟩ := refuseColumn_eq_none hlook hcolumn
  exact ⟨name', schema, key', col', arg', c, rfl, rfl, rfl, rfl, hlook, hfound, htype⟩

theorem refuse_true_ne_invalidArg {lookup : CStr → Option SqlRDBSchema} {name : CStr} :
    refuse lookup true (some name) = some .errInvalidArg ↔ False := by
  by_cases hlook : lookup name = none <;> simp [refuse, hlook]

theorem refuse_ne_ok {lookup : CStr → Option SqlRDBSchema} {given : Bool} {name : Option CStr} :
    refuse lookup given name ≠ some .ok := by
  cases name with
  | none => rintro ⟨⟩
  | some n =>
    rw [refuse]
    split_ifs <;> rintro ⟨⟩

theorem refuseColumn_ne_ok {lookup : CStr → Option SqlRDBSchema} {name col : Option CStr} :
    refuseColumn lookup name col ≠ some .ok := by
  unfold refuseColumn
  split
  · split
    · rintro ⟨⟩
    · split_ifs <;> rintro ⟨⟩
  · rintro ⟨⟩

theorem Call.refusal_ne_ok {lookup : CStr → Option SqlRDBSchema} (c : Call) :
    c.refusal lookup ≠ some .ok := by
  have hfield : ∀ given name col, (refuse lookup given name).or (refuseColumn lookup name col) ≠
      some .ok := by
    intro given name col h
    rcases Option.or_eq_some_iff.1 h with h | ⟨-, h⟩
    · exact refuse_ne_ok h
    · exact refuseColumn_ne_ok h
  cases c with
  | write => exact refuse_ne_ok
  | writeMany => exact refuse_ne_ok
  | read => exact refuse_ne_ok
  | delete => exact refuse_ne_ok
  | count => exact refuse_ne_ok
  | writeBlobField name key col bytes => exact hfield _ name col
  | readBlobField name key col out => exact hfield _ name col
  | setConfig cfg => cases cfg <;> rintro ⟨⟩
  | _ => rintro ⟨⟩

/-- A call with a meaning is not refused at once. -/
theorem Meant.refusal_eq_none {lookup : CStr → Option SqlRDBSchema} {s s' : Model} {c : Call}
    {reply : Reply} (h : Meant dialect sem lookup s c reply s') : c.refusal lookup = none := by
  cases h with
  | writeMany hlook hn hstride => simp [Call.refusal, refuse, hlook, hn.ne', hstride.ne']
  | _ => simp [Call.refusal, refuse, refuseColumn, *]

section Refusal

variable {σ α : Type} {d : SqlRDBDriver σ} {g : SqlRDBHandle σ}

/-- A computation has returned `a`, and changed nothing but the mutex and the error context, which
is as `P` says. -/
def TurnedAway (g : SqlRDBHandle σ) (a : α) (P : SqlRDBErrorCtx → Prop) (b : α)
    (g' : SqlRDBHandle σ) : Prop :=
  b = a ∧ ∃ err mutex, P err ∧ g' = { g with error := err, mutex := mutex }

/-- A call on an open handle; `out` puts the code of an exit into the result. -/
def onOpen (out : SqlRDBResult → α) (c : Api σ α) : Api σ α := do
  let h ← get
  if !h.valid then pure (out .errInvalidHandle) else c

theorem wp_onOpen (out : SqlRDBResult → α) {c : Api σ α} {Q : α → SqlRDBHandle σ → Prop}
    (hv : g.valid = true) : wp (onOpen out c) Q g ↔ wp c Q g := by
  rw [onOpen, wp_bind, wp_get, hv, wp_ite]
  exact Iff.rfl

/-- What the calls on the rows of a struct have in common: without an argument they return at once,
and otherwise they open a statement under the lock. -/
structure OpensStmt (d : SqlRDBDriver σ) (given : Bool) (name : Option CStr)
    (out : SqlRDBResult → α) (c : Api σ α) : Prop where
  refused : name = none ∨ given = false → c = onOpen out (pure (out .errInvalidArg))
  opened : ∀ n, name = some n → given = true →
    ∃ (who : CStr) (spec : SqlRDBSchema → SqlRDBQuerySpec)
      (k : Except SqlRDBResult (SqlRDBSchema × StmtId × Bool) → Api σ α),
      c = onOpen out (do mutexLock; let res ← openStmt d who n spec; k res) ∧
        ∀ r, k (.error r) = pure (out r)

theorem write_opensStmt {name : Option CStr} {row nullMap : Option Mem} :
    OpensStmt d row.isSome name id (sqlRDBWrite d name row nullMap) where
  refused := by rcases name with _ | name <;> rcases row with _ | row <;> simp <;> rfl
  opened := by
    rintro n rfl hrow
    obtain ⟨row, rfl⟩ := Option.isSome_iff_exists.1 hrow
    exact ⟨_, _, _, rfl, fun _ => rfl⟩

theorem writeMany_opensStmt {name : Option CStr} {rows nullMaps : Option Mem} {n stride : ℕ} :
    OpensStmt d (rows.isSome && n != 0 && stride != 0) name id
      (sqlRDBWriteMany d name rows n stride nullMaps) where
  refused := by
    rcases name with _ | name <;> rcases rows with _ | rows
    case some.some =>
      intro h
      have hzero : n = 0 ∨ stride = 0 := by simpa [or_iff_not_imp_left] using h
      simp only [sqlRDBWriteMany, if_pos hzero]
      rfl
    all_goals exact fun _ => rfl
  opened := by
    rintro name rfl hgiven
    simp only [Bool.and_eq_true, bne_iff_ne] at hgiven
    obtain ⟨rows, rfl⟩ := Option.isSome_iff_exists.1 hgiven.1.1
    simp only [sqlRDBWriteMany, if_neg (not_or.2 ⟨hgiven.1.2, hgiven.2⟩)]
    exact ⟨_, _, _, rfl, fun _ => rfl⟩

theorem delete_opensStmt {name : Option CStr} {cond : Option SqlRDBCondition} {out : Option ℕ} :
    OpensStmt d cond.isSome name (·, out) (sqlRDBDelete d name cond out) where
  refused := by rcases name with _ | name <;> rcases cond with _ | cond <;> simp <;> rfl
  opened := by
    rintro n rfl hcond
    obtain ⟨cond, rfl⟩ := Option.isSome_iff_exists.1 hcond
    exact ⟨_, _, _, rfl, fun _ => rfl⟩

theorem count_opensStmt {name : Option CStr} {cond : Option SqlRDBCondition} {out : Option ℕ} :
    OpensStmt d out.isSome name (·, out) (sqlRDBCount d name cond out) where
  refused := by rcases name with _ | name <;> rcases out with _ | out <;> simp <;> rfl
  opened := by
    rintro n rfl hout
    obtain ⟨old, rfl⟩ := Option.isSome_iff_exists.1 hout
    exact ⟨_, _, _, rfl, fun _ => rfl⟩

theorem read_opensStmt {name : Option CStr} {cond : Option SqlRDBCondition} {out : ReadOut}
    {opts : Option SqlRDBReadOpts} :
    OpensStmt d out.row.isSome name (·, out) (sqlRDBRead d name cond out opts) where
  refused := by
    obtain ⟨row, nullMap⟩ := out
    rcases name with _ | name <;> rcases row with _ | row <;> simp <;> rfl
  opened := by
    obtain ⟨row, nullMap⟩ := out
    rintro n rfl hrow
    obtain ⟨row, rfl⟩ := Option.isSome_iff_exists.1 hrow
    exact ⟨_, _, _, rfl, fun _ => rfl⟩

/-- Such a call that is refused. Only a struct that is not registered is reported. -/
theorem OpensStmt.turnedAway {given : Bool} {name : Option CStr} {out : SqlRDBResult → α}
    {c : Api σ α} (hc : OpensStmt d given name out c) (hv : g.valid = true) {r : SqlRDBResult}
    (hr : refuse g.lookup given name = some r) :
    wp c (TurnedAway g (out r) fun err =>
      if r = .errUnknownStruct then err.code = r else err = g.error) g := by
  have hmissing (hbad : name = none ∨ given = false) : wp c (TurnedAway g (out .errInvalidArg)
      fun err => if SqlRDBResult.errInvalidArg = .errUnknownStruct then
        err.code = .errInvalidArg else err = g.error) g := by
    rw [hc.refused hbad, wp_onOpen out hv]
    exact ⟨rfl, g.error, g.mutex, rfl, rfl⟩
  cases name with
  | none =>
    cases hr
    exact hmissing (.inl rfl)
  | some n =>
    rw [refuse] at hr
    split_ifs at hr with hgiven hlook
    · cases hr
      exact hmissing (.inr hgiven)
    · cases hr
      obtain ⟨who, spec, k, rfl, hk⟩ := hc.opened n rfl (Bool.eq_true_of_not_eq_false hgiven)
      have hlook' : ({ g with mutex := g.mutex.lock } : SqlRDBHandle σ).lookup n = none := hlook
      rw [wp_onOpen out hv]
      simp only [wp_bind, wp_mutexLock, openStmt, wp_get, hlook', wp_errSet, wp_mutexUnlock,
        wp_pure, hk]
      refine ⟨rfl, _, _, ?_, rfl⟩
      rfl

/-- What the calls on a BLOB field do under the lock, up to their first statement. -/
def openField (unknown wrong name col : CStr) (out : SqlRDBResult → α)
    (k : SqlRDBSchema → Api σ α) : Api σ α := do
  mutexLock
  let h ← get
  match h.lookup name with
  | none =>
    errSet .errUnknownStruct unknown
    mutexUnlock
    pure (out .errUnknownStruct)
  | some schema =>
    match findCol schema col with
    | none =>
      mutexUnlock
      pure (out .errUnknownColumn)
    | some c =>
      if c.type ≠ .blob then
        errSet .errInvalidArg wrong
        mutexUnlock
        pure (out .errInvalidArg)
      else k schema

/-- A call on a BLOB field that is refused for its struct or its column. Only a column that is not
in the struct is not reported. -/
theorem openField_turnedAway {name col : CStr} {r : SqlRDBResult} {unknown wrong : CStr}
    {k : SqlRDBSchema → Api σ α} (out : SqlRDBResult → α)
    (hr : (refuse g.lookup true (some name)).or (refuseColumn g.lookup (some name) (some col)) =
      some r) :
    wp (openField unknown wrong name col out k) (TurnedAway g (out r) fun err =>
      if r = .errUnknownColumn then err = g.error else err.code = r) g := by
  have hlook₁ : ({ g with mutex := g.mutex.lock } : SqlRDBHandle σ).lookup name = g.lookup name :=
    rfl
  simp only [openField, wp_bind, wp_mutexLock, wp_get, hlook₁]
  simp only [refuse, refuseColumn, Bool.true_eq_false, if_false, Option.bind_some] at hr
  cases hlook : g.lookup name with
  | none =>
    rw [hlook] at hr
    cases hr
    simp only [wp_bind, wp_errSet, wp_mutexUnlock, wp_pure]
    refine ⟨rfl, _, _, ?_, rfl⟩
    rfl
  | some schema =>
    simp only [hlook, reduceCtorEq, if_false, Option.none_or] at hr
    dsimp only
    cases hcol : findCol schema col with
    | none =>
      rw [hcol] at hr
      cases hr
      simp only [wp_bind, wp_mutexUnlock, wp_pure]
      exact ⟨rfl, g.error, _, rfl, rfl⟩
    | some c =>
      simp only [hcol] at hr
      split_ifs at hr with htype
      cases hr
      simp only [ne_eq, htype, not_false_eq_true, if_true, wp_bind, wp_errSet, wp_mutexUnlock,
        wp_pure]
      refine ⟨rfl, _, _, ?_, rfl⟩
      rfl

theorem writeBlobField_turnedAway {name col : Option CStr} {key : Option SqlRDBCondition}
    {bytes : Option (List UInt8)} {r : SqlRDBResult} (hv : g.valid = true)
    (hr : (refuse g.lookup (key.isSome && col.isSome && bytes.isSome) name).or
      (refuseColumn g.lookup name col) = some r) :
    wp (sqlRDBWriteBlobField d name key col bytes) (TurnedAway g r fun err =>
      if refuse g.lookup (key.isSome && col.isSome && bytes.isSome) name = some .errInvalidArg ∨
        r = .errUnknownColumn then err = g.error else err.code = r) g := by
  refine (wp_onOpen id hv).2 ?_
  rcases name with _ | name <;> rcases key with _ | key <;> rcases col with _ | col <;>
    rcases bytes with _ | bytes
  case some.some.some.some =>
    simp only [Option.isSome_some, Bool.and_self, refuse_true_ne_invalidArg, false_or]
    exact openField_turnedAway id hr
  all_goals
    cases hr
    exact ⟨rfl, g.error, g.mutex, (if_pos (.inl rfl)).mpr rfl, rfl⟩

theorem readBlobField_turnedAway {name col : Option CStr} {key : Option SqlRDBCondition}
    {out : Option (Option (List UInt8))} {r : SqlRDBResult} (hv : g.valid = true)
    (hr : (refuse g.lookup (key.isSome && col.isSome && out.isSome) name).or
      (refuseColumn g.lookup name col) = some r) :
    wp (sqlRDBReadBlobField d name key col out) (TurnedAway g (r, out) fun err =>
      if refuse g.lookup (key.isSome && col.isSome && out.isSome) name = some .errInvalidArg ∨
        r = .errUnknownColumn then err = g.error else err.code = r) g := by
  refine (wp_onOpen (·, out) hv).2 ?_
  rcases name with _ | name <;> rcases key with _ | key <;> rcases col with _ | col <;>
    rcases out with _ | old
  case some.some.some.some =>
    simp only [Option.isSome_some, Bool.and_self, refuse_true_ne_invalidArg, false_or]
    exact openField_turnedAway (·, _) hr
  all_goals
    cases hr
    exact ⟨rfl, g.error, g.mutex, (if_pos (.inl rfl)).mpr rfl, rfl⟩

/-- **A call that is refused at once** changes nothing but the error context and the mutex, and
leaves the caller's variables as they are. -/
theorem exec_refusal (d : SqlRDBDriver σ) {w : Client σ} (hv : w.handle.valid = true) {c : Call}
    {r : SqlRDBResult} (hc : c.refusal w.handle.lookup = some r) :
    ∃ err mutex, c.exec d w = (⟨some r, c.outputs⟩,
      { w with handle := { w.handle with error := err, mutex := mutex } }) := by
  have hcoded {P : SqlRDBErrorCtx → Prop} {x : Api σ SqlRDBResult}
      (hx : wp x (TurnedAway w.handle r P) w.handle) :
      ∃ err mutex, coded x w = (⟨some r, .nothing⟩,
        { w with handle := { w.handle with error := err, mutex := mutex } }) := by
    obtain ⟨hr, err, mutex, -, hg⟩ := hx
    exact ⟨err, mutex,
      congrArg₂ (fun r g => (Reply.mk (some r) .nothing, Client.mk g w.iterators)) hr hg⟩
  have hout {P : SqlRDBErrorCtx → Prop} {β : Type} {f : β → Output} {b : β}
      {x : Api σ (SqlRDBResult × β)} (hx : wp x (TurnedAway w.handle (r, b) P) w.handle) :
      ∃ err mutex, withOutput f x w = (⟨some r, f b⟩,
        { w with handle := { w.handle with error := err, mutex := mutex } }) := by
    obtain ⟨hr, err, mutex, -, hg⟩ := hx
    exact ⟨err, mutex, congrArg₂ (fun (y : SqlRDBResult × β) g =>
      (Reply.mk (some y.1) (f y.2), Client.mk g w.iterators)) hr hg⟩
  cases c with
  | write => exact hcoded (write_opensStmt.turnedAway hv hc)
  | writeMany => exact hcoded (writeMany_opensStmt.turnedAway hv hc)
  | read => exact hout (read_opensStmt.turnedAway hv hc)
  | delete => exact hout (delete_opensStmt.turnedAway hv hc)
  | count => exact hout (count_opensStmt.turnedAway hv hc)
  | writeBlobField => exact hcoded (writeBlobField_turnedAway hv hc)
  | readBlobField => exact hout (readBlobField_turnedAway hv hc)
  | setConfig cfg =>
    rcases cfg with _ | cfg <;> cases hc
    refine ⟨w.handle.error, w.handle.mutex, ?_⟩
    have hrun : wp (sqlRDBSetConfig d none)
        (fun r g => r = some .errInvalidArg ∧ g = w.handle) w.handle :=
      (wp_onOpen some hv).2 ⟨rfl, rfl⟩
    exact congrArg₂ (fun r g => (Reply.mk r .nothing, Client.mk g w.iterators)) hrun.1 hrun.2
  | _ => cases hc

end Refusal

/-- A call that is refused at once makes a step of the store. -/
theorem serves_refusal (hserving : h.Serving dialect sem) {c : Call} {r : SqlRDBResult}
    (hc : c.refusal h.lookup = some r) (err : SqlRDBErrorCtx) (mutex : SqlRDBMutex) :
    ServesCall dialect sem h c ⟨some r, c.outputs⟩ { h with error := err, mutex := mutex } := by
  refine ⟨⟨hserving.sound, rfl, rfl, hserving.nesting.of_eq rfl rfl rfl⟩, .refused ?_ ?_⟩
  · rintro rfl
    exact c.refusal_ne_ok hc
  · intro _ reply s' hmeant
    cases hmeant.refusal_eq_none.symm.trans hc

/-! ## Statements of a call -/

section Cond

variable {spec : SqlRDBQuerySpec} (col : CStr) (hwf : spec.schema.WellFormed)
  (hop : isCondOp spec.op = true) (hcol : isFieldOp spec.op = true → spec.targetCol = some col)
  (hq : byte '"' ∉ col)
  {vs : List SqlValue} (hleaves : vs.length < 2 ^ 31 → condLeaves spec.cond < 2 ^ 31)
  (hnest : h.Nesting) {r : SqlRDBResult}

include hwf hop hcol hq hleaves hnest

/-- The outcome of a statement that changes the tables. -/
theorem Operated.yields {Out : List (List SqlValue) → Conn (Catalog SqlValue) → Prop}
    (ho : Operated dialect (sqlEngine sem) spec vs h r Out h') :
    Kept dialect sem h h' ∧
      ((r ≠ .ok ∧ h'.store = h.store ∧
          (h.Calm → ∀ res, ¬StatementYields sem spec.op spec.schema spec.cond col vs
            h.store.contents res)) ∨
        (r = .ok ∧ ∃ res,
          StatementYields sem spec.op spec.schema spec.cond col vs h.store.contents res ∧
          h'.store = { h.store with contents := res.db } ∧
          h'.ctx.conn.changes = (res.changes.map Int.ofNat).getD h.ctx.conn.changes ∧
          Out res.rows h'.ctx.conn)) := by
  obtain ⟨hs', hframe, ⟨hr, hc, hu⟩ | ⟨sql, n, res, hp, hran, rfl, hout⟩⟩ := ho
  · have hstore : h'.store = h.store := congrArg Conn.store hc
    refine ⟨⟨hs', congrArg Conn.faults hc, SqlRDBHandle.fails_of_frame hframe,
        hnest.of_frame hframe (by rw [hstore])⟩,
      .inl ⟨hr, hstore, fun hcalm res ha => ?_⟩⟩
    exact (ha.executes hwf hop hcol hq).not_unprepared hcalm hu
  · cases res with
    | error r =>
      obtain ⟨hr, t, hc⟩ := hran.error r rfl
      have hstore : h'.store = h.store := (congrArg Conn.store hc).trans rfl
      refine ⟨⟨hs', hran.faults_eq, SqlRDBHandle.fails_of_frame hframe,
        hnest.of_frame hframe (by rw [hstore])⟩,
        .inl ⟨hr, hstore, fun hcalm res ha => ?_⟩⟩
      obtain ⟨rows, hrows⟩ := (ha.executes hwf hop hcol hq).ran_ok hcalm hp hran
      cases hrows
    | ok rows =>
      obtain ⟨o, t, hlen, hrun, rfl, hc⟩ := hran.ok rows rfl
      obtain ⟨res, ha, rfl⟩ := yields_of_run hwf hop hcol hq hp hlen (hleaves hlen) hrun
      have hstore : h'.store = { h.store with contents := res.db } :=
        (congrArg Conn.store hc).trans rfl
      exact ⟨⟨hs', hran.faults_eq, SqlRDBHandle.fails_of_frame hframe,
        hnest.of_frame hframe (by rw [hstore])⟩,
        .inr ⟨rfl, res, ha, hstore, congrArg Conn.changes hc, hout _ rfl⟩⟩

omit r in
/-- The outcome of a statement that reads. -/
theorem Looked.yields {α : Type} {old : α} {x : SqlRDBResult × α}
    {Out : List (List SqlValue) → SqlRDBResult × α → Prop}
    (hl : Looked dialect (sqlEngine sem) spec vs h old Out x h') :
    Kept dialect sem h h' ∧
      ((x.1 ≠ .ok ∧ x.2 = old ∧ h'.store = h.store ∧
          (h.Calm → ∀ res, ¬StatementYields sem spec.op spec.schema spec.cond col vs
            h.store.contents res)) ∨
        ∃ res, StatementYields sem spec.op spec.schema spec.cond col vs h.store.contents res ∧
          h'.store = { h.store with contents := res.db } ∧ Out res.rows x) := by
  obtain ⟨hs', hframe, ⟨hr, hold, hc, hu⟩ | ⟨sql, n, res, c, t, hp, hran, hc, herr, hout⟩⟩ := hl
  · have hstore : h'.store = h.store := congrArg Conn.store hc
    refine ⟨⟨hs', congrArg Conn.faults hc, SqlRDBHandle.fails_of_frame hframe,
        hnest.of_frame hframe (by rw [hstore])⟩,
      .inl ⟨hr, hold, hstore, fun hcalm res ha => ?_⟩⟩
    exact (ha.executes hwf hop hcol hq).not_unprepared hcalm hu
  · have hfaults : h'.ctx.conn.faults = h.ctx.conn.faults :=
      (congrArg Conn.faults hc).trans hran.faults_eq
    cases res with
    | error r' =>
      obtain ⟨hr, t', rfl⟩ := hran.error r' rfl
      obtain rfl := herr r' rfl
      have hstore : h'.store = h.store := (congrArg Conn.store hc).trans rfl
      refine ⟨⟨hs', hfaults, SqlRDBHandle.fails_of_frame hframe,
        hnest.of_frame hframe (by rw [hstore])⟩,
        .inl ⟨hr, rfl, hstore, fun hcalm res ha => ?_⟩⟩
      obtain ⟨rows, hrows⟩ := (ha.executes hwf hop hcol hq).ran_ok hcalm hp hran
      cases hrows
    | ok rows =>
      obtain ⟨o, t', hlen, hrun, rfl, rfl⟩ := hran.ok rows rfl
      obtain ⟨res, ha, rfl⟩ := yields_of_run hwf hop hcol hq hp hlen (hleaves hlen) hrun
      have hstore : h'.store = { h.store with contents := res.db } :=
        (congrArg Conn.store hc).trans rfl
      exact ⟨⟨hs', hfaults, SqlRDBHandle.fails_of_frame hframe,
        hnest.of_frame hframe (by rw [hstore])⟩,
        .inr ⟨res, ha, hstore, hout _ rfl⟩⟩

end Cond

/-- A statement that selects leaves the tables as they are. -/
theorem StatementYields.db_eq {op : C2SqlQBOp} {schema : SqlRDBSchema}
    {cond : Option SqlRDBCondition}
    {col : CStr} {vs : List SqlValue} {db : Catalog SqlValue} {res : Result SqlValue}
    (hop : op = .select ∨ op = .count ∨ op = .selectField)
    (ha : StatementYields sem op schema cond col vs db res) : res.db = db := by
  have heff := (Semantics.effect_of_exec ha.exec).2
  rcases hop with rfl | rfl | rfl
  · obtain ⟨t, -, -, rfl⟩ := Semantics.effect_select_iff.1 heff
    rfl
  · obtain ⟨t, -, -, rfl⟩ := Semantics.effect_count_iff.1 heff
    rfl
  · obtain ⟨t, -, -, rfl⟩ := Semantics.effect_select_iff.1 heff
    rfl

/-! ## Writing -/

/-- The text of a write is executed as its statement. -/
theorem run_writeSql_iff (dialect : C2SqlDialect) {schema : SqlRDBSchema}
    (hwf : schema.WellFormed) {vs : List SqlValue} {db : Catalog SqlValue}
    {o : Outcome (Catalog SqlValue)} :
    (sqlEngine sem).run (writeSql dialect schema) vs db = some o ↔ schema.Settable ∧
      ∃ res, sem.exec (writeStatement schema) vs db = some res ∧
        o = ⟨res.rows, res.db, res.changes.map Int.ofNat⟩ := by
  rw [sqlEngine_run_iff]
  constructor
  · rintro ⟨st, res, hparsed, hexec, rfl⟩
    have hset : schema.Settable := by
      intro hpk hnil
      rw [parsed_writeSql_eq_none hwf dialect hpk hnil] at hparsed
      cases hparsed
    rw [parsed_writeSql hwf dialect hset] at hparsed
    cases hparsed
    exact ⟨hset, res, hexec, rfl⟩
  · rintro ⟨hset, res, hexec, rfl⟩
    exact ⟨_, res, parsed_writeSql hwf dialect hset, hexec, rfl⟩

section Rows

variable (hserving : h.Serving dialect sem) {name : CStr} {schema : SqlRDBSchema}
  (hlook : h.lookup name = some schema)

include hserving hlook

/-- `SqlRDBWrite` makes a step of the store. -/
theorem serves_write (row : Mem) (nullMap : Option Mem) :
    wp (sqlRDBWrite (driver dialect (sqlEngine sem)) (some name) (some row) nullMap)
      (fun r h' => ServesCall dialect sem h (.write (some name) (some row) nullMap) (.plain r) h')
      h := by
  have hv := hserving.nesting.valid
  have hwf := hserving.schemas name schema hlook
  have hout := write_outcome hserving.sound hv hlook hwf row nullMap
  rw [wp] at hout ⊢
  generalize hrun :
    sqlRDBWrite (driver dialect (sqlEngine sem)) (some name) (some row) nullMap h =
    res at hout ⊢
  obtain ⟨r, h'⟩ := res
  obtain ⟨hs', hframe, hfaults, hframes, herr, hok⟩ := hout
  refine ⟨⟨hs', hfaults, SqlRDBHandle.fails_of_frame hframe,
    hserving.nesting.of_frame hframe hframes⟩, ?_⟩
  by_cases hr : r = .ok
  · obtain ⟨vs, o, hvs, hrun', hdb⟩ := hok hr
    obtain ⟨hset, res, hexec, rfl⟩ := (run_writeSql_iff dialect hwf).1 hrun'
    have hstore : h'.store = { h.store with contents := res.db } := store_ext hdb hframes
    have hexecuted : executed sem schema (rowBinds row nullMap 0 schema.cols) h.model.db =
        some res := executed_eq_some_iff.2 ⟨hset, vs, hvs, hexec⟩
    obtain rfl := hr
    rw [hstore]
    exact .meant (.write hlook hexecuted)
  · have hstore : h'.store = h.store := store_ext (herr hr) hframes
    rw [hstore]
    refine .refused hr fun hcalm reply s' hmeant => hr ?_
    cases hmeant with
    | write hlook' hexec =>
      cases hlook.symm.trans hlook'
      obtain ⟨hset, vs, hvs, hexec⟩ := executed_eq_some_iff.1 hexec
      have hok := write_ok hserving.sound hv hlook hwf hcalm.faults hcalm.heap
        (sqlEngine_compiles (parsed_writeSql hwf dialect hset)) hvs
        ((run_writeSql_iff dialect hwf).2 ⟨hset, _, hexec, rfl⟩)
      rw [hrun] at hok
      exact hok

/-! ## Deleting and counting -/

omit hserving hlook in
/-- The values of a condition are as many as its leaves. -/
theorem condLeaves_lt {cond : Option SqlRDBCondition} (hlen : (condValues cond).length < 2 ^ 31) :
    condLeaves cond < 2 ^ 31 := by
  rw [length_condValues] at hlen
  exact hlen

/-- `SqlRDBDelete` makes a step of the store. -/
theorem serves_delete (cond : SqlRDBCondition) (out : Option ℕ) :
    wp (sqlRDBDelete (driver dialect (sqlEngine sem)) (some name) (some cond) out)
      (fun res h' => ServesCall dialect sem h (.delete (some name) (some cond) out)
        ⟨some res.1, .number res.2⟩ h') h := by
  have hwf := hserving.schemas name schema hlook
  refine wp_mono (delete_spec hserving.sound hserving.nesting.valid hlook hwf cond out) ?_
  rintro ⟨r, new⟩ h' ⟨ho, hold⟩
  obtain ⟨hkept, ⟨hr, hstore, hcalm⟩ | ⟨hr, res, hans, hstore, hchanges, hout⟩⟩ :=
    ho.yields [] hwf rfl (by rintro ⟨⟩) List.not_mem_nil condLeaves_lt hserving.nesting
  · obtain rfl : new = out := hold hr
    refine hkept.serves hstore (.refused hr fun hc reply s' hmeant => ?_)
    cases hmeant with
    | delete hlook' hans =>
      cases hlook.symm.trans hlook'
      exact hcalm hc _ hans
  · obtain ⟨t, -, -, hres⟩ := Semantics.effect_delete_iff.1 (Semantics.effect_of_exec hans.exec).2
    have hn : res.changes = some _ := congrArg Result.changes hres
    have hnew : new = out.map fun _ => _ := hout
    rw [hchanges, hn] at hnew
    refine ⟨hkept, ?_⟩
    rw [hstore, show r = .ok from hr, hnew]
    exact .meant (.delete hlook hans hn)

/-- `SqlRDBCount` makes a step of the store. -/
theorem serves_count (cond : Option SqlRDBCondition) (old : ℕ) :
    wp (sqlRDBCount (driver dialect (sqlEngine sem)) (some name) cond (some old))
      (fun res h' => ServesCall dialect sem h (.count (some name) cond (some old))
        ⟨some res.1, .number res.2⟩ h') h := by
  have hwf := hserving.schemas name schema hlook
  refine wp_mono (count_spec hserving.sound hserving.nesting.valid hlook hwf cond old) ?_
  rintro ⟨r, new⟩ h' ⟨ho, hold⟩
  obtain ⟨hkept, ⟨hr, hstore, hcalm⟩ | ⟨hr, res, hans, hstore, -, hout⟩⟩ :=
    ho.yields [] hwf rfl (by rintro ⟨⟩) List.not_mem_nil condLeaves_lt hserving.nesting
  · obtain rfl : new = some old := hold hr
    refine hkept.serves hstore (.refused hr fun hc reply s' hmeant => ?_)
    cases hmeant with
    | count hlook' hans =>
      cases hlook.symm.trans hlook'
      exact hcalm hc _ hans
  · rw [hans.db_eq (.inr (.inl rfl))] at hstore
    rw [show r = .ok from hr, show new = _ from hout]
    exact hkept.serves hstore (.meant (.count hlook hans))

/-! ## Reading -/

/-- `SqlRDBRead` makes a step of the store. -/
theorem serves_read (cond : Option SqlRDBCondition) (row : Buffer) (nullMap : Option Mem)
    (opts : Option SqlRDBReadOpts) :
    wp (sqlRDBRead (driver dialect (sqlEngine sem)) (some name) cond ⟨some row, nullMap⟩ opts)
      (fun res h' => ServesCall dialect sem h (.read (some name) cond ⟨some row, nullMap⟩ opts)
        ⟨some res.1, .row res.2⟩ h') h := by
  have hwf := hserving.schemas name schema hlook
  refine wp_mono
    (read_spec hserving.sound hserving.nesting.valid hlook hwf cond row nullMap opts) ?_
  rintro ⟨r, new⟩ h' hl
  obtain ⟨hkept, ⟨hr, hold, hstore, hcalm⟩ | ⟨res, hans, hstore, hout⟩⟩ :=
    hl.yields [] hwf rfl (by rintro ⟨⟩) List.not_mem_nil condLeaves_lt hserving.nesting
  · obtain rfl : new = ⟨some row, nullMap⟩ := hold
    refine hkept.serves hstore (.refused hr fun hc reply s' hmeant => ?_)
    cases hmeant with
    | read hlook' hans =>
      cases hlook.symm.trans hlook'
      exact hcalm hc _ hans
  · rw [hans.db_eq (.inl rfl)] at hstore
    refine hkept.serves hstore ?_
    cases hout with
    | reply hreply => exact .meant (.read hlook hans hreply.symm)
    | failed hc hr => exact .refused hr fun h => absurd h hc
    | nullsLost hc hmulti hreply => exact .nullsLost hc hlook hans hmulti hreply.symm

/-! ## BLOB fields -/

omit hserving hlook in
theorem quote_of_findCol {schema : SqlRDBSchema} (hwf : schema.WellFormed) {col : CStr}
    {c : SqlRDBColumnDef} (hcol : findCol schema col = some c) : byte '"' ∉ col := by
  have hname : c.name = col := by simpa using List.find?_some hcol
  exact hname ▸ quote_not_mem (hwf.col_valid c (List.mem_of_find?_eq_some hcol))

section Field

variable {col : CStr} {c : SqlRDBColumnDef} (hcol : findCol schema col = some c)
  (htype : c.type = .blob) (key : SqlRDBCondition)

include hcol htype

/-- `SqlRDBReadBlobField` makes a step of the store. -/
theorem serves_readBlobField (old : Option (List UInt8)) :
    wp (sqlRDBReadBlobField (driver dialect (sqlEngine sem)) (some name) (some key) (some col)
      (some old)) (fun res h' => ServesCall dialect sem h
        (.readBlobField (some name) (some key) (some col) (some old)) ⟨some res.1, .blob res.2⟩ h')
      h := by
  have hwf := hserving.schemas name schema hlook
  refine wp_mono (readBlobField_spec hwf hserving.sound hserving.nesting.valid hlook hcol htype key
    old) ?_
  rintro ⟨r, new⟩ h' hl
  obtain ⟨hkept, ⟨hr, hold, hstore, hcalm⟩ | ⟨res, hans, hstore, hout⟩⟩ :=
    hl.yields col hwf rfl (fun _ => rfl) (quote_of_findCol hwf hcol) condLeaves_lt hserving.nesting
  · obtain rfl : new = some old := hold
    refine hkept.serves hstore (.refused hr fun hc reply s' hmeant => ?_)
    cases hmeant with
    | readBlobField hlook' hcol' htype' hans =>
      cases hlook.symm.trans hlook'
      exact hcalm hc _ hans
  · rw [hans.db_eq (.inr (.inr rfl))] at hstore
    refine hkept.serves hstore ?_
    cases hout with
    | reply hreply => exact .meant (.readBlobField hlook hcol htype hans hreply.symm)
    | failed hc hr => exact .refused hr fun h => absurd h hc

/-- `SqlRDBWriteBlobField` makes a step of the store. -/
theorem serves_writeBlobField (bytes : List UInt8) :
    wp (sqlRDBWriteBlobField (driver dialect (sqlEngine sem)) (some name) (some key) (some col)
      (some bytes)) (fun r h' => ServesCall dialect sem h
        (.writeBlobField (some name) (some key) (some col) (some bytes)) (.plain r) h') h := by
  have hlook₁ : ({ h with mutex := h.mutex.lock } : TableHandle).lookup name = some schema := hlook
  have hwf := hserving.schemas name schema hlook
  have hq := quote_of_findCol hwf hcol
  simp only [sqlRDBWriteBlobField, wp_bind, wp_get, hserving.nesting.valid, Bool.not_true,
    Bool.false_eq_true, if_false, wp_mutexLock, hlook₁, hcol, wp_ite, ne_eq, htype,
    not_true_eq_false]
  refine wp_mono (countMatchingRows_spec (h := { h with mutex := h.mutex.lock }) hwf
    hserving.sound col key) ?_
  rintro ⟨r, m⟩ h₁ hl
  obtain ⟨hkept, ⟨hr, -, hstore, hcalm⟩ | ⟨found, hfound, hstore, hcount, hok⟩⟩ :=
    hl.yields col hwf rfl (fun _ => rfl) hq condLeaves_lt hserving.nesting.lock
  · rw [if_pos hr]
    simp only [wp_mutexUnlock, wp_pure]
    refine hkept.withMutex.serves hstore (.refused hr fun hc reply s' hmeant => ?_)
    have hcalm' := hcalm ⟨hc.faults, hc.heap⟩
    cases hmeant with
    | writeBlobField hlook' hcol' htype' hfound =>
      cases hlook.symm.trans hlook'
      exact hcalm' _ hfound
    | notOneRow hlook' hcol' htype' hfound =>
      cases hlook.symm.trans hlook'
      exact hcalm' _ hfound
  rw [hfound.db_eq (.inr (.inr rfl))] at hstore
  by_cases hr : r = .ok
  swap
  · rw [if_pos hr]
    simp only [wp_mutexUnlock, wp_pure]
    refine hkept.withMutex.serves hstore (.refused hr fun hc => ?_)
    exact absurd (hok (hc.faults .step)) hr
  obtain rfl : m = min found.rows.length 2 := hcount hr
  have hmeant (hne : found.rows.length ≠ 1) : Meant dialect sem h.lookup h.model
      (.writeBlobField (some name) (some key) (some col) (some bytes))
      (.plain (if found.rows = [] then .errNotFound else .errMultipleRows)) h.model :=
    .notOneRow hlook hcol htype hfound hne
  rw [if_neg (not_not.2 hr)]
  split_ifs with hzero htwo
  · simp only [wp_mutexUnlock, wp_pure]
    rw [if_pos (List.length_eq_zero_iff.1 (by omega))] at hmeant
    exact hkept.withMutex.serves hstore (.meant (hmeant (by omega)))
  · simp only [wp_mutexUnlock, wp_pure]
    rw [if_neg (fun hnil => hzero (by rw [hnil]; rfl))] at hmeant
    exact hkept.withMutex.serves hstore (.meant (hmeant (by omega)))
  · refine wp_mono (updateField_spec hwf hkept.sound key col bytes) fun r' h' ho => ?_
    have hleaves : (.blob bytes :: condValues (some key)).length < 2 ^ 31 →
        condLeaves (some key) < 2 ^ 31 := fun hl => condLeaves_lt (Nat.lt_of_succ_lt hl)
    obtain ⟨hkept', hcases⟩ :=
      ho.yields col hwf rfl (fun _ => rfl) hq hleaves hkept.nesting
    rw [show h₁.store = h.store from hstore] at hcases
    obtain ⟨hr', hstore', hcalm⟩ | ⟨rfl, res, hans, hstore', -, -⟩ := hcases
    · refine (hkept.trans hkept').withMutex.serves hstore'
        (.refused hr' fun hc reply s' hm => ?_)
      cases hm with
      | writeBlobField hlook' hcol' htype' hfound' hone hans =>
        cases hlook.symm.trans hlook'
        exact hcalm (hkept.calm ⟨hc.faults, hc.heap⟩) _ hans
      | notOneRow hlook' hcol' htype' hfound' hnot =>
        cases hlook.symm.trans hlook'
        cases hfound.unique hfound'
        omega
    · refine ⟨(hkept.trans hkept').withMutex, ?_⟩
      rw [hstore']
      exact .meant (.writeBlobField hlook hcol htype hfound (by omega) hans)

end Field

end Rows

end Data

end C2Sql
