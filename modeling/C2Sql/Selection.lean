import C2Sql.FieldOperations
import C2Sql.SqlEngine

/-!
# Statements with a condition on an engine of tables

What the statements of the calls with a condition do on an engine of tables. A text that the engine
runs is the statement of its operation: in particular, match-all stands at the root of the condition
only. If the values of the condition can be carried by the drivers, the statement selects the rows
that the condition means.

* `matching`: the rows that a condition means;
* `CondCarried`: the values of a condition can be carried;
* `run_select`, `run_selectField`, `run_updateField`: the effects of the statements.
-/

namespace C2Sql

open SqlText StateLogic

/-! ## The rows that a condition means -/

section Matching

variable (sem : SqlSemantics)

/-- A row is what a condition means. -/
def isMatch (cond : Option SqlRDBCondition) (r : Row SqlValue) : Bool :=
  condMeaning sem.cmp (fun n => r (sem.fold n)) cond == some true

/-- The rows that a condition means. -/
def matching (cond : Option SqlRDBCondition) (rows : List (Row SqlValue)) : List (Row SqlValue) :=
  rows.filter (isMatch sem cond)

/-- Every BLOB of a condition has a length that the drivers' `int` can hold. -/
def CondCarried (cond : Option SqlRDBCondition) : Prop :=
  ∀ b, .blob b ∈ condValues cond → b.length < 2 ^ 31

variable {sem}

theorem whereExpr_of_noAll {c : SqlRDBCondition} (hc : c.NoAll) (n : ℕ) :
    whereExpr (some c) n = some (condExpr c n) := by
  cases c with
  | all => cases hc
  | leaf => rfl
  | and => rfl
  | or => rfl

/-- An expression depends on what its columns are compared with, from its first parameter on. -/
theorem eval_condExpr_congr {cmp : CmpOp → SqlValue → SqlValue → Option Bool}
    (row : CStr → SqlValue) {c : SqlRDBCondition} (hc : c.NoAll) {n m : ℕ} {ps qs : ℕ → SqlValue}
    (h : ∀ i op u, cmp op u (ps (n + i + 1)) = cmp op u (qs (m + i + 1))) :
    (condExpr c n).eval cmp row ps = (condExpr c m).eval cmp row qs := by
  have hshift : ∀ k i op u, cmp op u (ps (n + k + i + 1)) = cmp op u (qs (m + k + i + 1)) := by
    intro k i op u
    rw [Nat.add_assoc n, Nat.add_assoc m]
    exact h (k + i) op u
  induction c generalizing n m with
  | all => cases hc
  | leaf col op v => simp only [condExpr, Expr.eval, Operand.eval, h 0]
  | and l r ihl ihr =>
    simp only [condExpr, Expr.eval, ihl hc.1 h hshift,
      ihr hc.2 (hshift _) fun k i => by simpa [Nat.add_assoc] using hshift (l.leafCount + k) i]
  | or l r ihl ihr =>
    simp only [condExpr, Expr.eval, ihl hc.1 h hshift,
      ihr hc.2 (hshift _) fun k i => by simpa [Nat.add_assoc] using hshift (l.leafCount + k) i]

/-- What is bound for a condition is compared as its values are, if they can be carried. -/
theorem cmp_param_storedValues {cond : Option SqlRDBCondition} (hc : CondCarried cond) (i : ℕ)
    (op : CmpOp) (u : SqlValue) :
    sem.cmp op u (sem.param (storedValues (condValues cond)) (i + 1)) =
      sem.cmp op u (((condValues cond)[i]?).getD .null) := by
  cases hv : (condValues cond)[i]? with
  | none =>
    have hlen : (storedValues (condValues cond))[i]? = none := by
      rw [List.getElem?_eq_none_iff] at hv ⊢
      rwa [length_storedValues]
    rw [Semantics.param, Nat.add_sub_cancel, hlen, Option.getD_none, Option.getD_none, sem.null_eq,
      SqlSemantics.bound_null]
  | some v =>
    rw [SqlSemantics.param_storedValues hv]
    refine SqlSemantics.cmp_taken op u fun b hb => hc b ?_
    rw [← hb]
    exact List.mem_of_getElem? hv

/-- **The expression of a condition selects the rows that it means**, if its values can be
carried. -/
theorem selects_condValues {cond : Option SqlRDBCondition} (hroot : RootOnly cond)
    (hc : CondCarried cond) :
    sem.selects (whereExpr cond 0) (storedValues (condValues cond)) = isMatch sem cond := by
  cases cond with
  | none => rfl
  | some c =>
    obtain rfl | hno := hroot c rfl
    · rfl
    · have hvs : HoldsFrom (fun k => ((condValues (some c))[k - 1]?).getD .null) 0
          c.leafValues := by
        intro i v hv
        simp only [Nat.zero_add, Nat.add_sub_cancel]
        rw [show condValues (some c) = c.leafValues from rfl, hv]
        rfl
      have heval : ∀ r : Row SqlValue, (condExpr c 0).eval sem.cmp (fun n => r (sem.fold n))
          (sem.param (storedValues (condValues (some c)))) =
            condMeaning sem.cmp (fun n => r (sem.fold n)) (some c) := by
        intro r
        refine (eval_condExpr_congr _ hno fun i op u => ?_).trans (eval_condExpr _ _ hno hvs)
        rw [Nat.zero_add, Nat.add_sub_cancel]
        exact cmp_param_storedValues hc i op u
      funext r
      simp only [whereExpr_of_noAll hno, Semantics.selects, heval, isMatch]

theorem param_append (pre vs : List SqlValue) (i : ℕ) :
    sem.param (pre ++ vs) (pre.length + i + 1) = sem.param vs (i + 1) := by
  rw [Semantics.param, Semantics.param, show pre.length + i + 1 - 1 = pre.length + i by omega,
    List.getElem?_append_right (by omega), Nat.add_sub_cancel_left, Nat.add_sub_cancel]

/-- Parameters in front of those of a condition do not matter. -/
theorem selects_append {cond : Option SqlRDBCondition} (hroot : RootOnly cond)
    (pre vs : List SqlValue) :
    sem.selects (whereExpr cond pre.length) (pre ++ vs) = sem.selects (whereExpr cond 0) vs := by
  cases cond with
  | none => rfl
  | some c =>
    obtain rfl | hc := hroot c rfl
    · rfl
    · have heval : ∀ r : Row SqlValue,
          (condExpr c pre.length).eval sem.cmp (fun n => r (sem.fold n)) (sem.param (pre ++ vs)) =
            (condExpr c 0).eval sem.cmp (fun n => r (sem.fold n)) (sem.param vs) := by
        intro r
        refine eval_condExpr_congr _ hc fun i op u => ?_
        rw [param_append, Nat.zero_add]
      funext r
      simp only [whereExpr_of_noAll hc, Semantics.selects, heval]

end Matching

/-- The values of a row in the columns of a schema. -/
def rowCells (sem : SqlSemantics) (schema : SqlRDBSchema) (r : Row SqlValue) : List SqlValue :=
  schema.cols.map fun c => r (sem.fold c.name)

/-! ## Calls that succeed -/

/-- The statement of a call can be prepared, its values can be numbered, and the engine runs it. -/
def Executes (dialect : C2SqlDialect) (sem : SqlSemantics) (spec : SqlRDBQuerySpec)
    (vs : List SqlValue) (db : Catalog SqlValue) : Prop :=
  ∃ sql n o, Prepares dialect (sqlEngine sem) spec sql n ∧ vs.length < 2 ^ 31 ∧
    (sqlEngine sem).run sql (storedValues vs) db = some o

section Executes

variable {dialect : C2SqlDialect} {sem : SqlSemantics} {spec : SqlRDBQuerySpec}
  {vs : List SqlValue} {h : TableHandle} (hcalm : h.Calm)
  (hex : Executes dialect sem spec vs h.store.contents)

include hcalm hex

theorem Executes.not_unprepared {r : SqlRDBResult} :
    ¬Unprepared dialect (sqlEngine sem) h spec r := by
  obtain ⟨sql, n, -, hp, -⟩ := hex
  exact fun hu => hu.elim hp (hcalm.faults .prepare) hcalm.heap

theorem Executes.ran_ok {sql : CStr} {n : ℕ} (hp : Prepares dialect (sqlEngine sem) spec sql n)
    {res : Except SqlRDBResult (List (List SqlValue))} {c : Conn (Catalog SqlValue)}
    (hran : Ran (sqlEngine sem) sql vs h.ctx.conn res c) : ∃ rows, res = .ok rows := by
  obtain ⟨sql', n', o, hp', hlen, hrun⟩ := hex
  cases hp.build_eq.symm.trans hp'.build_eq
  exact hran.runs hcalm.faults hlen o hrun

end Executes

/-! ## The statement of a text -/

/-- A text that the engine runs is parsed as the statement of its operation, which is executed. -/
theorem exec_of_run {sem : SqlSemantics} {spec : SqlRDBQuerySpec}
    (hs : spec.schema.WellFormed) (hop : isCondOp spec.op = true) {col : CStr}
    (hcol : isFieldOp spec.op = true → spec.targetCol = some col) (hq : byte '"' ∉ col)
    {sql : CStr} {n : ℕ} (hb : internalQbBuild spec = .ok (sql, n))
    (hlen : condLeaves spec.cond < 2 ^ 31) {us : List SqlValue} {db : Catalog SqlValue}
    {o : Outcome (Catalog SqlValue)} (hrun : (sqlEngine sem).run sql us db = some o) :
    RootOnly spec.cond ∧
      parsed sql = some (condStatement spec.op spec.schema spec.cond col) ∧ ∃ res,
      sem.exec (condStatement spec.op spec.schema spec.cond col) us db = some res ∧
        o = ⟨res.rows, res.db, res.changes.map Int.ofNat⟩ := by
  rw [internalQbBuild_eq hop hcol] at hb
  split_ifs at hb with hknown
  rw [Bool.and_eq_true] at hknown
  cases hb
  obtain ⟨st, res, hparsed, hexec, rfl⟩ := sqlEngine_run_iff.1 hrun
  have hroot := rootOnly_of_parsed hs spec.dialect hop hq hknown.2 hlen hparsed
  have hstatement := parsed_condText hs spec.dialect hop hq hroot hknown.2 hlen
  cases hstatement.symm.trans hparsed
  exact ⟨hroot, hparsed, res, hexec, rfl⟩

/-- **A text that the engine runs is the statement of its operation.** -/
theorem statement_of_run {sem : SqlSemantics} {spec : SqlRDBQuerySpec}
    (hs : spec.schema.WellFormed) (hop : isCondOp spec.op = true) {col : CStr}
    (hcol : isFieldOp spec.op = true → spec.targetCol = some col) (hq : byte '"' ∉ col)
    {sql : CStr} {n : ℕ} (hb : internalQbBuild spec = .ok (sql, n))
    (hlen : condLeaves spec.cond < 2 ^ 31) {us : List SqlValue} {db : Catalog SqlValue}
    {o : Outcome (Catalog SqlValue)} (hrun : (sqlEngine sem).run sql us db = some o) :
    RootOnly spec.cond ∧ ∃ res,
      sem.effect (condStatement spec.op spec.schema spec.cond col) us db = some res ∧
        o = ⟨res.rows, res.db, res.changes.map Int.ofNat⟩ := by
  obtain ⟨hroot, -, res, hexec, ho⟩ := exec_of_run hs hop hcol hq hb hlen hrun
  exact ⟨hroot, res, (Semantics.effect_of_exec hexec).2, ho⟩

/-- A statement that the engine executes makes its call succeed. -/
theorem Executes.of_statement {dialect : C2SqlDialect} {sem : SqlSemantics} {spec : SqlRDBQuerySpec}
    (hs : spec.schema.WellFormed) (hop : isCondOp spec.op = true) {col : CStr}
    (hcol : isFieldOp spec.op = true →
      spec.targetCol = some col ∧ schemaHasColumn spec.schema col = true)
    (hq : byte '"' ∉ col) (hknown : knownCols spec.schema (condCols spec.cond) = true)
    (hroot : RootOnly spec.cond) (hlen : condLeaves spec.cond < 2 ^ 31) {vs : List SqlValue}
    (hvs : vs.length < 2 ^ 31) {db : Catalog SqlValue} {res : Result SqlValue}
    (hexec : sem.exec (condStatement spec.op spec.schema spec.cond col) (storedValues vs) db =
      some res) :
    Executes dialect sem spec vs db := by
  have hok : ((!isFieldOp spec.op || schemaHasColumn spec.schema col) &&
      knownCols spec.schema (condCols spec.cond)) = true := by
    rw [hknown, Bool.and_true]
    cases hf : isFieldOp spec.op with
    | false => rfl
    | true => exact (hcol hf).2
  have hbuild := internalQbBuild_eq hop fun h => (hcol h).1
  rw [hok, if_pos rfl] at hbuild
  have hparsed := parsed_condText hs spec.dialect hop hq hroot hknown hlen
  exact ⟨_, _, _, ⟨hbuild, by simp [sqlEngine_compiles hparsed]⟩, hvs,
    sqlEngine_run_iff.2 ⟨_, res, hparsed, hexec, rfl⟩⟩

/-- The statement of an operation on whole rows. -/
theorem condStatement_of_run {sem : SqlSemantics} {schema : SqlRDBSchema} (hs : schema.WellFormed)
    {op : C2SqlQBOp} (hop : isCondOp op = true) (hf : isFieldOp op = false)
    {cond : Option SqlRDBCondition} {dialect : C2SqlDialect} {sql : CStr} {n : ℕ}
    (hb : internalQbBuild (condSpec op cond dialect schema) = .ok (sql, n))
    (hlen : (condValues cond).length < 2 ^ 31) {us : List SqlValue} {db : Catalog SqlValue}
    {o : Outcome (Catalog SqlValue)} (hrun : (sqlEngine sem).run sql us db = some o) :
    RootOnly cond ∧ ∃ res, sem.effect (condStatement op schema cond []) us db = some res ∧
      o = ⟨res.rows, res.db, res.changes.map Int.ofNat⟩ := by
  have hcol : isFieldOp (condSpec op cond dialect schema).op = true →
      (condSpec op cond dialect schema).targetCol = some [] := by
    intro h
    rw [show isFieldOp (condSpec op cond dialect schema).op = isFieldOp op from rfl, hf] at h
    cases h
  rw [length_condValues] at hlen
  exact statement_of_run hs hop hcol List.not_mem_nil hb hlen hrun

/-! ## The effects of the statements -/

section Effects

variable {sem : SqlSemantics} {schema : SqlRDBSchema} (hs : schema.WellFormed)
  {dialect : C2SqlDialect} {db : Catalog SqlValue} {sql : CStr} {n : ℕ} {us : List SqlValue}
  {o : Outcome (Catalog SqlValue)} (hrun : (sqlEngine sem).run sql us db = some o)

include hs hrun

section Cond

variable {cond : Option SqlRDBCondition} (hlen : (condValues cond).length < 2 ^ 31)

include hlen

theorem run_select
    (hb : internalQbBuild (condSpec .select cond dialect schema) = .ok (sql, n)) :
    RootOnly cond ∧ ∃ t, db (sem.fold schema.name) = some t ∧
      o = ⟨(t.rows.filter (sem.selects (whereExpr cond 0) us)).map fun r =>
        schema.cols.map fun c => r (sem.fold c.name), db, none⟩ := by
  obtain ⟨hroot, res, heff, rfl⟩ := condStatement_of_run hs rfl rfl hb hlen hrun
  obtain ⟨t, ht, -, rfl⟩ := Semantics.effect_select_iff.1 heff
  refine ⟨hroot, t, ht, ?_⟩
  simp only [List.map_map]
  rfl

end Cond

section Field

variable {key : SqlRDBCondition} {col : CStr} (hq : byte '"' ∉ col)
  (hlen : (condValues (some key)).length < 2 ^ 31)

include hq hlen

theorem run_selectField
    (hb : internalQbBuild (fieldSpec .selectField key col dialect schema) = .ok (sql, n)) :
    RootOnly (some key) ∧ ∃ t, db (sem.fold schema.name) = some t ∧
      o = ⟨(t.rows.filter (sem.selects (whereExpr (some key) 0) us)).map
        fun r => [r (sem.fold col)], db, none⟩ := by
  obtain ⟨hroot, res, heff, rfl⟩ := statement_of_run hs rfl (fun _ => rfl) hq hb
    (length_condValues (some key) ▸ hlen) hrun
  obtain ⟨t, ht, -, rfl⟩ := Semantics.effect_select_iff.1 heff
  exact ⟨hroot, t, ht, rfl⟩

theorem run_updateField
    (hb : internalQbBuild (fieldSpec .updateField key col dialect schema) = .ok (sql, n)) :
    RootOnly (some key) ∧ ∃ t, db (sem.fold schema.name) = some t ∧
      sem.KeysUnique { t with
        rows := sem.order t
          (sem.updated (whereExpr (some key) 1) us col (sem.param us 1) t.rows) } ∧
      o.db = Function.update db (sem.fold schema.name) (some { t with
        rows := sem.order t
          (sem.updated (whereExpr (some key) 1) us col (sem.param us 1) t.rows) }) := by
  obtain ⟨hroot, res, heff, rfl⟩ := statement_of_run hs rfl (fun _ => rfl) hq hb
    (length_condValues (some key) ▸ hlen) hrun
  obtain ⟨t, ht, -, hu, rfl⟩ := Semantics.effect_update_iff.1 heff
  exact ⟨hroot, t, ht, hu, rfl⟩

end Field

end Effects

end C2Sql
