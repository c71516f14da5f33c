import C2Sql.Lib.SqlStatement

/-!
# Tables of SQL

The meaning of statements on a catalog of tables. A row assigns a value to every column name; names
are compared after folding, so that an engine without case in its names is covered. The values,
their comparison, what becomes of a value that is bound, where a row is put that has been written
and what an engine refuses beyond the uniqueness of keys are parameters (`Semantics`).

* `Semantics.exec`: the effect of a statement;
* `upsertRows`: what `INSERT .. ON CONFLICT .. DO UPDATE` does to the rows of a table, as an update
  of a keyed map: `Keyed.filter_same_upsertRows`, `Keyed.filter_other_upsertRows`,
  `Keyed.upsertRows_idem`, `Keyed.upsertRows_comm`;
* `Semantics.exec_frame`: a statement changes no other table than its own.
-/

namespace SqlText

/-- A row: a value for every column. -/
abbrev Row (V : Type) := List UInt8 → V

/-- A table: its columns, and its rows in the order in which they are scanned. -/
structure Table (V : Type) where
  columns : List ColumnDecl
  rows : List (Row V)

/-- A catalog: the tables by their folded names. -/
abbrev Catalog (V : Type) := List UInt8 → Option (Table V)

/-- What an engine brings with it. -/
structure Semantics (V : Type) where
  null : V
  /-- The value of a COUNT. -/
  ofCount : ℕ → V
  /-- What becomes of a value that is bound to a placeholder. -/
  bound : V → V
  cmp : CmpOp → V → V → Option Bool
  /-- The form in which names are compared. -/
  fold : List UInt8 → List UInt8
  /-- The statements that the engine refuses to execute, by a constraint or for want of space. -/
  refuses : Statement → List V → Catalog V → Bool
  /-- The rows in the order in which they are scanned after a change. -/
  order : Table V → List (Row V) → List (Row V)
  order_perm : ∀ t rows, (order t rows).Perm rows
  eq_symm : ∀ {a b}, cmp .eq a b = some true → cmp .eq b a = some true
  eq_trans : ∀ {a b c}, cmp .eq a b = some true → cmp .eq b c = some true →
    cmp .eq a c = some true

/-- The table that a statement works on. -/
def Statement.table : Statement → List UInt8
  | create t _ _ => t
  | alterAdd t _ => t
  | insert t _ _ _ => t
  | select _ t _ => t
  | count t _ => t
  | delete t _ => t
  | update t _ _ _ => t

/-- Whether a statement only reads. -/
def Statement.isQuery : Statement → Bool
  | select _ _ _ => true
  | count _ _ => true
  | _ => false

/-- The columns that an operand names. -/
def Operand.cols : Operand → List (List UInt8)
  | col n => [n]
  | param _ => []

/-- The columns that an expression names. -/
def Expr.cols : Expr → List (List UInt8)
  | cmp _ l r => l.cols ++ r.cols
  | and l r => l.cols ++ r.cols
  | or l r => l.cols ++ r.cols

/-! ## Keyed rows -/

section Keyed

variable {R : Type} (same : R → R → Bool) (merge : R → R → R)

/-- Rows that have the key of `new` are merged with it; without one, it is a new row. -/
def upsertRows (new : R) (rows : List R) : List R :=
  if rows.any (fun r => same r new) then
    rows.map fun r => if same r new then merge r new else r
  else rows ++ [new]

/-- `same` compares keys, and merging keeps the key. -/
structure Keyed : Prop where
  symm : ∀ {a b}, same a b = true → same b a = true
  trans : ∀ {a b c}, same a b = true → same b c = true → same a c = true
  merge_key : ∀ r new x, same (merge r new) x = same r x

variable {same merge} (hk : Keyed same merge) {new : R} {rows : List R}

include hk

theorem Keyed.key_merge (x r new : R) : same x (merge r new) = same x r := by
  have hiff : same x (merge r new) = true ↔ same x r = true := by
    refine ⟨fun h => hk.symm ?_, fun h => hk.symm ?_⟩
    · rw [← hk.merge_key r new]
      exact hk.symm h
    · rw [hk.merge_key]
      exact hk.symm h
  exact Bool.eq_iff_iff.2 hiff

/-- Of rows with unique keys, at most one has a given key. -/
theorem Keyed.filter_eq (hu : rows.Pairwise fun a b => same a b = false) (new : R) :
    (rows.filter fun r => same r new) = [] ∨ ∃ r, (rows.filter fun r => same r new) = [r] := by
  have hp := hu.filter fun r => same r new
  have hall : ∀ r ∈ rows.filter fun r => same r new, same r new = true := fun r hr =>
    (List.mem_filter.1 hr).2
  cases hrows : rows.filter fun r => same r new with
  | nil => exact .inl rfl
  | cons a l =>
    cases l with
    | nil => exact .inr ⟨a, rfl⟩
    | cons b l =>
      rw [hrows] at hp hall
      have hab := (List.pairwise_cons.1 hp).1 b (by simp)
      rw [hk.trans (hall a (by simp)) (hk.symm (hall b (by simp)))] at hab
      cases hab

omit hk in
theorem any_eq_false_of_filter (h : (rows.filter fun r => same r new) = []) :
    rows.any (fun r => same r new) = false := by
  rw [List.any_eq_false]
  intro r hr hs
  exact List.filter_eq_nil_iff.1 h r hr hs

omit hk in
theorem any_eq_true_of_filter {r : R} (h : r ∈ rows.filter fun r => same r new) :
    rows.any (fun r => same r new) = true :=
  List.any_eq_true.2 ⟨r, (List.mem_filter.1 h).1, (List.mem_filter.1 h).2⟩

omit hk in
/-- A row with a new key is added at the end. -/
theorem upsertRows_of_fresh (h : (rows.filter fun r => same r new) = []) :
    upsertRows same merge new rows = rows ++ [new] := by
  rw [upsertRows, any_eq_false_of_filter h, if_neg (by simp)]

omit hk in
/-- The rows with the key of `new` are merged with it. -/
theorem upsertRows_of_mem {r : R} (h : r ∈ rows.filter fun r => same r new) :
    upsertRows same merge new rows = rows.map fun r => if same r new then merge r new else r := by
  rw [upsertRows, any_eq_true_of_filter h, if_pos rfl]

/-- Merging keeps the key of every row. -/
theorem Keyed.same_ite (r x : R) : same (if same r new then merge r new else r) x = same r x := by
  split_ifs with h
  · exact hk.merge_key r new x
  · rfl

omit hk in
theorem filter_map_merge {p : R → Bool}
    (hp : ∀ r, p (if same r new then merge r new else r) = p r) :
    (rows.map fun r => if same r new then merge r new else r).filter p =
      (rows.filter p).map fun r => if same r new then merge r new else r := by
  rw [List.filter_map]
  congr 1
  exact List.filter_congr fun r _ => hp r

/-- **The rows with the written key after an upsert.** -/
theorem Keyed.filter_same_upsertRows (hnew : same new new = true) :
    ((upsertRows same merge new rows).filter fun r => same r new) =
      if (rows.filter fun r => same r new) = [] then [new]
      else (rows.filter fun r => same r new).map fun r => merge r new := by
  split_ifs with h
  · rw [upsertRows_of_fresh h, List.filter_append, h, List.nil_append, List.filter_cons,
      if_pos hnew]
    rfl
  · obtain ⟨r, l, hrl⟩ := List.exists_cons_of_ne_nil h
    rw [upsertRows_of_mem (r := r) (by rw [hrl]; simp), filter_map_merge fun r => hk.same_ite r new]
    exact List.map_congr_left fun x hx => if_pos (List.mem_filter.1 hx).2

/-- **The rows with another key are not changed by an upsert.** -/
theorem Keyed.filter_other_upsertRows (hnew : same new new = true) :
    ((upsertRows same merge new rows).filter fun r => !same r new) =
      rows.filter fun r => !same r new := by
  by_cases h : (rows.filter fun r => same r new) = []
  · rw [upsertRows_of_fresh h, List.filter_append, List.filter_cons, hnew]
    exact List.append_nil _
  · obtain ⟨r, l, hrl⟩ := List.exists_cons_of_ne_nil h
    rw [upsertRows_of_mem (r := r) (by rw [hrl]; simp),
      filter_map_merge (p := fun r => !same r new) fun r => congrArg not (hk.same_ite r new)]
    conv_rhs => rw [← List.map_id (rows.filter fun r => !same r new)]
    refine List.map_congr_left fun x hx => ?_
    have hx' := (List.mem_filter.1 hx).2
    rw [if_neg (by simpa using hx')]
    rfl

/-- An upsert keeps keys unique. -/
theorem Keyed.pairwise_upsertRows (hu : rows.Pairwise fun a b => same a b = false) :
    (upsertRows same merge new rows).Pairwise fun a b => same a b = false := by
  by_cases h : (rows.filter fun r => same r new) = []
  · rw [upsertRows_of_fresh h, List.pairwise_append]
    refine ⟨hu, List.pairwise_singleton _ _, fun a ha b hb => ?_⟩
    rw [List.mem_singleton.1 hb]
    exact Bool.eq_false_iff.2 (List.filter_eq_nil_iff.1 h a ha)
  · obtain ⟨r, l, hrl⟩ := List.exists_cons_of_ne_nil h
    rw [upsertRows_of_mem (r := r) (by rw [hrl]; simp), List.pairwise_map]
    refine hu.imp fun {a b} hab => ?_
    rw [hk.same_ite]
    split_ifs
    · rw [hk.key_merge, hab]
    · exact hab

/-- **Repeating an upsert changes nothing**, if merging twice is merging once; the rows may be in
another order by then. -/
theorem Keyed.upsertRows_idem (hnew : same new new = true)
    (hmerge : ∀ r, merge (merge r new) new = merge r new) (hself : merge new new = new)
    {rows' : List R} (hperm : rows'.Perm (upsertRows same merge new rows)) :
    upsertRows same merge new rows' = rows' := by
  have hmem : ∀ x ∈ rows', (if same x new then merge x new else x) = x := by
    intro x hx
    rw [hperm.mem_iff] at hx
    by_cases h : (rows.filter fun r => same r new) = []
    · rw [upsertRows_of_fresh h] at hx
      rcases List.mem_append.1 hx with hx | hx
      · rw [if_neg (List.filter_eq_nil_iff.1 h x hx)]
      · rw [List.mem_singleton.1 hx, if_pos hnew, hself]
    · obtain ⟨r, l, hrl⟩ := List.exists_cons_of_ne_nil h
      rw [upsertRows_of_mem (r := r) (by rw [hrl]; simp)] at hx
      obtain ⟨y, -, rfl⟩ := List.mem_map.1 hx
      by_cases hy : same y new = true
      · rw [if_pos hy, if_pos (by rw [hk.merge_key, hy]), hmerge]
      · rw [if_neg hy, if_neg hy]
  have hne : ((upsertRows same merge new rows).filter fun r => same r new) ≠ [] := by
    rw [hk.filter_same_upsertRows hnew]
    split_ifs with h
    · exact List.cons_ne_nil _ _
    · simpa using h
  obtain ⟨r, l, hrl⟩ := List.exists_cons_of_ne_nil hne
  have hr : r ∈ rows'.filter fun r => same r new := by
    rw [(hperm.filter _).mem_iff, hrl]
    exact List.mem_cons_self
  rw [upsertRows_of_mem hr]
  conv_rhs => rw [← List.map_id rows']
  exact List.map_congr_left hmem

omit hk in
/-- The rows after an upsert: those of before, merged where they have the key of the new one, and
the new one if there is none of them. -/
theorem upsertRows_eq (a : R) :
    upsertRows same merge a rows =
      (rows.map fun r => if same r a then merge r a else r) ++
        if rows.any (fun r => same r a) then [] else [a] := by
  rw [upsertRows]
  split_ifs with h
  · rw [List.append_nil]
  · congr 1
    conv_lhs => rw [← List.map_id rows]
    refine List.map_congr_left fun r hr => ?_
    rw [if_neg (List.any_eq_false.1 (Bool.eq_false_iff.2 h) r hr)]
    rfl

omit hk in
/-- The order of the rows does not matter to an upsert. -/
theorem upsertRows_perm {rows' : List R} (hperm : rows'.Perm rows) (new : R) :
    (upsertRows same merge new rows').Perm (upsertRows same merge new rows) := by
  rw [upsertRows_eq, upsertRows_eq, hperm.any_eq]
  exact (hperm.map _).append_right _

omit hk in
/-- An upsert adds a row if its key is new. -/
theorem length_upsertRows (new : R) : (upsertRows same merge new rows).length =
    rows.length + if rows.any (fun r => same r new) then 0 else 1 := by
  rw [upsertRows_eq, List.length_append, List.length_map]
  split_ifs
  · rfl
  · rfl

omit hk in
/-- A row with another key stays as it is. -/
theorem mem_upsertRows_of_ne {r : R} (hr : r ∈ rows) (hne : same r new = false) :
    r ∈ upsertRows same merge new rows := by
  rw [upsertRows_eq]
  refine List.mem_append_left _ (List.mem_map.2 ⟨r, hr, ?_⟩)
  rw [hne, if_neg Bool.false_ne_true]

/-- Writing one key does not tell which others there are. -/
theorem Keyed.any_upsertRows_of_ne {a b : R} (hab : same a b = false) :
    (upsertRows same merge a rows).any (fun r => same r b) = rows.any fun r => same r b := by
  have hmap : (rows.map fun r => if same r a then merge r a else r).any (fun r => same r b) =
      rows.any fun r => same r b := by
    rw [List.any_map]
    congr 1
    funext r
    exact hk.same_ite r b
  have hlast : (if rows.any (fun r => same r a) then [] else [a]).any (fun r => same r b) =
      false := by
    split_ifs
    · rfl
    · simp [hab]
  rw [upsertRows_eq, List.any_append, hmap, hlast, Bool.or_false]

/-- The two merges do not meet in one row. -/
theorem Keyed.merge_comm {a b : R} (hab : same a b = false) (r : R) :
    (if same (if same r a then merge r a else r) b then
        merge (if same r a then merge r a else r) b else (if same r a then merge r a else r)) =
      if same (if same r b then merge r b else r) a then
        merge (if same r b then merge r b else r) a else (if same r b then merge r b else r) := by
  rw [hk.same_ite, hk.same_ite]
  by_cases ha : same r a = true
  · have hb : ¬same r b = true := by
      intro hb
      rw [hk.trans (hk.symm ha) hb] at hab
      cases hab
    rw [if_neg hb, if_pos ha, if_neg hb, if_pos ha]
  · rw [if_neg ha, if_neg ha]

/-- **Upserts of different keys commute**, up to the order of new rows. -/
theorem Keyed.upsertRows_comm {a b : R} (hab : same a b = false) :
    (upsertRows same merge b (upsertRows same merge a rows)).Perm
      (upsertRows same merge a (upsertRows same merge b rows)) := by
  have hba : same b a = false := by
    rw [Bool.eq_false_iff]
    intro h
    rw [hk.symm h] at hab
    cases hab
  have hnew : ∀ {a b : R} (p : Bool), same a b = false →
      ((if p then [] else [a]).map fun r => if same r b then merge r b else r) =
        if p then [] else [a] := by
    intro a b p hab
    cases p <;> simp [hab]
  rw [upsertRows_eq b, hk.any_upsertRows_of_ne hab, upsertRows_eq a, upsertRows_eq a,
    hk.any_upsertRows_of_ne hba, upsertRows_eq b,
    List.map_append, List.map_append, hnew _ hab, hnew _ hba, List.map_map, List.map_map,
    List.append_assoc, List.append_assoc]
  refine List.Perm.append (List.Perm.of_eq ?_) List.perm_append_comm
  exact List.map_congr_left fun r _ => hk.merge_comm hab r

end Keyed

/-! ## The effect of a statement -/

/-- What a statement yields: rows, the catalog after it, and the number of rows it has changed,
where it says one. -/
structure Result (V : Type) where
  rows : List (List V)
  db : Catalog V
  changes : Option ℕ

namespace Semantics

variable {V : Type} (sem : Semantics V)

/-- The value of a placeholder. -/
def param (vs : List V) (k : ℕ) : V := sem.bound ((vs[k - 1]?).getD sem.null)

/-- The table has a column. -/
def has (t : Table V) (name : List UInt8) : Bool :=
  t.columns.any fun c => sem.fold c.name == sem.fold name

/-- The columns of the primary key. -/
def key (t : Table V) : List (List UInt8) :=
  (t.columns.filter fun c => c.primaryKey).map fun c => sem.fold c.name

/-- Two rows have the same key. -/
def sameKey (key : List (List UInt8)) (a b : Row V) : Bool :=
  !key.isEmpty && key.all fun k => sem.cmp .eq (a k) (b k) == some true

/-- No two rows have the same key. -/
def KeysUnique (t : Table V) : Prop :=
  t.rows.Pairwise fun a b => sem.sameKey (sem.key t) a b = false

instance (t : Table V) : Decidable (sem.KeysUnique t) := by
  unfold KeysUnique
  infer_instance

/-- Whether an optional condition selects a row. -/
def selects (cond : Option Expr) (vs : List V) (r : Row V) : Bool :=
  match cond with
  | none => true
  | some e => e.eval sem.cmp (fun n => r (sem.fold n)) (sem.param vs) == some true

/-- The columns of an optional condition are columns of the table. -/
def condKnown (t : Table V) (cond : Option Expr) : Bool :=
  match cond with
  | none => true
  | some e => e.cols.all (sem.has t)

/-- The row of an INSERT statement; columns that are not listed are NULL. -/
def newRow (cols : List (List UInt8)) (values : List ℕ) (vs : List V) : Row V := fun n =>
  match (cols.zip values).find? fun p => sem.fold p.1 == n with
  | some p => sem.param vs p.2
  | none => sem.null

/-- A row in conflict with `new` after the SET list of an `ON CONFLICT` clause. -/
def merged (sets : List (List UInt8 × List UInt8)) (r new : Row V) : Row V :=
  sets.foldl (fun r' p => Function.update r' (sem.fold p.1) (new (sem.fold p.2))) r

/-- The rows after an insertion. -/
def inserted (t : Table V) (conflict : Option Upsert) (new : Row V) : Option (List (Row V)) :=
  match conflict with
  | none => some (sem.order t (t.rows ++ [new]))
  | some u =>
    if u.target.map sem.fold = sem.key t ∧ u.sets.all (fun p => sem.has t p.1 && sem.has t p.2) then
      some (sem.order t (upsertRows (sem.sameKey (sem.key t)) (sem.merged u.sets) new t.rows))
    else none

/-- The rows after an UPDATE of one column. -/
def updated (cond : Option Expr) (vs : List V) (col : List UInt8) (v : V) (rows : List (Row V)) :
    List (Row V) :=
  rows.map fun r => if sem.selects cond vs r then Function.update r (sem.fold col) v else r

/-- The catalog with a table whose keys have to be unique. -/
def store (db : Catalog V) (name : List UInt8) (t : Table V) : Option (Catalog V) :=
  if sem.KeysUnique t then some (Function.update db (sem.fold name) (some t)) else none

/-- The rows that a column is added to get a NULL in it. A key cannot be added, and a column that
is NOT NULL only to a table without rows. -/
def addColumn (t : Table V) (c : ColumnDecl) : Option (Table V) :=
  if sem.has t c.name || c.primaryKey || c.unique || (c.notNull && !t.rows.isEmpty) then none
  else some ⟨t.columns ++ [c], t.rows.map fun r => Function.update r (sem.fold c.name) sem.null⟩

/-- A new table has at most one column for its key, and no column twice. -/
def newTable (cols : List ColumnDecl) : Option (Table V) :=
  if (cols.map fun c => sem.fold c.name).Nodup ∧ (cols.filter fun c => c.primaryKey).length ≤ 1 then
    some ⟨cols, []⟩
  else none

/-- The effect of a statement that the engine does not refuse. -/
def effect (s : Statement) (vs : List V) (db : Catalog V) : Option (Result V) :=
  match s with
  | .create table cols _ =>
    match db (sem.fold table) with
    | some _ => some ⟨[], db, none⟩
    | none => do
      let t ← sem.newTable cols
      pure ⟨[], Function.update db (sem.fold table) (some t), none⟩
  | .alterAdd table c => do
    let t ← db (sem.fold table)
    let t ← sem.addColumn t c
    pure ⟨[], Function.update db (sem.fold table) (some t), none⟩
  | .insert table cols values conflict => do
    let t ← db (sem.fold table)
    guard (cols.length = values.length ∧ cols.all (sem.has t))
    let rows ← sem.inserted t conflict (sem.newRow cols values vs)
    let db ← sem.store db table { t with rows := rows }
    pure ⟨[], db, some 1⟩
  | .select cols table cond => do
    let t ← db (sem.fold table)
    guard (cols.all (sem.has t) ∧ sem.condKnown t cond)
    pure ⟨(t.rows.filter (sem.selects cond vs)).map fun r => cols.map fun c => r (sem.fold c), db,
      none⟩
  | .count table cond => do
    let t ← db (sem.fold table)
    guard (sem.condKnown t cond)
    pure ⟨[[sem.ofCount (t.rows.filter (sem.selects cond vs)).length]], db, none⟩
  | .delete table cond => do
    let t ← db (sem.fold table)
    guard (sem.condKnown t cond)
    let rows := t.rows.filter fun r => !sem.selects cond vs r
    pure ⟨[], Function.update db (sem.fold table) (some { t with rows := rows }),
      some (t.rows.filter (sem.selects cond vs)).length⟩
  | .update table col value cond => do
    let t ← db (sem.fold table)
    guard (sem.has t col ∧ sem.condKnown t cond)
    let rows := sem.order t (sem.updated cond vs col (sem.param vs value) t.rows)
    let db ← sem.store db table { t with rows := rows }
    pure ⟨[], db, some (t.rows.filter (sem.selects cond vs)).length⟩

/-- The effect of a statement, `none` if it fails. -/
def exec (s : Statement) (vs : List V) (db : Catalog V) : Option (Result V) :=
  if sem.refuses s vs db then none else sem.effect s vs db

/-! ## Rows of an INSERT statement -/

section Rows

variable {sem}

/-- A listed column has its value. -/
theorem newRow_eq {cols : List (List UInt8)} {values : List ℕ} {vs : List V}
    (hnd : (cols.map sem.fold).Nodup) {i : ℕ} {c : List UInt8} {k : ℕ} (hc : cols[i]? = some c)
    (hk : values[i]? = some k) :
    sem.newRow cols values vs (sem.fold c) = sem.param vs k := by
  have hfind : (cols.zip values).find? (fun p => sem.fold p.1 == sem.fold c) = some (c, k) := by
    induction cols generalizing values i with
    | nil => cases hc
    | cons c' cols ih =>
      cases values with
      | nil => cases hk
      | cons k' values =>
        cases i with
        | zero =>
          cases hc
          cases hk
          simp
        | succ i =>
          rw [List.map_cons, List.nodup_cons] at hnd
          have hne : sem.fold c' ≠ sem.fold c := fun h =>
            hnd.1 (h ▸ List.mem_map_of_mem (List.mem_of_getElem? hc))
          rw [List.zip_cons_cons, List.find?_cons_of_neg (by simpa using hne)]
          exact ih hnd.2 hc hk
  rw [newRow, hfind]

/-- Columns that take the values of the same columns of the new row. -/
theorem merged_eq (names : List (List UInt8)) (r new : Row V) (n : List UInt8) :
    sem.merged (names.map fun c => (c, c)) r new n =
      if n ∈ names.map sem.fold then new n else r n := by
  induction names generalizing r with
  | nil => rfl
  | cons c names ih =>
    have hstep : sem.merged ((c :: names).map fun c => (c, c)) r new =
      sem.merged (names.map fun c => (c, c))
        (Function.update r (sem.fold c) (new (sem.fold c))) new := rfl
    rw [hstep, ih, List.map_cons]
    by_cases hn : n ∈ names.map sem.fold
    · rw [if_pos hn, if_pos (List.mem_cons_of_mem _ hn)]
    · by_cases hnc : n = sem.fold c
      · subst hnc
        rw [if_neg hn, if_pos (List.mem_cons_self ..), Function.update_self]
      · rw [if_neg hn, if_neg (by simpa [hnc] using hn), Function.update_of_ne hnc]

theorem sameKey_iff {key : List (List UInt8)} {a b : Row V} :
    sem.sameKey key a b = true ↔ key ≠ [] ∧ ∀ k ∈ key, sem.cmp .eq (a k) (b k) = some true := by
  simp [sameKey]

theorem sameKey_comm (key : List (List UInt8)) (a b : Row V) :
    sem.sameKey key a b = sem.sameKey key b a := by
  refine Bool.eq_iff_iff.2 ?_
  rw [sameKey_iff, sameKey_iff]
  exact and_congr_right fun _ => forall₂_congr fun k _ => ⟨sem.eq_symm, sem.eq_symm⟩

/-- The order of the rows does not matter to their keys. -/
theorem KeysUnique.perm {t : Table V} {rows : List (Row V)} (hu : sem.KeysUnique t)
    (hperm : rows.Perm t.rows) : sem.KeysUnique { t with rows := rows } := by
  refine (hperm.pairwise_iff fun {a b} h => ?_).2 hu
  rw [sameKey_comm]
  exact h

/-- Keys are compared, and an `ON CONFLICT` clause that sets other columns keeps them. -/
theorem keyed_sameKey {key names : List (List UInt8)} (h : ∀ k ∈ key, k ∉ names.map sem.fold) :
    Keyed (sem.sameKey key) (sem.merged (names.map fun c => (c, c))) where
  symm := by
    intro a b hab
    rwa [sameKey_comm]
  trans := by
    intro a b c hab hbc
    rw [sameKey_iff] at hab hbc ⊢
    exact ⟨hab.1, fun k hk => sem.eq_trans (hab.2 k hk) (hbc.2 k hk)⟩
  merge_key := by
    intro r new x
    refine Bool.eq_iff_iff.2 ?_
    rw [sameKey_iff, sameKey_iff]
    refine and_congr_right fun _ => forall₂_congr fun k hk => ?_
    rw [merged_eq, if_neg (h k hk)]

end Rows

/-! ## Reading the effects -/

section Effects

variable {sem} {vs : List V} {db : Catalog V} {res : Result V} {table : List UInt8}
  {cond : Option Expr}

theorem effect_of_exec {s : Statement} (h : sem.exec s vs db = some res) :
    sem.refuses s vs db = false ∧ sem.effect s vs db = some res := by
  rw [exec] at h
  split_ifs at h with hr
  exact ⟨Bool.eq_false_iff.2 hr, h⟩

theorem effect_insert_iff {cols : List (List UInt8)} {values : List ℕ} {conflict : Option Upsert} :
    sem.effect (.insert table cols values conflict) vs db = some res ↔
      ∃ t rows, db (sem.fold table) = some t ∧
        (cols.length = values.length ∧ cols.all (sem.has t) = true) ∧
        sem.inserted t conflict (sem.newRow cols values vs) = some rows ∧
        sem.KeysUnique { t with rows := rows } ∧
        res = ⟨[], Function.update db (sem.fold table) (some { t with rows := rows }), some 1⟩ := by
  simp only [effect, store, Option.bind_eq_bind, Option.bind_eq_some_iff, guard]
  constructor
  · rintro ⟨t, ht, u, hu, rows, hrows, db', hdb, hres⟩
    split_ifs at hu hdb with hg hk
    cases hdb
    cases hres
    exact ⟨t, rows, ht, hg, hrows, hk, rfl⟩
  · rintro ⟨t, rows, ht, hg, hrows, hk, rfl⟩
    exact ⟨t, ht, (), by rw [if_pos hg]; rfl, rows, hrows, _, if_pos hk, rfl⟩

theorem effect_select_iff {cols : List (List UInt8)} :
    sem.effect (.select cols table cond) vs db = some res ↔
      ∃ t, db (sem.fold table) = some t ∧
        (cols.all (sem.has t) = true ∧ sem.condKnown t cond = true) ∧
        res = ⟨(t.rows.filter (sem.selects cond vs)).map fun r => cols.map fun c => r (sem.fold c),
          db, none⟩ := by
  simp only [effect, Option.bind_eq_bind, Option.bind_eq_some_iff, guard]
  constructor
  · rintro ⟨t, ht, u, hu, hres⟩
    split_ifs at hu with hg
    cases hres
    exact ⟨t, ht, hg, rfl⟩
  · rintro ⟨t, ht, hg, rfl⟩
    exact ⟨t, ht, (), by rw [if_pos hg]; rfl, rfl⟩

theorem effect_count_iff :
    sem.effect (.count table cond) vs db = some res ↔
      ∃ t, db (sem.fold table) = some t ∧ sem.condKnown t cond = true ∧
        res = ⟨[[sem.ofCount (t.rows.filter (sem.selects cond vs)).length]], db, none⟩ := by
  simp only [effect, Option.bind_eq_bind, Option.bind_eq_some_iff, guard]
  constructor
  · rintro ⟨t, ht, u, hu, hres⟩
    split_ifs at hu with hg
    cases hres
    exact ⟨t, ht, hg, rfl⟩
  · rintro ⟨t, ht, hg, rfl⟩
    exact ⟨t, ht, (), by rw [if_pos hg]; rfl, rfl⟩

theorem effect_delete_iff :
    sem.effect (.delete table cond) vs db = some res ↔
      ∃ t, db (sem.fold table) = some t ∧ sem.condKnown t cond = true ∧
        res = ⟨[], Function.update db (sem.fold table)
          (some { t with rows := t.rows.filter fun r => !sem.selects cond vs r }),
          some (t.rows.filter (sem.selects cond vs)).length⟩ := by
  simp only [effect, Option.bind_eq_bind, Option.bind_eq_some_iff, guard]
  constructor
  · rintro ⟨t, ht, u, hu, hres⟩
    split_ifs at hu with hg
    cases hres
    exact ⟨t, ht, hg, rfl⟩
  · rintro ⟨t, ht, hg, rfl⟩
    exact ⟨t, ht, (), by rw [if_pos hg]; rfl, rfl⟩

theorem effect_update_iff {col : List UInt8} {value : ℕ} :
    sem.effect (.update table col value cond) vs db = some res ↔
      ∃ t, db (sem.fold table) = some t ∧
        (sem.has t col = true ∧ sem.condKnown t cond = true) ∧
        sem.KeysUnique { t with
          rows := sem.order t (sem.updated cond vs col (sem.param vs value) t.rows) } ∧
        res = ⟨[], Function.update db (sem.fold table) (some { t with
            rows := sem.order t (sem.updated cond vs col (sem.param vs value) t.rows) }),
          some (t.rows.filter (sem.selects cond vs)).length⟩ := by
  simp only [effect, store, Option.bind_eq_bind, Option.bind_eq_some_iff, guard]
  constructor
  · rintro ⟨t, ht, u, hu, db', hdb, hres⟩
    split_ifs at hu hdb with hg hk
    cases hdb
    cases hres
    exact ⟨t, ht, hg, hk, rfl⟩
  · rintro ⟨t, ht, hg, hk, rfl⟩
    exact ⟨t, ht, (), by rw [if_pos hg]; rfl, _, if_pos hk, rfl⟩

/-- A statement changes no other table than its own. -/
theorem exec_frame {s : Statement} (h : sem.exec s vs db = some res) {n : List UInt8}
    (hn : n ≠ sem.fold s.table) : res.db n = db n := by
  have heff := (effect_of_exec h).2
  cases s with
  | create table cols ifNotExists =>
    rw [effect] at heff
    split at heff
    · cases heff
      rfl
    · obtain ⟨t, -, hres⟩ := Option.bind_eq_some_iff.1 heff
      cases hres
      exact Function.update_of_ne hn _ _
  | alterAdd table c =>
    obtain ⟨t, -, hadd⟩ := Option.bind_eq_some_iff.1 heff
    obtain ⟨t', -, hres⟩ := Option.bind_eq_some_iff.1 hadd
    cases hres
    exact Function.update_of_ne hn _ _
  | insert table cols values conflict =>
    obtain ⟨t, rows, -, -, -, -, rfl⟩ := effect_insert_iff.1 heff
    exact Function.update_of_ne hn _ _
  | select cols table cond =>
    obtain ⟨t, -, -, rfl⟩ := effect_select_iff.1 heff
    rfl
  | count table cond =>
    obtain ⟨t, -, -, rfl⟩ := effect_count_iff.1 heff
    rfl
  | delete table cond =>
    obtain ⟨t, -, -, rfl⟩ := effect_delete_iff.1 heff
    exact Function.update_of_ne hn _ _
  | update table col value cond =>
    obtain ⟨t, -, -, -, rfl⟩ := effect_update_iff.1 heff
    exact Function.update_of_ne hn _ _

/-- A query changes nothing, and its rows come from its table. -/
theorem exec_query_local {s : Statement} (hs : s.isQuery = true) (h : sem.exec s vs db = some res)
    {db' : Catalog V} (hdb : db (sem.fold s.table) = db' (sem.fold s.table))
    (hrefuses : sem.refuses s vs db = sem.refuses s vs db') :
    res = ⟨res.rows, db, none⟩ ∧ sem.exec s vs db' = some ⟨res.rows, db', none⟩ := by
  obtain ⟨hruns, heff⟩ := effect_of_exec h
  rw [exec, ← hrefuses, hruns, if_neg Bool.false_ne_true]
  cases s with
  | select cols table cond =>
    obtain ⟨t, ht, hknown, rfl⟩ := effect_select_iff.1 heff
    exact ⟨rfl, effect_select_iff.2 ⟨t, hdb.symm.trans ht, hknown, rfl⟩⟩
  | count table cond =>
    obtain ⟨t, ht, hknown, rfl⟩ := effect_count_iff.1 heff
    exact ⟨rfl, effect_count_iff.2 ⟨t, hdb.symm.trans ht, hknown, rfl⟩⟩
  | _ => cases hs

end Effects

end Semantics

end SqlText
