import C2Sql.CacheSpec
import C2Sql.Lib.Lru

/-!
# The statement cache is a least-recently-used map

Sequences of operations on the cache, against the same sequences on a list of statements in order of
use.

* `CacheOp.exec`: an operation on the linked structures, with the statements it finalizes;
* `CacheOp.spec`: the same operation on the list;
* `Refines`: a cache stands for a list, and has the table of buckets for its capacity;
* `Faithful`: what holds of a cache after a sequence of operations;
* `cache_refines_lru`: it holds after every sequence.
-/

namespace C2Sql

/-! ## Operations -/

/-- A call of a function of `stmt_cache.h`. -/
inductive CacheOp
  | init (capacity : ℕ)
  | get (sql : CStr)
  | put (sql : CStr) (stmt : StmtId)
  | rebuild (newCapacity : ℕ)
  | destroy

/-- What a call returns, and the statements that it passes to `drv->finalize`. -/
structure CacheReply where
  code : SqlRDBResult
  stmt : Option StmtId
  finalized : List StmtId
  deriving DecidableEq

/-- A call on the cache, with allocation succeeding; `none` where it does not return. -/
def CacheOp.exec (c : SqlRDBStmtCache) : CacheOp → Option (CacheReply × SqlRDBStmtCache)
  | init n => (SqlRDBStmtCache.init n true).map fun (r, c) => (⟨r, none, []⟩, c)
  | get sql =>
    let (r, stmt, c) := c.get sql
    some (⟨r, stmt, []⟩, c)
  | put sql stmt =>
    let (r, c, dropped) := c.put sql stmt true
    some (⟨r, none, dropped⟩, c)
  | rebuild n => (c.rebuild n true).map fun (r, c, dropped) => (⟨r, none, dropped⟩, c)
  | destroy =>
    let (c, dropped) := c.destroy
    some (⟨.ok, none, dropped⟩, c)

/-- What a lookup returns. -/
def lookupReply : Option StmtId → CacheReply
  | some stmt => ⟨.ok, some stmt, []⟩
  | none => ⟨.errNotFound, none, []⟩

/-- The same call on the list. -/
def CacheOp.spec (a : Lru CStr StmtId) : CacheOp → CacheReply × Lru CStr StmtId
  | init n => (⟨.ok, none, []⟩, ⟨n, []⟩)
  | get sql => (lookupReply (a.get sql).1, (a.get sql).2)
  | put sql stmt => (⟨.ok, none, (a.put sql stmt).2⟩, (a.put sql stmt).1)
  | rebuild n => (⟨.ok, none, (a.resize n).2⟩, (a.resize n).1)
  | destroy => (⟨.ok, none, a.values⟩, ⟨0, []⟩)

/-- The capacity that a call sets is below `2 ^ 62`. -/
def CacheOp.SizeOk : CacheOp → Prop
  | init n | rebuild n => n < 2 ^ 62
  | _ => True

/-- The statements that a call passes to the cache. -/
def CacheOp.puts : CacheOp → List StmtId
  | put _ stmt => [stmt]
  | _ => []

/-- The replies to a list of calls, and the cache after them. -/
def execAll : List CacheOp → SqlRDBStmtCache → Option (List CacheReply × SqlRDBStmtCache)
  | [], c => some ([], c)
  | op :: ops, c => do
    let (reply, c) ← op.exec c
    let (replies, c) ← execAll ops c
    pure (reply :: replies, c)

/-- The same list of calls on the list. -/
def specAll : List CacheOp → Lru CStr StmtId → List CacheReply × Lru CStr StmtId
  | [], a => ([], a)
  | op :: ops, a =>
    let (replies, a') := specAll ops (op.spec a).2
    ((op.spec a).1 :: replies, a')

/-! ## One operation -/

/-- The cache stands for the list, and has the table of buckets for its capacity. -/
structure Refines (c : SqlRDBStmtCache) (a : Lru CStr StmtId) : Prop where
  represents : c.Represents a.items
  capacity_eq : c.capacity = a.capacity
  buckets : bucketCountFor c.capacity = some c.bucketCount

/-- Below `2 ^ 62` there is a bucket count for every capacity. -/
theorem exists_bucketCountFor {n : ℕ} (hn : n < 2 ^ 62) :
    ∃ bcount, bucketCountFor n = some bcount :=
  Option.isSome_iff_exists.1 ((bucketCountFor_isSome_iff n).2 (by omega))

namespace Refines

variable {c : SqlRDBStmtCache} {a : Lru CStr StmtId}

theorem valid (h : Refines c a) : a.Valid :=
  ⟨h.capacity_eq ▸ h.represents.length_le, h.represents.nodup_keys⟩

theorem get (h : Refines c a) (sql : CStr) :
    ∃ c', CacheOp.exec c (.get sql) = some ((CacheOp.spec a (.get sql)).1, c') ∧
      Refines c' (CacheOp.spec a (.get sql)).2 := by
  simp only [CacheOp.exec, CacheOp.spec, Lru.get]
  cases hl : a.lookup sql with
  | none =>
    rw [h.represents.get_miss (Lru.lookup_eq_none_iff.1 hl)]
    exact ⟨c, rfl, h⟩
  | some stmt =>
    obtain ⟨l, r, hitems, hwithout⟩ := Lru.exists_of_lookup_eq_some h.valid hl
    obtain ⟨c', hget, hrep, hcap, hbc⟩ := (hitems ▸ h.represents).get_hit
    rw [hget, hwithout]
    exact ⟨c', rfl, hrep, hcap.trans h.capacity_eq, by rw [hcap, hbc, h.buckets]⟩

theorem put (h : Refines c a) (sql : CStr) (stmt : StmtId) :
    ∃ c', CacheOp.exec c (.put sql stmt) = some ((CacheOp.spec a (.put sql stmt)).1, c') ∧
      Refines c' (CacheOp.spec a (.put sql stmt)).2 := by
  simp only [CacheOp.exec, CacheOp.spec, Lru.put, ← h.capacity_eq]
  by_cases h0 : c.capacity = 0
  · rw [if_pos h0, SqlRDBStmtCache.put, if_pos h0]
    exact ⟨c, rfl, h⟩
  · rw [if_neg h0]
    cases hl : a.lookup sql with
    | none =>
      obtain ⟨c', hput, hrep, hcap, hbc⟩ := h.represents.put_new (Lru.lookup_eq_none_iff.1 hl) stmt
        (Nat.pos_of_ne_zero h0) true
      rw [hput]
      exact ⟨c', rfl, hrep, hcap, by rw [hcap, hbc, h.buckets]⟩
    | some old =>
      obtain ⟨l, r, hitems, hwithout⟩ := Lru.exists_of_lookup_eq_some h.valid hl
      obtain ⟨c', hput, hrep, hcap, hbc⟩ := (hitems ▸ h.represents).put_hit stmt true
      rw [hput, hwithout]
      exact ⟨c', rfl, hrep, hcap, by rw [hcap, hbc, h.buckets]⟩

theorem init (c : SqlRDBStmtCache) (a : Lru CStr StmtId) {n : ℕ} (hn : n < 2 ^ 62) :
    ∃ c', CacheOp.exec c (.init n) = some ((CacheOp.spec a (.init n)).1, c') ∧
      Refines c' (CacheOp.spec a (.init n)).2 := by
  obtain ⟨bcount, hb⟩ := exists_bucketCountFor hn
  simp only [CacheOp.exec, CacheOp.spec, SqlRDBStmtCache.init]
  by_cases h0 : n = 0
  · rw [if_pos h0]
    exact ⟨_, rfl, SqlRDBStmtCache.represents_nil 0 0, h0.symm, rfl⟩
  · rw [if_neg h0, hb]
    exact ⟨_, rfl, SqlRDBStmtCache.represents_nil n bcount, rfl, hb⟩

theorem rebuild (h : Refines c a) {n : ℕ} (hn : n < 2 ^ 62) :
    ∃ c', CacheOp.exec c (.rebuild n) = some ((CacheOp.spec a (.rebuild n)).1, c') ∧
      Refines c' (CacheOp.spec a (.rebuild n)).2 := by
  obtain ⟨bcount, hb⟩ := exists_bucketCountFor hn
  obtain ⟨r, c', hreb, hrep, ⟨rfl, hcap, hbc⟩ | ⟨-, hfalse, -⟩⟩ := h.represents.rebuild_eq n true hb
  · simp only [CacheOp.exec, CacheOp.spec, hreb, Lru.resize, Option.map_some]
    exact ⟨c', rfl, hrep, hcap, hcap ▸ hbc⟩
  · cases hfalse

theorem destroy (h : Refines c a) :
    ∃ c', CacheOp.exec c .destroy = some ((CacheOp.spec a .destroy).1, c') ∧
      Refines c' (CacheOp.spec a .destroy).2 := by
  simp only [CacheOp.exec, CacheOp.spec, h.represents.destroy_eq]
  exact ⟨_, rfl, SqlRDBStmtCache.represents_nil 0 0, rfl, rfl⟩

/-- **One operation.** The reply is that of the operation on the list, and the cache stands for the
new list. -/
theorem exec (h : Refines c a) {op : CacheOp} (hop : op.SizeOk) :
    ∃ c', op.exec c = some ((op.spec a).1, c') ∧ Refines c' (op.spec a).2 := by
  cases op with
  | init n => exact init c a hop
  | get sql => exact h.get sql
  | put sql stmt => exact h.put sql stmt
  | rebuild n => exact h.rebuild hop
  | destroy => exact h.destroy

/-- A sequence of operations. -/
theorem execAll (h : Refines c a) {ops : List CacheOp} (hops : ∀ op ∈ ops, op.SizeOk) :
    ∃ c', C2Sql.execAll ops c = some ((specAll ops a).1, c') ∧ Refines c' (specAll ops a).2 := by
  induction ops generalizing c a with
  | nil => exact ⟨c, rfl, h⟩
  | cons op ops ih =>
    obtain ⟨c₁, hexec, h₁⟩ := h.exec (hops op (by simp))
    obtain ⟨c₂, hall, h₂⟩ := ih h₁ fun op hop => hops op (List.mem_cons_of_mem _ hop)
    refine ⟨c₂, ?_, h₂⟩
    simp only [C2Sql.execAll, hexec, hall, specAll, Option.bind_eq_bind, Option.bind_some]
    rfl

end Refines

/-! ## Statements that enter and leave -/

/-- What leaves the cache in a call, with what is in it afterwards, is what was in it before and
what the call put there; only `init` forgets what was there. -/
theorem CacheOp.perm_spec {a : Lru CStr StmtId} (ha : a.Valid) {op : CacheOp}
    (hop : ∀ n, op ≠ .init n) :
    (op.puts ++ a.values).Perm ((op.spec a).1.finalized ++ (op.spec a).2.values) := by
  cases op with
  | init n => exact absurd rfl (hop n)
  | get sql =>
    have hfin : (CacheOp.spec a (.get sql)).1.finalized = [] := by
      simp only [spec]
      cases (a.get sql).1 <;> rfl
    rw [hfin]
    exact Lru.perm_get ha sql
  | put sql stmt => exact Lru.perm_put ha sql stmt
  | rebuild n => exact Lru.perm_resize a n
  | destroy => exact (List.append_nil _).symm ▸ List.Perm.refl _

/-- The statement of the last `put` under a key. -/
def lastPut (sql : CStr) : List CacheOp → Option StmtId
  | [] => none
  | .put sql' stmt :: ops => (lastPut sql ops).or (if sql' = sql then some stmt else none)
  | _ :: ops => lastPut sql ops

/-- The statements in the cache, the most recently used one first. -/
def SqlRDBStmtCache.held (c : SqlRDBStmtCache) : List StmtId := c.entries.map c.stmt

namespace Refines

variable {c : SqlRDBStmtCache} {a : Lru CStr StmtId}

theorem held_eq (h : Refines c a) : c.held = a.values := by
  obtain ⟨es, hes, htab⟩ := h.represents
  rw [SqlRDBStmtCache.held, hes.entries_eq, Lru.values, ← htab]
  simp [SqlRDBStmtCache.table]

/-- An item is the last one put under its key, or has been there from the start. -/
theorem lastPut_eq (h : Refines c a) {ops : List CacheOp} (hops : ∀ op ∈ ops, op.SizeOk)
    {p : CStr × StmtId} (hp : p ∈ (specAll ops a).2.items) :
    lastPut p.1 ops = some p.2 ∨ lastPut p.1 ops = none ∧ p ∈ a.items := by
  induction ops generalizing c a with
  | nil => exact .inr ⟨rfl, hp⟩
  | cons op ops ih =>
    obtain ⟨c', -, h'⟩ := h.exec (hops op (by simp))
    have hrest := ih h' (fun op hop => hops op (List.mem_cons_of_mem _ hop)) hp
    cases op with
    | put sql stmt =>
      rw [lastPut]
      obtain hlast | ⟨hnone, hmem⟩ := hrest
      · exact .inl (by rw [hlast]; rfl)
      · rw [hnone, Option.none_or]
        obtain rfl | ⟨hmem, hne⟩ := Lru.mem_of_mem_put h.valid hmem
        · exact .inl (if_pos rfl)
        · exact .inr ⟨if_neg (Ne.symm hne), hmem⟩
    | get sql => exact hrest.imp_right fun hr => ⟨hr.1, Lru.mem_of_mem_get hr.2⟩
    | rebuild n => exact hrest.imp_right fun hr => ⟨hr.1, List.mem_of_mem_take hr.2⟩
    | init n => exact hrest.imp_right fun hr => absurd hr.2 List.not_mem_nil
    | destroy => exact hrest.imp_right fun hr => absurd hr.2 List.not_mem_nil

/-- What has been finalized and what is in the cache has been put there, once each. -/
theorem subperm_puts (h : Refines c a) {ops : List CacheOp} (hops : ∀ op ∈ ops, op.SizeOk) :
    ((specAll ops a).1.flatMap CacheReply.finalized ++ (specAll ops a).2.values).Subperm
      (ops.flatMap CacheOp.puts ++ a.values) := by
  induction ops generalizing c a with
  | nil => exact List.Subperm.refl _
  | cons op ops ih =>
    obtain ⟨c', -, h'⟩ := h.exec (hops op (by simp))
    have hrest := ih h' fun op hop => hops op (List.mem_cons_of_mem _ hop)
    have hstep : ((op.spec a).1.finalized ++ (op.spec a).2.values).Subperm
        (op.puts ++ a.values) := by
      by_cases hop : ∃ n, op = .init n
      · obtain ⟨n, rfl⟩ := hop
        exact List.nil_subperm
      · exact (CacheOp.perm_spec h.valid fun n hn => hop ⟨n, hn⟩).symm.subperm
    generalize hF : (specAll ops (op.spec a).2).1.flatMap CacheReply.finalized = F at hrest
    generalize hP : ops.flatMap CacheOp.puts = P at hrest
    have hall : (specAll (op :: ops) a).1.flatMap CacheReply.finalized =
        (op.spec a).1.finalized ++ F := by
      rw [← hF]
      rfl
    rw [hall, List.flatMap_cons, hP, List.append_assoc]
    -- what the rest finalizes and keeps comes from what it put and what this call left
    refine ((List.subperm_append_left (op.spec a).1.finalized).2 hrest).trans ?_
    refine (List.perm_append_comm_assoc ..).subperm.trans ?_
    refine ((List.subperm_append_left P).2 hstep).trans ?_
    rw [List.append_assoc]
    exact (List.perm_append_comm_assoc ..).subperm

end Refines

/-! ## Sequences of operations -/

/-- What holds of the cache `c` after the operations `ops` with their replies, where the same
operations make the list `a`. -/
structure Faithful (ops : List CacheOp) (replies : List CacheReply) (c : SqlRDBStmtCache)
    (a : Lru CStr StmtId) : Prop where
  /-- Both linked structures hold the entries of the list, in order and each in its bucket. -/
  linked : ∃ es, c.Holds es ∧ c.table es = a.items
  capacity_eq : c.capacity = a.capacity
  bucketCount_pow : 0 < c.capacity → ∃ j, c.bucketCount = 2 ^ j
  bucketIndex_lt : 0 < c.capacity → ∀ sql, c.bucketIndex sql < c.bucketCount
  get_ok_iff : ∀ sql, (c.get sql).1 = .ok ↔ sql ∈ a.items.map Prod.fst
  get_stmt : ∀ sql stmt, (c.get sql).2.1 = some stmt → lastPut sql ops = some stmt
  /-- The next call finalizes what was in the cache, or was put there, and is in it no longer. -/
  finalized : ∀ op : CacheOp, op.SizeOk → (∀ n, op ≠ .init n) →
    ∀ reply c', op.exec c = some (reply, c') →
      (op.puts ++ c.held).Perm (reply.finalized ++ c'.held)
  /-- Fresh statements are finalized once, and not while they are in the cache. -/
  once : (ops.flatMap CacheOp.puts).Nodup →
    (replies.flatMap CacheReply.finalized ++ c.held).Nodup

/-- **The cache refines a least-recently-used map.** Every sequence of calls that begins with `init`
returns, gives the replies of the map, and leaves a well-linked cache that stands for the map. -/
theorem cache_refines_lru (c₀ : SqlRDBStmtCache) {n : ℕ} (hn : n < 2 ^ 62) {ops : List CacheOp}
    (hops : ∀ op ∈ ops, op.SizeOk) :
    ∃ c, execAll (.init n :: ops) c₀ = some ((specAll (.init n :: ops) ⟨0, []⟩).1, c) ∧
      Faithful (.init n :: ops) (specAll (.init n :: ops) ⟨0, []⟩).1 c
        (specAll (.init n :: ops) ⟨0, []⟩).2 := by
  obtain ⟨c₁, hinit, h₁⟩ := Refines.init c₀ ⟨0, []⟩ hn
  obtain ⟨c, hall, h⟩ := h₁.execAll hops
  refine ⟨c, ?_, ?_⟩
  · simp only [execAll, hinit, hall, specAll, Option.bind_eq_bind, Option.bind_some]
    rfl
  change Faithful _ ((CacheOp.spec ⟨0, []⟩ (.init n)).1 ::
    (specAll ops (CacheOp.spec ⟨0, []⟩ (.init n)).2).1) c
    (specAll ops (CacheOp.spec ⟨0, []⟩ (.init n)).2).2
  have hlast : ∀ p ∈ (specAll ops (CacheOp.spec ⟨0, []⟩ (.init n)).2).2.items,
      lastPut p.1 ops = some p.2 := fun p hp =>
    (h₁.lastPut_eq hops hp).resolve_right fun hr => absurd hr.2 List.not_mem_nil
  have hputs := h₁.subperm_puts hops
  generalize specAll ops (CacheOp.spec ⟨0, []⟩ (.init n)).2 = res at h hlast hputs ⊢
  have hpow : 0 < c.capacity → ∃ j, c.bucketCount = 2 ^ j := fun hpos =>
    exists_bucketCountFor_eq_pow h.buckets hpos.ne'
  have hget : ∀ sql, (c.get sql).1 = (lookupReply (res.2.lookup sql)).code ∧
      (c.get sql).2.1 = res.2.lookup sql := fun sql => by
    obtain ⟨c', hexec, -⟩ := h.get sql
    have hreply : CacheReply.mk (c.get sql).1 (c.get sql).2.1 [] =
        lookupReply (res.2.get sql).1 := congrArg Prod.fst (Option.some.inj hexec)
    rw [Lru.get_fst] at hreply
    refine ⟨congrArg CacheReply.code hreply, (congrArg CacheReply.stmt hreply).trans ?_⟩
    cases res.2.lookup sql <;> rfl
  refine ⟨h.represents, h.capacity_eq, hpow, fun hpos sql => ?_, fun sql => ?_,
    fun sql stmt hs => ?_, fun op hop hinit reply c' hexec => ?_, fun hnodup => ?_⟩
  · obtain ⟨j, hj⟩ := hpow hpos
    rw [SqlRDBStmtCache.bucketIndex, hj, Nat.and_two_pow_sub_one_eq_mod]
    exact Nat.mod_lt _ (Nat.two_pow_pos j)
  · rw [(hget sql).1]
    cases hl : res.2.lookup sql with
    | none => exact ⟨nofun, fun hm => absurd hm (Lru.lookup_eq_none_iff.1 hl)⟩
    | some stmt =>
      exact ⟨fun _ => List.mem_map.2 ⟨_, Lru.mem_of_lookup_eq_some hl, rfl⟩, fun _ => rfl⟩
  · exact hlast _ (Lru.mem_of_lookup_eq_some ((hget sql).2.symm.trans hs))
  · obtain ⟨c'', hexec', h''⟩ := h.exec hop
    obtain ⟨rfl, rfl⟩ := Prod.mk.inj (Option.some.inj (hexec.symm.trans hexec'))
    rw [h.held_eq, h''.held_eq]
    exact CacheOp.perm_spec h.valid hinit
  · rw [h.held_eq]
    obtain ⟨l, hperm, hsub⟩ := hputs
    rw [show (CacheOp.spec ⟨0, []⟩ (.init n)).2.values = [] from rfl, List.append_nil] at hsub
    exact hperm.nodup_iff.1 (hnodup.sublist hsub)

/-- Two entries fill the cache, the first is used again, and a third statement pushes the second one
out; a smaller capacity then drops the first. -/
theorem cache_refines_lru_sample :
    let ops : List CacheOp := [.put (lit "a") 1, .put (lit "b") 2, .get (lit "a"),
      .put (lit "c") 3, .rebuild 1]
    (specAll (.init 2 :: ops) ⟨0, []⟩).1.map CacheReply.finalized = [[], [], [], [], [2], [1]] ∧
      ∃ c, execAll (.init 2 :: ops) .zero = some ((specAll (.init 2 :: ops) ⟨0, []⟩).1, c) ∧
        Faithful (.init 2 :: ops) (specAll (.init 2 :: ops) ⟨0, []⟩).1 c
          (specAll (.init 2 :: ops) ⟨0, []⟩).2 := by
  intro ops
  have hops : ∀ op ∈ ops, op.SizeOk := by simp [ops, CacheOp.SizeOk]
  exact ⟨by decide +kernel, cache_refines_lru .zero (by norm_num) hops⟩

end C2Sql
