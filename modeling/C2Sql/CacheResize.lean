import C2Sql.Drivers
import C2Sql.Frame

/-!
# Resizing the statement cache

`bucket_count_for` on 64-bit words, and `c2sql_internal_cache_rebuild` where the new table of
buckets cannot be allocated.

* `sizesBuckets_iff`: the capacities for which `bucket_count_for` gives a table;
* `CacheReachable`: the caches that calls of the four functions can make;
* `keepsAll_iff`: a failed rebuild keeps the entries if it has none to drop;
* `failed_resize_iff`: the same for a failed `SqlRDBSetConfig`.
-/

namespace C2Sql

open StateLogic

/-! ## Bucket counts -/

/-- The argument that `bucket_count_for` passes to `next_pow2_at_least`. -/
def bucketWant (capacity : ℕ) : ℕ := max cacheMinBuckets (sizeT (capacity * 2))

theorem bucketCountFor_eq {capacity : ℕ} (h0 : capacity ≠ 0) :
    bucketCountFor capacity = nextPow2AtLeast (bucketWant capacity) := by
  rw [bucketCountFor, if_neg h0, bucketWant]
  dsimp only
  congr 1
  split <;> omega

/-- What the bucket count of a capacity has to be: the loop ends after some rounds with it, it is a
power of two of at least 16, it is twice the capacity if any 64-bit power of two is, and it is above
every bucket index. -/
def SizesBuckets (capacity : ℕ) : Prop :=
  ∃ k bcount, nextPow2Loop k 1 (bucketWant capacity) = some bcount ∧
    bucketCountFor capacity = some bcount ∧ (∃ j < 64, bcount = 2 ^ j) ∧ 16 ≤ bcount ∧
    ((∃ j < 64, 2 * capacity ≤ 2 ^ j) → 2 * capacity ≤ bcount) ∧
    ∀ c : SqlRDBStmtCache, c.bucketCount = bcount → ∀ sql, c.bucketIndex sql < bcount

theorem bucketIndex_lt_of_pow {c : SqlRDBStmtCache} {j : ℕ} (hj : c.bucketCount = 2 ^ j)
    (sql : CStr) : c.bucketIndex sql < 2 ^ j := by
  rw [SqlRDBStmtCache.bucketIndex, hj, Nat.and_two_pow_sub_one_eq_mod]
  exact Nat.mod_lt _ (Nat.two_pow_pos j)

/-- **Bucket sizing.** It ends with a table for the capacities whose double, on 64 bits, is not
above the largest power of two, and otherwise it does not end. -/
theorem sizesBuckets_iff {capacity : ℕ} (h0 : 0 < capacity) (hword : capacity < 2 ^ 64) :
    SizesBuckets capacity ↔
      capacity ≤ 2 ^ 62 ∨ 2 ^ 63 ≤ capacity ∧ capacity ≤ 2 ^ 63 + 2 ^ 62 := by
  have hwant : bucketWant capacity ≤ 2 ^ 63 ↔
      capacity ≤ 2 ^ 62 ∨ 2 ^ 63 ≤ capacity ∧ capacity ≤ 2 ^ 63 + 2 ^ 62 := by
    unfold bucketWant cacheMinBuckets sizeT
    omega
  rw [← hwant]
  constructor
  · rintro ⟨k, bcount, hloop, -⟩
    by_contra hgt
    have hnone := nextPow2Loop_eq_none (not_le.1 hgt) k (r := 1) (.inr ⟨0, by omega, rfl⟩)
    rw [hloop] at hnone
    cases hnone
  · intro hle
    obtain ⟨j, hloop, hj, hge⟩ := nextPow2Loop_eq_some hle (k := 65) (Nat.zero_le 63) (by omega)
    rw [pow_zero] at hloop
    have hmin : 16 ≤ bucketWant capacity := le_max_left ..
    refine ⟨65, 2 ^ j, hloop, (bucketCountFor_eq h0.ne').trans hloop, ⟨j, by omega, rfl⟩,
      hmin.trans hge, ?_, fun c hc => bucketIndex_lt_of_pow hc⟩
    rintro ⟨i, hi, hcap⟩
    have hi' : 2 ^ i ≤ 2 ^ 63 := Nat.pow_le_pow_right (by norm_num) (by omega)
    have hexact : 2 * capacity ≤ bucketWant capacity := by
      unfold bucketWant sizeT
      omega
    exact hexact.trans hge

/-- The default capacity, and the largest one that is not wrapped. -/
theorem sizesBuckets_small : SizesBuckets 64 ∧ SizesBuckets (2 ^ 62) :=
  ⟨(sizesBuckets_iff (by norm_num) (by norm_num)).2 (.inl (by norm_num)),
    (sizesBuckets_iff (by norm_num) (by norm_num)).2 (.inl le_rfl)⟩

/-- One entry more, and no number of rounds ends the loop. -/
theorem bucketCountFor_hangs :
    bucketCountFor (2 ^ 62 + 1) = none ∧
      ∀ k, nextPow2Loop k 1 (bucketWant (2 ^ 62 + 1)) = none := by
  have hgt : 2 ^ 63 < bucketWant (2 ^ 62 + 1) := by
    unfold bucketWant cacheMinBuckets sizeT
    norm_num
  have hloop : ∀ k, nextPow2Loop k 1 (bucketWant (2 ^ 62 + 1)) = none := fun k =>
    nextPow2Loop_eq_none hgt k (.inr ⟨0, by omega, rfl⟩)
  exact ⟨(bucketCountFor_eq (by norm_num)).trans (hloop 65), hloop⟩

/-! ## Caches that calls can make -/

/-- The keys and statements in the cache, the most recently used one first. -/
def SqlRDBStmtCache.items (c : SqlRDBStmtCache) : List (CStr × StmtId) := c.table c.entries

/-- The caches that `init`, `get`, `put` and `rebuild` can make, whatever the allocator does. -/
inductive CacheReachable : SqlRDBStmtCache → Prop
  | init {n : ℕ} {callocOk : Bool} {r : SqlRDBResult} {c : SqlRDBStmtCache} :
      SqlRDBStmtCache.init n callocOk = some (r, c) → CacheReachable c
  | get {c : SqlRDBStmtCache} (sql : CStr) : CacheReachable c → CacheReachable (c.get sql).2.2
  | put {c : SqlRDBStmtCache} (sql : CStr) (stmt : StmtId) (allocOk : Bool) :
      CacheReachable c → CacheReachable (c.put sql stmt allocOk).2.1
  | rebuild {c c' : SqlRDBStmtCache} {n : ℕ} {callocOk : Bool} {r : SqlRDBResult}
      {dropped : List StmtId} :
      CacheReachable c → c.rebuild n callocOk = some (r, c', dropped) → CacheReachable c'

namespace SqlRDBStmtCache

variable {c c' : SqlRDBStmtCache} {l : List (CStr × StmtId)} {n : ℕ} {callocOk : Bool}
  {r : SqlRDBResult} {dropped : List StmtId}

theorem Represents.items_eq (h : c.Represents l) : c.items = l := by
  obtain ⟨es, hes, rfl⟩ := h
  rw [items, hes.entries_eq]

theorem Represents.size_eq (h : c.Represents l) : c.size = l.length := by
  obtain ⟨es, hes, rfl⟩ := h
  rw [hes.size_eq, table, List.length_map]

/-- A rebuild that returns has found a bucket count. -/
theorem bucketCountFor_of_rebuild (h : c.rebuild n callocOk = some (r, c', dropped)) :
    ∃ want, bucketCountFor n = some want := by
  by_cases h0 : n = 0
  · exact ⟨0, by rw [h0]; rfl⟩
  · simp only [rebuild, if_neg h0, Option.map_eq_some_iff] at h
    obtain ⟨want, hwant, -⟩ := h
    exact ⟨want, hwant⟩

/-- What a rebuild that returns has done to the list. -/
theorem Represents.rebuild (h : c.Represents l)
    (hr : c.rebuild n callocOk = some (r, c', dropped)) :
    c'.Represents (l.take n) ∧ dropped = ((l.drop n).map Prod.snd).reverse ∧
      (r ≠ .ok → c'.capacity = c.capacity) := by
  obtain ⟨want, hwant⟩ := bucketCountFor_of_rebuild hr
  obtain ⟨r', c'', heq, hrep, hcode⟩ := h.rebuild_eq n callocOk hwant
  rw [hr] at heq
  cases heq
  refine ⟨hrep, rfl, fun hne => ?_⟩
  obtain ⟨hok, -⟩ | ⟨-, -, hcap⟩ := hcode
  · exact absurd hok hne
  · exact hcap

end SqlRDBStmtCache

/-- Every such cache is well linked. -/
theorem CacheReachable.represents {c : SqlRDBStmtCache} (h : CacheReachable c) :
    ∃ l, c.Represents l := by
  induction h with
  | @init n callocOk r c hinit =>
    refine ⟨[], ?_⟩
    have hzero : SqlRDBStmtCache.zero.Represents [] := SqlRDBStmtCache.represents_nil 0 0
    unfold SqlRDBStmtCache.init at hinit
    split_ifs at hinit with h0 hok
    · cases hinit
      exact hzero
    · obtain ⟨bcount, -, heq⟩ := Option.map_eq_some_iff.1 hinit
      cases heq
      exact SqlRDBStmtCache.represents_nil n bcount
    · obtain ⟨bcount, -, heq⟩ := Option.map_eq_some_iff.1 hinit
      cases heq
      exact hzero
  | @get c sql _ ih =>
    obtain ⟨l, hl⟩ := ih
    by_cases hmem : sql ∈ l.map Prod.fst
    · obtain ⟨⟨_, stmt⟩, hp, rfl⟩ := List.mem_map.1 hmem
      obtain ⟨a, b, rfl⟩ := List.append_of_mem hp
      obtain ⟨c', hget, hrep, -⟩ := hl.get_hit
      exact ⟨_, by rw [hget]; exact hrep⟩
    · exact ⟨l, by rw [hl.get_miss hmem]; exact hl⟩
  | @put c sql stmt allocOk _ ih =>
    obtain ⟨l, hl⟩ := ih
    rcases Nat.eq_zero_or_pos c.capacity with h0 | hpos
    · exact ⟨l, by rw [SqlRDBStmtCache.put, if_pos h0]; exact hl⟩
    by_cases hmem : sql ∈ l.map Prod.fst
    · obtain ⟨⟨_, old⟩, hp, rfl⟩ := List.mem_map.1 hmem
      obtain ⟨a, b, rfl⟩ := List.append_of_mem hp
      obtain ⟨c', hput, hrep, -⟩ := hl.put_hit stmt allocOk
      exact ⟨_, by rw [hput]; exact hrep⟩
    · obtain ⟨c', hput, hrep, -⟩ := hl.put_new hmem stmt hpos allocOk
      have hc' : (c.put sql stmt allocOk).2.1 = c' := by
        rw [hput]
        split <;> rfl
      exact ⟨_, hc' ▸ hrep⟩
  | rebuild _ hr ih =>
    obtain ⟨l, hl⟩ := ih
    exact ⟨_, (hl.rebuild hr).1⟩

/-! ## A rebuild without memory -/

/-- What a failed resize is to leave: the entries in their order, the capacity, and every statement
as it is. -/
def KeepsAll (c c' : SqlRDBStmtCache) (dropped : List StmtId) : Prop :=
  c'.items = c.items ∧ c'.capacity = c.capacity ∧ dropped = []

/-- A rebuild keeps the entries exactly if they fit into the new capacity. -/
theorem items_rebuild_iff {c c' : SqlRDBStmtCache} (hc : CacheReachable c) {n : ℕ} {callocOk : Bool}
    {r : SqlRDBResult} {dropped : List StmtId}
    (hr : c.rebuild n callocOk = some (r, c', dropped)) : c'.items = c.items ↔ c.size ≤ n := by
  obtain ⟨l, hl⟩ := hc.represents
  rw [(hl.rebuild hr).1.items_eq, hl.items_eq, hl.size_eq]
  exact List.take_eq_self_iff l

/-- **A failed rebuild** keeps everything exactly if all entries fit into the new capacity: those
that do not have been dropped before the table is allocated. -/
theorem keepsAll_iff {c c' : SqlRDBStmtCache} (hc : CacheReachable c) {n : ℕ} {callocOk : Bool}
    {r : SqlRDBResult} {dropped : List StmtId}
    (hr : c.rebuild n callocOk = some (r, c', dropped)) (hne : r ≠ .ok) :
    KeepsAll c c' dropped ↔ c.size ≤ n := by
  rw [← items_rebuild_iff hc hr]
  refine ⟨fun hk => hk.1, fun hitems => ⟨hitems, ?_, ?_⟩⟩
  · obtain ⟨l, hl⟩ := hc.represents
    exact (hl.rebuild hr).2.2 hne
  · obtain ⟨l, hl⟩ := hc.represents
    have hle := (items_rebuild_iff hc hr).1 hitems
    rw [hl.size_eq] at hle
    rw [(hl.rebuild hr).2.1, List.drop_of_length_le hle]
    rfl

variable {σ : Type}

/-- The configuration and the cached statements of a handle are as they were, and the driver has not
been called. -/
def SqlRDBHandle.SameCache (h h' : SqlRDBHandle σ) : Prop :=
  h'.config = h.config ∧ h'.cache.items = h.cache.items ∧ h'.cache.capacity = h.cache.capacity ∧
    h'.ctx = h.ctx

/-- The finalization of statements leaves the cache and the configuration. -/
theorem finalizeAll_cache (d : SqlRDBDriver σ) (stmts : List StmtId) (h : SqlRDBHandle σ) :
    wp (finalizeAll d stmts) (fun _ h' => h'.cache = h.cache ∧ h'.config = h.config ∧
      (stmts = [] → h'.ctx = h.ctx)) h := by
  induction stmts generalizing h with
  | nil => exact ⟨rfl, rfl, fun _ => rfl⟩
  | cons stmt stmts ih =>
    have hrest := ih { h with ctx := (d.finalize stmt h.ctx).2 }
    rw [finalizeAll, wp_bind, wp_drv]
    exact ⟨hrest.1, hrest.2.1, nofun⟩

/-- A rebuild on a handle that fails. -/
theorem cacheRebuild_failed (d : SqlRDBDriver σ) {h : SqlRDBHandle σ} (hc : CacheReachable h.cache)
    (n : ℕ) :
    wp (cacheRebuild d n) (fun r h' => ∀ code, r = some code → code ≠ .ok →
      (h.SameCache h' ↔ h.cache.size ≤ n)) h := by
  simp only [cacheRebuild, wp_bind, wp_malloc, wp_get]
  cases hr : h.cache.rebuild n (!h.heap.fails h.heap.tick) with
  | none => rintro _ ⟨⟩
  | some res =>
    obtain ⟨r, cache, dropped⟩ := res
    simp only [wp_bind, wp_set, wp_pure]
    refine wp_mono (finalizeAll_cache d dropped _) ?_
    rintro _ h' ⟨hcache, hconfig, hctx⟩ _ ⟨⟩ hne
    rw [SqlRDBHandle.SameCache, hcache]
    constructor
    · rintro ⟨-, hitems, -⟩
      exact (items_rebuild_iff hc hr).1 hitems
    · intro hle
      obtain ⟨hitems, hcap, hdropped⟩ := (keepsAll_iff hc hr hne).2 hle
      exact ⟨hconfig, hitems, hcap, hctx hdropped⟩

/-- A call of `SqlRDBSetConfig` on a handle that fails. -/
theorem setConfig_failed (d : SqlRDBDriver σ) {h : SqlRDBHandle σ} (hc : CacheReachable h.cache)
    (hv : h.valid = true) (cfg : SqlRDBConfig) :
    wp (sqlRDBSetConfig d (some cfg)) (fun r h' => ∀ code, r = some code → code ≠ .ok →
      (h.SameCache h' ↔ h.cache.size ≤ cfg.stmtCacheSize)) h := by
  simp only [sqlRDBSetConfig, wp_bind, wp_get, hv, Bool.not_true, Bool.false_eq_true, if_false,
    wp_mutexLock, wp_ite]
  split
  case isFalse =>
    simp only [wp_bind, wp_modify, wp_mutexUnlock, wp_pure, if_true]
    rintro _ ⟨⟩ hne
    exact absurd rfl hne
  case isTrue =>
    have hrebuild := cacheRebuild_failed d (h := { h with mutex := h.mutex.lock }) hc
      cfg.stmtCacheSize
    refine wp_mono hrebuild fun r h' hr => ?_
    rcases r with _ | r
    · rintro _ ⟨⟩
    simp only [wp_bind, wp_ite, wp_modify, wp_mutexUnlock, wp_pure]
    split
    case isTrue hok =>
      rintro _ ⟨⟩ hne
      exact absurd hok hne
    case isFalse =>
      rintro _ ⟨⟩ hne
      exact hr r rfl hne

/-- **A failed resize loses nothing exactly if all entries fit into the new capacity**: the cache of
a handle after a rebuild that fails, and the handle after a `SqlRDBSetConfig` that fails. -/
theorem failed_resize_iff (d : SqlRDBDriver σ) (h : SqlRDBHandle σ)
    (hc : CacheReachable h.cache) :
    (∀ n callocOk c' dropped, h.cache.rebuild n callocOk = some (.errNoMemory, c', dropped) →
      (KeepsAll h.cache c' dropped ↔ h.cache.size ≤ n)) ∧
    ∀ cfg code, (sqlRDBSetConfig d cfg h).1 = some code → code ≠ .ok →
      (h.SameCache (sqlRDBSetConfig d cfg h).2 ↔
        ∀ c ∈ cfg, h.valid = true → h.cache.size ≤ c.stmtCacheSize) := by
  refine ⟨fun n ok c' dropped hr => keepsAll_iff hc hr nofun, fun cfg code hcode hne => ?_⟩
  rcases cfg with _ | cfg
  · rw [setConfig_refused d (.inr rfl)]
    exact ⟨fun _ _ => nofun, fun _ => ⟨rfl, rfl, rfl, rfl⟩⟩
  cases hv : h.valid with
  | false =>
    rw [setConfig_refused d (.inl hv)]
    exact ⟨fun _ _ _ => nofun, fun _ => ⟨rfl, rfl, rfl, rfl⟩⟩
  | true =>
    rw [show _ ↔ _ from setConfig_failed d hc hv cfg code hcode hne]
    constructor
    · rintro hle _ ⟨⟩ -
      exact hle
    · intro hall
      exact hall cfg rfl rfl

/-! ## Samples -/

/-- A cache with room for 32 statements that holds two. -/
def twoStatements : SqlRDBStmtCache :=
  (({ SqlRDBStmtCache.zero with capacity := 32, bucketCount := 64 } : SqlRDBStmtCache).put
    (lit "a") 1 true).2.1.put (lit "b") 2 true |>.2.1

/-- An engine whose statements return no rows. -/
def emptyEngine : Engine Unit :=
  ⟨fun _ => true, fun _ _ _ => some ⟨[], (), none⟩, fun _ => 0, fun _ => 0, fun _ => [],
    fun _ => []⟩

/-- A handle with this cache. -/
def twoStatementsHandle : SqlRDBHandle (Session Unit) :=
  { freshHandle ⟨⟨⟨(), []⟩, 0, fun _ _ => none, 0⟩, fun _ => none, 3, 0⟩
      ⟨fun _ => false, fun _ => false, 0, 1, ⟨[], [], none⟩, false⟩ with
    cache := twoStatements }

theorem twoStatements_reachable : CacheReachable twoStatements := by
  have hinit : SqlRDBStmtCache.init 32 true =
      some (.ok, { SqlRDBStmtCache.zero with capacity := 32, bucketCount := 64 }) := rfl
  exact ((CacheReachable.init hinit).put _ _ _).put _ _ _

/-- With room for both statements, a failure keeps them. -/
theorem failed_resize_keeps :
    ∃ c' dropped, twoStatements.rebuild 2 false = some (.errNoMemory, c', dropped) ∧
      KeepsAll twoStatements c' dropped := by
  obtain ⟨⟨r, c', dropped⟩, hr⟩ : ∃ res, twoStatements.rebuild 2 false = some res :=
    Option.isSome_iff_exists.1 (by decide +kernel)
  obtain rfl : r = .errNoMemory := by
    have hcode : (twoStatements.rebuild 2 false).map Prod.fst = some .errNoMemory := by
      decide +kernel
    rw [hr] at hcode
    exact Option.some.inj hcode
  exact ⟨c', dropped, hr,
    ((failed_resize_iff (driver .sqlite emptyEngine) twoStatementsHandle
      twoStatements_reachable).1 2 false c' dropped hr).2 (by decide +kernel)⟩

/-- With room for one, the older statement has been finalized when the allocation fails. -/
theorem failed_resize_drops :
    CacheReachable twoStatements ∧ twoStatements.items = [(lit "b", 2), (lit "a", 1)] ∧
      (twoStatements.rebuild 1 false).map (fun (r, c', dropped) => (r, c'.items, dropped)) =
        some (.errNoMemory, [(lit "b", 2)], [1]) :=
  ⟨twoStatements_reachable, by decide +kernel, by decide +kernel⟩

end C2Sql
