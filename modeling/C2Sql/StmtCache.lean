import C2Sql.Basic

/-!
# The statement cache

`stmt_cache.c`: a doubly linked list of entries in order of use, and a chained hash table over the
same entries. Entries are addresses, and each field of the entry structure is a map from addresses
(`sql`, `stmt`, `lruPrev`, `lruNext`, `bucketNext`), so that a store through a pointer is an update
of one map.

The functions that hand statements to `drv->finalize` return the list of those statements, in the
order of the calls. An allocation's outcome is an argument. A function whose loop can spin forever
returns an option: `none` says that it does not return.
-/

namespace C2Sql

/-- A driver's statement (`void *`). -/
abbrev StmtId := ℕ

/-- The address of a cache entry. -/
abbrev Addr := ℕ

/-- `SqlRDBStmtCache`, with the memory of its entries. -/
structure SqlRDBStmtCache where
  capacity : ℕ
  size : ℕ
  lruHead : Option Addr
  lruTail : Option Addr
  buckets : ℕ → Option Addr
  bucketCount : ℕ
  sql : Addr → CStr
  stmt : Addr → StmtId
  lruPrev : Addr → Option Addr
  lruNext : Addr → Option Addr
  bucketNext : Addr → Option Addr
  /-- No entry at or above this address has been allocated. -/
  nextAddr : Addr

/-! ## Helpers -/

/-- The loop of `next_pow2_at_least`. Sixty-five rounds see every value of `r`: it is zero from
the sixty-fifth on. -/
def nextPow2Loop : ℕ → ℕ → ℕ → Option ℕ
  | 0, _, _ => none
  | k + 1, r, n => if r < n then nextPow2Loop k (sizeT (r * 2)) n else some r

/-- `next_pow2_at_least`. -/
def nextPow2AtLeast (n : ℕ) : Option ℕ := nextPow2Loop 65 1 n

/-- `C2SQL_CACHE_MIN_BUCKETS`. -/
def cacheMinBuckets : ℕ := 16

/-- `bucket_count_for`. -/
def bucketCountFor (capacity : ℕ) : Option ℕ :=
  if capacity = 0 then some 0
  else
    let want := sizeT (capacity * 2)
    nextPow2AtLeast (if want < cacheMinBuckets then cacheMinBuckets else want)

/-- `hash_sql`. -/
def hashSql (s : CStr) : ℕ := s.foldl (fun h c => sizeT (sizeT (h <<< 5) + h + c.toNat)) 5381

namespace SqlRDBStmtCache

/-- `bucket_index`. -/
def bucketIndex (c : SqlRDBStmtCache) (sql : CStr) : ℕ := hashSql sql &&& (c.bucketCount - 1)

/-! ## The list in order of use -/

/-- `lru_unlink`. -/
def lruUnlink (c : SqlRDBStmtCache) (e : Addr) : SqlRDBStmtCache :=
  let prev := c.lruPrev e
  let next := c.lruNext e
  let c := match prev with
    | some p => { c with lruNext := Function.update c.lruNext p next }
    | none => { c with lruHead := next }
  let c := match next with
    | some n => { c with lruPrev := Function.update c.lruPrev n prev }
    | none => { c with lruTail := prev }
  { c with lruPrev := Function.update c.lruPrev e none,
           lruNext := Function.update c.lruNext e none }

/-- `lru_push_front`. -/
def lruPushFront (c : SqlRDBStmtCache) (e : Addr) : SqlRDBStmtCache :=
  let c := { c with lruPrev := Function.update c.lruPrev e none,
                    lruNext := Function.update c.lruNext e c.lruHead }
  let c := match c.lruHead with
    | some a => { c with lruPrev := Function.update c.lruPrev a (some e) }
    | none => c
  let c := { c with lruHead := some e }
  match c.lruTail with
  | none => { c with lruTail := some e }
  | some _ => c

/-- `lru_promote`. -/
def lruPromote (c : SqlRDBStmtCache) (e : Addr) : SqlRDBStmtCache :=
  if c.lruHead = some e then c else (c.lruUnlink e).lruPushFront e

/-! ## The hash table -/

/-- The loop of `bucket_find`; a chain without repetition has fewer entries than addresses. -/
def findFrom (c : SqlRDBStmtCache) (sql : CStr) : ℕ → Option Addr → Option Addr
  | 0, _ => none
  | _ + 1, none => none
  | k + 1, some a => if c.sql a = sql then some a else c.findFrom sql k (c.bucketNext a)

/-- `bucket_find`. -/
def bucketFind (c : SqlRDBStmtCache) (idx : ℕ) (sql : CStr) : Option Addr :=
  c.findFrom sql c.nextAddr (c.buckets idx)

/-- The loop of `bucket_unlink` past the first entry `a`: the entry whose `bucket_next` is `e`. -/
def predFrom (c : SqlRDBStmtCache) (e : Addr) : ℕ → Addr → Option Addr
  | 0, _ => none
  | k + 1, a =>
    match c.bucketNext a with
    | none => none
    | some b => if b = e then some a else c.predFrom e k b

/-- `bucket_unlink`. -/
def bucketUnlink (c : SqlRDBStmtCache) (e : Addr) : SqlRDBStmtCache :=
  let idx := c.bucketIndex (c.sql e)
  let c := match c.buckets idx with
    | none => c
    | some a =>
      if a = e then { c with buckets := Function.update c.buckets idx (c.bucketNext e) }
      else match c.predFrom e c.nextAddr a with
        | none => c
        | some p => { c with bucketNext := Function.update c.bucketNext p (c.bucketNext e) }
  { c with bucketNext := Function.update c.bucketNext e none }

/-- `bucket_insert`. -/
def bucketInsert (c : SqlRDBStmtCache) (e : Addr) : SqlRDBStmtCache :=
  let idx := c.bucketIndex (c.sql e)
  { c with bucketNext := Function.update c.bucketNext e (c.buckets idx),
           buckets := Function.update c.buckets idx (some e) }

/-! ## Operations -/

/-- `evict_lru_tail`. -/
def evictLruTail (c : SqlRDBStmtCache) : SqlRDBStmtCache × List StmtId :=
  match c.lruTail with
  | none => (c, [])
  | some victim =>
    let c := (c.lruUnlink victim).bucketUnlink victim
    ({ c with size := c.size - 1 }, [c.stmt victim])

/-- The zeroed structure. -/
def zero : SqlRDBStmtCache where
  capacity := 0
  size := 0
  lruHead := none
  lruTail := none
  buckets := fun _ => none
  bucketCount := 0
  sql := fun _ => []
  stmt := fun _ => 0
  lruPrev := fun _ => none
  lruNext := fun _ => none
  bucketNext := fun _ => none
  nextAddr := 0

/-- `c2sql_internal_cache_init`. -/
def init (capacity : ℕ) (callocOk : Bool) : Option (SqlRDBResult × SqlRDBStmtCache) :=
  if capacity = 0 then some (.ok, zero)
  else (bucketCountFor capacity).map fun bcount =>
    if callocOk then (.ok, { zero with capacity := capacity, bucketCount := bcount })
    else (.errNoMemory, zero)

/-- `c2sql_internal_cache_get`. -/
def get (c : SqlRDBStmtCache) (sql : CStr) : SqlRDBResult × Option StmtId × SqlRDBStmtCache :=
  if c.capacity = 0 ∨ c.size = 0 then (.errNotFound, none, c)
  else match c.bucketFind (c.bucketIndex sql) sql with
    | none => (.errNotFound, none, c)
    | some e => (.ok, some (c.stmt e), c.lruPromote e)

/-- `if (c->size >= c->capacity) evict_lru_tail(..)`. -/
def makeRoom (c : SqlRDBStmtCache) : SqlRDBStmtCache × List StmtId :=
  if c.size ≥ c.capacity then c.evictLruTail else (c, [])

/-- A zeroed entry, with its key and its statement. -/
def newEntry (c : SqlRDBStmtCache) (sql : CStr) (stmt : StmtId) : SqlRDBStmtCache :=
  let e := c.nextAddr
  { c with nextAddr := e + 1, sql := Function.update c.sql e sql,
           stmt := Function.update c.stmt e stmt,
           lruPrev := Function.update c.lruPrev e none,
           lruNext := Function.update c.lruNext e none,
           bucketNext := Function.update c.bucketNext e none }

/-- `bucket_insert(c, e); lru_push_front(c, e); c->size++`. -/
def addEntry (c : SqlRDBStmtCache) (e : Addr) : SqlRDBStmtCache :=
  let c := (c.bucketInsert e).lruPushFront e
  { c with size := c.size + 1 }

/-- `c2sql_internal_cache_put`; `allocOk` says that both of its allocations succeed. -/
def put (c : SqlRDBStmtCache) (sql : CStr) (stmt : StmtId) (allocOk : Bool) :
    SqlRDBResult × SqlRDBStmtCache × List StmtId :=
  if c.capacity = 0 then (.ok, c, [stmt])
  else match c.bucketFind (c.bucketIndex sql) sql with
    | some e =>
      let old := c.stmt e
      let c := { c with stmt := Function.update c.stmt e stmt }
      (.ok, c.lruPromote e, [old])
    | none =>
      let (c, dropped) := c.makeRoom
      if allocOk then (.ok, (c.newEntry sql stmt).addEntry c.nextAddr, dropped)
      else (.errNoMemory, c, dropped ++ [stmt])

/-- `while (c->size > new_capacity) evict_lru_tail(..)`, at most `k` times. -/
def evictTo (newCapacity : ℕ) : ℕ → SqlRDBStmtCache → SqlRDBStmtCache × List StmtId
  | 0, c => (c, [])
  | k + 1, c =>
    if c.size > newCapacity then
      let (c, dropped) := c.evictLruTail
      let (c, rest) := evictTo newCapacity k c
      (c, dropped ++ rest)
    else (c, [])

/-- A walk along `lru_next` from `a`, at most `k` entries long. -/
def lruWalk (c : SqlRDBStmtCache) : ℕ → Option Addr → List Addr
  | 0, _ => []
  | _ + 1, none => []
  | k + 1, some a => a :: c.lruWalk k (c.lruNext a)

/-- The entries, in the order of the loops over `lru_head`. -/
def entries (c : SqlRDBStmtCache) : List Addr := c.lruWalk c.nextAddr c.lruHead

/-- The rehash of `c2sql_internal_cache_rebuild`: the entries are pushed one after the other onto
the chains of an empty table. -/
def rehash (c : SqlRDBStmtCache) (bcount : ℕ) : SqlRDBStmtCache :=
  let es := c.entries
  es.foldl (fun c e => c.bucketInsert e)
    { c with bucketNext := fun a => if a ∈ es then none else c.bucketNext a,
             buckets := fun _ => none, bucketCount := bcount }

/-- `c2sql_internal_cache_rebuild`. -/
def rebuild (c : SqlRDBStmtCache) (newCapacity : ℕ) (callocOk : Bool) :
    Option (SqlRDBResult × SqlRDBStmtCache × List StmtId) :=
  let (c, dropped) := evictTo newCapacity c.size c
  if newCapacity = 0 then
    some (.ok, { c with buckets := fun _ => none, bucketCount := 0, capacity := 0 }, dropped)
  else (bucketCountFor newCapacity).map fun wantBuckets =>
    if wantBuckets = c.bucketCount then (.ok, { c with capacity := newCapacity }, dropped)
    else if callocOk then
      (.ok, { c.rehash wantBuckets with capacity := newCapacity }, dropped)
    else (.errNoMemory, c, dropped)

/-- `c2sql_internal_cache_destroy`. -/
def destroy (c : SqlRDBStmtCache) : SqlRDBStmtCache × List StmtId :=
  (zero, c.entries.map c.stmt)

end SqlRDBStmtCache

end C2Sql
