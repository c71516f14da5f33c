import C2Sql.Lib.Links
import C2Sql.StmtCache
import Mathlib.Data.List.Perm.Subperm

/-!
# The statement cache as a list in order of use

The invariant of the cache's memory, and what each operation does to the list of entries.

* `Holds c es`: the doubly linked list and the hash chains of `c` both hold the entries `es`, the
  most recently used one first;
* `Represents c l`: the entries stand for the list `l` of keys and statements;
* `Represents.get_hit`, `Represents.get_miss`, `Represents.put_new`, `Represents.put_hit`,
  `Represents.rebuild_eq`, `Represents.destroy_eq`: the operations on that list.
-/

namespace C2Sql

open Links

/-! ## Bucket counts -/

/-- From a power of two, the loop reaches the first one that is large enough. -/
theorem nextPow2Loop_eq_some {n : ℕ} (hn : n ≤ 2 ^ 63) {k i : ℕ} (hi : i ≤ 63) (hk : 63 < i + k) :
    ∃ j, nextPow2Loop k (2 ^ i) n = some (2 ^ j) ∧ j ≤ 63 ∧ n ≤ 2 ^ j := by
  induction k generalizing i with
  | zero => omega
  | succ k ih =>
    rw [nextPow2Loop]
    split_ifs with hlt
    · have hi' : i < 63 := (Nat.pow_lt_pow_iff_right (by norm_num)).1 (hlt.trans_le hn)
      rw [← pow_succ, sizeT, Nat.mod_eq_of_lt (Nat.pow_lt_pow_right (by norm_num) (by omega))]
      exact ih hi' (by omega)
    · exact ⟨i, rfl, hi, not_lt.1 hlt⟩

/-- Above the largest power of two of a `size_t`, the loop spins: the power overflows to zero. -/
theorem nextPow2Loop_eq_none {n : ℕ} (hn : 2 ^ 63 < n) (k : ℕ) {r : ℕ}
    (hr : r = 0 ∨ ∃ i ≤ 63, r = 2 ^ i) : nextPow2Loop k r n = none := by
  induction k generalizing r with
  | zero => rfl
  | succ k ih =>
    have hlt : r < n := by
      rcases hr with rfl | ⟨i, hi, rfl⟩
      · omega
      · exact (Nat.pow_le_pow_right (by norm_num) hi).trans_lt hn
    rw [nextPow2Loop, if_pos hlt]
    refine ih ?_
    rcases hr with rfl | ⟨i, hi, rfl⟩
    · exact .inl rfl
    · rcases hi.lt_or_eq with hi | rfl
      · refine .inr ⟨i + 1, hi, ?_⟩
        rw [← pow_succ, sizeT, Nat.mod_eq_of_lt (Nat.pow_lt_pow_right (by norm_num) (by omega))]
      · exact .inl (by norm_num [sizeT])

theorem nextPow2AtLeast_isSome_iff (n : ℕ) : (nextPow2AtLeast n).isSome ↔ n ≤ 2 ^ 63 := by
  constructor
  · intro h
    by_contra hgt
    have hnone := nextPow2Loop_eq_none (not_le.1 hgt) 65 (r := 1) (.inr ⟨0, by omega, rfl⟩)
    rw [nextPow2AtLeast, hnone] at h
    cases h
  · intro hn
    obtain ⟨j, hj, -⟩ := nextPow2Loop_eq_some hn (k := 65) (Nat.zero_le 63) (by omega)
    rw [pow_zero] at hj
    rw [nextPow2AtLeast, hj]
    rfl

/-- The bucket count of a capacity is a power of two. -/
theorem exists_bucketCountFor_eq_pow {n bcount : ℕ} (h : bucketCountFor n = some bcount)
    (hn : n ≠ 0) : ∃ j, bcount = 2 ^ j := by
  rw [bucketCountFor, if_neg hn] at h
  simp only at h
  generalize (if sizeT (n * 2) < cacheMinBuckets then cacheMinBuckets else sizeT (n * 2)) = m at h
  have hm : m ≤ 2 ^ 63 := (nextPow2AtLeast_isSome_iff m).1 (by rw [h]; rfl)
  obtain ⟨j, hj, -⟩ := nextPow2Loop_eq_some hm (k := 65) (Nat.zero_le 63) (by omega)
  rw [pow_zero] at hj
  exact ⟨j, Option.some.inj (h.symm.trans hj)⟩

/-- The capacities for which `bucket_count_for` returns. -/
theorem bucketCountFor_isSome_iff (n : ℕ) :
    (bucketCountFor n).isSome ↔ n * 2 % 2 ^ 64 ≤ 2 ^ 63 := by
  rw [bucketCountFor]
  split_ifs with h0
  · simp [h0]
  · rw [nextPow2AtLeast_isSome_iff, sizeT, cacheMinBuckets]
    by_cases hmin : n * 2 % 2 ^ 64 < 16
    · rw [if_pos hmin]
      omega
    · rw [if_neg hmin]

namespace SqlRDBStmtCache

variable {c : SqlRDBStmtCache} {e : Addr} {es : List Addr}

/-! ## The list in order of use -/

theorem lruUnlink_eq (c : SqlRDBStmtCache) (e : Addr) :
    c.lruUnlink e =
      { c with
        lruHead := (bypass (c.lruPrev e) (c.lruNext e) c.lruHead c.lruNext).1,
        lruTail := (bypass (c.lruNext e) (c.lruPrev e) c.lruTail c.lruPrev).1,
        lruNext := Function.update (bypass (c.lruPrev e) (c.lruNext e) c.lruHead c.lruNext).2 e
          none,
        lruPrev := Function.update (bypass (c.lruNext e) (c.lruPrev e) c.lruTail c.lruPrev).2 e
          none } := by
  simp only [lruUnlink, bypass]
  cases c.lruPrev e <;> cases c.lruNext e <;> rfl

theorem lruPushFront_eq (c : SqlRDBStmtCache) (e : Addr) :
    c.lruPushFront e =
      { c with
        lruHead := some e,
        lruTail := c.lruTail.or (some e),
        lruNext := Function.update c.lruNext e c.lruHead,
        lruPrev := linkBack c.lruHead e (Function.update c.lruPrev e none) } := by
  simp only [lruPushFront, linkBack]
  cases c.lruHead <;> cases c.lruTail <;> rfl

/-- The links in order of use spell the entries. -/
def InOrder (c : SqlRDBStmtCache) (es : List Addr) : Prop :=
  Linked c.lruHead c.lruTail c.lruNext c.lruPrev es

theorem InOrder.lruUnlink {l r : List Addr} (h : c.InOrder (l ++ e :: r)) :
    (c.lruUnlink e).InOrder (l ++ r) := by
  rw [lruUnlink_eq]
  exact h.unlink

theorem InOrder.lruPushFront (h : c.InOrder es) (he : e ∉ es) :
    (c.lruPushFront e).InOrder (e :: es) := by
  rw [lruPushFront_eq]
  exact h.pushFront he

theorem InOrder.lruPromote {l r : List Addr} (h : c.InOrder (l ++ e :: r)) :
    (c.lruPromote e).InOrder (e :: (l ++ r)) := by
  have hn := h.nodup
  rw [SqlRDBStmtCache.lruPromote]
  split_ifs with hhead
  · -- an entry that is the head is first in the list
    cases l with
    | nil => exact h
    | cons a l =>
      obtain rfl : a = e := Option.some.inj (h.head_eq.symm.trans hhead)
      simp at hn
  · refine h.lruUnlink.lruPushFront ?_
    simp only [List.nodup_append, List.nodup_cons] at hn
    grind

/-! ## The hash chains -/

/-- The chains hold the addresses with `S`, each in the chain of its bucket. -/
def Chains (c : SqlRDBStmtCache) (S : Addr → Prop) : Prop :=
  ∀ idx, ∃ bs, Seg c.bucketNext (c.buckets idx) bs none ∧ bs.Nodup ∧
    ∀ a, a ∈ bs ↔ S a ∧ c.bucketIndex (c.sql a) = idx

theorem findFrom_eq (sql : CStr) {k : ℕ} {s : Option Addr} {bs : List Addr}
    (h : Seg c.bucketNext s bs none) (hk : bs.length ≤ k) :
    c.findFrom sql k s = bs.find? fun a => c.sql a = sql := by
  induction bs generalizing s k with
  | nil =>
    obtain rfl : s = none := h
    cases k <;> rfl
  | cons a bs ih =>
    obtain ⟨rfl, h⟩ := h
    cases k with
    | zero => simp at hk
    | succ k =>
      rw [findFrom, List.find?_cons, ih h (by simpa using hk)]
      by_cases ha : c.sql a = sql <;> simp [ha]

theorem predFrom_eq {k : ℕ} {a : Addr} {l r : List Addr}
    (h : Seg c.bucketNext (some a) (a :: l ++ e :: r) none) (he : e ∉ a :: l)
    (hk : l.length < k) : c.predFrom e k a = (a :: l).getLast? := by
  induction l generalizing a k with
  | nil =>
    obtain ⟨k, rfl⟩ := Nat.exists_eq_succ_of_ne_zero (by omega : k ≠ 0)
    obtain ⟨-, hnext, -⟩ := h
    simp [predFrom, hnext]
  | cons b l ih =>
    obtain ⟨k, rfl⟩ := Nat.exists_eq_succ_of_ne_zero (by omega : k ≠ 0)
    obtain ⟨-, h⟩ := h
    have hnext : c.bucketNext a = some b := h.1
    have hb : b ≠ e := fun hbe => he (by simp [hbe])
    rw [predFrom, hnext]
    simp only [if_neg hb]
    rw [ih (hnext ▸ h) (fun hm => he (List.mem_cons_of_mem a hm)) (by simpa using hk),
      List.getLast?_cons_cons]

theorem length_le_of_lt {bs : List ℕ} {n : ℕ} (hn : bs.Nodup) (hlt : ∀ a ∈ bs, a < n) :
    bs.length ≤ n := by
  have hsub : bs.Subperm (List.range n) :=
    hn.subperm fun a ha => List.mem_range.2 (hlt a ha)
  simpa using hsub.length_le

/-- The removal of an entry from its chain. -/
theorem bucketUnlink_eq {l r : List Addr}
    (h : Seg c.bucketNext (c.buckets (c.bucketIndex (c.sql e))) (l ++ e :: r) none)
    (hn : (l ++ e :: r).Nodup) (hlt : ∀ a ∈ l ++ e :: r, a < c.nextAddr) :
    c.bucketUnlink e =
      { c with
        buckets := Function.update c.buckets (c.bucketIndex (c.sql e))
          (bypass l.getLast? (c.bucketNext e) (c.buckets (c.bucketIndex (c.sql e)))
            c.bucketNext).1,
        bucketNext := Function.update (bypass l.getLast? (c.bucketNext e)
          (c.buckets (c.bucketIndex (c.sql e))) c.bucketNext).2 e none } := by
  have hhead := h.head_eq
  cases l with
  | nil =>
    simp only [bucketUnlink, hhead]
    simp [bypass]
  | cons a l =>
    have hlen := length_le_of_lt hn hlt
    have hmem : e ∉ a :: l := by
      simp only [List.nodup_append] at hn
      exact fun hm => hn.2.2 e hm e (by simp) rfl
    have hae : a ≠ e := fun h => hmem (by simp [h])
    rw [List.cons_append, List.head?_cons] at hhead
    have hp := predFrom_eq (hhead ▸ h) hmem (k := c.nextAddr) (by simp at hlen; omega)
    obtain ⟨p, hlast⟩ : ∃ p, (a :: l).getLast? = some p :=
      ⟨_, List.getLast?_eq_some_getLast (by simp)⟩
    rw [hlast] at hp ⊢
    simp only [bucketUnlink, hhead, if_neg hae, hp, bypass]
    rw [← hhead, Function.update_eq_self]

theorem Chains.bucketInsert {S : Addr → Prop} (h : c.Chains S) (he : ¬S e) :
    (c.bucketInsert e).Chains fun a => a = e ∨ S a := by
  intro idx
  obtain ⟨bs, hseg, hn, hmem⟩ := h idx
  have hebs : e ∉ bs := fun hm => he ((hmem e).1 hm).1
  by_cases hidx : c.bucketIndex (c.sql e) = idx
  · refine ⟨e :: bs, ?_, List.nodup_cons.2 ⟨hebs, hn⟩, fun a => ?_⟩
    · subst hidx
      simp only [SqlRDBStmtCache.bucketInsert, Function.update_self]
      exact hseg.cons hebs
    · rw [List.mem_cons, hmem, or_and_right]
      exact or_congr_left ⟨fun ha => ⟨ha, ha ▸ hidx⟩, And.left⟩
  · refine ⟨bs, ?_, hn, fun a => ?_⟩
    · simp only [SqlRDBStmtCache.bucketInsert, Function.update_of_ne (Ne.symm hidx)]
      exact hseg.update hebs _
    · rw [hmem, or_and_right]
      exact ⟨.inr, fun ha => ha.resolve_left fun ha => hidx (ha.1 ▸ ha.2)⟩

theorem Chains.bucketUnlink {S : Addr → Prop} (h : c.Chains S) (he : S e)
    (hlt : ∀ a, S a → a < c.nextAddr) :
    (c.bucketUnlink e).Chains fun a => a ≠ e ∧ S a := by
  obtain ⟨bs, hseg, hn, hmem⟩ := h (c.bucketIndex (c.sql e))
  obtain ⟨l, r, rfl⟩ := List.append_of_mem ((hmem e).2 ⟨he, rfl⟩)
  rw [bucketUnlink_eq hseg hn fun a ha => hlt a ((hmem a).1 ha).1]
  have helr : e ∉ l ++ r := by
    simp only [List.nodup_append, List.nodup_cons] at hn
    grind
  intro idx
  by_cases hidx : c.bucketIndex (c.sql e) = idx
  · subst hidx
    refine ⟨l ++ r, ?_, hn.sublist (List.Sublist.append_left (List.sublist_cons_self e r) l),
      fun a => ?_⟩
    · simp only [Function.update_self]
      exact (hseg.bypass hn).update helr none
    · have := hmem a
      simp only [List.mem_append, List.mem_cons] at this helr ⊢
      constructor
      · intro ha
        have hae : a ≠ e := fun hae => helr (hae ▸ ha)
        exact ⟨⟨hae, (this.1 (by tauto)).1⟩, (this.1 (by tauto)).2⟩
      · rintro ⟨⟨hae, hS⟩, hidx⟩
        have := this.2 ⟨hS, hidx⟩
        tauto
  · obtain ⟨bs, hseg', hn', hmem'⟩ := h idx
    -- the chain of another bucket holds neither the entry nor the one before it
    have hother : ∀ a ∈ l ++ e :: r, a ∉ bs := fun a ha hb =>
      hidx (((hmem a).1 ha).2.symm.trans ((hmem' a).1 hb).2)
    refine ⟨bs, ?_, hn', fun a => ?_⟩
    · simp only [Function.update_of_ne (Ne.symm hidx)]
      refine Seg.update ?_ (hother e (by simp)) none
      cases hl : l.getLast? with
      | none => exact hseg'
      | some p => exact hseg'.update (hother p (by simp [List.mem_of_getLast? hl])) _
    · rw [hmem']
      exact ⟨fun ha => ⟨⟨fun hae => hidx (hae ▸ ha.2), ha.1⟩, ha.2⟩, fun ha => ⟨ha.1.2, ha.2⟩⟩

/-! ## The invariant -/

/-- The cache holds the entries `es`, the most recently used one first. -/
structure Holds (c : SqlRDBStmtCache) (es : List Addr) : Prop where
  inOrder : c.InOrder es
  chains : c.Chains (· ∈ es)
  lt_nextAddr : ∀ a ∈ es, a < c.nextAddr
  size_eq : c.size = es.length
  size_le : es.length ≤ c.capacity
  keys : ∀ a ∈ es, ∀ b ∈ es, c.sql a = c.sql b → a = b

theorem bucketFind_eq_some_iff (h : c.Holds es) (sql : CStr) :
    c.bucketFind (c.bucketIndex sql) sql = some e ↔ e ∈ es ∧ c.sql e = sql := by
  obtain ⟨bs, hseg, hn, hmem⟩ := h.chains (c.bucketIndex sql)
  have hlen := length_le_of_lt hn fun a ha => h.lt_nextAddr a ((hmem a).1 ha).1
  rw [bucketFind, findFrom_eq sql hseg hlen]
  constructor
  · intro hf
    exact ⟨((hmem e).1 (List.mem_of_find?_eq_some hf)).1, by simpa using List.find?_some hf⟩
  · rintro ⟨hes, hsql⟩
    have he : e ∈ bs := (hmem e).2 ⟨hes, by rw [hsql]⟩
    obtain ⟨a, ha⟩ := Option.isSome_iff_exists.1
      (List.find?_isSome.2 ⟨e, he, by simpa using hsql⟩ :
        (bs.find? fun a => c.sql a = sql).isSome)
    rw [ha]
    have hsa : c.sql a = sql := by simpa using List.find?_some ha
    exact congrArg some (h.keys a ((hmem a).1 (List.mem_of_find?_eq_some ha)).1 e hes
      (hsa.trans hsql.symm))

/-- A promotion stores links in order of use only. -/
theorem exists_lruPromote_eq (c : SqlRDBStmtCache) (e : Addr) :
    ∃ head tail next prev, c.lruPromote e =
      { c with lruHead := head, lruTail := tail, lruNext := next, lruPrev := prev } := by
  rw [lruPromote]
  split_ifs
  · exact ⟨_, _, _, _, rfl⟩
  · rw [lruPushFront_eq, lruUnlink_eq]
    exact ⟨_, _, _, _, rfl⟩

/-- A removal from a chain stores hash links only. -/
theorem exists_bucketUnlink_eq (c : SqlRDBStmtCache) (e : Addr) :
    ∃ buckets next, c.bucketUnlink e = { c with buckets := buckets, bucketNext := next } := by
  simp only [bucketUnlink]
  split
  · exact ⟨_, _, rfl⟩
  · split_ifs
    · exact ⟨_, _, rfl⟩
    · split <;> exact ⟨_, _, rfl⟩

/-- The removal of an entry from both lists stores links only. -/
theorem exists_unlink_eq (c : SqlRDBStmtCache) (e : Addr) :
    ∃ head tail next prev buckets bucketNext, (c.lruUnlink e).bucketUnlink e =
      { c with lruHead := head, lruTail := tail, lruNext := next, lruPrev := prev,
               buckets := buckets, bucketNext := bucketNext } := by
  obtain ⟨buckets, bucketNext, heq⟩ := (c.lruUnlink e).exists_bucketUnlink_eq e
  rw [heq, lruUnlink_eq]
  exact ⟨_, _, _, _, _, _, rfl⟩

theorem Holds.lruPromote {l r : List Addr} (h : c.Holds (l ++ e :: r)) :
    (c.lruPromote e).Holds (e :: (l ++ r)) := by
  have hord := h.inOrder.lruPromote
  obtain ⟨head, tail, next, prev, heq⟩ := c.exists_lruPromote_eq e
  rw [heq] at hord ⊢
  have hmem : ∀ a, a ∈ e :: (l ++ r) ↔ a ∈ l ++ e :: r := fun a => by
    simp only [List.mem_cons, List.mem_append]
    tauto
  have hlen : (e :: (l ++ r)).length = (l ++ e :: r).length := by simp; omega
  refine ⟨hord, ?_, ?_, ?_, ?_, ?_⟩
  · simp only [hmem]
    exact h.chains
  · simp only [hmem]
    exact h.lt_nextAddr
  · exact h.size_eq.trans hlen.symm
  · exact hlen.le.trans h.size_le
  · simp only [hmem]
    exact h.keys

/-- An entry is taken out of both lists. -/
theorem Holds.unlink {l r : List Addr} (h : c.Holds (l ++ e :: r)) :
    ({ (c.lruUnlink e).bucketUnlink e with size := c.size - 1 } : SqlRDBStmtCache).Holds
      (l ++ r) := by
  have hord := h.inOrder.lruUnlink
  have hch : (c.lruUnlink e).Chains (· ∈ l ++ e :: r) := by
    rw [lruUnlink_eq]
    exact h.chains
  have hlt : ∀ a, a ∈ l ++ e :: r → a < (c.lruUnlink e).nextAddr := by
    rw [lruUnlink_eq]
    exact h.lt_nextAddr
  have hch := hch.bucketUnlink (show e ∈ l ++ e :: r by simp) hlt
  obtain ⟨buckets, next, heq⟩ := (c.lruUnlink e).exists_bucketUnlink_eq e
  rw [heq, lruUnlink_eq] at hch ⊢
  rw [lruUnlink_eq] at hord
  have hn := h.inOrder.nodup
  have hmem : ∀ a, a ∈ l ++ r ↔ a ≠ e ∧ a ∈ l ++ e :: r := fun a => by
    simp only [List.nodup_append, List.nodup_cons] at hn
    simp only [List.mem_append, List.mem_cons]
    grind
  have hsize := h.size_eq
  have hle := h.size_le
  refine ⟨hord, ?_, ?_, ?_, ?_, ?_⟩
  · simp only [hmem]
    exact hch
  · exact fun a ha => h.lt_nextAddr a ((hmem a).1 ha).2
  · simp at hsize ⊢
    omega
  · simp at hle ⊢
    omega
  · exact fun a ha b hb => h.keys a ((hmem a).1 ha).2 b ((hmem b).1 hb).2

/-- A new entry, at the front of both lists. -/
theorem Holds.push (h : c.Holds es) (hcap : es.length < c.capacity) {sql : CStr} (stmt : StmtId)
    (hsql : ∀ a ∈ es, c.sql a ≠ sql) :
    ((c.newEntry sql stmt).addEntry c.nextAddr).Holds (c.nextAddr :: es) := by
  set c₁ := c.newEntry sql stmt
  have hnew : c.nextAddr ∉ es := fun hm => absurd (h.lt_nextAddr _ hm) (lt_irrefl _)
  have hold : ∀ a ∈ es, a ≠ c.nextAddr := fun a ha => (h.lt_nextAddr a ha).ne
  have hsql₁ : ∀ a ∈ es, c₁.sql a = c.sql a := fun a ha => Function.update_of_ne (hold a ha) ..
  have hord : c₁.InOrder es :=
    ⟨h.inOrder.forward.update hnew none, h.inOrder.backward.update (by simpa using hnew) none,
      h.inOrder.nodup⟩
  have hch : c₁.Chains (· ∈ es) := by
    intro idx
    obtain ⟨bs, hseg, hn, hmem⟩ := h.chains idx
    refine ⟨bs, hseg.update (fun hm => hnew ((hmem _).1 hm).1) none, hn, fun a => ?_⟩
    rw [hmem]
    refine and_congr_right fun ha => ?_
    rw [hsql₁ a ha]
    rfl
  have hch := hch.bucketInsert hnew
  have hord := (show (c₁.bucketInsert c.nextAddr).InOrder es from hord).lruPushFront hnew
  rw [addEntry]
  rw [lruPushFront_eq] at hord ⊢
  refine ⟨hord, ?_, ?_, ?_, ?_, ?_⟩
  · simp only [List.mem_cons]
    exact hch
  · rintro a (_ | ⟨_, ha⟩)
    · exact Nat.lt_succ_self _
    · exact Nat.lt_succ_of_lt (h.lt_nextAddr a ha)
  · exact congrArg (· + 1) h.size_eq
  · exact Nat.succ_le_of_lt hcap
  · have hfresh : c₁.sql c.nextAddr = sql := Function.update_self ..
    rintro a (_ | ⟨_, ha⟩) b (_ | ⟨_, hb⟩) hab
    · rfl
    · exact absurd ((hsql₁ b hb).symm.trans (hab.symm.trans hfresh)) (hsql b hb)
    · exact absurd ((hsql₁ a ha).symm.trans (hab.trans hfresh)) (hsql a ha)
    · exact h.keys a ha b hb ((hsql₁ a ha).symm.trans (hab.trans (hsql₁ b hb)))

/-! ## Operations -/

/-- The abstract content of a cache: keys and statements, the most recently used ones first. -/
def table (c : SqlRDBStmtCache) (es : List Addr) : List (CStr × StmtId) :=
  es.map fun a => (c.sql a, c.stmt a)

/-- The memory of `c` is well linked, and stands for the list `l`. -/
def Represents (c : SqlRDBStmtCache) (l : List (CStr × StmtId)) : Prop :=
  ∃ es, c.Holds es ∧ c.table es = l

theorem Represents.length_le {l : List (CStr × StmtId)} (h : c.Represents l) :
    l.length ≤ c.capacity := by
  obtain ⟨es, hes, rfl⟩ := h
  simpa [table] using hes.size_le

theorem Represents.nodup_keys {l : List (CStr × StmtId)} (h : c.Represents l) :
    (l.map Prod.fst).Nodup := by
  obtain ⟨es, hes, rfl⟩ := h
  rw [table, List.map_map]
  exact List.Nodup.map_on hes.keys hes.inOrder.nodup

/-- A key that is not in the list is not found. -/
theorem Represents.bucketFind_eq_none {l : List (CStr × StmtId)} (h : c.Represents l) {sql : CStr}
    (hsql : sql ∉ l.map Prod.fst) : c.bucketFind (c.bucketIndex sql) sql = none := by
  obtain ⟨es, hes, rfl⟩ := h
  rw [Option.eq_none_iff_forall_ne_some]
  intro a ha
  obtain ⟨hmem, rfl⟩ := (bucketFind_eq_some_iff hes sql).1 ha
  exact hsql (by simpa [table] using ⟨a, hmem, rfl⟩)

theorem Represents.get_miss {l : List (CStr × StmtId)} (h : c.Represents l) {sql : CStr}
    (hsql : sql ∉ l.map Prod.fst) : c.get sql = (.errNotFound, none, c) := by
  rw [get, h.bucketFind_eq_none hsql]
  split_ifs <;> rfl

/-- A hit moves the entry to the front. -/
theorem Represents.get_hit {l r : List (CStr × StmtId)} {sql : CStr} {stmt : StmtId}
    (h : c.Represents (l ++ (sql, stmt) :: r)) :
    ∃ c', c.get sql = (.ok, some stmt, c') ∧ c'.Represents ((sql, stmt) :: (l ++ r)) ∧
      c'.capacity = c.capacity ∧ c'.bucketCount = c.bucketCount := by
  obtain ⟨es, hes, htab⟩ := h
  rw [table, List.map_eq_append_iff] at htab
  obtain ⟨l', er, rfl, rfl, htab⟩ := htab
  rw [List.map_eq_cons_iff] at htab
  obtain ⟨e, r', rfl, he, rfl⟩ := htab
  obtain ⟨rfl, rfl⟩ := Prod.mk.inj he
  have hfind := (bucketFind_eq_some_iff hes (c.sql e)).2 ⟨by simp, rfl⟩
  have hcap : ¬(c.capacity = 0 ∨ c.size = 0) := by
    have h₁ := hes.size_eq
    have h₂ := hes.size_le
    simp only [List.length_append, List.length_cons] at h₁ h₂
    omega
  refine ⟨c.lruPromote e, ?_, ?_, ?_⟩
  · rw [get, if_neg hcap, hfind]
  · refine ⟨_, hes.lruPromote, ?_⟩
    obtain ⟨_, _, _, _, heq⟩ := c.exists_lruPromote_eq e
    rw [heq]
    simp [table]
  · obtain ⟨_, _, _, _, heq⟩ := c.exists_lruPromote_eq e
    rw [heq]
    exact ⟨rfl, rfl⟩

/-- An eviction drops the least recently used entry. -/
theorem Represents.evictLruTail {l : List (CStr × StmtId)} {p : CStr × StmtId}
    (h : c.Represents (l ++ [p])) :
    ∃ c', c.evictLruTail = (c', [p.2]) ∧ c'.Represents l ∧ c'.capacity = c.capacity ∧
      c'.bucketCount = c.bucketCount ∧ c'.size = c.size - 1 := by
  obtain ⟨es, hes, htab⟩ := h
  rw [table, List.map_eq_append_iff] at htab
  obtain ⟨l', er, rfl, rfl, htab⟩ := htab
  rw [List.map_eq_singleton_iff] at htab
  obtain ⟨e, rfl, rfl⟩ := htab
  have htail : c.lruTail = some e := hes.inOrder.tail_eq.trans (by simp)
  have hold := hes.unlink
  obtain ⟨_, _, _, _, _, _, heq⟩ := c.exists_unlink_eq e
  rw [List.append_nil, heq] at hold
  refine ⟨_, ?_, ⟨l', hold, rfl⟩, rfl, rfl, rfl⟩
  simp only [SqlRDBStmtCache.evictLruTail, htail, heq]

/-- What is left of a list when it must have room for one more entry. -/
theorem Represents.makeRoom {l : List (CStr × StmtId)} (h : c.Represents l)
    (hcap : 0 < c.capacity) :
    ∃ c', c.makeRoom = (c', (l.drop (c.capacity - 1)).map Prod.snd) ∧
      c'.Represents (l.take (c.capacity - 1)) ∧ c'.capacity = c.capacity ∧
      c'.bucketCount = c.bucketCount := by
  have hlen := h.length_le
  have hsize : c.size = l.length := by
    obtain ⟨es, hes, rfl⟩ := h
    simpa [table] using hes.size_eq
  rw [SqlRDBStmtCache.makeRoom]
  split_ifs with hfull
  · rcases List.eq_nil_or_concat l with rfl | ⟨l, p, rfl⟩
    · simp only [List.length_nil] at hsize
      omega
    · rw [List.concat_eq_append] at h hsize hlen ⊢
      simp only [List.length_append, List.length_singleton] at hsize hlen
      have hlast : c.capacity - 1 = l.length := by omega
      obtain ⟨c', hev, hrep, hcap', hbc, -⟩ := h.evictLruTail
      refine ⟨c', ?_, ?_, hcap', hbc⟩
      · rw [hev, hlast, List.drop_left]
        rfl
      · rw [hlast, List.take_left]
        exact hrep
  · refine ⟨c, ?_, ?_, rfl, rfl⟩
    · rw [List.drop_eq_nil_of_le (by omega)]
      rfl
    · rw [List.take_of_length_le (by omega)]
      exact h

/-- A new key: the least recently used entry makes room for it where the cache is full. -/
theorem Represents.put_new {l : List (CStr × StmtId)} (h : c.Represents l) {sql : CStr}
    (hsql : sql ∉ l.map Prod.fst) (stmt : StmtId) (hcap : 0 < c.capacity) (allocOk : Bool) :
    ∃ c', c.put sql stmt allocOk =
        (if allocOk then (.ok, c', (l.drop (c.capacity - 1)).map Prod.snd)
        else (.errNoMemory, c', (l.drop (c.capacity - 1)).map Prod.snd ++ [stmt])) ∧
      c'.Represents (if allocOk then (sql, stmt) :: l.take (c.capacity - 1)
        else l.take (c.capacity - 1)) ∧
      c'.capacity = c.capacity ∧ c'.bucketCount = c.bucketCount := by
  obtain ⟨c', hroom, ⟨es, hes, htab⟩, hcap', hbc⟩ := h.makeRoom hcap
  rw [put, if_neg hcap.ne', h.bucketFind_eq_none hsql]
  simp only [hroom]
  cases allocOk with
  | false => exact ⟨c', rfl, ⟨es, hes, htab⟩, hcap', hbc⟩
  | true =>
    have hlt : es.length < c'.capacity := by
      have := congrArg List.length htab
      simp only [table, List.length_map, List.length_take] at this
      omega
    have hnew : ∀ a ∈ es, c'.sql a ≠ sql := by
      rintro a ha rfl
      have hmem : (c'.sql a, c'.stmt a) ∈ l.take (c.capacity - 1) :=
        htab ▸ List.mem_map.2 ⟨a, ha, rfl⟩
      exact hsql (List.mem_map.2 ⟨_, List.mem_of_mem_take hmem, rfl⟩)
    have hpush := hes.push hlt stmt hnew
    have hlt' : ∀ a ∈ es, a ≠ c'.nextAddr := fun a ha => (hes.lt_nextAddr a ha).ne
    have hadd := lruPushFront_eq ((c'.newEntry sql stmt).bucketInsert c'.nextAddr) c'.nextAddr
    refine ⟨_, rfl, ⟨_, hpush, ?_⟩, ?_⟩
    · rw [if_pos rfl, ← htab, addEntry, hadd]
      simp only [table, bucketInsert, newEntry, List.map_cons, Function.update_self]
      refine congrArg _ (List.map_congr_left fun a ha => ?_)
      rw [Function.update_of_ne (hlt' a ha), Function.update_of_ne (hlt' a ha)]
    · rw [addEntry, hadd]
      exact ⟨hcap', hbc⟩

/-- Another statement for an entry. -/
theorem Holds.setStmt (h : c.Holds es) (stmt : Addr → StmtId) :
    ({ c with stmt := stmt } : SqlRDBStmtCache).Holds es :=
  ⟨h.inOrder, h.chains, h.lt_nextAddr, h.size_eq, h.size_le, h.keys⟩

/-- A known key: its statement is replaced, and its entry moves to the front. -/
theorem Represents.put_hit {l r : List (CStr × StmtId)} {sql : CStr} {old : StmtId}
    (h : c.Represents (l ++ (sql, old) :: r)) (stmt : StmtId) (allocOk : Bool) :
    ∃ c', c.put sql stmt allocOk = (.ok, c', [old]) ∧ c'.Represents ((sql, stmt) :: (l ++ r)) ∧
      c'.capacity = c.capacity ∧ c'.bucketCount = c.bucketCount := by
  obtain ⟨es, hes, htab⟩ := h
  rw [table, List.map_eq_append_iff] at htab
  obtain ⟨l', er, rfl, rfl, htab⟩ := htab
  rw [List.map_eq_cons_iff] at htab
  obtain ⟨e, r', rfl, he, rfl⟩ := htab
  obtain ⟨rfl, rfl⟩ := Prod.mk.inj he
  have hfind := (bucketFind_eq_some_iff hes (c.sql e)).2 ⟨by simp, rfl⟩
  have hcap : c.capacity ≠ 0 := by
    have := hes.size_le
    simp only [List.length_append, List.length_cons] at this
    omega
  have hother : ∀ a ∈ l' ++ r', a ≠ e := by
    have hn := hes.inOrder.nodup
    rw [List.nodup_middle, List.nodup_cons] at hn
    exact fun a ha hae => hn.1 (hae ▸ ha)
  set c₁ : SqlRDBStmtCache := { c with stmt := Function.update c.stmt e stmt } with hc₁
  obtain ⟨_, _, _, _, heq⟩ := c₁.exists_lruPromote_eq e
  refine ⟨c₁.lruPromote e, ?_, ⟨_, (hes.setStmt _).lruPromote, ?_⟩, ?_⟩
  · rw [put, if_neg hcap, hfind]
  · rw [heq, hc₁]
    simp only [table, List.map_cons, Function.update_self, List.map_append]
    rw [← List.map_append, ← List.map_append]
    refine congrArg _ (List.map_congr_left fun a ha => ?_)
    rw [Function.update_of_ne (hother a ha)]
  · rw [heq]
    exact ⟨rfl, rfl⟩

/-- The loop of a rebuild drops the entries beyond the new capacity, the last one first. -/
theorem Represents.evictTo {l : List (CStr × StmtId)} (h : c.Represents l) (n : ℕ) {k : ℕ}
    (hk : l.length ≤ n + k) :
    ∃ c', evictTo n k c = (c', ((l.drop n).map Prod.snd).reverse) ∧ c'.Represents (l.take n) ∧
      c'.capacity = c.capacity ∧ c'.bucketCount = c.bucketCount := by
  induction k generalizing c l with
  | zero =>
    refine ⟨c, ?_, ?_, rfl, rfl⟩
    · rw [List.drop_eq_nil_of_le (by omega)]
      rfl
    · rwa [List.take_of_length_le (by omega)]
  | succ k ih =>
    have hsize : c.size = l.length := by
      obtain ⟨es, hes, rfl⟩ := h
      simpa [table] using hes.size_eq
    rw [SqlRDBStmtCache.evictTo]
    split_ifs with hgt
    · rcases List.eq_nil_or_concat l with rfl | ⟨l, p, rfl⟩
      · simp only [List.length_nil] at hsize
        omega
      · rw [List.concat_eq_append] at h hsize hk ⊢
        simp only [List.length_append, List.length_singleton] at hsize hk
        obtain ⟨c₁, hev, hrep, hcap₁, hbc₁, -⟩ := h.evictLruTail
        obtain ⟨c₂, hev₂, hrep₂, hcap₂, hbc₂⟩ := ih hrep (by omega)
        refine ⟨c₂, ?_, ?_, hcap₂.trans hcap₁, hbc₂.trans hbc₁⟩
        · simp only [hev, hev₂]
          rw [List.drop_append_of_le_length (by omega)]
          simp
        · rwa [List.take_append_of_le_length (by omega)]
    · refine ⟨c, ?_, ?_, rfl, rfl⟩
      · rw [List.drop_eq_nil_of_le (by omega)]
        rfl
      · rwa [List.take_of_length_le (by omega)]

theorem lruWalk_eq {k : ℕ} {s : Option Addr} (h : Seg c.lruNext s es none)
    (hk : es.length ≤ k) : c.lruWalk k s = es := by
  induction es generalizing s k with
  | nil =>
    obtain rfl : s = none := h
    cases k <;> rfl
  | cons a es ih =>
    obtain ⟨rfl, h⟩ := h
    cases k with
    | zero => simp at hk
    | succ k => rw [lruWalk, ih h (by simpa using hk)]

theorem Holds.entries_eq (h : c.Holds es) : c.entries = es :=
  lruWalk_eq h.inOrder.forward (length_le_of_lt h.inOrder.nodup h.lt_nextAddr)

/-- The entries are pushed onto the chains one after the other. -/
theorem Chains.foldl_bucketInsert {S : Addr → Prop} (h : c.Chains S) (hn : es.Nodup)
    (hes : ∀ a ∈ es, ¬S a) :
    (es.foldl SqlRDBStmtCache.bucketInsert c).Chains (fun a => a ∈ es ∨ S a) ∧
      ∃ buckets bucketNext, es.foldl SqlRDBStmtCache.bucketInsert c =
        { c with buckets := buckets, bucketNext := bucketNext } := by
  induction es generalizing c S with
  | nil =>
    refine ⟨?_, _, _, rfl⟩
    simpa using h
  | cons e es ih =>
    obtain ⟨he, hn⟩ := List.nodup_cons.1 hn
    obtain ⟨hch, bk, bn, heq⟩ := ih (h.bucketInsert (hes e (by simp))) hn fun a ha => by
      rintro (rfl | hS)
      · exact he ha
      · exact hes a (by simp [ha]) hS
    refine ⟨?_, bk, bn, heq⟩
    rw [List.foldl_cons]
    have hor : (fun a => a ∈ e :: es ∨ S a) = fun a => a ∈ es ∨ a = e ∨ S a := by
      funext a
      simp only [List.mem_cons, eq_iff_iff]
      tauto
    rwa [hor]

/-- A new table of chains for the same entries. -/
theorem Holds.rehash (h : c.Holds es) (bcount : ℕ) :
    (c.rehash bcount).Holds es ∧ ∃ buckets bucketNext, c.rehash bcount =
      { c with buckets := buckets, bucketNext := bucketNext, bucketCount := bcount } := by
  have hempty : Chains { c with
        bucketNext := fun a => if a ∈ es then none else c.bucketNext a
        buckets := fun _ => none
        bucketCount := bcount } fun _ => False :=
    fun idx => ⟨[], rfl, List.nodup_nil, by simp⟩
  obtain ⟨hch, bk, bn, heq⟩ :=
    hempty.foldl_bucketInsert h.inOrder.nodup fun _ _ => not_false
  have hre : c.rehash bcount =
      { c with buckets := bk, bucketNext := bn, bucketCount := bcount } := by
    rw [SqlRDBStmtCache.rehash, h.entries_eq]
    exact heq
  refine ⟨?_, bk, bn, hre⟩
  rw [heq] at hch
  rw [hre]
  refine ⟨h.inOrder, ?_, h.lt_nextAddr, h.size_eq, h.size_le, h.keys⟩
  simpa using hch

/-- A cache of another capacity with room for its entries. -/
theorem Holds.setCapacity (h : c.Holds es) {n : ℕ} (hn : es.length ≤ n) :
    ({ c with capacity := n } : SqlRDBStmtCache).Holds es :=
  ⟨h.inOrder, h.chains, h.lt_nextAddr, h.size_eq, hn, h.keys⟩

theorem bucketCount_evictTo (c : SqlRDBStmtCache) (n k : ℕ) :
    (evictTo n k c).1.bucketCount = c.bucketCount := by
  induction k generalizing c with
  | zero => rfl
  | succ k ih =>
    rw [SqlRDBStmtCache.evictTo]
    split_ifs with hgt
    · refine (ih _).trans ?_
      rw [SqlRDBStmtCache.evictLruTail]
      split
      · rfl
      · rename_i e _
        obtain ⟨_, _, _, _, _, _, heq⟩ := c.exists_unlink_eq e
        rw [heq]
    · rfl

/-- In every state, a rebuild fails only where it needs a new table and gets no memory. -/
theorem rebuild_code (c : SqlRDBStmtCache) (n : ℕ) (callocOk : Bool) (r : SqlRDBResult)
    (c' : SqlRDBStmtCache) (dropped : List StmtId)
    (h : c.rebuild n callocOk = some (r, c', dropped)) :
    r ≠ .ok ↔ n ≠ 0 ∧ bucketCountFor n ≠ some c.bucketCount ∧ callocOk = false := by
  have hbc := bucketCount_evictTo c n c.size
  simp only [rebuild] at h
  by_cases h0 : n = 0
  · rw [if_pos h0] at h
    cases h
    simp [h0]
  · rw [if_neg h0, Option.map_eq_some_iff] at h
    obtain ⟨want, hwant, h⟩ := h
    rw [hbc] at h
    rw [hwant]
    split_ifs at h with hsame hok
    · cases h
      simp [hsame]
    · cases h
      simp [hok]
    · cases h
      simp [h0, hsame, hok]

/-- **A rebuild.** It drops the entries beyond the new capacity, the least recently used one first;
it fails only for want of memory, and then keeps the old capacity. -/
theorem Represents.rebuild_eq {l : List (CStr × StmtId)} (h : c.Represents l) (n : ℕ)
    (callocOk : Bool) {want : ℕ} (hwant : bucketCountFor n = some want) :
    ∃ r c', c.rebuild n callocOk = some (r, c', ((l.drop n).map Prod.snd).reverse) ∧
      c'.Represents (l.take n) ∧
      (r = .ok ∧ c'.capacity = n ∧ bucketCountFor n = some c'.bucketCount ∨
        r = .errNoMemory ∧ callocOk = false ∧ c'.capacity = c.capacity) := by
  have hsize : l.length ≤ n + c.size := by
    obtain ⟨es, hes, rfl⟩ := h
    simp [table, hes.size_eq]
  obtain ⟨c₁, hev, ⟨es, hes, htab⟩, hcap, -⟩ := h.evictTo n hsize
  have hlen : es.length ≤ n := by
    have := congrArg List.length htab
    simp only [table, List.length_map, List.length_take] at this
    omega
  simp only [rebuild, hev, hwant, Option.map_some]
  split_ifs with h0 hsame
  · subst h0
    obtain rfl : es = [] := List.length_eq_zero_iff.1 (by omega)
    refine ⟨_, _, rfl, ⟨[], ⟨hes.inOrder, fun idx => ⟨[], rfl, List.nodup_nil, by simp⟩,
      hes.lt_nextAddr, hes.size_eq, le_rfl, hes.keys⟩, htab⟩, .inl ⟨rfl, rfl, hwant.symm⟩⟩
  · exact ⟨_, _, rfl, ⟨es, hes.setCapacity hlen, htab⟩, .inl ⟨rfl, rfl, congrArg some hsame⟩⟩
  · obtain ⟨hre, _, _, heq⟩ := hes.rehash want
    refine ⟨_, _, rfl, ⟨es, hre.setCapacity hlen, ?_⟩, .inl ⟨rfl, rfl, ?_⟩⟩
    · rw [heq]
      exact htab
    · rw [heq]
  · exact ⟨_, _, rfl, ⟨es, hes, htab⟩, .inr ⟨rfl, by simpa using ‹¬callocOk = true›, hcap⟩⟩

theorem Represents.destroy_eq {l : List (CStr × StmtId)} (h : c.Represents l) :
    c.destroy = (zero, l.map Prod.snd) := by
  obtain ⟨es, hes, rfl⟩ := h
  simp [destroy, hes.entries_eq, table]

/-- A new cache is empty. -/
theorem represents_nil (n bcount : ℕ) :
    ({ zero with capacity := n, bucketCount := bcount } : SqlRDBStmtCache).Represents [] :=
  ⟨[], ⟨⟨rfl, rfl, List.nodup_nil⟩, fun _ => ⟨[], rfl, List.nodup_nil, by simp⟩, by simp, rfl,
    Nat.zero_le _, by simp⟩, rfl⟩

end SqlRDBStmtCache

end C2Sql
