import C2Sql.Handle
import C2Sql.Lib.StateLogic

/-!
# Rules for handle functions

The rules of `StateLogic` for the primitive operations on a handle. Each primitive is an update of
one field, so that a proof about another field sees through it.
-/

namespace C2Sql

open StateLogic

variable {σ α : Type} {h : SqlRDBHandle σ}

/-- An acquisition, where the mutex is in use. -/
def SqlRDBMutex.lock (m : SqlRDBMutex) : SqlRDBMutex :=
  if m.threadsafe then { m with acquired := m.acquired + 1 } else m

/-- A release, where the mutex is in use. -/
def SqlRDBMutex.unlock (m : SqlRDBMutex) : SqlRDBMutex :=
  if m.threadsafe then { m with released := m.released + 1 } else m

/-- The next request. -/
def Heap.next (heap : Heap) : Heap := { heap with tick := heap.tick + 1 }

@[simp]
theorem wp_drv {Q : α → SqlRDBHandle σ → Prop} (c : StateM σ α) :
    wp (drv c) Q h ↔ wp c (fun a ctx => Q a { h with ctx := ctx }) h.ctx := Iff.rfl

@[simp]
theorem wp_malloc {Q : Bool → SqlRDBHandle σ → Prop} :
    wp malloc Q h ↔ Q (!h.heap.fails h.heap.tick) { h with heap := h.heap.next } := Iff.rfl

theorem mutexLock_eq (h : SqlRDBHandle σ) :
    mutexLock h = ((), { h with mutex := h.mutex.lock }) := by
  rw [mutexLock, SqlRDBMutex.lock]
  split <;> rfl

theorem mutexUnlock_eq (h : SqlRDBHandle σ) :
    mutexUnlock h = ((), { h with mutex := h.mutex.unlock }) := by
  rw [mutexUnlock, SqlRDBMutex.unlock]
  split <;> rfl

@[simp]
theorem wp_mutexLock {Q : Unit → SqlRDBHandle σ → Prop} :
    wp mutexLock Q h ↔ Q () { h with mutex := h.mutex.lock } := by
  rw [wp, mutexLock_eq]

@[simp]
theorem wp_mutexUnlock {Q : Unit → SqlRDBHandle σ → Prop} :
    wp mutexUnlock Q h ↔ Q () { h with mutex := h.mutex.unlock } := by
  rw [wp, mutexUnlock_eq]

@[simp]
theorem wp_errSet {Q : Unit → SqlRDBHandle σ → Prop} (code : SqlRDBResult) (message : CStr) :
    wp (errSet code message) Q h ↔ Q () { h with error := ⟨code, message.take 255⟩ } := Iff.rfl

/-- Allocations in a row. -/
theorem mallocs_spec (n : ℕ) (h : SqlRDBHandle σ) :
    wp (mallocs n) (fun ok h' => (∃ t, h' = { h with heap := { h.heap with tick := t } }) ∧
      ((∀ k, h.heap.fails k = false) → ok = true)) h := by
  induction n generalizing h with
  | zero => exact ⟨⟨_, rfl⟩, fun _ => rfl⟩
  | succ n ih =>
    simp only [mallocs, wp_bind, wp_malloc, wp_ite, wp_pure, Heap.next]
    split
    · exact ih _
    · refine ⟨⟨_, rfl⟩, fun hf => ?_⟩
      simp_all

end C2Sql
