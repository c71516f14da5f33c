import C2Sql.Registration
import C2Sql.Transactions

/-!
# The mutex of a handle

Every call releases the mutex as often as it acquires it, with one exception: a call that switches
`threadsafe` does so between its own acquisition and release, and only one of the two is real.

* `SqlRDBMutex.Balanced`: every acquisition has been matched by a release;
* `Call.SwitchesMutex`: the call turns the mutex on or off;
* `mutex_balanced_iff`: a call leaves the mutex balanced unless it switches it, and so does every
  run.
-/

namespace C2Sql

open StateLogic

variable {σ : Type}

/-- As many real releases as real acquisitions. -/
def SqlRDBMutex.Balanced (m : SqlRDBMutex) : Prop := m.acquired = m.released

namespace SqlRDBMutex

theorem lock_unlock (m : SqlRDBMutex) : m.lock.unlock = if m.threadsafe
    then { m with acquired := m.acquired + 1, released := m.released + 1 } else m := by
  by_cases ht : m.threadsafe = true <;> simp [lock, unlock, ht]

theorem balanced_lock_unlock {m : SqlRDBMutex} : m.lock.unlock.Balanced ↔ m.Balanced := by
  rw [lock_unlock]
  split <;> simp [Balanced]

theorem threadsafe_lock_unlock (m : SqlRDBMutex) : m.lock.unlock.threadsafe = m.threadsafe := by
  rw [lock_unlock]
  split <;> rfl

/-- A switch of `threadsafe` between the acquisition and the release. -/
theorem not_balanced_switch {m : SqlRDBMutex} (hm : m.Balanced) {b : Bool}
    (hb : b ≠ m.threadsafe) : ¬(unlock { m.lock with threadsafe := b }).Balanced := by
  rw [Balanced] at hm ⊢
  cases b <;> cases ht : m.threadsafe <;> simp_all [lock, unlock]

end SqlRDBMutex

/-- The mutex is free, and in use exactly when the configuration says so. -/
structure SqlRDBHandle.Unlocked (h : SqlRDBHandle σ) : Prop where
  balanced : h.mutex.Balanced
  threadsafe_eq : h.mutex.threadsafe = h.config.threadsafe

/-- A new handle. -/
theorem unlocked_freshHandle (ctx : σ) (heap : Heap) : (freshHandle ctx heap).Unlocked := ⟨rfl, rfl⟩

/-- A call that turns the mutex on or off: it sets a configuration with another `threadsafe`, and no
missing memory stops it. -/
def Call.SwitchesMutex (h : SqlRDBHandle σ) : Call → Prop
  | setConfig (some cfg) => h.valid = true ∧ cfg.threadsafe ≠ h.config.threadsafe ∧
      h.resizeFails cfg = false
  | _ => False

section Steps

variable {h h' : SqlRDBHandle σ}

theorem SqlRDBHandle.Unlocked.of_mutex (hh : h.Unlocked) (hconfig : h'.config = h.config)
    (hmutex : h'.mutex = h.mutex ∨ h'.mutex = h.mutex.lock.unlock) : h'.Unlocked := by
  obtain hm | hm := hmutex
  · exact ⟨hm ▸ hh.balanced, by rw [hm, hconfig, hh.threadsafe_eq]⟩
  · refine ⟨hm ▸ SqlRDBMutex.balanced_lock_unlock.2 hh.balanced, ?_⟩
    rw [hm, SqlRDBMutex.threadsafe_lock_unlock, hconfig, hh.threadsafe_eq]

/-- A call that leaves the core alone but for one acquisition and one release. -/
theorem SqlRDBHandle.Unlocked.of_bracketed (hh : h.Unlocked)
    (hcore : h'.core = h.core ∨ h'.core = h.core.locked.unlocked) : h'.Unlocked := by
  obtain hc | hc := hcore
  · exact hh.of_mutex (congrArg (fun v => v.config) hc) (.inl (congrArg (fun v => v.mutex) hc))
  · exact hh.of_mutex (congrArg (fun v => v.config) hc) (.inr (congrArg (fun v => v.mutex) hc))

/-- The mutex after a call that sets a configuration. -/
theorem mutex_configured {cfg : SqlRDBConfig} (hcore : h'.core = h.core.configured cfg) :
    h'.mutex = SqlRDBMutex.unlock (if cfg.threadsafe ≠ h.config.threadsafe
      then { h.mutex.lock with threadsafe := cfg.threadsafe } else h.mutex.lock) :=
  congrArg (fun v => v.mutex) hcore

theorem unlocked_configured (hh : h.Unlocked) {cfg : SqlRDBConfig}
    (hcore : h'.core = h.core.configured cfg) (hsafe : cfg.threadsafe = h.config.threadsafe) :
    h'.Unlocked := by
  have hmutex : h'.mutex = h.mutex.lock.unlock := by
    rw [mutex_configured hcore, if_neg (not_not.2 hsafe)]
  have hconfig : h'.config = cfg := congrArg (fun v => v.config) hcore
  refine ⟨hmutex ▸ SqlRDBMutex.balanced_lock_unlock.2 hh.balanced, ?_⟩
  rw [hmutex, SqlRDBMutex.threadsafe_lock_unlock, hconfig, hh.threadsafe_eq, hsafe]

theorem not_balanced_configured (hh : h.Unlocked) {cfg : SqlRDBConfig}
    (hcore : h'.core = h.core.configured cfg) (hsafe : cfg.threadsafe ≠ h.config.threadsafe) :
    ¬h'.mutex.Balanced := by
  rw [mutex_configured hcore, if_pos hsafe]
  exact SqlRDBMutex.not_balanced_switch hh.balanced (hh.threadsafe_eq ▸ hsafe)

end Steps

/-- One call: the handle is unlocked again, or the call has switched the mutex and it is not
balanced. -/
theorem exec_unlocked (d : SqlRDBDriver σ) {w : Client σ} (hw : w.handle.Unlocked) (c : Call)
    (hret : (c.exec d w).1.code.isSome) :
    (¬c.SwitchesMutex w.handle ∧ (c.exec d w).2.handle.Unlocked) ∨
      c.SwitchesMutex w.handle ∧ ¬(c.exec d w).2.handle.mutex.Balanced := by
  obtain ⟨code, hcode⟩ := Option.isSome_iff_exists.1 hret
  by_cases hc : c.changesCore = true
  · cases c with
    | registerStruct fuel name cols =>
      have hreg := registerStruct_registered d fuel name cols w.handle code hcode
      exact .inl ⟨id, hw.of_mutex hreg.config hreg.mutex⟩
    | setConfig cfg =>
      by_cases hrefused : w.handle.valid = false ∨ cfg = none
      · have hsame := setConfig_refused d hrefused
        refine .inl ⟨fun hs => ?_, hw.of_bracketed (.inl (congrArg SqlRDBHandle.core hsame))⟩
        obtain hv | rfl := hrefused
        · cases cfg with
          | none => exact hs
          | some cfg => exact absurd hs.1 (by simp [hv])
        · exact hs
      · rw [not_or, Bool.not_eq_false] at hrefused
        obtain ⟨hv, hsome⟩ := hrefused
        obtain ⟨cfg, rfl⟩ := Option.ne_none_iff_exists'.1 hsome
        obtain ⟨-, hf, hcore⟩ | ⟨-, hf, hcore⟩ := setConfig_core d hv cfg code hcode
        · exact .inl ⟨fun hs => absurd hs.2.2 (by simp [hf]), hw.of_bracketed (.inr hcore)⟩
        · by_cases hsafe : cfg.threadsafe = w.handle.config.threadsafe
          · exact .inl ⟨fun hs => hs.2.1 hsafe, unlocked_configured hw hcore hsafe⟩
          · exact .inr ⟨⟨hv, hsafe, hf⟩, not_balanced_configured hw hcore hsafe⟩
    | _ => cases hc
  · refine .inl ⟨fun hs => ?_, hw.of_bracketed (bracketed_exec d (by simpa using hc) w)⟩
    cases c <;> first | exact hs | exact hc rfl

theorem keepsMutex_teardown (d : SqlRDBDriver σ) : Keeps SqlRDBHandle.mutex (teardown d) := by
  refine .bind (.of_wp fun h => ?_) fun _ => .of_wp fun h => ?_
  · simp only [rollbackOpenTx, wp_bind, wp_get, wp_ite]
    split <;> rfl
  · simp only [releaseAll, wp_bind, wp_get, wp_set]
    refine wp_mono ((keepsCore_finalizeAll d _).wp _) fun _ h₁ hcore => ?_
    have hmutex : h₁.mutex = h.mutex := congrArg (fun v => v.mutex) hcore
    rw [wp_modify, wp_ite]
    split <;> exact hmutex

theorem keepsMutex_close (d : SqlRDBDriver σ) : Keeps SqlRDBHandle.mutex (sqlRDBClose d) := by
  refine .of_wp fun h => ?_
  simp only [sqlRDBClose, wp_bind, wp_get, wp_ite]
  split
  · rfl
  · rw [wp_set]
    exact (keepsMutex_teardown d).wp _

/-- **No call returns holding the mutex, unless it switches the mutex.** A call on an unlocked
handle leaves the mutex balanced exactly when it does not switch it; so do all the calls of a run,
and the call that closes the handle after it. -/
theorem mutex_balanced_iff (d : SqlRDBDriver σ) {w : Client σ} (hw : w.handle.Unlocked) :
    (∀ c : Call, (c.exec d w).1.code.isSome →
      ((c.exec d w).2.handle.mutex.Balanced ↔ ¬c.SwitchesMutex w.handle)) ∧
    ∀ cs, Along d (fun w c => ¬c.SwitchesMutex w.handle) w cs → Returns d cs w →
      (run d cs w).2.handle.mutex.Balanced ∧
        (sqlRDBClose d (run d cs w).2.handle).2.mutex.Balanced := by
  refine ⟨fun c hret => ?_, fun cs hcs hret => ?_⟩
  · obtain ⟨hs, hw'⟩ | ⟨hs, hw'⟩ := exec_unlocked d hw c hret
    · exact ⟨fun _ => hs, fun _ => hw'.balanced⟩
    · exact ⟨fun h => absurd h hw', fun h => absurd hs h⟩
  · have hrun : (run d cs w).2.handle.Unlocked := by
      refine run_invariant (I := fun w => w.handle.Unlocked) (fun w c hw hc hret => ?_) hw hcs hret
      obtain ⟨-, hw'⟩ | ⟨hs, -⟩ := exec_unlocked d hw c hret
      · exact hw'
      · exact absurd hs hc
    refine ⟨hrun.balanced, ?_⟩
    rw [keepsMutex_close d]
    exact hrun.balanced

/-- A row is written between two changes of the cache size. -/
theorem mutex_balanced_sample :
    let w : Client (Session (List (CStr × List SqlValue))) := ⟨journalHandle, []⟩
    let calls : List Call :=
      [.setConfig (some { defaultConfig with stmtCacheSize := 0 }),
        .write (some (lit "persons")) (some fun _ => 0) none,
        .setConfig (some { defaultConfig with stmtCacheSize := 7 })]
    (run (driver .sqlite journal) calls w).2.handle.mutex = ⟨true, 3, 3⟩ ∧
      (run (driver .sqlite journal) calls w).2.handle.mutex.Balanced := by
  refine ⟨by decide +kernel, ?_⟩
  refine ((mutex_balanced_iff (driver .sqlite journal) (w := ⟨journalHandle, []⟩)
    ⟨rfl, rfl⟩).2 _ ?_ ?_).1
  · exact ⟨fun h => h.2.1 (by decide +kernel), id, fun h => h.2.1 (by decide +kernel), trivial⟩
  · decide +kernel

/-- The mutex is turned off while it is held, and stays held. -/
theorem setConfig_keeps_mutex_locked :
    let w : Client (Session (List (CStr × List SqlValue))) := ⟨journalHandle, []⟩
    let res := (Call.setConfig (some { defaultConfig with threadsafe := false })).exec
      (driver .sqlite journal) w
    res.1.code = some .ok ∧ res.2.handle.mutex = ⟨false, 1, 0⟩ ∧
      ¬res.2.handle.mutex.Balanced := by
  refine ⟨by decide +kernel, by decide +kernel, ?_⟩
  rw [SqlRDBMutex.Balanced]
  decide +kernel

end C2Sql
