import Mathlib.Data.List.Basic

/-!
# Transactions as a stack of snapshots

The transaction control of SQL on a database whose contents have type `D`, with savepoints named
by `N`. A store is its current contents and the stack of open frames, innermost first; a frame
keeps the contents at the time it was opened. The operations fail (`none`) where SQL reports an
error, and then have no effect.

* `Store.release_top`, `Store.rollbackTo_top`: a command that names the innermost savepoint acts on
  that frame alone.
* `Store.durable`: what survives when every open frame is rolled back.
* `Move.suffix`: the frames below a level are not touched by a run that stays above it.
-/

namespace SnapshotStack

/-- An open frame: `none` for a transaction, the name of a savepoint otherwise. -/
structure Frame (N D : Type*) where
  name : Option N
  saved : D
  deriving DecidableEq, Repr

/-- The contents of a database, and the frames that are open on it. -/
@[ext]
structure Store (N D : Type*) where
  contents : D
  frames : List (Frame N D)
  deriving DecidableEq, Repr

namespace Store

variable {N D : Type*}

/-- `BEGIN`. -/
def begin (s : Store N D) : Option (Store N D) :=
  match s.frames with
  | [] => some { s with frames := [⟨none, s.contents⟩] }
  | _ :: _ => none

/-- `COMMIT`: every open frame is closed, the contents stay. -/
def commit (s : Store N D) : Option (Store N D) :=
  match s.frames with
  | [] => none
  | _ :: _ => some { s with frames := [] }

/-- `ROLLBACK`: back to the outermost snapshot. -/
def rollback (s : Store N D) : Option (Store N D) :=
  s.frames.getLast?.map fun f => ⟨f.saved, []⟩

/-- `SAVEPOINT n`. -/
def savepoint (n : N) (s : Store N D) : Store N D :=
  { s with frames := ⟨some n, s.contents⟩ :: s.frames }

/-- The contents that remain when every open frame is rolled back. -/
def durable (s : Store N D) : D :=
  match s.frames.getLast? with
  | none => s.contents
  | some f => f.saved

/-- The contents when the innermost frame was opened. -/
def innermost (s : Store N D) : D :=
  match s.frames with
  | [] => s.contents
  | f :: _ => f.saved

theorem durable_of_frames_ne_nil {s s' : Store N D} (hf : s'.frames = s.frames)
    (hne : s.frames ≠ []) : s'.durable = s.durable := by
  obtain ⟨f, hl⟩ := Option.ne_none_iff_exists'.1 fun h => hne (List.getLast?_eq_none_iff.1 h)
  simp only [durable, hf, hl]

/-- Closing a frame that is not the outermost one keeps what is durable. -/
theorem durable_of_cons {s s' : Store N D} {f g : Frame N D} {fs : List (Frame N D)}
    (hs : s.frames = f :: g :: fs) (hs' : s'.frames = g :: fs) : s'.durable = s.durable := by
  simp only [durable, hs, hs', List.getLast?_cons, Option.getD_some]

variable [DecidableEq N]

/-- The frames from the innermost one named `n` on. -/
def framesFrom (n : N) (s : Store N D) : List (Frame N D) :=
  s.frames.dropWhile fun f => f.name ≠ some n

/-- `RELEASE n`: the innermost savepoint `n` and those inside it are closed, the contents stay. -/
def release (n : N) (s : Store N D) : Option (Store N D) :=
  match s.framesFrom n with
  | [] => none
  | _ :: fs => some { s with frames := fs }

/-- `ROLLBACK TO n`: back to the snapshot of the innermost savepoint `n`, which stays open. -/
def rollbackTo (n : N) (s : Store N D) : Option (Store N D) :=
  match s.framesFrom n with
  | [] => none
  | f :: fs => some ⟨f.saved, f :: fs⟩

theorem framesFrom_top {n : N} {s : Store N D} {f : Frame N D} {fs : List (Frame N D)}
    (hs : s.frames = f :: fs) (hf : f.name = some n) : s.framesFrom n = f :: fs := by
  rw [framesFrom, hs, List.dropWhile_cons_of_neg (by simp [hf])]

/-- Releasing the innermost savepoint closes its frame only. -/
theorem release_top {n : N} {s : Store N D} {f : Frame N D} {fs : List (Frame N D)}
    (hs : s.frames = f :: fs) (hf : f.name = some n) :
    s.release n = some { s with frames := fs } := by
  rw [release, framesFrom_top hs hf]

/-- Rolling back to the innermost savepoint restores its snapshot and keeps every frame. -/
theorem rollbackTo_top {n : N} {s : Store N D} {f : Frame N D} {fs : List (Frame N D)}
    (hs : s.frames = f :: fs) (hf : f.name = some n) :
    s.rollbackTo n = some { s with contents := f.saved } := by
  rw [rollbackTo, framesFrom_top hs hf]
  simp only [Option.some.injEq, Store.mk.injEq, true_and]
  exact hs.symm

end Store

/-! ## Runs -/

/-- What a command or a statement does to a store: it changes the contents, opens a frame, or closes
the innermost one. -/
inductive Move {N D : Type*} : Store N D → Store N D → Prop
  | edit {s s' : Store N D} : s'.frames = s.frames → Move s s'
  | push {s s' : Store N D} (f : Frame N D) : s'.frames = f :: s.frames → Move s s'
  | pop {s s' : Store N D} (f : Frame N D) : s.frames = f :: s'.frames → Move s s'

/-- Frames that are open stay open while the stack is not shorter than they are. -/
theorem Move.suffix {N D : Type*} {s s' : Store N D} {base : List (Frame N D)} (h : Move s s')
    (hb : base <:+ s.frames) (hlen : base.length ≤ s'.frames.length) : base <:+ s'.frames := by
  cases h with
  | edit hf => rwa [hf]
  | push f hf =>
    rw [hf]
    exact hb.trans (List.suffix_cons f _)
  | pop f hf =>
    rw [hf, List.suffix_cons_iff] at hb
    rcases hb with rfl | hb
    · simp only [List.length_cons] at hlen
      omega
    · exact hb

end SnapshotStack
