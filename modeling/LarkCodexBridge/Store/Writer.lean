import LarkCodexBridge.Limits
import LarkCodexBridge.Lib.Except

/-!
# The store writer

All statements run on one writer thread. A call is a request to it: it can be refused before its job runs (a full
queue, a locked database, a failed check of the database files), it can run, or it can run and then find that the
files fail the check that follows every job. In the last case the effect of the job stays, the caller reads an error
and the thread stops, after which every call answers `closed`.

A job is a function of the database that either fails, and then has no effect, or returns a value and a new database.
-/

namespace LarkCodexBridge.Store

/-- Store failures with their static contexts. -/
inductive StoreError where
  | io (context : String)
  | sqlite (context : String) (code : Option ℤ)
  | queueFull
  | closed
  | alreadyOpen
  | migration (version : ℕ) (name : String)
  | notFound (context : String)
  | invalidTransition (context : String)
  | payloadTooLarge (context : String) (limit : ℕ)
  | capacityExceeded (context : String)
  | corruptData (context : String)
  | invalidPath (context : String)
  deriving DecidableEq

/-- One unit of work on the database `σ`. -/
abbrev Job (σ α : Type) := σ → Except StoreError (α × σ)

export Fallible (bind_eq_ok mapM_ok mapM_eq_ok seq_eq_ok forM_eq_ok map_eq_ok)

/-- The database and whether the writer thread still serves requests. -/
structure Writer (σ : Type) where
  db : σ
  alive : Bool

/-- What becomes of a request that reaches a live writer. -/
inductive Fate where
  /-- Refused before the job runs; `stops` for a failed check of the database files. -/
  | reject (error : StoreError) (stops : Bool)
  | execute
  /-- The job ran, and the check of the database files after it failed. -/
  | executeThenFail (error : StoreError)

/-- The job runs, on a live writer. -/
def Fate.runs : Fate → Bool
  | .reject _ _ => false
  | .execute | .executeThenFail _ => true

variable {fate : Fate}

theorem Fate.runs_iff : fate.runs = true ↔ ∀ e b, fate ≠ .reject e b := by
  cases fate <;> simp [Fate.runs]

variable {σ α : Type}

/-- `StoreHandle::run_sized` with the loop body of `writer_main`. -/
def Writer.runSized (w : Writer σ) (fate : Fate) (job : Job σ α) : Except StoreError α × Writer σ :=
  if w.alive then
    match fate with
    | .reject e stops => (.error e, { w with alive := !stops })
    | .execute =>
      match job w.db with
      | .ok (a, db) => (.ok a, { w with db := db })
      | .error e => (.error e, w)
    | .executeThenFail e =>
      match job w.db with
      | .ok (_, db) => (.error e, { db := db, alive := false })
      | .error _ => (.error e, { w with alive := false })
  else (.error .closed, w)

/-- What a call can do: nothing, or the effect of its job with its value or with an error of a stopped writer. -/
theorem Writer.runSized_cases (w : Writer σ) (fate : Fate) (job : Job σ α) :
    (∃ e, (w.runSized fate job).1 = .error e ∧ (w.runSized fate job).2.db = w.db) ∨
    (∃ a db, job w.db = .ok (a, db) ∧ w.alive = true ∧ fate = .execute ∧
      w.runSized fate job = (.ok a, { w with db := db })) ∨
    (∃ a db e, job w.db = .ok (a, db) ∧ w.alive = true ∧ fate = .executeThenFail e ∧
      w.runSized fate job = (.error e, { db := db, alive := false })) := by
  unfold Writer.runSized
  cases hw : w.alive with
  | false => exact .inl ⟨.closed, rfl, rfl⟩
  | true =>
    cases fate with
    | reject e stops => exact .inl ⟨e, rfl, rfl⟩
    | execute =>
      cases hj : job w.db with
      | error e => exact .inl ⟨e, by simp⟩
      | ok p =>
        obtain ⟨a, db⟩ := p
        exact .inr (.inl ⟨a, db, by simp⟩)
    | executeThenFail e =>
      cases hj : job w.db with
      | error e' => exact .inl ⟨e, by simp⟩
      | ok p =>
        obtain ⟨a, db⟩ := p
        exact .inr (.inr ⟨a, db, e, by simp⟩)

variable {w : Writer σ} {job : Job σ α} {check : Except StoreError Unit}

/-- What a job keeps, every call with it keeps. -/
theorem Writer.runSized_db {P : σ → Prop} (fate : Fate) (h : P w.db) (hjob : ∀ a db, job w.db = .ok (a, db) → P db) :
    P (w.runSized fate job).2.db := by
  rcases w.runSized_cases fate job with ⟨e, -, hdb⟩ | ⟨a, db, hj, -, -, hr⟩ | ⟨a, db, e, hj, -, -, hr⟩
  · rw [hdb]
    exact h
  · rw [hr]
    exact hjob a db hj
  · rw [hr]
    exact hjob a db hj

/-- No call starts a stopped writer again. -/
theorem Writer.alive_of_runSized (h : (w.runSized fate job).2.alive = true) : w.alive = true := by
  cases hw : w.alive with
  | true => rfl
  | false => simp [Writer.runSized, hw] at h

/-! ## Calls -/

/-- A call: what is checked before the writer is asked, then the request. -/
def Writer.call (w : Writer σ) (check : Except StoreError Unit) (fate : Fate) (job : Job σ α) :
    Except StoreError α × Writer σ :=
  match check with
  | .error e => (.error e, w)
  | .ok () => w.runSized fate job

/-- A call leaves the database as it is, or a live writer takes the request and it has the effect of its job. -/
theorem call_takes (w : Writer σ) (check : Except StoreError Unit) (fate : Fate) (job : Job σ α) :
    (w.call check fate job).2.db = w.db ∨
      (∃ a, check = .ok () ∧ job w.db = .ok (a, (w.call check fate job).2.db)) ∧ w.alive = true ∧ ∀ e b, fate ≠ .reject e b := by
  unfold Writer.call
  split
  · exact .inl rfl
  · rcases w.runSized_cases fate job with ⟨e, -, hdb⟩ | ⟨a, db, hj, hw, rfl, hr⟩ | ⟨a, db, e, hj, hw, rfl, hr⟩
    · exact .inl hdb
    · exact .inr ⟨⟨a, rfl, by rw [hr]; exact hj⟩, hw, nofun⟩
    · exact .inr ⟨⟨a, rfl, by rw [hr]; exact hj⟩, hw, nofun⟩

/-- A call either leaves the database as it is or has the effect of its job. -/
theorem call_db (w : Writer σ) (check : Except StoreError Unit) (fate : Fate) (job : Job σ α) :
    (w.call check fate job).2.db = w.db ∨
      ∃ a, check = .ok () ∧ job w.db = .ok (a, (w.call check fate job).2.db) :=
  (call_takes w check fate job).imp_right And.left

theorem call_takes_job {a : α} {db : σ} (halive : w.alive = true) (hcheck : check = .ok ()) (hruns : fate.runs = true)
    (hjob : job w.db = .ok (a, db)) :
    (w.call check fate job).2.db = db := by
  unfold Writer.call Writer.runSized
  rw [hcheck, halive]
  cases fate with
  | reject e b => cases hruns
  | execute => simp [hjob]
  | executeThenFail e => simp [hjob]

/-- A call that answers with a value has run its job. -/
theorem call_of_ok {w' : Writer σ} {a : α} (h : w.call check fate job = (.ok a, w')) :
    check = .ok () ∧ job w.db = .ok (a, w'.db) := by
  unfold Writer.call at h
  split at h
  · cases h
  · refine ⟨rfl, ?_⟩
    rcases w.runSized_cases fate job with ⟨e, he, -⟩ | ⟨b, db, hj, -, -, hr⟩ | ⟨b, db, e, -, -, -, hr⟩
    · rw [h] at he; cases he
    · rw [h] at hr
      cases hr
      exact hj
    · rw [h] at hr; cases hr

def Job.answer {β : Type} (job : Job σ α) (f : α → β) : Job σ β := fun s => (job s).map fun p => (f p.1, p.2)

theorem answer_ok {β : Type} {f : α → β} {s s' : σ} {b : β} (h : Job.answer job f s = .ok (b, s')) :
    ∃ a, job s = .ok (a, s') ∧ f a = b := by
  obtain ⟨⟨a, s₁⟩, hj, heq⟩ := map_eq_ok.1 h
  cases heq
  exact ⟨a, hj, rfl⟩

end LarkCodexBridge.Store
