import LarkCodexBridge.Lib.KeyMap
import LarkCodexBridge.Runtime.Sessions

/-!
# Adoption sagas

The table `thread_adoption_sagas`, one row for each scope, next to the tables of scopes and threads, and the jobs on
it. A reservation is a saga that a caller has read at some time; a job compares it with the row of its scope.

* `reserveThreadAdoption`, `commitThreadAdoption`: from a free thread to the mapping of the scope;
* `beginThreadAdoptionRelease`, `finishThreadAdoptionRelease`: from the mapping to a terminal saga;
* `fenceThreadAdoptionsOnStartup`: the check of both tables, and the fence on every live saga.
-/

namespace LarkCodexBridge.Runtime.Adoptions

open Limits SqlTable Store

/-! ## Tables -/

inductive ThreadAdoptionOutcome where
  | acquisitionFailed | released

inductive ThreadAdoptionReleaseResult where
  | released | failed

/-- A row of `thread_adoption_sagas`. -/
structure ThreadAdoptionSaga where
  scopeKey : String
  codexThreadId : String
  generation : ℕ
  state : ThreadAdoptionState
  outcome : Option ThreadAdoptionOutcome
  createdMs : ℤ
  updatedMs : ℤ

/-- `state != 'terminal'`. -/
def ThreadAdoptionSaga.isLive (g : ThreadAdoptionSaga) : Bool := g.state ≠ .terminal

/-- The tables, with the generations that were reserved and committed for each scope, which no job reads. -/
structure AdoptionDb where
  session : SessionDb
  sagas : KeyMap String ThreadAdoptionSaga
  reserved : List (String × ℕ)
  committed : List (String × ℕ)

namespace AdoptionDb

def empty : AdoptionDb := ⟨⟨.empty, [], []⟩, ∅, [], []⟩

/-- `read_saga_by_scope`. -/
def saga? (s : AdoptionDb) (scopeKey : String) : Option ThreadAdoptionSaga := s.sagas.lookup scopeKey

/-- The row of a scope is written. -/
def setSaga (s : AdoptionDb) (g : ThreadAdoptionSaga) : AdoptionDb := { s with sagas := s.sagas.insert g.scopeKey g }

def ownedMappingExists (s : AdoptionDb) (scopeKey codexThreadId : String) (generation : ℕ) : Bool :=
  s.session.threads.any fun r => r.scopeKey = scopeKey ∧ r.codexThreadId = codexThreadId ∧
    r.adoptionGeneration = some generation ∧ r.status = .active ∧ r.origin = .externallyAdopted

/-- A live saga of another scope names the thread. -/
def reservedElsewhere (s : AdoptionDb) (scopeKey codexThreadId : String) : Bool :=
  s.sagas.entries.any fun e => e.2.codexThreadId = codexThreadId ∧ e.2.isLive ∧ e.2.scopeKey ≠ scopeKey

/-- The scope has a starting, running or uncertain turn. -/
def hasLiveTurn (s : AdoptionDb) (scopeKey : String) : Bool :=
  s.session.db.turns.rows.any fun r => r.val.scopeKey = scopeKey ∧
    (r.val.state = .starting ∨ r.val.state = .running ∨ r.val.state = .uncertain)

end AdoptionDb

/-! ## Checks -/

def check (p : Prop) [Decidable p] (e : StoreError) : Except StoreError Unit := if p then .ok () else .error e

theorem check_eq_ok {p : Prop} [Decidable p] {e : StoreError} {u : Unit} : check p e = .ok u ↔ p := by
  unfold check
  split <;> simp [*]

def requireScope (s : AdoptionDb) (scopeKey : String) : Except StoreError Unit :=
  check (s.session.scopeRow? scopeKey).isSome (.notFound "reserving adoption for an unknown scope")

def requireNoLiveTurn (s : AdoptionDb) (scopeKey context : String) : Except StoreError Unit :=
  check (¬s.hasLiveTurn scopeKey) (.invalidTransition context)

def requireTargetMappingAvailable (s : AdoptionDb) (codexThreadId : String) : Except StoreError Unit :=
  check (¬s.session.isActiveThread codexThreadId) (.invalidTransition "adopting a thread with an active bridge mapping")

def requireTargetAvailable (s : AdoptionDb) (scopeKey codexThreadId : String) : Except StoreError Unit := do
  requireTargetMappingAvailable s codexThreadId
  check (¬s.reservedElsewhere scopeKey codexThreadId)
    (.invalidTransition "reserving a thread already claimed by another scope")

def requireScopeAvailable (s : AdoptionDb) (scopeKey : String) : Except StoreError Unit := do
  check (¬(s.session.active? scopeKey).any fun r => r.origin = .externallyAdopted)
    (.invalidTransition "reserving while the scope owns an adopted thread")
  check (¬(s.saga? scopeKey).any (·.isLive)) (.invalidTransition "reserving while the scope has a live adoption saga")

def requireExactSaga (s : AdoptionDb) (reservation : ThreadAdoptionSaga) : Except StoreError ThreadAdoptionSaga :=
  match s.saga? reservation.scopeKey with
  | none => .error (.notFound "transitioning an unknown thread adoption saga")
  | some g => do
    check (g.generation = reservation.generation ∧ g.codexThreadId = reservation.codexThreadId)
      (.invalidTransition "transitioning a stale thread adoption generation")
    return g

def requireState (g : ThreadAdoptionSaga) (allowed : List ThreadAdoptionState) (context : String) :
    Except StoreError Unit :=
  check (g.state ∈ allowed) (.invalidTransition context)

def requireOwnedMapping (s : AdoptionDb) (g : ThreadAdoptionSaga) : Except StoreError Unit :=
  check (s.ownedMappingExists g.scopeKey g.codexThreadId g.generation)
    (.invalidTransition "transitioning an adoption without its exact active mapping")

def generationI64 (generation : ℕ) : Except StoreError Unit :=
  check ((generation : ℤ) ≤ i64Max) (.capacityExceeded "encoding a thread adoption generation")

/-! ## Jobs -/

/-- The generation after the one of the row of the scope. -/
def nextGeneration : Option ThreadAdoptionSaga → Except StoreError ℕ
  | none => return 1
  | some g => do
    check (g.state = .terminal) (.invalidTransition "replacing a live thread adoption saga")
    check (g.generation + 1 ≤ u64Max) (.capacityExceeded "advancing a thread adoption generation")
    return g.generation + 1

def reserveThreadAdoption (now : ℤ) (scopeKey codexThreadId : String) : Job AdoptionDb ThreadAdoptionSaga := fun s => do
  check (codexThreadId ≠ "") (.invalidTransition "reserving an empty persisted thread identifier")
  requireScope s scopeKey
  requireNoLiveTurn s scopeKey "reserving a thread adoption"
  requireTargetAvailable s scopeKey codexThreadId
  requireScopeAvailable s scopeKey
  let generation ← nextGeneration (s.saga? scopeKey)
  generationI64 generation
  let g : ThreadAdoptionSaga := ⟨scopeKey, codexThreadId, generation, .acquiring, none, now, now⟩
  return (g, { s.setSaga g with reserved := s.reserved ++ [(scopeKey, generation)] })

def commitThreadAdoption (now : ℤ) (reservation : ThreadAdoptionSaga) (cwd policyFingerprint : String) :
    Job AdoptionDb ThreadRow := fun s => do
  generationI64 reservation.generation
  let g ← requireExactSaga s reservation
  requireState g [.acquiring] "committing an adoption"
  let a : Adoption := ⟨reservation.scopeKey, reservation.codexThreadId, reservation.generation, cwd, policyFingerprint⟩
  let (_, session) ← Runtime.commitThreadAdoption now a true s.session
  return (a.row now, { s.setSaga { g with state := .owned, updatedMs := now } with
    session := session, committed := s.committed ++ [(reservation.scopeKey, reservation.generation)] })

def finishThreadAdoptionAcquisitionFailure (now : ℤ) (reservation : ThreadAdoptionSaga) :
    Job AdoptionDb ThreadAdoptionSaga := fun s => do
  generationI64 reservation.generation
  let g ← requireExactSaga s reservation
  requireState g [.acquiring, .recoveryRequired] "finishing a failed acquisition"
  requireNoLiveTurn s reservation.scopeKey "finishing a failed acquisition"
  check (¬s.ownedMappingExists reservation.scopeKey reservation.codexThreadId reservation.generation)
    (.invalidTransition "failing an acquisition with a committed mapping")
  let g := { g with state := .terminal, outcome := some .acquisitionFailed, updatedMs := now }
  return (g, s.setSaga g)

def beginThreadAdoptionRelease (now : ℤ) (reservation : ThreadAdoptionSaga) : Job AdoptionDb ThreadAdoptionSaga :=
  fun s => do
    generationI64 reservation.generation
    let g ← requireExactSaga s reservation
    requireState g [.owned, .recoveryRequired, .releaseFailed] "beginning an adoption release"
    requireNoLiveTurn s reservation.scopeKey "beginning a thread adoption release"
    requireOwnedMapping s reservation
    let g := { g with state := .releasing, outcome := none, updatedMs := now }
    return (g, s.setSaga g)

def finishThreadAdoptionRelease (now : ℤ) (reservation : ThreadAdoptionSaga) (result : ThreadAdoptionReleaseResult) :
    Job AdoptionDb ThreadAdoptionSaga := fun s => do
  generationI64 reservation.generation
  let g ← requireExactSaga s reservation
  requireState g [.releasing] "finishing an adoption release"
  requireNoLiveTurn s reservation.scopeKey "finishing a thread adoption release"
  requireOwnedMapping s reservation
  match result with
  | .released =>
    let (_, session) ← Runtime.finishThreadAdoptionRelease now reservation.scopeKey reservation.codexThreadId
      reservation.generation true s.session
    let g := { g with state := .terminal, outcome := some .released, updatedMs := now }
    return (g, { s.setSaga g with session := session })
  | .failed =>
    let g := { g with state := .releaseFailed, outcome := none, updatedMs := now }
    return (g, s.setSaga g)

def fenceThreadAdoption (now : ℤ) (reservation : ThreadAdoptionSaga) : Job AdoptionDb ThreadAdoptionSaga := fun s => do
  generationI64 reservation.generation
  let g ← requireExactSaga s reservation
  check (g.state ≠ .terminal) (.invalidTransition "fencing a terminal thread adoption saga")
  if g.state = .recoveryRequired then return (g, s)
  let g := { g with state := .recoveryRequired, outcome := none, updatedMs := now }
  return (g, s.setSaga g)

/-- An active adopted mapping without its live saga. -/
def AdoptionDb.isOrphaned (s : AdoptionDb) (r : ThreadRow) : Bool :=
  r.status = .active ∧ r.origin = .externallyAdopted ∧ ¬s.sagas.entries.any fun e =>
    e.2.scopeKey = r.scopeKey ∧ e.2.codexThreadId = r.codexThreadId ∧ some e.2.generation = r.adoptionGeneration ∧
      e.2.isLive

/-- `state IN ('acquiring', 'owned', 'releasing', 'release_failed')`. -/
def ThreadAdoptionSaga.isUnfenced (g : ThreadAdoptionSaga) : Bool :=
  g.state = .acquiring ∨ g.state = .owned ∨ g.state = .releasing ∨ g.state = .releaseFailed

/-- The saga as `fence_thread_adoptions_on_startup` leaves it. -/
def ThreadAdoptionSaga.fence (now : ℤ) (g : ThreadAdoptionSaga) : ThreadAdoptionSaga :=
  if g.isUnfenced then { g with state := .recoveryRequired, outcome := none, updatedMs := now } else g

/-- `fence_thread_adoptions_on_startup`, which answers the number of sagas it fences. -/
def fenceThreadAdoptionsOnStartup (now : ℤ) : Job AdoptionDb ℕ := fun s => do
  check (¬s.session.threads.any s.isOrphaned) (.corruptData "fencing an adopted mapping without a live saga")
  check (¬s.sagas.entries.any fun e =>
      (e.2.state = .owned ∨ e.2.state = .releasing ∨ e.2.state = .releaseFailed) ∧
        ¬s.ownedMappingExists e.2.scopeKey e.2.codexThreadId e.2.generation)
    (.corruptData "fencing an owned adoption saga without its mapping")
  return ((s.sagas.entries.filter (·.2.isUnfenced)).length, { s with sagas := s.sagas.mapValues (·.fence now) })

/-! ## Operations -/

inductive AdoptionOp where
  | reserve (scopeKey codexThreadId : String)
  | commit (reservation : ThreadAdoptionSaga) (cwd policyFingerprint : String)
  | finishAcquisitionFailure (reservation : ThreadAdoptionSaga)
  | beginRelease (reservation : ThreadAdoptionSaga)
  | finishRelease (reservation : ThreadAdoptionSaga) (result : ThreadAdoptionReleaseResult)
  | fence (reservation : ThreadAdoptionSaga)
  | fenceOnStartup
  | recordActiveThread (scopeKey codexThreadId : String) (contextToolsVersion : ℕ)
  | archiveActiveThread (scopeKey : String)
  | reactivateArchivedThread (scopeKey codexThreadId : String)
  | upsertScope (scopeKey cwd fingerprint : String)
  /-- Jobs on the tables of turns, inbound events and the outbox. -/
  | inbox (db : Db)

@[reducible] def AdoptionOp.Value : AdoptionOp → Type
  | .reserve _ _ | .finishAcquisitionFailure _ | .beginRelease _ | .finishRelease _ _ | .fence _ => ThreadAdoptionSaga
  | .commit _ _ _ => ThreadRow
  | .fenceOnStartup => ℕ
  | .archiveActiveThread _ | .reactivateArchivedThread _ _ => Option ThreadRow
  | .recordActiveThread _ _ _ | .upsertScope _ _ _ | .inbox _ => Unit

/-- A job on the tables of scopes and threads. -/
def onSession {α : Type} (job : Job SessionDb α) : Job AdoptionDb α := fun s => do
  let (a, session) ← job s.session
  return (a, { s with session := session })

def AdoptionOp.job (now : ℤ) : (op : AdoptionOp) → Job AdoptionDb op.Value
  | .reserve k thread => reserveThreadAdoption now k thread
  | .commit r cwd fingerprint => commitThreadAdoption now r cwd fingerprint
  | .finishAcquisitionFailure r => finishThreadAdoptionAcquisitionFailure now r
  | .beginRelease r => beginThreadAdoptionRelease now r
  | .finishRelease r result => finishThreadAdoptionRelease now r result
  | .fence r => fenceThreadAdoption now r
  | .fenceOnStartup => fenceThreadAdoptionsOnStartup now
  | .recordActiveThread k thread version => onSession (Runtime.recordActiveThread now k thread version)
  | .archiveActiveThread k => onSession (Runtime.archiveActiveThread now k)
  | .reactivateArchivedThread k thread => onSession (Runtime.reactivateArchivedThread now k thread)
  | .upsertScope k cwd fingerprint => onSession (Runtime.upsertScope now k cwd fingerprint)
  | .inbox db => onSession (onDb fun _ => .ok ((), db))

end LarkCodexBridge.Runtime.Adoptions
