import LarkCodexBridge.Runtime.Actor

/-!
# Scopes and threads

The tables `scopes` (workspace and policy fingerprint of a scope) and `threads` (the Codex threads of a scope, at most one of
them active) next to the tables of the inbox, and the jobs on them. Of the adoption sagas only the outcome of their checks is
an argument here.

* `SessionDb.scopeRow?`, `SessionDb.active?`: what a scope has;
* `StoreRequest.job`: the requests of scope actors;
* `job_elsewhere`: a job leaves the rows of other scopes alone, and which job changes what.
-/

namespace LarkCodexBridge.Runtime

open Limits SqlTable Lark Store Outbox

/-- A row of `scopes`. -/
structure ScopeRow where
  scopeKey : String
  cwd : String
  policyFingerprint : String
  updatedMs : ℤ
  deriving DecidableEq

inductive ThreadStatus where
  | active | archived
  deriving DecidableEq

/-- A row of `threads`. -/
structure ThreadRow where
  scopeKey : String
  codexThreadId : String
  status : ThreadStatus
  createdMs : ℤ
  archivedMs : Option ℤ
  contextToolsVersion : ℕ
  origin : ThreadOrigin
  adoptionGeneration : Option ℕ
  deriving DecidableEq

/-- The tables that scope actors work on. -/
structure SessionDb where
  db : Db
  scopes : List ScopeRow
  threads : List ThreadRow

def ThreadRow.isActiveOf (scopeKey : String) (r : ThreadRow) : Bool := r.scopeKey = scopeKey ∧ r.status = .active

/-- `UPDATE threads SET status = 'archived'`. -/
def ThreadRow.archive (now : ℤ) (r : ThreadRow) : ThreadRow := { r with status := .archived, archivedMs := some now }

/-- `UPDATE threads SET status = 'active'`. -/
def ThreadRow.activate (r : ThreadRow) : ThreadRow := { r with status := .active, archivedMs := none }

namespace SessionDb

def scopeRow? (s : SessionDb) (scopeKey : String) : Option ScopeRow := s.scopes.find? (·.scopeKey = scopeKey)

/-- The active thread of a scope. -/
def active? (s : SessionDb) (scopeKey : String) : Option ThreadRow := s.threads.find? (·.isActiveOf scopeKey)

def thread? (s : SessionDb) (scopeKey codexThreadId : String) : Option ThreadRow :=
  s.threads.find? fun r => r.scopeKey = scopeKey ∧ r.codexThreadId = codexThreadId

def isActiveThread (s : SessionDb) (codexThreadId : String) : Bool :=
  s.threads.any fun r => r.codexThreadId = codexThreadId ∧ r.status = .active

def archiveActive (s : SessionDb) (now : ℤ) (scopeKey : String) : SessionDb :=
  { s with threads := s.threads.map fun r => if r.isActiveOf scopeKey then r.archive now else r }

end SessionDb

/-! ## Jobs -/

/-- A job on the tables of the inbox. -/
def onDb {α : Type} (job : Job Db α) : Job SessionDb α := fun s =>
  match job s.db with
  | .ok (a, db) => .ok (a, { s with db := db })
  | .error e => .error e

def upsertScope (now : ℤ) (scopeKey cwd fingerprint : String) : Job SessionDb Unit := fun s =>
  if (s.scopeRow? scopeKey).isSome then
    .ok ((), { s with scopes := s.scopes.map fun r =>
      if r.scopeKey = scopeKey then ⟨scopeKey, cwd, fingerprint, now⟩ else r })
  else .ok ((), { s with scopes := s.scopes ++ [⟨scopeKey, cwd, fingerprint, now⟩] })

/-- `record_active_thread_with_context_tools`. -/
def recordActiveThread (now : ℤ) (scopeKey codexThreadId : String) (contextToolsVersion : ℕ) : Job SessionDb Unit := fun s =>
  if (s.thread? scopeKey codexThreadId).isSome ∨ (s.active? scopeKey).isSome ∨ s.isActiveThread codexThreadId then
    .error (.sqlite "recording an active thread" none)
  else
    .ok ((), { s with threads := s.threads ++
      [⟨scopeKey, codexThreadId, .active, now, none, contextToolsVersion, .bridgeCreated, none⟩] })

def archiveActiveThread (now : ℤ) (scopeKey : String) : Job SessionDb (Option ThreadRow) := fun s =>
  match s.active? scopeKey with
  | none => .ok (none, s)
  | some row =>
    if row.origin ≠ .bridgeCreated then
      .error (.invalidTransition "archiving an externally adopted thread outside release finish")
    else .ok (some (row.archive now), s.archiveActive now scopeKey)

def reactivateArchivedThread (now : ℤ) (scopeKey codexThreadId : String) : Job SessionDb (Option ThreadRow) := fun s =>
  match s.thread? scopeKey codexThreadId with
  | none => .ok (none, s)
  | some row =>
    if row.origin ≠ .bridgeCreated then
      .error (.invalidTransition "reactivating an externally adopted thread outside adoption")
    else if row.status = .active then .ok (some row, s)
    else if (s.active? scopeKey).any fun r => decide (r.origin ≠ .bridgeCreated) then
      .error (.invalidTransition "archiving an externally adopted thread outside release finish")
    else
      let s := s.archiveActive now scopeKey
      if s.isActiveThread codexThreadId then .error (.sqlite "reactivating an archived thread" none)
      else
        .ok (some row.activate, { s with threads := s.threads.map fun r =>
          if r.scopeKey = scopeKey ∧ r.codexThreadId = codexThreadId then r.activate else r })

def uncertainTurns : Job SessionDb (List (Row TurnRow)) := fun s =>
  let usage := recoveryUsage none s.db.turns
  if usage.1 > storeRecoveryTurnMaxRows ∨ usage.2 > storeRecoveryTurnMaxBytes then
    .error (.capacityExceeded "reading live turn recovery rows")
  else .ok (s.db.turns.rows.filter (·.val.live), s)

/-- What an adoption commits. -/
structure Adoption where
  scopeKey : String
  codexThreadId : String
  generation : ℕ
  cwd : String
  policyFingerprint : String
  deriving DecidableEq

def Adoption.row (a : Adoption) (now : ℤ) : ThreadRow :=
  ⟨a.scopeKey, a.codexThreadId, .active, now, none, 0, .externallyAdopted, some a.generation⟩

/-- `commit_thread_adoption`; `fits` says that the saga is the reserved one. -/
def commitThreadAdoption (now : ℤ) (a : Adoption) (fits : Bool) : Job SessionDb Unit := fun s =>
  if fits = false then .error (.invalidTransition "committing an adoption")
  else if s.db.turns.rows.any fun r => r.val.scopeKey = a.scopeKey ∧
      (r.val.state = .starting ∨ r.val.state = .running ∨ r.val.state = .uncertain) then
    .error (.invalidTransition "committing a thread adoption")
  else if (s.scopeRow? a.scopeKey).isNone then .error (.notFound "committing adoption for an unknown scope")
  else if s.isActiveThread a.codexThreadId then
    .error (.invalidTransition "adopting a thread with an active bridge mapping")
  else if (s.active? a.scopeKey).any fun r => decide (r.origin ≠ .bridgeCreated) then
    .error (.invalidTransition "replacing an externally adopted mapping without release")
  else
    let s := s.archiveActive now a.scopeKey
    let scopes := s.scopes.map fun r =>
      if r.scopeKey = a.scopeKey then ⟨a.scopeKey, a.cwd, a.policyFingerprint, now⟩ else r
    let threads :=
      if (s.thread? a.scopeKey a.codexThreadId).isSome then
        s.threads.map fun r => if r.scopeKey = a.scopeKey ∧ r.codexThreadId = a.codexThreadId then a.row now else r
      else s.threads ++ [a.row now]
    .ok ((), { s with scopes := scopes, threads := threads })

/-- `finish_thread_adoption_release` of a released thread, which is the active one of its scope; `fits` says that its saga is
releasing. -/
def finishThreadAdoptionRelease (now : ℤ) (scopeKey codexThreadId : String) (generation : ℕ) (fits : Bool) :
    Job SessionDb Unit := fun s =>
  let owned := (s.active? scopeKey).any fun r => decide (r.codexThreadId = codexThreadId ∧
    r.adoptionGeneration = some generation ∧ r.origin = .externallyAdopted)
  if fits = false ∨ owned = false then
    .error (.invalidTransition "transitioning an adoption without its exact active mapping")
  else .ok ((), s.archiveActive now scopeKey)

/-! ## Requests -/

/-- A request of a scope actor to the store. -/
inductive StoreRequest where
  | scopeRow (scopeKey : String)
  | upsertScope (scopeKey cwd fingerprint : String)
  | activeThread (scopeKey : String)
  | archiveActiveThread (scopeKey : String)
  | recordActiveThread (scopeKey codexThreadId : String)
  | reactivateArchivedThread (scopeKey codexThreadId : String)
  | uncertainTurns
  /-- `resolve_turn_and_finish_inbound_batch` with `Interrupted`. -/
  | interruptTurn (id : ℕ)
  | rejectReceivedAndEnqueueNotice (key : InboundKey) (reason : InboundRejectionKind) (notice : NewOutboxRow)
  | commitThreadAdoption (adoption : Adoption) (fits : Bool)
  | finishThreadAdoptionRelease (scopeKey codexThreadId : String) (generation : ℕ) (fits : Bool)
  deriving DecidableEq

namespace StoreRequest

/-- What a request answers. -/
@[reducible] def Value : StoreRequest → Type
  | .scopeRow _ => Option ScopeRow
  | .activeThread _ | .archiveActiveThread _ | .reactivateArchivedThread _ _ => Option ThreadRow
  | .uncertainTurns => List (Row TurnRow)
  | .interruptTurn _ => ResolveTurnOutcome
  | .rejectReceivedAndEnqueueNotice _ _ _ => InboundDisposition
  | .upsertScope _ _ _ | .recordActiveThread _ _ | .commitThreadAdoption _ _ | .finishThreadAdoptionRelease _ _ _ _ => Unit

variable (C : Codec) (I : InboundCodec)

def job (now : ℤ) : (q : StoreRequest) → Job SessionDb q.Value
  | .scopeRow k => fun s => .ok (s.scopeRow? k, s)
  | .upsertScope k cwd fingerprint => Runtime.upsertScope now k cwd fingerprint
  | .activeThread k => fun s => .ok (s.active? k, s)
  | .archiveActiveThread k => Runtime.archiveActiveThread now k
  | .recordActiveThread k thread => Runtime.recordActiveThread now k thread 0
  | .reactivateArchivedThread k thread => Runtime.reactivateArchivedThread now k thread
  | .uncertainTurns => Runtime.uncertainTurns
  | .interruptTurn id => onDb (resolveTurnAndFinishInboundBatch now id .interrupted)
  | .rejectReceivedAndEnqueueNotice key reason notice =>
    onDb (Store.rejectReceivedAndEnqueueNotice C I now key reason notice)
  | .commitThreadAdoption a fits => Runtime.commitThreadAdoption now a fits
  | .finishThreadAdoptionRelease k thread generation fits =>
    Runtime.finishThreadAdoptionRelease now k thread generation fits

/-- The scope whose row a request may write. -/
def writesScope : StoreRequest → Option String
  | .upsertScope k _ _ => some k
  | .commitThreadAdoption a _ => some a.scopeKey
  | _ => none

/-- The scope whose threads a request may write. -/
def writesThreads : StoreRequest → Option String
  | .archiveActiveThread k | .recordActiveThread k _ | .reactivateArchivedThread k _ => some k
  | .commitThreadAdoption a _ => some a.scopeKey
  | .finishThreadAdoptionRelease k _ _ _ => some k
  | _ => none

/-- A request that writes turns or inbound rows. -/
def writesInbox : StoreRequest → Bool
  | .interruptTurn _ | .rejectReceivedAndEnqueueNotice _ _ _ => true
  | _ => false

end StoreRequest

/-! ## What a job leaves alone -/

/-- Rows that are changed but none of those searched for. -/
theorem find?_map_elsewhere {α : Type} {p : α → Bool} {f : α → α} : ∀ {l : List α}, (∀ r ∈ l, p r = true → f r = r) →
    (∀ r ∈ l, p (f r) = true → p r = true) → (l.map f).find? p = l.find? p
  | [], _, _ => rfl
  | r :: l, hkeep, hnew => by
    have ih := find?_map_elsewhere (fun r hr => hkeep r (List.mem_cons_of_mem _ hr))
      fun r hr => hnew r (List.mem_cons_of_mem _ hr)
    rw [List.map_cons]
    cases hp : p r with
    | true => rw [hkeep r List.mem_cons_self hp, List.find?_cons_of_pos hp, List.find?_cons_of_pos hp]
    | false =>
      have hfr : ¬p (f r) = true := by
        intro h
        rw [hnew r List.mem_cons_self h] at hp
        cases hp
      rw [List.find?_cons_of_neg hfr, List.find?_cons_of_neg (by simp [hp]), ih]

theorem isActiveOf_iff {k : String} {r : ThreadRow} : r.isActiveOf k = true ↔ r.scopeKey = k ∧ r.status = .active := by
  simp [ThreadRow.isActiveOf]

namespace SessionDb

variable {s s' : SessionDb} {k k' : String} {now : ℤ}

theorem active?_scopeKey {r : ThreadRow} (h : s.active? k = some r) : r.scopeKey = k :=
  (isActiveOf_iff.1 (List.find?_some h)).1

/-- Only rows of another scope are changed. -/
theorem active?_map {f : ThreadRow → ThreadRow} (hne : k' ≠ k)
    (hf : ∀ r, f r = r ∨ r.scopeKey = k' ∧ (f r).scopeKey = k') :
    (s.threads.map f).find? (·.isActiveOf k) = s.threads.find? (·.isActiveOf k) := by
  refine find?_map_elsewhere (fun r _ hp => ?_) fun r _ hp => ?_
  · rcases hf r with h | ⟨h, -⟩
    · exact h
    · exact absurd (h.symm.trans (isActiveOf_iff.1 hp).1) hne
  · rcases hf r with h | ⟨-, h⟩
    · rwa [h] at hp
    · exact absurd (h.symm.trans (isActiveOf_iff.1 hp).1) hne

@[simp] theorem archiveActive_active? (hne : k' ≠ k) : (s.archiveActive now k').active? k = s.active? k := by
  refine active?_map hne fun r => ?_
  by_cases h : r.isActiveOf k' = true
  · exact .inr ⟨(isActiveOf_iff.1 h).1, by simp [h, ThreadRow.archive, (isActiveOf_iff.1 h).1]⟩
  · exact .inl (by simp [h])

theorem archiveActive_active?_self : (s.archiveActive now k).active? k = none := by
  refine List.find?_eq_none.2 fun r hr => ?_
  obtain ⟨r, -, rfl⟩ := List.mem_map.1 hr
  split
  · simp [ThreadRow.isActiveOf, ThreadRow.archive]
  · assumption

theorem active?_append {row : ThreadRow} (hne : row.scopeKey ≠ k) :
    (s.threads ++ [row]).find? (·.isActiveOf k) = s.threads.find? (·.isActiveOf k) := by
  have hrow : row.isActiveOf k = false := by
    simp [ThreadRow.isActiveOf, hne]
  simp [List.find?_append, hrow]

theorem scopeRow?_map {f : ScopeRow → ScopeRow} (hne : k' ≠ k)
    (hf : ∀ r, f r = r ∨ r.scopeKey = k' ∧ (f r).scopeKey = k') :
    (s.scopes.map f).find? (·.scopeKey = k) = s.scopes.find? (·.scopeKey = k) := by
  refine find?_map_elsewhere (fun r _ hp => ?_) fun r _ hp => ?_
  · rcases hf r with h | ⟨h, -⟩
    · exact h
    · exact absurd (h.symm.trans (of_decide_eq_true hp)) hne
  · rcases hf r with h | ⟨-, h⟩
    · rwa [h] at hp
    · exact absurd (h.symm.trans (of_decide_eq_true hp)) hne

theorem scopeRow?_overwrite {row new : ScopeRow} (hrow : s.scopeRow? k = some row) (hnew : new.scopeKey = k := by rfl) :
    (s.scopes.map fun r => if r.scopeKey = k then new else r).find? (·.scopeKey = k) = some new := by
  have hp : ((fun r : ScopeRow => decide (r.scopeKey = k)) ∘ fun r => if r.scopeKey = k then new else r) =
      fun r => decide (r.scopeKey = k) := by
    funext r
    by_cases hr : r.scopeKey = k
    · simp [hr, hnew]
    · simp [hr]
  unfold scopeRow? at hrow
  have hkey := List.find?_some hrow
  rw [decide_eq_true_eq] at hkey
  rw [List.find?_map, hp, hrow, Option.map_some, if_pos hkey]

end SessionDb

variable {now : ℤ}

theorem overwrite_elsewhere {k cwd fingerprint : String} (r : ScopeRow) :
    (if r.scopeKey = k then (⟨k, cwd, fingerprint, now⟩ : ScopeRow) else r) = r ∨
      r.scopeKey = k ∧ (if r.scopeKey = k then (⟨k, cwd, fingerprint, now⟩ : ScopeRow) else r).scopeKey = k := by
  split
  · next h => exact .inr ⟨h, rfl⟩
  · exact .inl rfl

section

variable {C : Codec} {I : InboundCodec} {now : ℤ} {q : StoreRequest} {s s' : SessionDb} {k : String}

theorem onDb_ok {α : Type} {job : Job Db α} {a : α} (h : onDb job s = .ok (a, s')) :
    ∃ db, job s.db = .ok (a, db) ∧ s' = { s with db := db } := by
  unfold onDb at h
  split at h
  · next db hj =>
    cases h
    exact ⟨db, hj, rfl⟩
  · cases h

variable {k thread : String} {u : Unit} {row : Option ThreadRow} {fits : Bool}

theorem upsertScope_ok {cwd fingerprint : String} (h : upsertScope now k cwd fingerprint s = .ok (u, s')) :
    s'.db = s.db ∧ s'.threads = s.threads ∧ (∀ k', k' ≠ k → s'.scopeRow? k' = s.scopeRow? k') ∧
      s'.scopeRow? k = some ⟨k, cwd, fingerprint, now⟩ := by
  unfold upsertScope at h
  split at h
  · next hsome =>
    cases h
    refine ⟨rfl, rfl, fun k' hne => SessionDb.scopeRow?_map hne.symm overwrite_elsewhere, ?_⟩
    obtain ⟨row, hrow⟩ := Option.isSome_iff_exists.1 hsome
    exact SessionDb.scopeRow?_overwrite hrow
  · next hnone =>
    cases h
    refine ⟨rfl, rfl, fun k' hne => ?_, ?_⟩
    · simp [SessionDb.scopeRow?, List.find?_append, hne.symm]
    · have hscopes : s.scopes.find? (·.scopeKey = k) = none := by simpa [SessionDb.scopeRow?] using hnone
      simp [SessionDb.scopeRow?, List.find?_append, hscopes]

theorem recordActiveThread_ok {version : ℕ} (h : recordActiveThread now k thread version s = .ok (u, s')) :
    s'.db = s.db ∧ s'.scopes = s.scopes ∧ s.active? k = none ∧ ∀ k', k' ≠ k → s'.active? k' = s.active? k' := by
  unfold recordActiveThread at h
  split at h
  · cases h
  · next hnone =>
    cases h
    refine ⟨rfl, rfl, ?_, fun k' hne => SessionDb.active?_append hne.symm⟩
    rw [not_or, not_or, Bool.not_eq_true, Option.isSome_eq_false_iff, Option.isNone_iff_eq_none] at hnone
    simpa using hnone.2.1

theorem archiveActiveThread_ok (h : archiveActiveThread now k s = .ok (row, s')) :
    s'.db = s.db ∧ s'.scopes = s.scopes ∧ ∀ k', k' ≠ k → s'.active? k' = s.active? k' := by
  unfold archiveActiveThread at h
  split at h
  · cases h
    exact ⟨rfl, rfl, fun _ _ => rfl⟩
  · split at h
    · cases h
    · cases h
      exact ⟨rfl, rfl, fun k' hne => SessionDb.archiveActive_active? hne.symm⟩

theorem reactivateArchivedThread_ok (h : reactivateArchivedThread now k thread s = .ok (row, s')) :
    s'.db = s.db ∧ s'.scopes = s.scopes ∧ ∀ k', k' ≠ k → s'.active? k' = s.active? k' := by
  unfold reactivateArchivedThread at h
  split at h
  · cases h
    exact ⟨rfl, rfl, fun _ _ => rfl⟩
  · split at h
    · cases h
    · split at h
      · cases h
        exact ⟨rfl, rfl, fun _ _ => rfl⟩
      · split at h
        · cases h
        · dsimp only at h
          split at h
          · cases h
          · cases h
            refine ⟨rfl, rfl, fun k' hne => ?_⟩
            have harchived : (s.archiveActive now k).active? k' = s.active? k' := SessionDb.archiveActive_active? hne.symm
            rw [← harchived]
            refine SessionDb.active?_map hne.symm fun r => ?_
            split
            · next hr => exact .inr ⟨hr.1, hr.1⟩
            · exact .inl rfl

theorem uncertainTurns_ok {rows : List (Row TurnRow)} (h : uncertainTurns s = .ok (rows, s')) :
    s' = s ∧ rows = s.db.turns.rows.filter (·.val.live) := by
  unfold uncertainTurns at h
  dsimp only at h
  split at h
  · cases h
  · cases h
    exact ⟨rfl, rfl⟩

theorem commitThreadAdoption_ok {a : Adoption} (h : commitThreadAdoption now a fits s = .ok (u, s')) :
    s'.db = s.db ∧ (∀ k, k ≠ a.scopeKey → s'.scopeRow? k = s.scopeRow? k) ∧
      ∀ k, k ≠ a.scopeKey → s'.active? k = s.active? k := by
  unfold commitThreadAdoption at h
  split at h
  · cases h
  split at h
  · cases h
  split at h
  · cases h
  split at h
  · cases h
  split at h
  · cases h
  cases h
  refine ⟨rfl, fun k hne => SessionDb.scopeRow?_map hne.symm overwrite_elsewhere, fun k hne => ?_⟩
  have harchived : (s.archiveActive now a.scopeKey).active? k = s.active? k := SessionDb.archiveActive_active? hne.symm
  rw [← harchived]
  unfold SessionDb.active?
  dsimp only
  split
  · refine SessionDb.active?_map hne.symm fun r => ?_
    split
    · next hr => exact .inr ⟨hr.1, rfl⟩
    · exact .inl rfl
  · have hrow : (a.row now).scopeKey ≠ k := hne.symm
    exact SessionDb.active?_append hrow

theorem finishThreadAdoptionRelease_ok {generation : ℕ}
    (h : finishThreadAdoptionRelease now k thread generation fits s = .ok (u, s')) :
    s'.db = s.db ∧ s'.scopes = s.scopes ∧ (∀ k', k' ≠ k → s'.active? k' = s.active? k') ∧ s'.active? k = none ∧
      ∃ row, s.active? k = some row ∧ row.origin = .externallyAdopted := by
  unfold finishThreadAdoptionRelease at h
  dsimp only at h
  split at h
  · cases h
  · next howned =>
    cases h
    rw [not_or, Bool.not_eq_false, Bool.not_eq_false, Option.any_eq_true] at howned
    obtain ⟨-, row, hrow, howned⟩ := howned
    exact ⟨rfl, rfl, fun k' hne => SessionDb.archiveActive_active? hne.symm, SessionDb.archiveActive_active?_self, row, hrow,
      (of_decide_eq_true howned).2.2⟩

/-- What a request leaves as it is. -/
structure Elsewhere (q : StoreRequest) (s s' : SessionDb) : Prop where
  scope : ∀ k, q.writesScope ≠ some k → s'.scopeRow? k = s.scopeRow? k
  active : ∀ k, q.writesThreads ≠ some k → s'.active? k = s.active? k
  inbox : q.writesInbox = false → s'.db = s.db

theorem job_elsewhere {a : q.Value} (h : q.job C I now s = .ok (a, s')) : Elsewhere q s s' := by
  cases q with
  | scopeRow k | activeThread k =>
    cases h
    exact ⟨fun _ _ => rfl, fun _ _ => rfl, fun _ => rfl⟩
  | upsertScope k cwd fingerprint =>
    obtain ⟨hdb, hthreads, hscope, -⟩ := upsertScope_ok h
    refine ⟨fun k' hne => hscope k' fun heq => hne (congrArg some heq.symm), fun k' _ => ?_, fun _ => hdb⟩
    rw [SessionDb.active?, hthreads, SessionDb.active?]
  | archiveActiveThread k =>
    obtain ⟨hdb, hscopes, hactive⟩ := archiveActiveThread_ok h
    refine ⟨fun k' _ => ?_, fun k' hne => hactive k' fun heq => hne (congrArg some heq.symm), fun _ => hdb⟩
    rw [SessionDb.scopeRow?, hscopes, SessionDb.scopeRow?]
  | recordActiveThread k thread =>
    obtain ⟨hdb, hscopes, -, hactive⟩ := recordActiveThread_ok h
    refine ⟨fun k' _ => ?_, fun k' hne => hactive k' fun heq => hne (congrArg some heq.symm), fun _ => hdb⟩
    rw [SessionDb.scopeRow?, hscopes, SessionDb.scopeRow?]
  | reactivateArchivedThread k thread =>
    obtain ⟨hdb, hscopes, hactive⟩ := reactivateArchivedThread_ok h
    refine ⟨fun k' _ => ?_, fun k' hne => hactive k' fun heq => hne (congrArg some heq.symm), fun _ => hdb⟩
    rw [SessionDb.scopeRow?, hscopes, SessionDb.scopeRow?]
  | uncertainTurns =>
    obtain ⟨rfl, -⟩ := uncertainTurns_ok h
    exact ⟨fun _ _ => rfl, fun _ _ => rfl, fun _ => rfl⟩
  | interruptTurn id | rejectReceivedAndEnqueueNotice key reason notice =>
    obtain ⟨db, -, rfl⟩ := onDb_ok h
    exact ⟨fun _ _ => rfl, fun _ _ => rfl, nofun⟩
  | commitThreadAdoption a fits =>
    obtain ⟨hdb, hscope, hactive⟩ := commitThreadAdoption_ok h
    exact ⟨fun k' hne => hscope k' fun heq => hne (congrArg some heq.symm),
      fun k' hne => hactive k' fun heq => hne (congrArg some heq.symm), fun _ => hdb⟩
  | finishThreadAdoptionRelease k thread generation fits =>
    obtain ⟨hdb, hscopes, hactive, -⟩ := finishThreadAdoptionRelease_ok h
    refine ⟨fun k' _ => ?_, fun k' hne => hactive k' fun heq => hne (congrArg some heq.symm), fun _ => hdb⟩
    rw [SessionDb.scopeRow?, hscopes, SessionDb.scopeRow?]

end

/-! ## Rejections -/

/-- Turns stay as they are, and so do the inbound rows but one. -/
structure OnlyRow (key : String × String) (db db' : Db) : Prop where
  turns : db'.turns = db.turns
  rows : ∀ r : InboundRow, r.key ≠ key → ((∃ q ∈ db'.inbound.rows, q.val = r) ↔ ∃ q ∈ db.inbound.rows, q.val = r)

namespace OnlyRow

variable {key : String × String} {db db' db'' : Db}

theorem refl (db : Db) : OnlyRow key db db := ⟨rfl, fun _ _ => Iff.rfl⟩

theorem trans (h : OnlyRow key db db') (h' : OnlyRow key db' db'') : OnlyRow key db db'' :=
  ⟨h'.turns.trans h.turns, fun r hr => (h'.rows r hr).trans (h.rows r hr)⟩

/-- An update of the row of the key. -/
theorem of_maps {inbound : InboundTable} {g : InboundRow → InboundRow} (hg : ∀ r, (g r).key = r.key)
    (h : Table.Maps (rewrite (·.key = key) g) db.inbound inbound) : OnlyRow key db { db with inbound := inbound } := by
  refine ⟨rfl, fun r hr => ⟨?_, ?_⟩⟩
  · rintro ⟨q, hq, rfl⟩
    obtain ⟨p, hp, rfl⟩ := h.mem.1 hq
    unfold rewrite at hr ⊢
    split
    · next hkey =>
      rw [if_pos hkey, hg] at hr
      exact absurd hkey hr
    · exact ⟨p, hp, rfl⟩
  · rintro ⟨q, hq, rfl⟩
    exact ⟨_, h.mem.2 ⟨q, hq, rfl⟩, if_neg hr⟩

end OnlyRow

variable {db db' : Db} {reply : NewOutboxRow}

theorem enqueueReply_onlyRow {C : Codec} {key : String × String} (h : db.enqueueReply C now reply = .ok db') :
    OnlyRow key db db' := by
  obtain ⟨outbox, rfl⟩ := enqueueReply_ok h
  exact ⟨rfl, fun _ _ => Iff.rfl⟩

variable {key : InboundKey} {reason : InboundRejectionKind} {d : InboundDisposition}

theorem recordInboundReplyEffect_onlyRow {idempotencyKey : String}
    (h : recordInboundReplyEffect now key idempotencyKey db = .ok db') : OnlyRow key.key db db' := by
  unfold recordInboundReplyEffect at h
  split at h
  · cases h
  · obtain ⟨r, -, -, hkey, inbound, rfl, hm⟩ := updateOne_row key.key h (by simp; tauto)
    rw [hkey] at hm
    exact .of_maps (fun r => show (r.mark now idempotencyKey).key = r.key from rfl) hm

theorem rejectReceivedInTransaction_onlyRow {I : InboundCodec}
    (h : rejectReceivedInTransaction I now key reason db = .ok (d, db')) :
    OnlyRow key.key db db' := by
  obtain ⟨r, -, hkey, ⟨-, rfl⟩ | ⟨-, inbound, rfl, hm⟩⟩ := rejectReceived_cases h
  · exact .refl _
  · rw [hkey] at hm
    exact .of_maps (fun r => show (r.finish now .rejected (some reason.asStr)).key = r.key from rfl) hm

/-- **A rejection with its notice** changes no turn and no other inbound row. -/
theorem rejectReceivedAndEnqueueNotice_onlyRow {C : Codec} {I : InboundCodec} {notice : NewOutboxRow}
    (h : rejectReceivedAndEnqueueNotice C I now key reason notice db = .ok (d, db')) : OnlyRow key.key db db' := by
  obtain ⟨r, -, hkey, -, ⟨-, rfl⟩ | ⟨-, -, db₁, he, hrecord⟩ | ⟨-, -, outbox, inbound, he, hm, hrecord⟩⟩ :=
    rejectWithNotice_cases h
  · exact .refl _
  · exact (enqueueReply_onlyRow he).trans (recordInboundReplyEffect_onlyRow hrecord)
  · rw [hkey] at hm
    have hreject : OnlyRow key.key { db with outbox := outbox } { db with outbox := outbox, inbound := inbound } :=
      .of_maps (fun r => show (r.finish now .rejected (some reason.asStr)).key = r.key from rfl) hm
    exact ((enqueueReply_onlyRow he).trans hreject).trans (recordInboundReplyEffect_onlyRow hrecord)

end LarkCodexBridge.Runtime
