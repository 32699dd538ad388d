import LarkCodexBridge.Lib.Run
import LarkCodexBridge.Runtime.AttachmentFiles

/-!
# The attachment cache

`AttachmentCache` with everything that can be under way at once: fetches, eviction and reconciliation passes, the
detached tasks that commit leases, the blocking job that holds the cache lock and the queue of the store writer. A step
is what happens between two awaits, one operation of the blocking job, one request of the writer, a cancelled token,
a future dropped at its await, or a crash.

* `Fetch`, `Sweep`: a call outside the cache lock; `Holder`: the one call inside, with its local state;
* `Task`: the spawned half of `commit_lease`;
* `step`: one event; an event that is not enabled changes nothing.

A call is numbered by its caller, and the number of a fetch stands for the lease token it draws. The reply to a request
whose receiver was dropped goes to `nobody`.
-/

namespace LarkCodexBridge.Runtime.Attachments

open Lark Store Limits StepSystem

variable (P : Params)

/-! ## Calls -/

/-- What `fetch` returns; the path is the direct child of the root that `sha256` names. -/
structure CachedAttachment where
  sha256 : String
  kind : ResourceKind
  bytes : ℕ
  leaseToken : ℕ

def resourceKindStr : ResourceKind → String
  | .image => "image"
  | .file => "file"

/-- Where a fetch waits. `lost` is a fetch that a crash ended, or one that had been dropped with work left to the
store when the crash came. -/
inductive FetchPhase where
  | downloading
  | hashing
  | locking
  | inside
  | returned (result : Except AttachError CachedAttachment)
  | dropped
  | lost

/-- What a crash leaves of a fetch that the store has or has no more work of. -/
def FetchPhase.crashed (pending : Bool) : FetchPhase → FetchPhase
  | .returned result => .returned result
  | .dropped => if pending then .lost else .dropped
  | .downloading | .hashing | .locking | .inside | .lost => .lost

structure Fetch where
  kind : ResourceKind
  turnRowId : ℕ
  /-- Whether it is a `fetch_cancellable`, and whether its token is cancelled. -/
  cancellable : Bool
  cancelled : Bool
  /-- The downloaded bytes. -/
  content : List UInt8
  phase : FetchPhase

def Fetch.isCancelled (f : Fetch) : Bool := f.cancellable && f.cancelled

/-- The request of `commit_lease` that stores row and lease. -/
def Fetch.putRequest (f : Fetch) (k : ℕ) : AttachmentRequest :=
  .putAttachmentAndLease k (P.sha256Hex f.content) f.content.length (resourceKindStr f.kind) f.turnRowId

/-- The task that `commit_lease` spawns. -/
inductive Task where
  | idle
  | ready
  | putting (reply : Option (Except StoreError ℕ))
  | releasing (token : ℕ) (reply : Option (Except StoreError Unit))
  | finished

/-- Where a fetch is that holds the cache lock. -/
inductive FetchStage where
  | installing (job : Install)
  | installed (result : Except AttachError Unit)
  | committing (reply : Option (Except StoreError ℕ))
  | verifying (token : ℕ) (job : Install)
  | verified (token : ℕ) (result : Except AttachError Unit)
  | releasing (replied : Bool)

/-- An eviction pass: the rows it has yet to look at, its accounts, and the reconciliation it is part of. -/
structure GcLoop where
  rows : List AttachmentRow
  files : ℕ
  totalBytes : ℕ
  stats : GcStats
  now : ℤ
  pass : Option ReconcileStats

/-- The rows that reconciliation has yet to drop. -/
structure Drops where
  shas : List String
  deleteAfterDrop : List String
  stats : ReconcileStats

/-- A request that a pass makes under the lock, with what it goes on with. -/
inductive SweepCall where
  | rows (candidates : ScanCandidates)
  | drop (sha : String) (left : Drops)
  | recheckDrop (sha : String) (left : Drops)
  | stale (stats : ReconcileStats)
  | gcRows (pass : Option ReconcileStats)
  | evict (row : AttachmentRow) (g : GcLoop)
  | recheck (row : AttachmentRow) (g : GcLoop)

/-- A blocking job of a pass. -/
inductive SweepJob where
  | apply (job : Apply)
  | removeCorrupt (sha : String) (left : Drops)
  | removeEvicted (row : AttachmentRow) (g : GcLoop)

/-- What a blocking job of a pass came back with. -/
inductive SweepDone where
  | applied (result : Except AttachError AppliedCandidates)
  | removedCorrupt (left : Drops) (result : Except AttachError Bool)
  | removedEvicted (row : AttachmentRow) (g : GcLoop) (result : Except AttachError Bool)

inductive SweepStage where
  | calling (call : SweepCall) (reply : Option (Except StoreError AttachmentAnswer))
  | running (job : SweepJob)
  | ran (done : SweepDone)

inductive SweepResult where
  | gc (stats : GcStats)
  | reconcile (stats : ReconcileStats)

/-- Where a pass waits; `locking` has the candidates of a reconciliation, and none for an eviction pass alone. -/
inductive Sweep where
  | waiting
  | snapshotting (reply : Option (Except StoreError AttachmentAnswer))
  | scanning (snapshot : List AttachmentRow) (candidates : ScanCandidates)
  | locking (candidates : Option ScanCandidates)
  | inside
  | returned (result : Except AttachError SweepResult)
  | dropped
  | lost

/-- The call that holds the cache lock; one that is not `alive` was dropped while its blocking job ran. -/
inductive Holder where
  | fetch (k : ℕ) (alive : Bool) (stage : FetchStage)
  | sweep (k : ℕ) (alive : Bool) (stage : SweepStage)

/-- Who reads the reply to a request. -/
inductive Waiter where
  | holder
  | task (k : ℕ)
  | snapshot (k : ℕ)
  | client
  | nobody
  deriving DecidableEq

/-- A request of the cache itself about the lease of the fetch `k`. -/
def Waiter.asksAbout (k : ℕ) : Waiter × AttachmentRequest → Bool
  | (.client, _) => false
  | (_, .putAttachmentAndLease token _ _ _ _) | (_, .releaseAttachmentLease token) => token = k
  | _ => false

/-- A request whose receiver was the holder of the lock and is dropped. -/
def Waiter.forget (e : Waiter × AttachmentRequest) : Waiter × AttachmentRequest :=
  if e.1 = .holder then (.nobody, e.2) else e

structure State where
  disk : Disk
  writer : Writer AttachmentDb
  queue : List (Waiter × AttachmentRequest)
  lock : Option Holder
  /-- The reconciliation that holds `reconcile_lock`. -/
  scanner : Option ℕ
  fetches : ℕ → Option Fetch
  sweeps : ℕ → Option Sweep
  tasks : ℕ → Task

/-- An empty cache with the turns of the store. -/
def State.initial (turns : ℕ → Option Bool) : State where
  disk := ⟨fun _ => none, [], 0⟩
  writer := ⟨⟨[], [], turns, []⟩, true⟩
  queue := []
  lock := none
  scanner := none
  fetches := fun _ => none
  sweeps := fun _ => none
  tasks := fun _ => .idle

namespace State

variable (s : State)

def setFetch (k : ℕ) (f : Fetch) : State := { s with fetches := Function.update s.fetches k (some f) }

def setSweep (k : ℕ) (w : Sweep) : State := { s with sweeps := Function.update s.sweeps k (some w) }

def setTask (k : ℕ) (t : Task) : State := { s with tasks := Function.update s.tasks k t }

/-- A request is admitted to the queue of the writer. -/
def admitted (w : Waiter) (r : AttachmentRequest) : State := { s with queue := s.queue ++ [(w, r)] }

/-- The receiver of the holder's reply is dropped. -/
def orphaned : State := { s with queue := s.queue.map Waiter.forget }

/-! ## Fetches -/

/-- A fetch outside the lock goes on, or returns. -/
def fetchTo (k : ℕ) (f : Fetch) (phase : FetchPhase) : State := s.setFetch k { f with phase := phase }

/-- A fetch returns; a guard it holds is dropped. -/
def returnFetch (k : ℕ) (f : Fetch) (result : Except AttachError CachedAttachment) : State :=
  { s.setFetch k { f with phase := .returned result } with lock := none }

/-- The download of a fetch ends; the token comes first. -/
def downloaded (k : ℕ) (result : Except AttachError (List UInt8)) : State :=
  match s.fetches k with
  | some f =>
    match f.phase with
    | .downloading =>
      if f.isCancelled then s.fetchTo k f (.returned (.error (.cancelled "downloading an attachment")))
      else
        match result with
        | .error e => s.fetchTo k f (.returned (.error e))
        | .ok bytes =>
          match P.limits.checkAttachmentBytes bytes.length with
          | .error e => s.fetchTo k f (.returned (.error e))
          | .ok () => s.fetchTo k { f with content := bytes } .hashing
    | _ => s
  | none => s

def hashed (k : ℕ) : State :=
  match s.fetches k with
  | some f =>
    match f.phase with
    | .hashing =>
      if f.isCancelled then s.fetchTo k f (.returned (.error (.cancelled "hashing a downloaded attachment")))
      else s.fetchTo k f .locking
    | _ => s
  | none => s

def lockFetch (k : ℕ) : State :=
  match s.lock, s.fetches k with
  | none, some f =>
    match f.phase with
    | .locking =>
      if f.isCancelled then s.fetchTo k f (.returned (.error (.cancelled "waiting to install an attachment")))
      else { s.fetchTo k f .inside with
        lock := some (.fetch k true (.installing (.first (P.sha256Hex f.content) f.content))) }
    | _ => s
  | _, _ => s

/-- The fetch inside the lock is polled; `room` is the answer of the writer's queue if it asks for a place. -/
def resumeFetch (k : ℕ) (f : Fetch) (stage : FetchStage) (room : Except StoreError Unit) : State :=
  match stage with
  | .installed (.error e) => s.returnFetch k f (.error e)
  | .installed (.ok ()) =>
    if f.isCancelled then s.returnFetch k f (.error (.cancelled "installing a downloaded attachment"))
    else if f.cancellable then
      { s.setTask k .ready with lock := some (.fetch k true (.committing none)) }
    else
      match room with
      | .error e => s.returnFetch k f (.error (.store "recording and leasing an attachment" e))
      | .ok () =>
        { s.admitted .holder (f.putRequest P k) with lock := some (.fetch k true (.committing none)) }
  | .committing (some (.error e)) => s.returnFetch k f (.error (.store "recording and leasing an attachment" e))
  | .committing (some (.ok token)) =>
    { s with lock := some (.fetch k true (.verifying token (.again (P.sha256Hex f.content) f.content))) }
  | .verified _ (.error e) => s.returnFetch k f (.error e)
  | .verified token (.ok ()) =>
    if f.isCancelled then
      match room with
      | .error _ => s.returnFetch k f (.error (.cancelled "verifying an installed attachment"))
      | .ok () =>
        { s.admitted .holder (.releaseAttachmentLease token) with lock := some (.fetch k true (.releasing false)) }
    else s.returnFetch k f (.ok ⟨P.sha256Hex f.content, f.kind, f.content.length, token⟩)
  | .releasing true => s.returnFetch k f (.error (.cancelled "verifying an installed attachment"))
  | .installing _ | .committing none | .verifying _ _ | .releasing false => s

/-- The spawned task is polled. Its result goes to the fetch that waits for it, if it still does. -/
def finishTask (k : ℕ) (result : Except StoreError ℕ) : State :=
  { s.setTask k .finished with
    lock := match s.lock with
      | some (.fetch k' true (.committing none)) =>
        if k' = k then some (.fetch k true (.committing (some result))) else s.lock
      | lock => lock }

def pollTask (k : ℕ) (room : Except StoreError Unit) : State :=
  match s.fetches k with
  | some f =>
    match s.tasks k with
    | .ready =>
      match room with
      | .error e => s.finishTask k (.error e)
      | .ok () => (s.setTask k (.putting none)).admitted (.task k) (f.putRequest P k)
    | .putting (some (.error e)) => s.finishTask k (.error e)
    | .putting (some (.ok token)) =>
      if f.isCancelled then
        match room with
        | .error e => s.finishTask k (.error e)
        | .ok () => (s.setTask k (.releasing token none)).admitted (.task k) (.releaseAttachmentLease token)
      else s.finishTask k (.ok token)
    | .releasing token (some (.ok ())) => s.finishTask k (.ok token)
    | .releasing _ (some (.error e)) => s.finishTask k (.error e)
    | _ => s
  | none => s

/-! ## Eviction and reconciliation -/

end State

def SweepCall.request : SweepCall → AttachmentRequest
  | .rows _ | .gcRows _ => .listAttachments
  | .drop sha _ => .deleteAttachmentForce sha
  | .recheckDrop sha _ => .attachmentRow sha
  | .stale _ => .deleteStaleAttachmentLeases
  | .evict row _ => .deleteAttachment row.sha256
  | .recheck row _ => .attachmentRow row.sha256

def SweepCall.context : SweepCall → String
  | .rows _ => "listing attachments for reconciliation"
  | .gcRows _ => "listing attachments for gc"
  | .drop _ _ => "dropping a dangling attachment row"
  | .recheckDrop _ _ => "re-checking a corrupt attachment before unlink"
  | .stale _ => "deleting stale attachment leases"
  | .evict _ _ => "deleting an attachment during gc"
  | .recheck _ _ => "re-checking an attachment before unlink"

/-- The first request of a pass under the lock. -/
def SweepCall.first : Option ScanCandidates → SweepCall
  | some candidates => .rows candidates
  | none => .gcRows none

/-- What a pass does next. -/
inductive SweepNext where
  | call (call : SweepCall)
  | run (job : SweepJob)
  | finish (result : Except AttachError SweepResult)

/-- The loop of `gc_inner` up to its next request. -/
def GcLoop.seek (g : GcLoop) : List AttachmentRow → GcStats → SweepNext
  | [], stats => finish stats
  | row :: rest, stats =>
    if P.limits.gcBatch ≤ stats.inspected then finish stats
    else
      let stats := { stats with inspected := stats.inspected + 1 }
      if P.limits.gcAgeMs ≤ g.now - row.lastUsedMs ∨
          P.limits.maxCacheFiles < g.files ∨ P.limits.maxCacheBytes < g.totalBytes then
        .call (.evict row { g with rows := rest, stats := stats })
      else seek g rest stats
where
  finish (stats : GcStats) : SweepNext :=
    .finish (.ok (match g.pass with
      | none => .gc stats
      | some pass => .reconcile { pass with gc := stats }))

def GcLoop.next (g : GcLoop) : SweepNext := g.seek P g.rows g.stats

/-- A row is gone with its file. -/
def GcLoop.evicted (g : GcLoop) (row : AttachmentRow) : GcLoop :=
  { g with
    files := g.files - 1, totalBytes := g.totalBytes - row.bytes
    stats := { g.stats with evicted := g.stats.evicted + 1, freedBytes := g.stats.freedBytes + row.bytes } }

/-- The loop over `drop_rows`. -/
def Drops.next (left : Drops) : SweepNext :=
  match left.shas with
  | [] => .call (.stale left.stats)
  | sha :: rest => .call (.drop sha { left with shas := rest })

/-- What a pass does with the reply to its request, at the time `now`. -/
def SweepCall.answered (now : ℤ) (call : SweepCall) : Except StoreError AttachmentAnswer → SweepNext
  | .error e => .finish (.error (.store call.context e))
  | .ok answer =>
    match call with
    | .rows c =>
      .run (.apply ⟨c.temp, c.orphan, c.corrupt, answer.rows, 0,
        { scannedEntries := c.scannedEntries, errors := c.errors, completedCycle := c.completedCycle }⟩)
    | .drop sha left =>
      let left := if answer.changed then
        { left with stats := { left.stats with droppedRows := left.stats.droppedRows + 1 } } else left
      if sha ∈ left.deleteAfterDrop then .call (.recheckDrop sha left) else left.next
    | .recheckDrop sha left => if answer.row.isNone then .run (.removeCorrupt sha left) else left.next
    | .stale stats => .call (.gcRows (some { stats with staleLeases := answer.count }))
    | .gcRows pass =>
      GcLoop.next P ⟨answer.rows, answer.rows.length, (answer.rows.map (·.bytes)).sum, {}, now, pass⟩
    | .evict row g =>
      if !answer.changed then
        GcLoop.next P { g with stats := { g.stats with skippedLeased := g.stats.skippedLeased + 1 } }
      else if isValidSha256Name row.sha256 then .call (.recheck row g)
      else (g.evicted row).next P
    | .recheck row g => if answer.row.isSome then g.next P else .run (.removeEvicted row g)

/-- What a pass does with the outcome of a blocking job. -/
def SweepDone.resumed : SweepDone → SweepNext
  | .applied (.error e) | .removedCorrupt _ (.error e) | .removedEvicted _ _ (.error e) => .finish (.error e)
  | .applied (.ok found) => Drops.next ⟨found.dropRows, found.deleteAfterDrop, found.stats⟩
  | .removedCorrupt left (.ok removed) =>
    Drops.next (if removed then
      { left with stats := { left.stats with corruptFiles := left.stats.corruptFiles + 1 } } else left)
  | .removedEvicted row g (.ok _) => (g.evicted row).next P

namespace State

variable (s : State)

/-- A pass returns: its guards are dropped. -/
def endSweep (k : ℕ) (w : Sweep) : State :=
  { s.setSweep k w with scanner := if s.scanner = some k then none else s.scanner }

/-- The pass inside the lock goes on. -/
def advance (k : ℕ) (next : SweepNext) (room : Except StoreError Unit) : State :=
  match next with
  | .finish result => { s.endSweep k (.returned result) with lock := none }
  | .run job => { s with lock := some (.sweep k true (.running job)) }
  | .call call =>
    match room with
    | .error e => { s.endSweep k (.returned (.error (.store call.context e))) with lock := none }
    | .ok () => { s.admitted .holder call.request with lock := some (.sweep k true (.calling call none)) }

/-- A reconciliation gets `reconcile_lock`. -/
def enterReconcile (k : ℕ) (room : Except StoreError Unit) : State :=
  match s.scanner, s.sweeps k with
  | none, some .waiting =>
    match room with
    | .error e => s.setSweep k (.returned (.error (.store "listing attachments for reconciliation" e)))
    | .ok () => { (s.setSweep k (.snapshotting none)).admitted (.snapshot k) .listAttachments with scanner := some k }
  | _, _ => s

/-- A pass is polled outside the lock: its snapshot is there. -/
def resumeSnapshot (k : ℕ) : State :=
  match s.sweeps k with
  | some (.snapshotting (some (.error e))) =>
    s.endSweep k (.returned (.error (.store "listing attachments for reconciliation" e)))
  | some (.snapshotting (some (.ok answer))) => s.setSweep k (.scanning answer.rows {})
  | _ => s

/-- The scan reads one entry, within its batch. -/
def scanned (k : ℕ) (entry : Entry) : State :=
  match s.sweeps k with
  | some (.scanning snapshot c) =>
    if c.scannedEntries < P.limits.reconcileBatch then
      s.setSweep k (.scanning snapshot (c.scan snapshot s.disk entry))
    else s
  | _ => s

/-- The scan ends, or the directory cannot be read. -/
def scanEnded (k : ℕ) (result : Except Unit Bool) : State :=
  match s.sweeps k with
  | some (.scanning _ c) =>
    match result with
    | .error () => s.endSweep k (.returned (.error (.io "reading the cache directory")))
    | .ok exhausted => s.setSweep k (.locking (some { c with completedCycle := exhausted }))
  | _ => s

/-- A pass gets the cache lock and makes its first request under it. -/
def lockSweep (k : ℕ) (room : Except StoreError Unit) : State :=
  match s.lock, s.sweeps k with
  | none, some (.locking candidates) => (s.setSweep k .inside).advance k (.call (.first candidates)) room
  | _, _ => s

/-! ## Blocking jobs -/

/-- The job is done: its guard goes back to the caller, or is dropped with nobody to take it. -/
def Holder.after (alive : Bool) (holder : Holder) : Option Holder := if alive then some holder else none

def SweepJob.work (d : Disk) (fault : Bool) : SweepJob → Disk × (SweepJob ⊕ SweepDone)
  | .apply job =>
    match job.work P.limits.reconcileBatch d fault with
    | (d, .inl job) => (d, .inl (.apply job))
    | (d, .inr result) => (d, .inr (.applied result))
  | .removeCorrupt sha left =>
    let (d, result) := removeFile d sha fault "removing a corrupt cached file"
    (d, .inr (.removedCorrupt left result))
  | .removeEvicted row g =>
    let (d, result) := removeFile d row.sha256 fault "removing an evicted cached file"
    (d, .inr (.removedEvicted row g result))

/-- The next operation of the blocking job that holds the lock. -/
def work (fault : Bool) : State :=
  match s.lock with
  | some (.fetch k alive (.installing job)) =>
    match job.work P s.disk fault with
    | (d, .inl job) => { s with disk := d, lock := some (.fetch k alive (.installing job)) }
    | (d, .inr result) => { s with disk := d, lock := Holder.after alive (.fetch k alive (.installed result)) }
  | some (.fetch k alive (.verifying token job)) =>
    match job.work P s.disk fault with
    | (d, .inl job) => { s with disk := d, lock := some (.fetch k alive (.verifying token job)) }
    | (d, .inr result) => { s with disk := d, lock := Holder.after alive (.fetch k alive (.verified token result)) }
  | some (.sweep k alive (.running job)) =>
    match SweepJob.work P s.disk fault job with
    | (d, .inl job) => { s with disk := d, lock := some (.sweep k alive (.running job)) }
    | (d, .inr done) => { s with disk := d, lock := Holder.after alive (.sweep k alive (.ran done)) }
  | _ => s

/-! ## The store writer -/

/-- The reply to a request reaches the one who waits for it. -/
def deliver (w : Waiter) (answer : Except StoreError AttachmentAnswer) : State :=
  match w with
  | .holder =>
    { s with lock := match s.lock with
      | some (.fetch k true (.committing none)) =>
        some (.fetch k true (.committing (some (answer.map (·.token)))))
      | some (.fetch k true (.releasing false)) => some (.fetch k true (.releasing true))
      | some (.sweep k true (.calling call none)) => some (.sweep k true (.calling call (some answer)))
      | lock => lock }
  | .task k =>
    match s.tasks k with
    | .putting none => s.setTask k (.putting (some (answer.map (·.token))))
    | .releasing token none => s.setTask k (.releasing token (some (answer.map fun _ => ())))
    | _ => s
  | .snapshot k =>
    match s.sweeps k with
    | some (.snapshotting none) => s.setSweep k (.snapshotting (some answer))
    | _ => s
  | .client | .nobody => s

/-- The writer takes the next request. -/
def serve (fate : Fate) (now : ℤ) : State :=
  match s.queue with
  | [] => s
  | (w, r) :: rest =>
    let (answer, writer) := s.writer.runSized fate (r.job now)
    { s with writer := writer, queue := rest }.deliver w answer

/-! ## Cancellation, drops and crashes -/

/-- A fetch that still runs. -/
def liveFetch (k : ℕ) : Option Fetch :=
  match s.fetches k with
  | some f =>
    match f.phase with
    | .returned _ | .dropped | .lost => none
    | _ => some f
  | none => none

/-- A pass that still runs. -/
def liveSweep (k : ℕ) : Bool :=
  match s.sweeps k with
  | some (.returned _) | some .dropped | some .lost | none => false
  | _ => true

/-- The guard of a dropped call: a blocking job keeps it. -/
def abandon : State :=
  match s.lock with
  | some (.fetch k _ (.installing job)) => { s with lock := some (.fetch k false (.installing job)) }
  | some (.fetch k _ (.verifying token job)) => { s with lock := some (.fetch k false (.verifying token job)) }
  | some (.sweep k _ (.running job)) => { s with lock := some (.sweep k false (.running job)) }
  | _ => { s.orphaned with lock := none }

/-- Whether the lock is with this fetch, and whether it is with this pass. -/
def holdsFetch (k : ℕ) : Bool :=
  match s.lock with
  | some (.fetch k' true _) => k' = k
  | _ => false

def holdsSweep (k : ℕ) : Bool :=
  match s.lock with
  | some (.sweep k' true _) => k' = k
  | _ => false

def dropFetch (k : ℕ) : State :=
  match s.liveFetch k with
  | some f => (if s.holdsFetch k then s.abandon else s).fetchTo k f .dropped
  | none => s

/-- The future of a pass is dropped. -/
def dropSweep (k : ℕ) : State :=
  if s.liveSweep k then (if s.holdsSweep k then s.abandon else s).endSweep k .dropped else s

/-- Whether the store still has work of this fetch: its task is not done or its release is queued. -/
def pending (k : ℕ) : Bool :=
  (match s.tasks k with
    | .idle | .finished => false
    | _ => true) ||
  s.queue.any (Waiter.asksAbout k)

/-- The process dies and a new one opens the store and the directory. -/
def crash : State :=
  { s with
    writer := { s.writer with alive := true }
    queue := []
    lock := none
    scanner := none
    fetches := fun k => (s.fetches k).map fun f => { f with phase := f.phase.crashed (s.pending k) }
    sweeps := fun k => (s.sweeps k).map fun w =>
      match w with
      | .returned result => .returned result
      | .dropped => .dropped
      | _ => .lost
    tasks := fun _ => .idle }

end State

/-! ## Events -/

inductive Event where
  /-- A call of `fetch`, or of `fetch_cancellable` with a token. -/
  | fetch (k : ℕ) (key : String) (kind : ResourceKind) (turnRowId : ℕ) (cancellable : Bool)
  | downloaded (k : ℕ) (result : Except AttachError (List UInt8))
  | hashed (k : ℕ)
  | lockFetch (k : ℕ)
  | cancel (k : ℕ)
  | dropFetch (k : ℕ)
  | pollTask (k : ℕ) (room : Except StoreError Unit)
  | gc (k : ℕ)
  | reconcile (k : ℕ)
  | enterReconcile (k : ℕ) (room : Except StoreError Unit)
  | resumeSnapshot (k : ℕ)
  | scanned (k : ℕ) (entry : Entry)
  | scanEnded (k : ℕ) (result : Except Unit Bool)
  | lockSweep (k : ℕ) (room : Except StoreError Unit)
  | dropSweep (k : ℕ)
  /-- The holder of the lock is polled. -/
  | resume (room : Except StoreError Unit) (now : ℤ)
  | work (fault : Bool)
  | serve (fate : Fate) (now : ℤ)
  | releaseLease (token : ℕ)
  | releaseTurn (turnRowId : ℕ)
  /-- Other jobs of the store: a turn begins, a turn is over. -/
  | openTurn (turnRowId : ℕ)
  | resolveTurn (turnRowId : ℕ)
  | crash

open State in
def step (s : State) : Event → State
  | .fetch k key kind turnRowId cancellable =>
    if (s.fetches k).isSome then s
    else
      s.setFetch k ⟨kind, turnRowId, cancellable, false, [],
        match P.limits.checkResourceKey key with
        | .ok () => .downloading
        | .error e => .returned (.error e)⟩
  | .downloaded k result => s.downloaded P k result
  | .hashed k => s.hashed k
  | .lockFetch k => s.lockFetch P k
  | .cancel k =>
    match s.fetches k with
    | some f => s.setFetch k { f with cancelled := true }
    | none => s
  | .dropFetch k => s.dropFetch k
  | .pollTask k room => s.pollTask P k room
  | .gc k => if (s.sweeps k).isSome then s else s.setSweep k (.locking none)
  | .reconcile k => if (s.sweeps k).isSome then s else s.setSweep k .waiting
  | .enterReconcile k room => s.enterReconcile k room
  | .resumeSnapshot k => s.resumeSnapshot k
  | .scanned k entry => s.scanned P k entry
  | .scanEnded k result => s.scanEnded k result
  | .lockSweep k room => s.lockSweep k room
  | .dropSweep k => s.dropSweep k
  | .resume room now =>
    match s.lock with
    | some (.fetch k true stage) =>
      match s.fetches k with
      | some f => s.resumeFetch P k f stage room
      | none => s
    | some (.sweep k true (.calling call (some answer))) => s.advance k (call.answered P now answer) room
    | some (.sweep k true (.ran done)) => s.advance k (done.resumed P) room
    | _ => s
  | .work fault => s.work P fault
  | .serve fate now => s.serve fate now
  | .releaseLease token => s.admitted .client (.releaseAttachmentLease token)
  | .releaseTurn turnRowId => s.admitted .client (.releaseTurnAttachmentLeases turnRowId)
  | .openTurn turnRowId =>
    if (s.writer.db.turns turnRowId).isSome then s
    else { s with writer.db.turns := Function.update s.writer.db.turns turnRowId (some false) }
  | .resolveTurn turnRowId =>
    if (s.writer.db.turns turnRowId).isNone then s
    else { s with writer.db.turns := Function.update s.writer.db.turns turnRowId (some true) }
  | .crash => s.crash

/-- The state after the events `es`. -/
def after (turns : ℕ → Option Bool) (es : List Event) : State := exec (step P) (.initial turns) es

end LarkCodexBridge.Runtime.Attachments
