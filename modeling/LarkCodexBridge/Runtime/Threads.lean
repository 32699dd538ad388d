import LarkCodexBridge.Lib.Program
import LarkCodexBridge.Runtime.Sessions

/-!
# Preparing a thread

Before a batch becomes a turn, its scope needs a workspace and a Codex thread: the active thread of the scope is resumed, or a
new one is started. The functions are programs over requests to the store, to the policy and to the app server; their specs say
what they ask after what they were answered.

* `ensureThread`, `abandonUnusableBridgeThread`, `prepareBatch`: the functions of the scope actor;
* `Batch.Allows`: what a batch may ask after a history;
* `prepareBatch_meets`: it asks nothing else.
-/

namespace LarkCodexBridge.Runtime

open Limits SqlTable Lark Store Outbox AskReply

/-! ## Errors of the client -/

inductive RpcError where
  | timeout (method : String)
  | server (method : String) (code : ℤ)
  /-- `thread/resume` was rejected because another app server owns the writer. -/
  | threadResumeActiveWriter
  | connectionLost (epoch : ℕ)
  | alreadyInitialized
  | serialize (method : String)
  | deserialize (method : String)
  | payloadTooLarge (method : String)
  | unknownServerRequest
  | requestIdExhausted
  deriving DecidableEq

inductive ClientError where
  | rpc (error : RpcError)
  | routerClosed (epoch : ℕ)
  | routerTaskFailed (epoch : ℕ)
  | routerTimeout (epoch : ℕ)
  | capacity
  | controlEventsTaken
  | confirmedThreadUntracked (method thread : String)
  | confirmedTurnUntracked (turn : String)
  | invalidNotification (method : String)
  deriving DecidableEq

def RpcError.definitelyNotApplied : RpcError → Bool
  | .serialize _ | .payloadTooLarge _ | .requestIdExhausted | .server _ _ | .threadResumeActiveWriter => true
  | _ => false

namespace ClientError

def turnStartDefinitelyNotApplied : ClientError → Bool
  | .rpc error => error.definitelyNotApplied
  | .routerClosed _ | .routerTaskFailed _ | .routerTimeout _ | .capacity | .controlEventsTaken | .invalidNotification _ => true
  | .confirmedThreadUntracked _ _ | .confirmedTurnUntracked _ => false

def routerGone : ClientError → Bool
  | .routerClosed _ | .routerTaskFailed _ => true
  | _ => false

def threadFailureEndsEpoch (error : ClientError) : Bool := !error.turnStartDefinitelyNotApplied || error.routerGone

def resumeFailureIsMissingThread : ClientError → Bool
  | .rpc (.server method _) => method = "thread/resume"
  | _ => false

end ClientError

inductive ThreadPreparationError where
  | scope (kind : ScopeFailureKind)
  | client (error : ClientError)

/-- What an actor makes of the outcome of `ensure_thread`. -/
def threadAnswer : Except ThreadPreparationError String → ThreadAnswer
  | .ok thread => .ok thread
  | .error (.scope kind) => .scope kind
  | .error (.client error) => .client error.turnStartDefinitelyNotApplied error.routerGone

/-! ## Requests -/

/-- The settings that a thread is resumed or started with. -/
structure ThreadOverrides where
  cwd : String
  sandbox : SandboxMode
  approvalPolicy : ApprovalPolicy
  model : Option String
  deriving DecidableEq

def RouterSettings.overrides (settings : RouterSettings) (cwd : String) : ThreadOverrides :=
  ⟨cwd, settings.sandbox, settings.approvalPolicy, settings.model⟩

inductive Request where
  | store (q : StoreRequest)
  /-- `AccessPolicy::validate_workspace`. -/
  | validateWorkspace (path : String)
  /-- `AccessPolicy::fingerprint`. -/
  | fingerprint (cwd : String)
  /-- `wait_for_client`. -/
  | client
  | resumeThread (thread : String) (overrides : ThreadOverrides)
  | startThread (overrides : ThreadOverrides)
  | releaseThread (thread : String)
  /-- `DurableReplySink::rejection_notice`. -/
  | rejectionNotice (key : InboundKey) (reason : InboundRejectionKind)
  /-- The loop of `settle_preclaim_epoch_loss`. -/
  | epochLoss (epoch : ℕ)
  deriving DecidableEq

/-- How the loop of `settle_preclaim_epoch_loss` ends. -/
inductive EpochLoss where
  | terminal | restarted | stopped

/-- A client may be missing for good (`true`). -/
@[reducible] def Reply : Request → Type
  | .store q => Except StoreError q.Value
  | .validateWorkspace _ | .fingerprint _ => Option String
  | .client => Except Bool ℕ
  | .resumeThread _ _ | .startThread _ => Except ClientError String
  | .releaseThread _ => Unit
  | .rejectionNotice _ _ => Option NewOutboxRow
  | .epochLoss _ => EpochLoss

/-- A program of a scope actor that may fail. -/
abbrev Task (ε α : Type) := ExceptT ε (Program Reply) α

section

variable {ε α : Type}

/-- A request to the store, with the error to fail with. -/
def askStore (e : ε) (q : StoreRequest) : Task ε q.Value :=
  ExceptT.mk (.ask (.store q) fun r => .pure (Except.mapError (fun _ => e) r))

/-- A program whose errors are those of another one. -/
def failAs {δ : Type} (f : δ → ε) (t : Task δ α) : Task ε α := ExceptT.mk (Except.mapError f <$> t.run)

/-- A program that goes on after an error. -/
def attempt {δ : Type} (t : Task δ α) : Task ε (Except δ α) := ExceptT.mk (Except.ok <$> t.run)

/-- A reply is asked for, or the program fails. -/
def orFail (e : ε) : Option α → Task ε α
  | some a => pure a
  | none => throw e

/-- A request that cannot fail. -/
def asks (q : Request) : Task ε (Reply q) := ExceptT.mk (.ask q fun r => .pure (.ok r))

end

/-! ## The functions -/

def revalidateWorkspace (cwd fingerprint : String) : Task ScopeFailureKind String := do
  let canonical ← asks (.validateWorkspace cwd) >>= orFail .policy
  if canonical ≠ cwd then throw .policy
  else
    let current ← asks (.fingerprint canonical) >>= orFail .policy
    if current ≠ fingerprint then throw .policy else pure canonical

/-- `prepare_workspace`: the workspace, its fingerprint under the policy, and whether the stored one differs. -/
def prepareWorkspace (scope : String) (settings : RouterSettings) : Task ScopeFailureKind (String × String × Bool) := do
  match ← askStore .store (.scopeRow scope) with
  | some row =>
    let canonical ← asks (.validateWorkspace row.cwd) >>= orFail .policy
    if canonical ≠ row.cwd then throw .policy
    else
      let fingerprint ← asks (.fingerprint canonical) >>= orFail .policy
      pure (canonical, fingerprint, fingerprint ≠ row.policyFingerprint)
  | none =>
    let cwd ← orFail .policy settings.defaultWorkspace
    let canonical ← asks (.validateWorkspace cwd) >>= orFail .policy
    let fingerprint ← asks (.fingerprint canonical) >>= orFail .policy
    let () ← askStore .store (.upsertScope scope canonical fingerprint)
    pure (canonical, fingerprint, false)

/-- A live turn of this thread. -/
def isTurnOf (scope thread : String) (t : TurnRow) : Bool :=
  t.scopeKey = scope ∧ t.codexThreadId = some thread ∧ (t.state = .starting ∨ t.state = .running ∨ t.state = .uncertain)

/-- The loop of `abandon_unusable_bridge_thread`. -/
def interruptTurns (scope thread : String) : List (Row TurnRow) → Task ThreadPreparationError Unit
  | [] => pure ()
  | t :: live => do
    if isTurnOf scope thread t.val then
      let _ ← askStore (.scope .store) (.interruptTurn t.id)
      interruptTurns scope thread live
    else interruptTurns scope thread live

def abandonUnusableBridgeThread (scope thread : String) : Task ThreadPreparationError Unit := do
  let live ← askStore (.scope .store) .uncertainTurns
  interruptTurns scope thread live
  let _ ← askStore (.scope .store) (.archiveActiveThread scope)
  pure ()

/-- What `ensure_thread` works with. -/
structure Workspace where
  scope : String
  settings : RouterSettings
  cwd : String
  fingerprint : String
  policyChanged : Bool

/-- The stored fingerprint follows the policy. -/
def Workspace.commitFingerprint (w : Workspace) : Task ThreadPreparationError Unit :=
  if w.policyChanged then askStore (.scope .store) (.upsertScope w.scope w.cwd w.fingerprint) else pure ()

/-- `ensure_thread` from `thread/start` on. -/
def Workspace.startThread (w : Workspace) : Task ThreadPreparationError String := do
  let cwd ← failAs .scope (revalidateWorkspace w.cwd w.fingerprint)
  match ← asks (.startThread (w.settings.overrides cwd)) with
  | .error error => throw (.client error)
  | .ok thread =>
    let () ← askStore (.scope .store) (.recordActiveThread w.scope thread)
    w.commitFingerprint
    pure thread

/-- The active thread is resumed, or replaced if it is missing. -/
def Workspace.resumeThread (w : Workspace) (active : ThreadRow) : Task ThreadPreparationError String := do
  let cwd ← failAs .scope (revalidateWorkspace w.cwd w.fingerprint)
  match ← asks (.resumeThread active.codexThreadId (w.settings.overrides cwd)) with
  | .ok thread =>
    w.commitFingerprint
    pure thread
  | .error error =>
    if active.origin = .bridgeCreated ∧ error.resumeFailureIsMissingThread then
      abandonUnusableBridgeThread w.scope active.codexThreadId
      w.startThread
    else throw (.client error)

def ensureThread (w : Workspace) : Task ThreadPreparationError String := do
  match ← askStore (.scope .store) (.activeThread w.scope) with
  | some active =>
    if active.contextToolsVersion ≤ 1 then w.resumeThread active
    else
      let _ ← askStore (.scope .store) (.archiveActiveThread w.scope)
      asks (.releaseThread active.codexThreadId)
      w.startThread
  | none => w.startThread

/-- The messages of a batch are rejected one after the other. -/
def rejectItems (reason : InboundRejectionKind) : List InboundKey → Task ScopeFailureKind Unit
  | [] => pure ()
  | key :: items => do
    let notice ← asks (.rejectionNotice key reason) >>= orFail .projection
    let _ ← askStore .store (.rejectReceivedAndEnqueueNotice key reason notice)
    rejectItems reason items

def settlePreclaimEpochLoss (epoch : ℕ) (items : List InboundKey) : Task ScopeFailureKind Unit := do
  match ← asks (.epochLoss epoch) with
  | .terminal => rejectItems .internal items
  | .restarted => throw .client
  | .stopped => throw .supervisor

/-- A batch that passed the eligibility loop of `process_batch`; `adopted` if it goes to an adopted thread. -/
structure Batch where
  scope : String
  items : List InboundKey
  settings : RouterSettings
  adopted : Bool
  deriving DecidableEq

/-- What becomes of a batch: it has a thread in an epoch, it goes to its adopted thread, or it is settled. -/
inductive Prepared where
  | thread (epoch : ℕ) (thread : String)
  | adopted
  | settled

/-- `process_batch` after `ensure_thread` failed. -/
def threadFailed (epoch : ℕ) (items : List InboundKey) : ThreadPreparationError → Task ScopeFailureKind Prepared
  | .client error =>
    if error.threadFailureEndsEpoch then do
      settlePreclaimEpochLoss epoch items
      pure .settled
    else if error.turnStartDefinitelyNotApplied then do
      rejectItems .internal items
      pure .settled
    else throw .client
  | .scope kind => throw kind

/-- `process_batch` from `prepare_workspace` to the thread. -/
def prepareBatch (b : Batch) : Task ScopeFailureKind Prepared := do
  match ← attempt (prepareWorkspace b.scope b.settings) with
  | .error .policy =>
    rejectItems .policy b.items
    pure .settled
  | .error kind => throw kind
  | .ok (cwd, fingerprint, policyChanged) =>
    if b.adopted then pure .adopted
    else
      match ← asks .client with
      | .error true =>
        rejectItems .internal b.items
        pure .settled
      | .error false => throw .supervisor
      | .ok epoch =>
        match ← attempt (ensureThread ⟨b.scope, b.settings, cwd, fingerprint, policyChanged⟩) with
        | .ok thread => pure (.thread epoch thread)
        | .error error => threadFailed epoch b.items error

/-! ## Commands -/

/-- The commands that change the thread or the workspace of a scope. -/
inductive ThreadCommand where
  | new
  | cd (path : String)
  | resume (selector : String)
  | adopt (adoption : Adoption) (fits : Bool)

/-- The active thread of the bridge is archived, whatever comes of it; `false` if the threads cannot be read. -/
def retireActiveThread (scope : String) : Task Unit Bool := do
  match ← attempt (askStore () (.activeThread scope)) with
  | .ok (some row) =>
    if row.origin = .externallyAdopted then pure true
    else
      let _ ← attempt (askStore () (.archiveActiveThread scope))
      pure true
  | .ok none => pure true
  | .error () => pure false

/-- `execute_new_control`, `execute_cd_control`, `execute_resume_control` and `execute_adopt_control`, as far as they write. -/
def ThreadCommand.run (scope : String) (settings : RouterSettings) : ThreadCommand → Task Unit Unit
  | .new => do
    let _ ← retireActiveThread scope
    pure ()
  | .cd path => do
    let canonical ← asks (.validateWorkspace path) >>= orFail ()
    let fingerprint ← asks (.fingerprint canonical) >>= orFail ()
    if ← retireActiveThread scope then askStore () (.upsertScope scope canonical fingerprint) else throw ()
  | .resume selector => do
    let _ ← askStore () (.reactivateArchivedThread scope selector)
    pure ()
  | .adopt adoption fits => do
    let _ ← failAs (fun _ => ()) (prepareWorkspace scope settings)
    askStore () (.commitThreadAdoption { adoption with scopeKey := scope } fits)

/-! ## Rules -/

open Program

section

variable {ε δ α β : Type} {G : History Reply → Request → Prop} {post : History Reply → Except ε β → Prop}
  {h : History Reply}

theorem meets_askStore {e : ε} {q : StoreRequest} {f : q.Value → Task ε β} (hq : G h (.store q))
    (hok : ∀ v, Meets G post (h ++ [⟨.store q, .ok v⟩]) (f v))
    (herror : ∀ x, post (h ++ [⟨.store q, .error x⟩]) (.error e)) : Meets G post h (askStore e q >>= f : Task ε β) := by
  refine meets_bindExcept.2 ⟨hq, fun r => ?_⟩
  change Except StoreError q.Value at r
  cases r with
  | ok v => exact hok v
  | error x => exact herror x

theorem meets_asks {q : Request} {f : Reply q → Task ε β} (hq : G h q) (hr : ∀ r, Meets G post (h ++ [⟨q, r⟩]) (f r)) :
    Meets G post h (asks q >>= f : Task ε β) :=
  meets_bindExcept.2 ⟨hq, hr⟩

variable {f : α → Task ε β}

theorem meets_orFail {e : ε} {o : Option α} (hsome : ∀ a, o = some a → Meets G post h (f a))
    (hnone : o = none → post h (.error e)) : Meets G post h (orFail e o >>= f : Task ε β) := by
  cases o with
  | some a => exact hsome a rfl
  | none => exact hnone rfl

theorem meets_asksOrFail {e : ε} {q : Request} {g : Reply q → Option α} (hq : G h q)
    (hsome : ∀ r a, g r = some a → Meets G post (h ++ [⟨q, r⟩]) (f a))
    (hnone : ∀ r, g r = none → post (h ++ [⟨q, r⟩]) (.error e)) :
    Meets G post h ((asks q >>= fun r => orFail e (g r)) >>= f : Task ε β) := by
  refine meets_bindExcept.2 (meets_asks hq fun r => ?_)
  have hbind := meets_orFail (f := f) (hsome r) (hnone r)
  exact meets_bindExcept.1 hbind

theorem meets_failAs {g : δ → ε} {t : Task δ α}
    (ht : Meets G (fun h r => match r with | .ok a => Meets G post h (f a) | .error e => post h (.error (g e))) h t) :
    Meets G post h (failAs g t >>= f : Task ε β) := by
  refine meets_bindExcept.2 (meets_map.2 (ht.mono fun h r hr => ?_))
  cases r with
  | ok a => exact hr
  | error e => exact hr

theorem meets_attempt {t : Task δ α} {f : Except δ α → Task ε β} (ht : Meets G (fun h r => Meets G post h (f r)) h t) :
    Meets G post h (attempt t >>= f : Task ε β) :=
  meets_bindExcept.2 (meets_map.2 ht)

theorem meets_attemptStore {e : δ} {q : StoreRequest} {f : Except δ q.Value → Task ε β} (hq : G h (.store q))
    (hr : ∀ r : Except StoreError q.Value, Meets G post (h ++ [⟨.store q, r⟩]) (f (r.mapError fun _ => e))) :
    Meets G post h (attempt (askStore e q) >>= f : Task ε β) :=
  meets_attempt ⟨hq, hr⟩

theorem meets_seq {t : Task ε α}
    (ht : Meets G (fun h r => match r with | .ok a => Meets G post h (f a) | .error e => post h (.error e)) h t) :
    Meets G post h (t >>= f : Task ε β) := by
  refine meets_bindExcept.2 (ht.mono fun h r hr => ?_)
  cases r with
  | ok a => exact hr
  | error e => exact hr

end

/-! ## What a batch may ask -/

namespace Request

/-- The scope whose threads a request may write. -/
def writesThreads : Request → Option String
  | .store q => q.writesThreads
  | _ => none

/-- The scope whose row a request may write. -/
def writesScope : Request → Option String
  | .store q => q.writesScope
  | _ => none

def isResume : Request → Bool
  | .resumeThread _ _ => true
  | _ => false

/-- Anything but a resume. -/
def Other (q : Request) : Prop := q.isResume = false

/-- Neither a resume nor a change of the threads. -/
def Plain (q : Request) : Prop := q.writesThreads = none ∧ q.isResume = false

end Request

/-- `thread/resume` failed with this error. -/
def FailedWith (h : History Reply) (error : ClientError) : Prop :=
  ∃ thread o, Replied h (.resumeThread thread o) (.error error)

/-- `thread/resume` failed, and not by an answer of the server. -/
def FailedResume (h : History Reply) : Prop := ∃ error, FailedWith h error ∧ error.resumeFailureIsMissingThread = false

/-- The server answered `thread/resume` of the thread with an error. -/
def Refused (h : History Reply) (thread : String) : Prop :=
  ∃ o error, Replied h (.resumeThread thread o) (.error error) ∧ error.resumeFailureIsMissingThread = true

/-- The failed resume was definite, or no client will come any more. -/
def Settles (h : History Reply) : Prop :=
  (∃ error, FailedWith h error ∧ error.turnStartDefinitelyNotApplied = true) ∨ ∃ epoch, Replied h (.epochLoss epoch) .terminal

/-- The active thread as it was read may be given up: its tools are of a newer version, or the server refused to resume it. -/
def MayRetire (h : History Reply) (scope : String) : Prop :=
  (∀ p ∈ h, p.1.writesThreads = none) ∧ ∃ row : ThreadRow, Replied h (.store (.activeThread scope)) (.ok (some row)) ∧
    (1 < row.contextToolsVersion ∨ row.origin = .bridgeCreated ∧ Refused h row.codexThreadId)

namespace Batch

variable (b : Batch)

/-- A thread was resumed or started in the workspace. -/
def HasThread (h : History Reply) (cwd : String) : Prop :=
  (∃ thread t, Replied h (.resumeThread thread (b.settings.overrides cwd)) (.ok t)) ∨
    ∃ t, Replied h (.startThread (b.settings.overrides cwd)) (.ok t)

/-- What a batch may ask after the history `h`. -/
def Allows (h : History Reply) : Request → Prop
  | .store (.scopeRow _) | .store (.activeThread _) | .store .uncertainTurns => True
  | .store (.upsertScope k cwd fingerprint) => ¬FailedResume h ∧ k = b.scope ∧
      ((∀ p ∈ h, p.1.writesScope = none) ∧ Replied h (.store (.scopeRow k)) (.ok none) ∨
        b.HasThread h cwd ∧ Replied h (.fingerprint cwd) (some fingerprint))
  | .store (.archiveActiveThread k) => ¬FailedResume h ∧ k = b.scope ∧ MayRetire h k
  | .store (.recordActiveThread k t) => ¬FailedResume h ∧ k = b.scope ∧ ∃ o, Replied h (.startThread o) (.ok t)
  | .store (.interruptTurn id) => ¬FailedResume h ∧ ∃ thread, Refused h thread ∧
      ∃ live : List (Row TurnRow), Replied h (.store .uncertainTurns) (.ok live) ∧
        ∃ t ∈ live, t.id = id ∧ isTurnOf b.scope thread t.val = true
  | .store (.rejectReceivedAndEnqueueNotice key _ _) => key ∈ b.items ∧ (FailedResume h → Settles h)
  | .store (.reactivateArchivedThread _ _) | .store (.commitThreadAdoption _ _)
  | .store (.finishThreadAdoptionRelease _ _ _ _) => False
  | .startThread _ => ¬FailedResume h
  | .validateWorkspace _ | .fingerprint _ | .client | .resumeThread _ _ | .releaseThread _ | .rejectionNotice _ _
  | .epochLoss _ => True

end Batch

section

variable {h h' : History Reply}

theorem FailedWith.of_extends {error : ClientError} (hp : Extends Request.Other h h')
    (he : FailedWith h' error) : FailedWith h error := by
  obtain ⟨thread, o, hr⟩ := he
  exact ⟨thread, o, hp.of_replied hr (by simp [Request.Other, Request.isResume])⟩

theorem FailedResume.of_extends (hp : Extends Request.Other h h') (he : FailedResume h') :
    FailedResume h := by
  obtain ⟨error, he, hkind⟩ := he
  exact ⟨error, he.of_extends hp, hkind⟩

theorem not_failedResume (hall : ∀ p ∈ h, p.1.isResume = false) : ¬FailedResume h := by
  rintro ⟨error, ⟨thread, o, hr⟩, -⟩
  exact absurd (hall _ hr) (by simp [Request.isResume])

end

/-! ## Specs -/

section

variable {b : Batch} {h : History Reply}

variable {q : Request}

/-- A reply stays in the history. -/
theorem replied_snoc {q' : Request} {r : Reply q} {r' : Reply q'} (hr : Replied h q r) :
    Replied (h ++ [⟨q', r'⟩]) q r :=
  List.mem_append_left _ hr

theorem revalidateWorkspace_meets {cwd fingerprint : String} : Meets b.Allows
    (fun h' r => Extends Request.Plain h h' ∧ ∀ c, r = .ok c → c = cwd) h (revalidateWorkspace cwd fingerprint) := by
  unfold revalidateWorkspace
  refine meets_asksOrFail trivial (fun r canonical _ => ?_) fun r _ => ⟨(Extends.refl h).snoc ⟨rfl, rfl⟩ r, nofun⟩
  split
  · exact ⟨(Extends.refl h).snoc ⟨rfl, rfl⟩ r, nofun⟩
  · next hcwd =>
    refine meets_asksOrFail trivial (fun r' current _ => ?_) fun r' _ =>
      ⟨((Extends.refl h).snoc ⟨rfl, rfl⟩ r).snoc ⟨rfl, rfl⟩ r', nofun⟩
    split
    · exact ⟨((Extends.refl h).snoc ⟨rfl, rfl⟩ r).snoc ⟨rfl, rfl⟩ r', nofun⟩
    · refine ⟨((Extends.refl h).snoc ⟨rfl, rfl⟩ r).snoc ⟨rfl, rfl⟩ r', fun c hc => ?_⟩
      obtain rfl := Except.ok.inj hc
      exact not_not.1 hcwd

/-- The fingerprint that is returned is the policy's. -/
theorem prepareWorkspace_meets {settings : RouterSettings} : Meets b.Allows
    (fun h' r => Extends Request.Plain [] h' ∧ ∀ cwd fingerprint changed, r = .ok (cwd, fingerprint, changed) →
      Replied h' (.fingerprint cwd) (some fingerprint)) [] (prepareWorkspace b.scope settings) := by
  unfold prepareWorkspace
  refine meets_askStore trivial (fun row => ?_) fun x => ⟨(Extends.refl _).snoc ⟨rfl, rfl⟩ _, nofun⟩
  have hrow : Extends Request.Plain [] ([] ++ [⟨.store (.scopeRow b.scope), Except.ok row⟩] : History Reply) :=
    (Extends.refl _).snoc ⟨rfl, rfl⟩ _
  change Option ScopeRow at row
  cases row with
  | some row =>
    refine meets_asksOrFail trivial (fun r canonical _ => ?_) fun r _ => ⟨hrow.snoc ⟨rfl, rfl⟩ r, nofun⟩
    split
    · exact ⟨hrow.snoc ⟨rfl, rfl⟩ r, nofun⟩
    · refine meets_asksOrFail trivial (fun r' fingerprint hr' => ?_) fun r' _ =>
        ⟨(hrow.snoc ⟨rfl, rfl⟩ r).snoc ⟨rfl, rfl⟩ r', nofun⟩
      refine ⟨(hrow.snoc ⟨rfl, rfl⟩ r).snoc ⟨rfl, rfl⟩ r', fun cwd current changed heq => ?_⟩
      obtain ⟨rfl, rfl, -⟩ : canonical = cwd ∧ fingerprint = current ∧ _ := by simpa using Except.ok.inj heq
      rw [← hr']
      exact replied_last
  | none =>
    refine meets_orFail (fun cwd _ => ?_) fun _ => ⟨hrow, nofun⟩
    refine meets_asksOrFail trivial (fun r canonical _ => ?_) fun r _ => ⟨hrow.snoc ⟨rfl, rfl⟩ r, nofun⟩
    have hcanonical := hrow.snoc (q := .validateWorkspace cwd) ⟨rfl, rfl⟩ r
    refine meets_asksOrFail trivial (fun r' fingerprint hr' => ?_) fun r' _ => ⟨hcanonical.snoc ⟨rfl, rfl⟩ r', nofun⟩
    have hfingerprint := hcanonical.snoc (q := .fingerprint canonical) ⟨rfl, rfl⟩ r'
    refine meets_askStore ?_ (fun u => ?_) fun x => ⟨hfingerprint.snoc ⟨rfl, rfl⟩ _, nofun⟩
    · -- the scope had no row
      refine ⟨not_failedResume (hfingerprint.all (by simp) fun q hq => hq.2), rfl, .inl ⟨?_, ?_⟩⟩
      · simp [Request.writesScope, StoreRequest.writesScope]
      · exact replied_snoc (replied_snoc replied_last)
    · refine ⟨hfingerprint.snoc ⟨rfl, rfl⟩ _, fun cwd' current changed heq => ?_⟩
      obtain ⟨rfl, rfl, -⟩ : canonical = cwd' ∧ fingerprint = current ∧ _ := by simpa using Except.ok.inj heq
      rw [← hr']
      exact replied_snoc replied_last

variable {w : Workspace} {thread : String}

theorem commitFingerprint_meets {post : History Reply → Except ThreadPreparationError Unit → Prop}
    (hfail : ¬FailedResume h) (hscope : w.scope = b.scope) (hthread : b.HasThread h w.cwd)
    (hfingerprint : Replied h (.fingerprint w.cwd) (some w.fingerprint))
    (hpost : ∀ h' r, (∀ error, r ≠ .error (.client error)) → post h' r) :
    Meets b.Allows post h w.commitFingerprint := by
  unfold Workspace.commitFingerprint
  by_cases hchanged : w.policyChanged = true
  · rw [if_pos hchanged]
    refine ⟨⟨hfail, hscope, .inr ⟨hthread, hfingerprint⟩⟩, fun r => hpost _ _ fun error herror => ?_⟩
    change Except StoreError Unit at r
    cases r with
    | ok v => cases herror
    | error e => cases herror
  · rw [if_neg hchanged]
    exact hpost _ _ nofun

/-- If `ensure_thread` fails for a failed resume, then with its error. -/
def OwnFailure (h : History Reply) (r : Except ThreadPreparationError String) : Prop :=
  ∀ error, r = .error (.client error) → ∀ e, FailedWith h e → e.resumeFailureIsMissingThread = false → e = error

theorem ownFailure_of_not {r : Except ThreadPreparationError String} (hfail : ¬FailedResume h) : OwnFailure h r :=
  fun _ _ e he hkind => absurd ⟨e, he, hkind⟩ hfail

theorem Request.Plain.other (hq : q.Plain) : q.Other := hq.2

theorem not_failedResume_of_extends {h' : History Reply} (hfail : ¬FailedResume h)
    (hp : Extends Request.Other h h') : ¬FailedResume h' := fun h => hfail (h.of_extends hp)

theorem extends_other {h' : History Reply} (hp : Extends Request.Other h h') (hq : q.isResume = false) (r : Reply q) :
    Extends Request.Other h (h' ++ [⟨q, r⟩]) := hp.snoc hq r

theorem not_failedResume_snoc (hfail : ¬FailedResume h) (hq : q.isResume = false) (r : Reply q) :
    ¬FailedResume (h ++ [⟨q, r⟩]) :=
  not_failedResume_of_extends hfail ((Extends.refl h).snoc hq r)

theorem startThread_meets (hfail : ¬FailedResume h) (hscope : w.scope = b.scope) (hsettings : w.settings = b.settings)
    (hfingerprint : Replied h (.fingerprint w.cwd) (some w.fingerprint)) :
    Meets b.Allows OwnFailure h w.startThread := by
  unfold Workspace.startThread
  refine meets_failAs (revalidateWorkspace_meets.mono fun h₁ r hr => ?_)
  have hfail₁ := not_failedResume_of_extends hfail (hr.1.mono fun _ => Request.Plain.other)
  cases r with
  | error kind => exact ownFailure_of_not hfail₁
  | ok cwd =>
    obtain rfl : cwd = w.cwd := hr.2 cwd rfl
    refine meets_asks hfail₁ fun r => ?_
    cases r with
    | error error => exact ownFailure_of_not (not_failedResume_snoc hfail₁ rfl _)
    | ok thread =>
      have hstarted := not_failedResume_snoc hfail₁ (q := .startThread (w.settings.overrides w.cwd)) rfl (.ok thread)
      refine meets_askStore ⟨hstarted, hscope, _, replied_last⟩ (fun u => ?_) fun x =>
        ownFailure_of_not (not_failedResume_snoc hstarted rfl _)
      refine meets_seq (commitFingerprint_meets (not_failedResume_snoc hstarted rfl _) hscope (.inr ⟨thread, ?_⟩) ?_
        fun h' r hne => ?_)
      · rw [← hsettings]
        exact replied_snoc replied_last
      · exact replied_snoc (replied_snoc (hr.1.replied hfingerprint))
      · cases r with
        | ok u => exact nofun
        | error e =>
          intro error heq
          cases heq
          exact absurd rfl (hne error)

theorem Refused.of_extends {P : Request → Prop} {h' : History Reply} (hp : Extends P h h') (hr : Refused h thread) :
    Refused h' thread := by
  obtain ⟨o, error, hr, hkind⟩ := hr
  exact ⟨o, error, hp.replied hr, hkind⟩

theorem interruptTurns_meets {all : List (Row TurnRow)} : ∀ {live : List (Row TurnRow)} {h : History Reply},
    (∀ t ∈ live, t ∈ all) → ¬FailedResume h → Refused h thread → Replied h (.store .uncertainTurns) (.ok all) →
    Meets b.Allows (fun h' r => Extends Request.Plain h h' ∧ ∀ e, r ≠ .error (.client e)) h
      (interruptTurns b.scope thread live)
  | [], h, _, _, _, _ => ⟨Extends.refl h, nofun⟩
  | t :: live, h, hlive, hfail, hrefused, hall => by
    obtain ⟨ht, hlive⟩ := List.forall_mem_cons.1 hlive
    unfold interruptTurns
    split
    · next hturn =>
      refine meets_askStore ⟨hfail, thread, hrefused, all, hall, t, ht, rfl, hturn⟩ (fun o => ?_) fun x =>
        ⟨(Extends.refl h).snoc ⟨rfl, rfl⟩ _, nofun⟩
      have hstep : Extends Request.Plain h (h ++ [⟨.store (.interruptTurn t.id), Except.ok o⟩]) :=
        (Extends.refl h).snoc ⟨rfl, rfl⟩ _
      refine (interruptTurns_meets hlive (not_failedResume_snoc hfail rfl _) (hrefused.of_extends hstep)
        (replied_snoc hall)).mono fun h' r hr => ⟨hstep.trans hr.1, hr.2⟩
    · exact interruptTurns_meets hlive hfail hrefused hall

theorem abandonUnusableBridgeThread_meets {row : ThreadRow} (hfail : ¬FailedResume h)
    (hrow : Replied h (.store (.activeThread b.scope)) (.ok (some row))) (horigin : row.origin = .bridgeCreated)
    (hrefused : Refused h row.codexThreadId) (huntouched : ∀ p ∈ h, p.1.writesThreads = none) :
    Meets b.Allows (fun h' r => Extends Request.Other h h' ∧ ∀ e, r ≠ .error (.client e)) h
      (abandonUnusableBridgeThread b.scope row.codexThreadId) := by
  unfold abandonUnusableBridgeThread
  refine meets_askStore trivial (fun live => ?_) fun x => ⟨extends_other (Extends.refl h) rfl _, nofun⟩
  have hlive : Extends Request.Plain h (h ++ [⟨.store .uncertainTurns, Except.ok live⟩]) := (Extends.refl h).snoc ⟨rfl, rfl⟩ _
  refine meets_seq ((interruptTurns_meets (fun t ht => ht) (not_failedResume_snoc hfail rfl _) (hrefused.of_extends hlive)
    replied_last).mono fun h' r hr => ?_)
  have hp : Extends Request.Plain h h' := hlive.trans hr.1
  have hp' : Extends Request.Other h h' := hp.mono fun _ => Request.Plain.other
  cases r with
  | error e => exact ⟨hp', fun error heq => hr.2 error (by rw [Except.error.inj heq])⟩
  | ok u =>
    refine meets_askStore ⟨not_failedResume_of_extends hfail hp', rfl, hp.all huntouched fun q hq => hq.1, row, hp.replied hrow,
      .inr ⟨horigin, hrefused.of_extends hp⟩⟩ (fun o => ⟨extends_other hp' rfl _, nofun⟩) fun x => ⟨extends_other hp' rfl _, nofun⟩

theorem resumeThread_meets {active : ThreadRow} (hunresumed : ∀ p ∈ h, p.1.isResume = false)
    (huntouched : ∀ p ∈ h, p.1.writesThreads = none) (hscope : w.scope = b.scope) (hsettings : w.settings = b.settings)
    (hfingerprint : Replied h (.fingerprint w.cwd) (some w.fingerprint))
    (hactive : Replied h (.store (.activeThread b.scope)) (.ok (some active))) :
    Meets b.Allows OwnFailure h (w.resumeThread active) := by
  unfold Workspace.resumeThread
  refine meets_failAs (revalidateWorkspace_meets.mono fun h₁ r hr => ?_)
  have hunresumed₁ : ∀ p ∈ h₁, p.1.isResume = false := hr.1.all hunresumed fun q hq => hq.2
  have hfail₁ : ¬FailedResume h₁ := not_failedResume hunresumed₁
  cases r with
  | error kind => exact ownFailure_of_not hfail₁
  | ok cwd =>
    obtain rfl : cwd = w.cwd := hr.2 cwd rfl
    refine meets_asks trivial fun r => ?_
    -- the only resume of the batch is this one
    have hown : ∀ error, FailedWith (h₁ ++ [⟨.resumeThread active.codexThreadId (w.settings.overrides w.cwd), r⟩]) error →
        r = .error error := by
      rintro error ⟨thread, o, hmem⟩
      rcases List.mem_append.1 hmem with hmem | hmem
      · exact absurd (hunresumed₁ _ hmem) (by simp [Request.isResume])
      · obtain ⟨heq, hr⟩ := Sigma.mk.inj_iff.1 (List.mem_singleton.1 hmem)
        cases heq
        exact (eq_of_heq hr).symm
    cases r with
    | ok thread =>
      refine meets_seq (commitFingerprint_meets ?_ hscope (.inl ⟨active.codexThreadId, thread, ?_⟩) ?_ fun h' r hne => ?_)
      · rintro ⟨error, he, -⟩
        cases hown error he
      · rw [← hsettings]
        exact replied_last
      · exact replied_snoc (hr.1.replied hfingerprint)
      · cases r with
        | ok u => exact nofun
        | error e =>
          intro error heq
          cases heq
          exact absurd rfl (hne error)
    | error error =>
      dsimp only
      split
      · next hmissing =>
        have hfail : ¬FailedResume (h₁ ++ [⟨.resumeThread active.codexThreadId (w.settings.overrides w.cwd),
            Except.error error⟩]) := by
          rintro ⟨e, he, hkind⟩
          cases hown e he
          rw [hmissing.2] at hkind
          cases hkind
        rw [hscope]
        refine meets_seq ((abandonUnusableBridgeThread_meets hfail (replied_snoc (hr.1.replied hactive)) hmissing.1
          ⟨_, error, replied_last, hmissing.2⟩ ?_).mono fun h' r hr' => ?_)
        · intro p hp
          rcases List.mem_append.1 hp with hp | hp
          · exact hr.1.all huntouched (fun q hq => hq.1) p hp
          · rw [List.mem_singleton.1 hp]
            rfl
        · cases r with
          | ok u =>
            exact startThread_meets (not_failedResume_of_extends hfail hr'.1) hscope hsettings
              (hr'.1.replied (replied_snoc (hr.1.replied hfingerprint)))
          | error e =>
            intro error' heq
            exact absurd (congrArg Except.error (Except.error.inj heq)) (hr'.2 error')
      · intro error' heq e he hkind
        cases heq
        cases hown e he
        rfl

theorem ensureThread_meets (hfresh : Extends Request.Plain [] h) (hscope : w.scope = b.scope)
    (hsettings : w.settings = b.settings) (hfingerprint : Replied h (.fingerprint w.cwd) (some w.fingerprint)) :
    Meets b.Allows OwnFailure h (ensureThread w) := by
  have hunresumed : ∀ p ∈ h, p.1.isResume = false := hfresh.all (by simp) fun q hq => hq.2
  have huntouched : ∀ p ∈ h, p.1.writesThreads = none := hfresh.all (by simp) fun q hq => hq.1
  have hfail := not_failedResume hunresumed
  unfold ensureThread
  rw [hscope]
  refine meets_askStore trivial (fun active => ?_) fun x => ownFailure_of_not (not_failedResume_snoc hfail rfl _)
  have hactive := not_failedResume_snoc hfail (q := .store (.activeThread b.scope)) rfl (.ok active)
  have hplain : Extends Request.Plain h (h ++ [⟨.store (.activeThread b.scope), Except.ok active⟩]) :=
    (Extends.refl h).snoc ⟨rfl, rfl⟩ _
  cases active with
  | none => exact startThread_meets hactive hscope hsettings (replied_snoc hfingerprint)
  | some active =>
    dsimp only
    split
    · exact resumeThread_meets (hplain.all hunresumed fun q hq => hq.2) (hplain.all huntouched fun q hq => hq.1) hscope
        hsettings (replied_snoc hfingerprint) replied_last
    · next hversion =>
      refine meets_askStore ⟨hactive, rfl, hplain.all huntouched fun q hq => hq.1, active, replied_last,
        .inl (Nat.lt_of_not_le hversion)⟩ (fun o => ?_) fun x => ownFailure_of_not (not_failedResume_snoc hactive rfl _)
      refine meets_asks trivial fun u => ?_
      exact startThread_meets (not_failedResume_snoc (not_failedResume_snoc hactive rfl _) rfl _) hscope hsettings
        (replied_snoc (replied_snoc (replied_snoc hfingerprint)))

theorem rejectItems_meets {reason : InboundRejectionKind} {post : History Reply → Except ScopeFailureKind Unit → Prop}
    (hpost : ∀ h r, post h r) : ∀ {items : List InboundKey} {h : History Reply}, (∀ key ∈ items, key ∈ b.items) →
    (¬FailedResume h ∨ Settles h) → Meets b.Allows post h (rejectItems reason items)
  | [], _, _, _ => hpost _ _
  | key :: items, h, hitems, hsettles => by
    obtain ⟨hkey, hitems⟩ := List.forall_mem_cons.1 hitems
    -- what was answered before the rejections is still what was answered
    have hsnoc : ∀ {h : History Reply}, (¬FailedResume h ∨ Settles h) → ∀ (q : Request) (r : Reply q), q.isResume = false →
        ¬FailedResume (h ++ [⟨q, r⟩]) ∨ Settles (h ++ [⟨q, r⟩]) := by
      intro h hsettles q r hq
      rcases hsettles with hfail | ⟨error, ⟨thread, o, hr⟩, hdefinite⟩ | ⟨epoch, hr⟩
      · exact .inl (not_failedResume_snoc hfail hq r)
      · exact .inr (.inl ⟨error, ⟨thread, o, replied_snoc hr⟩, hdefinite⟩)
      · exact .inr (.inr ⟨epoch, replied_snoc hr⟩)
    unfold rejectItems
    refine meets_asksOrFail trivial (fun r notice _ => ?_) fun r _ => hpost _ _
    have hnotice := hsnoc hsettles (.rejectionNotice key reason) r rfl
    refine meets_askStore ⟨hkey, hnotice.resolve_left ∘ not_not_intro⟩ (fun d => ?_) fun x => hpost _ _
    exact rejectItems_meets hpost hitems (hsnoc hnotice _ _ rfl)

theorem threadFailed_meets {epoch : ℕ} {error : ThreadPreparationError}
    {post : History Reply → Except ScopeFailureKind Prepared → Prop} (hpost : ∀ h r, post h r)
    (hown : OwnFailure h (.error error)) : Meets b.Allows post h (threadFailed epoch b.items error) := by
  cases error with
  | scope kind => exact hpost _ _
  | client error =>
    unfold threadFailed
    dsimp only
    split
    · refine meets_seq ?_
      unfold settlePreclaimEpochLoss
      refine meets_asks trivial fun r => ?_
      cases r with
      | terminal =>
        exact rejectItems_meets (fun h r => by cases r <;> exact hpost _ _) (fun _ h => h) (.inr (.inr ⟨epoch, replied_last⟩))
      | restarted | stopped => exact hpost _ _
    · split
      · next hdefinite =>
        refine meets_seq (rejectItems_meets (fun h r => by cases r <;> exact hpost _ _) (fun _ h => h) ?_)
        by_cases hfail : FailedResume h
        · obtain ⟨e, he, hkind⟩ := id hfail
          obtain rfl := hown error rfl e he hkind
          exact .inr (.inl ⟨e, he, hdefinite⟩)
        · exact .inl hfail
      · exact hpost _ _

/-- **A batch asks what it may ask**, whatever it is answered. -/
theorem prepareBatch_meets (b : Batch) : Meets b.Allows (fun _ _ => True) [] (prepareBatch b) := by
  unfold prepareBatch
  refine meets_attempt (prepareWorkspace_meets.mono fun h r hr => ?_)
  have hfail : ¬FailedResume h := not_failedResume (hr.1.all (by simp) fun q hq => hq.2)
  cases r with
  | error kind =>
    cases kind with
    | policy => exact meets_seq (rejectItems_meets (fun h r => by cases r <;> trivial) (fun _ h => h) (.inl hfail))
    | _ => trivial
  | ok w =>
    obtain ⟨cwd, fingerprint, policyChanged⟩ := w
    dsimp only
    split
    · trivial
    · refine meets_asks trivial fun r => ?_
      have hclient := not_failedResume_snoc hfail (q := .client) rfl r
      cases r with
      | error terminal =>
        cases terminal with
        | true => exact meets_seq (rejectItems_meets (fun h r => by cases r <;> trivial) (fun _ h => h) (.inl hclient))
        | false => trivial
      | ok epoch =>
        refine meets_attempt ((ensureThread_meets (hr.1.snoc ⟨rfl, rfl⟩ _) rfl rfl
          (replied_snoc (hr.2 cwd fingerprint policyChanged rfl))).mono fun h r hr => ?_)
        cases r with
        | ok thread => trivial
        | error error => exact threadFailed_meets (fun _ _ => trivial) hr

end

/-! ## What a command may ask -/

/-- No request for a turn, a message or a thread of the app server. -/
def Request.IsForCommand : Request → Prop
  | .store q => q.writesInbox = false
  | .resumeThread _ _ | .startThread _ => False
  | .validateWorkspace _ | .fingerprint _ | .client | .releaseThread _ | .rejectionNotice _ _ | .epochLoss _ => True

/-- A command writes the row and the threads of its scope, and nothing else. -/
def CommandAllows (scope : String) (_ : History Reply) (q : Request) : Prop :=
  (∀ k, q.writesThreads = some k → k = scope) ∧ (∀ k, q.writesScope = some k → k = scope) ∧ q.IsForCommand

section

variable {scope : String} {h : History Reply}

theorem commandAllows_read {q : Request} (hthreads : q.writesThreads = none) (hscope : q.writesScope = none)
    (hkind : q.IsForCommand) : CommandAllows scope h q :=
  ⟨by simp [hthreads], by simp [hscope], hkind⟩

theorem retireActiveThread_meets {post : History Reply → Except Unit Bool → Prop} (hpost : ∀ h r, post h r) :
    Meets (CommandAllows scope) post h (retireActiveThread scope) := by
  unfold retireActiveThread
  refine meets_attemptStore (commandAllows_read rfl rfl rfl) fun r => ?_
  cases r with
  | error e => exact hpost _ _
  | ok row =>
    cases row with
    | none => exact hpost _ _
    | some row =>
      dsimp only [Except.mapError]
      split
      · exact hpost _ _
      · exact meets_attemptStore ⟨fun k hk => (Option.some.inj hk).symm, nofun, rfl⟩ fun _ => hpost _ _

theorem prepareWorkspace_meets_command {settings : RouterSettings}
    {post : History Reply → Except ScopeFailureKind (String × String × Bool) → Prop} (hpost : ∀ h r, post h r) :
    Meets (CommandAllows scope) post h (prepareWorkspace scope settings) := by
  unfold prepareWorkspace
  refine meets_askStore (commandAllows_read rfl rfl rfl) (fun row => ?_) fun _ => hpost _ _
  cases row with
  | some row =>
    refine meets_asksOrFail (commandAllows_read rfl rfl trivial) (fun r canonical _ => ?_) fun _ _ => hpost _ _
    split
    · exact hpost _ _
    · exact meets_asksOrFail (commandAllows_read rfl rfl trivial) (fun _ _ _ => hpost _ _) fun _ _ => hpost _ _
  | none =>
    refine meets_orFail (fun cwd _ => ?_) fun _ => hpost _ _
    refine meets_asksOrFail (commandAllows_read rfl rfl trivial) (fun r canonical _ => ?_) fun _ _ => hpost _ _
    refine meets_asksOrFail (commandAllows_read rfl rfl trivial) (fun r fingerprint _ => ?_) fun _ _ => hpost _ _
    exact meets_askStore ⟨nofun, fun k hk => (Option.some.inj hk).symm, rfl⟩ (fun _ => hpost _ _) fun _ => hpost _ _

/-- **A command asks what it may ask.** -/
theorem command_meets (scope : String) (settings : RouterSettings) (c : ThreadCommand) :
    Meets (CommandAllows scope) (fun _ _ => True) [] (c.run scope settings) := by
  cases c with
  | new =>
    refine meets_seq (retireActiveThread_meets fun _ r => ?_)
    cases r <;> trivial
  | cd path =>
    refine meets_asksOrFail (commandAllows_read rfl rfl trivial) (fun r canonical _ => ?_) fun _ _ => trivial
    refine meets_asksOrFail (commandAllows_read rfl rfl trivial) (fun r fingerprint _ => ?_) fun _ _ => trivial
    refine meets_seq (retireActiveThread_meets fun _ r => ?_)
    cases r with
    | error e => trivial
    | ok retired =>
      cases retired with
      | true => exact ⟨⟨nofun, fun k hk => (Option.some.inj hk).symm, rfl⟩, fun _ => trivial⟩
      | false => trivial
  | resume selector =>
    exact meets_askStore ⟨fun k hk => (Option.some.inj hk).symm, nofun, rfl⟩ (fun _ => trivial) fun _ => trivial
  | adopt adoption fits =>
    refine meets_failAs (prepareWorkspace_meets_command fun _ r => ?_)
    cases r with
    | error e => trivial
    | ok w =>
      exact ⟨⟨fun k hk => (Option.some.inj hk).symm, fun k hk => (Option.some.inj hk).symm, rfl⟩, fun _ => trivial⟩

end

/-! ## The actor -/

end LarkCodexBridge.Runtime
