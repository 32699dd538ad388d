import LarkCodexBridge.Runtime.Attachments

/-!
# Attachment rows, leases and files agree

What the cache promises (`State.Agrees`): an attachment that a fetch returned has its row and its file until its lease is
released or its turn is over, at rest every row has its file, and a fetch that failed or was dropped leaves no lease.

* `WellBehaved`: the steps that keep the promise. What breaks it are a file that a job takes away while an attachment
  with its name is in use, since `verify_existing` never accepts a file that is in place, a fetch that is dropped, fails
  or is refused a release while its lease is or comes into the store, and a job that ends between the removal of a file
  and the rename that puts it back;
* `Life`: the states of one fetch with its task, its requests and its lease.
-/

namespace LarkCodexBridge.Runtime.Attachments

open Lark Store Limits StepSystem

variable (P : Params)

/-! ## The property -/

namespace State

variable (s : State)

abbrev db : AttachmentDb := s.writer.db

/-- Whether there is a lease with the token of the fetch `k`. -/
def Leased (k : ℕ) : Prop := ∃ lease ∈ s.db.leases, lease.leaseToken = k

/-- Whether a turn is over. -/
def Over (turnRowId : ℕ) : Prop := s.db.turns turnRowId = some true

/-- The fetch `k` returned the attachment, and neither was its lease released since nor is its turn over. -/
def Guaranteed (k : ℕ) (f : Fetch) (att : CachedAttachment) : Prop :=
  s.fetches k = some f ∧ f.phase = .returned (.ok att) ∧ att.leaseToken ∉ s.db.released ∧ ¬s.Over f.turnRowId

/-- No cache operation and no store request is in progress. -/
structure Quiet : Prop where
  lock : s.lock = none
  queue : s.queue = []
  fetches : ∀ k, s.liveFetch k = none
  sweeps : ∀ k, s.liveSweep k = false
  tasks : ∀ k, s.pending k = false

/-- The fetch returned an error, or its future was dropped. -/
def Failed (k : ℕ) : Prop :=
  ∃ f, s.fetches k = some f ∧ ((∃ e, f.phase = .returned (.error e)) ∨ f.phase = .dropped)

/-- **Rows, leases and files agree.** -/
structure Agrees : Prop where
  /-- What a fetch returned has its row, and its file has the content. -/
  leased : ∀ k f att, s.Guaranteed k f att → (∃ row ∈ s.db.attachments, row.sha256 = att.sha256) ∧
    att.sha256 = P.sha256Hex f.content ∧ s.disk.files att.sha256 = some f.content
  /-- At rest every row has its file. -/
  rows : s.Quiet → ∀ row ∈ s.db.attachments, (s.disk.files row.sha256).isSome = true
  /-- A fetch that failed or was dropped has no lease once the store is done with it. -/
  failed : ∀ k, s.Failed k → s.pending k = false → ¬s.Leased k

/-! ## The condition -/

/-- A lease of the fetch `k` is there or comes with a queued request. -/
def Holds (k : ℕ) : Prop := s.Leased k ∨ ∃ e ∈ s.queue, ∃ sha256 bytes, e.2.Puts k sha256 bytes

/-- The lease of the fetch `k` will be released without the fetch: its task has yet to look at the cancelled token, or a
release is queued. -/
def Compensated (k : ℕ) : Prop :=
  (∃ f, s.fetches k = some f ∧ f.isCancelled = true ∧
    (s.tasks k = .putting none ∨ ∃ token, s.tasks k = .putting (some (.ok token)))) ∨
  ∃ e ∈ s.queue, e.1 ≠ .client ∧ e.2 = .releaseAttachmentLease k

/-- A row has this name, or a queued request stores one. -/
def Named (name : String) : Prop :=
  (∃ row ∈ s.db.attachments, row.sha256 = name) ∨ ∃ e ∈ s.queue, ∃ k bytes, e.2.Puts k name bytes

end State

def Holder.install? : Holder → Option Install
  | .fetch _ _ (.installing job) | .fetch _ _ (.verifying _ job) => some job
  | _ => none

def State.install? (s : State) : Option Install := s.lock.bind Holder.install?

/-- **The steps that keep the promise.** -/
def WellBehaved (s : State) : Event → Prop
  | .dropFetch k => s.holdsFetch k = true → s.tasks k ≠ .ready ∧ (s.Holds k → s.Compensated k)
  | .work fault =>
    (∀ job, s.install? = some job →
      ((∃ t, job.point = .removeCorrupt t) → fault = false → ∀ k f att, s.Guaranteed k f att → att.sha256 ≠ job.sha) ∧
      ((∃ t, job.point = .rename t) → fault = true → ¬s.Named job.sha)) ∧
    ∀ k token job, s.lock = some (.fetch k true (.verifying token job)) → s.Leased k →
      ∀ e, (job.work P s.disk fault).2 ≠ .inr (.error e)
  | .resume room _ => ∀ k f token, s.lock = some (.fetch k true (.verified token (.ok ()))) → s.fetches k = some f →
      f.isCancelled = true → room.isOk = false → ¬s.Leased k
  | .pollTask k room => ∀ f token, s.fetches k = some f → s.tasks k = .putting (some (.ok token)) →
      f.isCancelled = true → room.isOk = false → ¬s.Leased k
  | .serve fate now => ∀ w r rest, s.queue = (w, r) :: rest →
      (∀ k, r = .releaseAttachmentLease k → w ≠ .client → s.Leased k →
        s.writer.alive = true ∧ ∀ e stops, fate ≠ .reject e stops) ∧
      (∀ k sha256 bytes, r.Puts k sha256 bytes → s.writer.alive = true → ∀ e, fate = .executeThenFail e →
        ∀ p, r.job now s.db ≠ .ok p)
  | .crash => ∀ job, s.install? = some job → (∃ t, job.point = .rename t) → ∀ row ∈ s.db.attachments, row.sha256 ≠ job.sha
  | _ => True

/-! ## The life of one fetch -/

def Task.Settled (t : Task) : Prop := t = .idle ∨ t = .finished

/-- The fetch waits for its task, or was dropped while it did. -/
def Waits (f : Fetch) (stage : Option FetchStage) : Prop :=
  f.phase = .inside ∧ stage = some (.committing none) ∨ f.phase = .dropped ∧ stage = none

def Fetch.attachment (f : Fetch) (k : ℕ) : CachedAttachment := ⟨P.sha256Hex f.content, f.kind, f.content.length, k⟩

/-- **The states of one fetch**: what it is, where it is if it holds the lock, its task and its queued requests, with
whether it has a lease and whether a lease of it was ended by a release or the end of its turn. -/
inductive Life (k : ℕ) : Option Fetch → Option FetchStage → Task → List (Waiter × AttachmentRequest) → Prop → Prop → Prop
  | absent {l g : Prop} (hl : ¬l) : Life k none none .idle [] l g
  | outside {f : Fetch} {l g : Prop} (hf : f.phase = .downloading ∨ f.phase = .hashing ∨ f.phase = .locking) (hl : ¬l) :
      Life k (some f) none .idle [] l g
  | installing {f : Fetch} {job : Install} {l g : Prop} (hf : f.phase = .inside) (hl : ¬l) :
      Life k (some f) (some (.installing job)) .idle [] l g
  | installed {f : Fetch} {r : Except AttachError Unit} {l g : Prop} (hf : f.phase = .inside) (hl : ¬l) :
      Life k (some f) (some (.installed r)) .idle [] l g
  | putting {f : Fetch} {l g : Prop} (hf : f.phase = .inside) (hc : f.cancellable = false) (hl : ¬l) :
      Life k (some f) (some (.committing none)) .idle [(.holder, f.putRequest P k)] l g
  | ready {f : Fetch} {l g : Prop} (hf : f.phase = .inside) (hl : ¬l) :
      Life k (some f) (some (.committing none)) .ready [] l g
  | taskPutting {f : Fetch} {stage : Option FetchStage} {l g : Prop} (hw : Waits f stage)
      (hc : f.phase = .dropped → f.isCancelled = true) (hl : ¬l) :
      Life k (some f) stage (.putting none) [(.task k, f.putRequest P k)] l g
  | taskPut {f : Fetch} {stage : Option FetchStage} {l g : Prop} (hw : Waits f stage)
      (hc : f.phase = .dropped → l → f.isCancelled = true) (hg : g) : Life k (some f) stage (.putting (some (.ok k))) [] l g
  | taskRefused {f : Fetch} {stage : Option FetchStage} {e : StoreError} {l g : Prop} (hw : Waits f stage) (hl : ¬l) :
      Life k (some f) stage (.putting (some (.error e))) [] l g
  | taskReleasing {f : Fetch} {stage : Option FetchStage} {l g : Prop} (hw : Waits f stage) (hg : g) :
      Life k (some f) stage (.releasing k none) [(.task k, .releaseAttachmentLease k)] l g
  | taskReleased {f : Fetch} {stage : Option FetchStage} {r : Except StoreError Unit} {l g : Prop} (hw : Waits f stage)
      (hl : ¬l) (hg : g) : Life k (some f) stage (.releasing k (some r)) [] l g
  | committed {f : Fetch} {t : Task} {l g : Prop} (hf : f.phase = .inside) (ht : t.Settled) (hg : g) :
      Life k (some f) (some (.committing (some (.ok k)))) t [] l g
  | refused {f : Fetch} {t : Task} {e : StoreError} {l g : Prop} (hf : f.phase = .inside) (ht : t.Settled) (hl : ¬l) :
      Life k (some f) (some (.committing (some (.error e)))) t [] l g
  | verifying {f : Fetch} {t : Task} {job : Install} {l g : Prop} (hf : f.phase = .inside) (ht : t.Settled) (hg : g) :
      Life k (some f) (some (.verifying k job)) t [] l g
  | verified {f : Fetch} {t : Task} {r : Except AttachError Unit} {l g : Prop} (hf : f.phase = .inside) (ht : t.Settled)
      (hg : g) (hl : ∀ e, r = .error e → ¬l) : Life k (some f) (some (.verified k r)) t [] l g
  | releasing {f : Fetch} {t : Task} {l g : Prop} (hf : f.phase = .inside) (ht : t.Settled) :
      Life k (some f) (some (.releasing false)) t [(.holder, .releaseAttachmentLease k)] l g
  | released {f : Fetch} {t : Task} {l g : Prop} (hf : f.phase = .inside) (ht : t.Settled) (hl : ¬l) :
      Life k (some f) (some (.releasing true)) t [] l g
  | returned {f : Fetch} {t : Task} {l g : Prop} (hf : f.phase = .returned (.ok (f.attachment P k))) (ht : t.Settled)
      (hg : g) : Life k (some f) none t [] l g
  | failed {f : Fetch} {t : Task} {e : AttachError} {l g : Prop} (hf : f.phase = .returned (.error e)) (ht : t.Settled)
      (hl : ¬l) : Life k (some f) none t [] l g
  | dropped {f : Fetch} {t : Task} {l g : Prop} (hf : f.phase = .dropped) (ht : t.Settled) (hl : ¬l) :
      Life k (some f) none t [] l g
  | droppedReleasing {f : Fetch} {t : Task} {l g : Prop} (hf : f.phase = .dropped) (ht : t.Settled) :
      Life k (some f) none t [(.nobody, .releaseAttachmentLease k)] l g
  | lost {f : Fetch} {l g : Prop} (hf : f.phase = .lost) : Life k (some f) none .idle [] l g

namespace Life

variable {P} {k : ℕ} {f : Fetch} {t : Task} {q : List (Waiter × AttachmentRequest)} {l g : Prop} {job : Install}

/-- A lease only goes, what ended it stays, and a token cancelled by the way changes nothing yet. -/
theorem cancel_mono {stage : Option FetchStage} {l' g' : Prop} (c : Bool) (h : Life P k (some f) stage t q l g) (hl : l' → l)
    (hg : g → g') : Life P k (some { f with cancelled := c || f.cancelled }) stage t q l' g' := by
  have hcan : f.isCancelled = true → Fetch.isCancelled { f with cancelled := c || f.cancelled } = true := by
    simp only [Fetch.isCancelled, Bool.and_eq_true, Bool.or_eq_true]
    exact fun h => ⟨h.1, .inr h.2⟩
  cases h with
  | outside hf h => exact .outside hf (h ∘ hl)
  | installing hf h => exact .installing hf (h ∘ hl)
  | installed hf h => exact .installed hf (h ∘ hl)
  | putting hf hc h => exact .putting (f := { f with cancelled := _ }) hf hc (h ∘ hl)
  | ready hf h => exact .ready hf (h ∘ hl)
  | taskPutting hw hc h => exact .taskPutting (f := { f with cancelled := _ }) hw (hcan ∘ hc) (h ∘ hl)
  | taskPut hw hc h => exact .taskPut (f := { f with cancelled := _ }) hw (fun hd => hcan ∘ hc hd ∘ hl) (hg h)
  | taskRefused hw h => exact .taskRefused (f := { f with cancelled := _ }) hw (h ∘ hl)
  | taskReleasing hw h => exact .taskReleasing (f := { f with cancelled := _ }) hw (hg h)
  | taskReleased hw h h' => exact .taskReleased (f := { f with cancelled := _ }) hw (h ∘ hl) (hg h')
  | committed hf ht h => exact .committed hf ht (hg h)
  | refused hf ht h => exact .refused hf ht (h ∘ hl)
  | verifying hf ht h => exact .verifying hf ht (hg h)
  | verified hf ht h h' => exact .verified hf ht (hg h) fun e he => h' e he ∘ hl
  | releasing hf ht => exact .releasing hf ht
  | released hf ht h => exact .released hf ht (h ∘ hl)
  | returned hf ht h => exact .returned hf ht (hg h)
  | failed hf ht h => exact .failed hf ht (h ∘ hl)
  | dropped hf ht h => exact .dropped hf ht (h ∘ hl)
  | droppedReleasing hf ht => exact .droppedReleasing hf ht
  | lost hf => exact .lost hf

theorem mono {f : Option Fetch} {stage : Option FetchStage} {l' g' : Prop} (h : Life P k f stage t q l g) (hl : l' → l)
    (hg : g → g') : Life P k f stage t q l' g' := by
  cases f with
  | none =>
    cases h with
    | absent h => exact .absent (h ∘ hl)
  | some f => exact h.cancel_mono false hl hg

/-- A fetch whose task is not the one to act. -/
theorem not_waits {stage : FetchStage} (h : stage ≠ .committing none) : ¬Waits f (some stage) := by
  simp [Waits, h]

/-- A fetch inside, past the wait for its task. -/
theorem of_stage {stage : FetchStage} (h : Life P k (some f) (some stage) t q l g) (hs : stage ≠ .committing none) :
    match stage with
    | .installing _ | .installed _ => f.phase = .inside ∧ t = .idle ∧ q = [] ∧ ¬l
    | .committing (some (.error _)) | .releasing true => f.phase = .inside ∧ t.Settled ∧ q = [] ∧ ¬l
    | .committing (some (.ok token)) | .verifying token _ => token = k ∧ f.phase = .inside ∧ t.Settled ∧ q = [] ∧ g
    | .verified token r => token = k ∧ f.phase = .inside ∧ t.Settled ∧ q = [] ∧ g ∧ ∀ e, r = .error e → ¬l
    | _ => True := by
  cases h with
  | taskPutting hw | taskPut hw | taskRefused hw | taskReleasing hw | taskReleased hw => exact absurd hw (not_waits hs)
  | installing hf hl | installed hf hl => exact ⟨hf, rfl, rfl, hl⟩
  | putting | ready | releasing => trivial
  | refused hf ht hl | released hf ht hl => exact ⟨hf, ht, rfl, hl⟩
  | committed hf ht hg | verifying hf ht hg => exact ⟨rfl, hf, ht, rfl, hg⟩
  | verified hf ht hg hl => exact ⟨rfl, hf, ht, rfl, hg, hl⟩

variable {stage : Option FetchStage}

/-- A fetch with a task at work. -/
theorem of_task (h : Life P k (some f) stage t q l g) (ht : ¬t.Settled) :
    match t with
    | .ready => f.phase = .inside ∧ stage = some (.committing none) ∧ q = [] ∧ ¬l
    | .putting (some (.ok token)) =>
      token = k ∧ Waits f stage ∧ q = [] ∧ g ∧ (f.phase = .dropped → l → f.isCancelled = true)
    | .putting (some (.error _)) => Waits f stage ∧ q = [] ∧ ¬l
    | .releasing token (some _) => token = k ∧ Waits f stage ∧ q = [] ∧ ¬l ∧ g
    | _ => True := by
  cases h with
  | ready hf hl => exact ⟨hf, rfl, rfl, hl⟩
  | taskPut hw hc hg => exact ⟨rfl, hw, rfl, hg, hc⟩
  | taskRefused hw hl => exact ⟨hw, rfl, hl⟩
  | taskReleased hw hl hg => exact ⟨rfl, hw, rfl, hl, hg⟩
  | taskPutting | taskReleasing => trivial
  | outside | installing | installed | putting | lost => exact absurd (.inl rfl) ht
  | committed _ hs | refused _ hs | verifying _ hs | verified _ hs | releasing _ hs | released _ hs | returned _ hs
  | failed _ hs | dropped _ hs | droppedReleasing _ hs => exact absurd hs ht

/-- Where a fetch waits for no reply of its own. -/
theorem no_holder {f : Option Fetch} (h : Life P k f stage t q l g) (hput : stage ≠ some (.committing none))
    (hrelease : stage ≠ some (.releasing false)) :
    ∀ e ∈ q, e.1 ≠ .holder := by
  cases h with
  | putting | ready => exact absurd rfl hput
  | releasing => exact absurd rfl hrelease
  | _ => simp

theorem stage_of_inside (h : Life P k (some f) stage t q l g) (hf : f.phase = .inside) :
    stage ≠ none := by
  cases h with
  | outside hp => rcases hp with hp | hp | hp <;> simp [hf] at hp
  | taskPutting hw | taskPut hw | taskRefused hw | taskReleasing hw | taskReleased hw =>
    rcases hw with ⟨-, rfl⟩ | ⟨hd, -⟩
    · simp
    · simp [hf] at hd
  | returned hp | failed hp | dropped hp | droppedReleasing hp | lost hp => simp [hf] at hp
  | _ => simp

theorem inside_of_stage {stage : FetchStage} (h : Life P k (some f) (some stage) t q l g) : f.phase = .inside := by
  cases h with
  | taskPutting hw | taskPut hw | taskRefused hw | taskReleasing hw | taskReleased hw =>
    rcases hw with ⟨hf, -⟩ | ⟨-, hstage⟩
    · exact hf
    · cases hstage
  | installing hf | installed hf | putting hf | ready hf | committed hf | refused hf | verifying hf | verified hf
  | releasing hf | released hf => exact hf

/-- **The future is dropped.** What is or comes into the store is released without the fetch. -/
theorem drop {stage : FetchStage} (h : Life P k (some f) (some stage) t q l g) (hready : t ≠ .ready)
    (hcomp : (l ∨ ∃ e ∈ q, ∃ sha256 bytes, e.2.Puts k sha256 bytes) →
      f.isCancelled = true ∧ (t = .putting none ∨ ∃ token, t = .putting (some (.ok token))) ∨
        ∃ e ∈ q, e.2 = .releaseAttachmentLease k) :
    Life P k (some { f with phase := .dropped }) none t (q.map Waiter.forget) l g := by
  have hsettled : q = [] → t.Settled → ¬l := by
    rintro rfl ht hl
    rcases hcomp (.inl hl) with ⟨-, htask⟩ | ⟨e, he, -⟩
    · rcases ht with rfl | rfl <;> simp at htask
    · cases he
  have hputs : (f.putRequest P k).Puts k (P.sha256Hex f.content) f.content.length := ⟨_, _, rfl⟩
  cases h with
  | installing hf hl | installed hf hl => exact .dropped rfl (.inl rfl) hl
  | putting hf hc hl =>
    rcases hcomp (.inr ⟨_, List.mem_singleton_self _, _, _, hputs⟩) with ⟨-, htask⟩ | ⟨e, he, hrel⟩
    · simp at htask
    · rw [List.mem_singleton.1 he] at hrel
      cases hrel
  | ready => exact absurd rfl hready
  | taskPutting hw hc hl =>
    refine .taskPutting (f := { f with phase := .dropped }) (.inr ⟨rfl, rfl⟩) (fun _ => ?_) hl
    rcases hcomp (.inr ⟨_, List.mem_singleton_self _, _, _, hputs⟩) with ⟨hcan, -⟩ | ⟨e, he, hrel⟩
    · exact hcan
    · rw [List.mem_singleton.1 he] at hrel
      cases hrel
  | taskPut hw hc hg =>
    refine .taskPut (f := { f with phase := .dropped }) (.inr ⟨rfl, rfl⟩) (fun _ hl => ?_) hg
    rcases hcomp (.inl hl) with ⟨hcan, -⟩ | ⟨e, he, -⟩
    · exact hcan
    · cases he
  | taskRefused hw hl => exact .taskRefused (.inr ⟨rfl, rfl⟩) hl
  | taskReleasing hw hg => exact .taskReleasing (.inr ⟨rfl, rfl⟩) hg
  | taskReleased hw hl hg => exact .taskReleased (.inr ⟨rfl, rfl⟩) hl hg
  | committed hf ht hg | verifying hf ht hg | verified hf ht hg _ => exact .dropped rfl ht (hsettled rfl ht)
  | refused hf ht hl => exact .dropped rfl ht hl
  | releasing hf ht => exact .droppedReleasing rfl ht
  | released hf ht hl => exact .dropped rfl ht hl

/-- **A crash.** A fetch with work left to the store is lost, and so is one that was still running. -/
theorem crash {b : Bool} (h : Life P k (some f) stage t q l g) (hb : b = false → t.Settled ∧ q = []) :
    Life P k (some { f with phase := f.phase.crashed b }) none .idle [] l g := by
  have hdropped : f.phase = .dropped → (b = false → ¬l) →
      Life P k (some { f with phase := f.phase.crashed b }) none .idle [] l g := by
    intro hf hl
    cases b with
    | true => exact .lost (by simp [hf, FetchPhase.crashed])
    | false => exact .dropped (by simp [hf, FetchPhase.crashed]) (.inl rfl) (hl rfl)
  have hwaits : ∀ {stage}, Waits f stage → ¬t.Settled →
      Life P k (some { f with phase := f.phase.crashed b }) none .idle [] l g := by
    intro stage hw ht
    rcases hw with ⟨hf, -⟩ | ⟨hf, -⟩
    · exact .lost (by simp [hf, FetchPhase.crashed])
    · exact hdropped hf fun hfalse => absurd (hb hfalse).1 ht
  cases h with
  | outside hf hl => exact .lost (by rcases hf with hf | hf | hf <;> simp [hf, FetchPhase.crashed])
  | installing hf | installed hf | putting hf | ready hf | committed hf | refused hf | verifying hf | verified hf
  | releasing hf | released hf | lost hf => exact .lost (by simp [hf, FetchPhase.crashed])
  | taskPutting hw | taskPut hw | taskRefused hw | taskReleasing hw | taskReleased hw =>
    exact hwaits hw (by simp [Task.Settled])
  | returned hf ht hg => exact .returned (by simp [hf, Fetch.attachment, FetchPhase.crashed]) (.inl rfl) hg
  | failed hf ht hl => exact .failed (by simp only [hf, FetchPhase.crashed]; rfl) (.inl rfl) hl
  | dropped hf ht hl => exact hdropped hf fun _ => hl
  | droppedReleasing hf ht => exact hdropped hf fun hfalse => absurd (hb hfalse).2 (by simp)

/-- A fetch with a queued request: who asks for what, and who waits for the reply. -/
theorem of_request {f : Option Fetch} {e : Waiter × AttachmentRequest} (h : Life P k f stage t (e :: q) l g) :
    q = [] ∧ ∃ f', f = some f' ∧
      ((e = (.holder, f'.putRequest P k) ∧ f'.phase = .inside ∧ stage = some (.committing none) ∧ t = .idle ∧ ¬l) ∨
      (e = (.task k, f'.putRequest P k) ∧ Waits f' stage ∧ (f'.phase = .dropped → f'.isCancelled = true) ∧
        t = .putting none ∧ ¬l) ∨
      (e = (.task k, .releaseAttachmentLease k) ∧ Waits f' stage ∧ t = .releasing k none ∧ g) ∨
      (e = (.holder, .releaseAttachmentLease k) ∧ f'.phase = .inside ∧ t.Settled ∧ stage = some (.releasing false)) ∨
      (e = (.nobody, .releaseAttachmentLease k) ∧ f'.phase = .dropped ∧ t.Settled ∧ stage = none)) := by
  cases h with
  | putting hf hc hl => exact ⟨rfl, _, rfl, .inl ⟨rfl, hf, rfl, rfl, hl⟩⟩
  | taskPutting hw hc hl => exact ⟨rfl, _, rfl, .inr (.inl ⟨rfl, hw, hc, rfl, hl⟩)⟩
  | taskReleasing hw hg => exact ⟨rfl, _, rfl, .inr (.inr (.inl ⟨rfl, hw, rfl, hg⟩))⟩
  | releasing hf ht => exact ⟨rfl, _, rfl, .inr (.inr (.inr (.inl ⟨rfl, hf, ht, rfl⟩)))⟩
  | droppedReleasing hf ht => exact ⟨rfl, _, rfl, .inr (.inr (.inr (.inr ⟨rfl, hf, ht, rfl⟩)))⟩

end Life

namespace State

variable (s : State)

/-- Where the fetch `k` is if it holds the lock. -/
def stageOf (k : ℕ) : Option FetchStage :=
  match s.lock with
  | some (.fetch k' true stage) => if k' = k then some stage else none
  | _ => none

/-- The queued requests of the cache about the lease of the fetch `k`. -/
def requestsOf (k : ℕ) : List (Waiter × AttachmentRequest) := s.queue.filter (Waiter.asksAbout k)

/-- The fetch `k` has its lease, or a release or the end of its turn ended it. -/
def Granted (k : ℕ) : Prop := s.Leased k ∨ k ∈ s.db.released ∨ ∃ f, s.fetches k = some f ∧ s.Over f.turnRowId

/-- The life of the fetch `k` in a state. -/
def LifeOf (k : ℕ) : Prop :=
  Life P k (s.fetches k) (s.stageOf k) (s.tasks k) (s.requestsOf k) (s.Leased k) (s.Granted k)

end State

namespace State

variable {P} {s s' : State} {k : ℕ}

theorem stageOf_of_lock (stage : FetchStage) (h : s.lock = some (.fetch k true stage)) : s.stageOf k = some stage := by
  simp [stageOf, h]

variable {stage : FetchStage} {j : ℕ} {alive : Bool}

theorem stageOf_other (h : s.lock = some (.fetch k alive stage)) (hj : j ≠ k) :
    s.stageOf j = none := by
  cases alive
  · simp [stageOf, h]
  · simp [stageOf, h, Ne.symm hj]

theorem stageOf_detached (h : s.lock = some (.fetch k alive stage)) (ha : alive = false) (j : ℕ) :
    s.stageOf j = none := by
  simp [stageOf, h, ha]

theorem stageOf_none (h : s.lock = none) (j : ℕ) : s.stageOf j = none := by
  simp [stageOf, h]

theorem stageOf_sweep (alive : Bool) {stage : SweepStage} (h : s.lock = some (.sweep k alive stage)) (j : ℕ) :
    s.stageOf j = none := by
  simp [stageOf, h]

theorem lock_of_stageOf (h : s.stageOf k = some stage) : s.lock = some (.fetch k true stage) := by
  unfold stageOf at h
  split at h
  · next k' st heq =>
    split_ifs at h with hk
    cases h
    rw [heq, hk]
  · cases h

/-- A fetch that nothing happens to. -/
theorem LifeOf.frame (h : s.LifeOf P k) (hf : s'.fetches k = s.fetches k) (hs : s'.stageOf k = s.stageOf k)
    (ht : s'.tasks k = s.tasks k) (hq : s'.requestsOf k = s.requestsOf k) (hl : s'.Leased k → s.Leased k)
    (hg : s.Granted k → s'.Granted k) : s'.LifeOf P k := by
  unfold LifeOf
  rw [hf, hs, ht, hq]
  exact Life.mono h hl hg

theorem granted_of_db (hdb : s'.writer.db = s.writer.db) (hf : s'.fetches k = s.fetches k) (h : s.Granted k) :
    s'.Granted k := by
  unfold Granted Leased Over db at *
  rwa [hdb, hf]

/-- A fetch that nothing happens to while the tables stay as they are. -/
theorem LifeOf.frame_db (h : s.LifeOf P k) (hdb : s'.writer.db = s.writer.db) (hf : s'.fetches k = s.fetches k)
    (hs : s'.stageOf k = s.stageOf k) (ht : s'.tasks k = s.tasks k) (hq : s'.requestsOf k = s.requestsOf k) :
    s'.LifeOf P k :=
  h.frame hf hs ht hq (by unfold Leased db; rw [hdb]; exact id) (granted_of_db hdb hf)

variable {f : Fetch}

section

variable (h : ∀ j, s.LifeOf P j)
include h

/-- One fetch is written, and nothing else. -/
theorem life_write (hk : Life P k (some f) (s.stageOf k) (s.tasks k) (s.requestsOf k) (s.Leased k)
    ((s.setFetch k f).Granted k)) : ∀ j, (s.setFetch k f).LifeOf P j := by
  intro j
  by_cases hj : j = k
  · subst hj
    unfold LifeOf
    rwa [show (s.setFetch j f).fetches j = some f from Function.update_self ..]
  · exact (h j).frame_db rfl (Function.update_of_ne hj _ _) rfl rfl rfl

/-- A fetch that has not asked for the lock goes on, returns an error or is dropped. -/
theorem life_setFetch {f' : Fetch} (hf : s.fetches k = some f)
    (hout : f.phase = .downloading ∨ f.phase = .hashing ∨ f.phase = .locking)
    (hnew : f'.phase = .downloading ∨ f'.phase = .hashing ∨ f'.phase = .locking ∨
      (∃ e, f'.phase = .returned (.error e)) ∨ f'.phase = .dropped) : ∀ j, (s.setFetch k f').LifeOf P j := by
  have hk := h k
  unfold LifeOf at hk
  rw [hf] at hk
  refine life_write h ?_
  generalize s.stageOf k = stage, s.tasks k = t, s.requestsOf k = q at hk ⊢
  have hp : f.phase ≠ .inside ∧ f.phase ≠ .dropped ∧ f.phase ≠ .lost ∧ ∀ r, f.phase ≠ .returned r := by
    rcases hout with h | h | h <;> simp [h]
  cases hk with
  | outside _ hl =>
    rcases hnew with h | h | h | ⟨e, h⟩ | h
    · exact .outside (.inl h) hl
    · exact .outside (.inr (.inl h)) hl
    · exact .outside (.inr (.inr h)) hl
    · exact .failed h (.inl rfl) hl
    · exact .dropped h (.inl rfl) hl
  | installing hf | installed hf | putting hf | ready hf | committed hf | refused hf | verifying hf | verified hf
  | releasing hf | released hf => exact absurd hf hp.1
  | taskPutting hw | taskPut hw | taskRefused hw | taskReleasing hw | taskReleased hw =>
    rcases hw with ⟨hf, -⟩ | ⟨hf, -⟩
    · exact absurd hf hp.1
    · exact absurd hf hp.2.1
  | returned hf | failed hf => exact absurd hf (hp.2.2.2 _)
  | dropped hf | droppedReleasing hf => exact absurd hf hp.2.1
  | lost hf => exact absurd hf hp.2.2.1

theorem life_newFetch (hf : s.fetches k = none)
    (hnew : f.phase = .downloading ∨ ∃ e, f.phase = .returned (.error e)) : ∀ j, (s.setFetch k f).LifeOf P j := by
  have hk := h k
  unfold LifeOf at hk
  rw [hf] at hk
  refine life_write h ?_
  generalize s.stageOf k = stage, s.tasks k = t, s.requestsOf k = q at hk ⊢
  cases hk with
  | absent hl =>
    rcases hnew with h | ⟨e, h⟩
    · exact .outside (.inl h) hl
    · exact .failed h (.inl rfl) hl

theorem life_downloaded {result : Except AttachError (List UInt8)} :
    ∀ j, (s.downloaded P k result).LifeOf P j := by
  unfold downloaded
  split
  · next f hf =>
    split
    · next hp =>
      have hout : f.phase = .downloading ∨ f.phase = .hashing ∨ f.phase = .locking := .inl hp
      split_ifs
      · exact life_setFetch h hf hout (by simp)
      · split
        · exact life_setFetch h hf hout (by simp)
        · split
          · exact life_setFetch h hf hout (by simp)
          · exact life_setFetch h hf hout (by simp)
    · exact h
  · exact h

theorem life_hashed : ∀ j, (s.hashed k).LifeOf P j := by
  unfold hashed
  split
  · next f hf =>
    split
    · next hp =>
      have hout : f.phase = .downloading ∨ f.phase = .hashing ∨ f.phase = .locking := .inr (.inl hp)
      split_ifs
      · exact life_setFetch h hf hout (by simp)
      · exact life_setFetch h hf hout (by simp)
    · exact h
  · exact h

theorem life_lockFetch : ∀ j, (s.lockFetch P k).LifeOf P j := by
  unfold lockFetch
  split
  · next f hlock hf =>
    split
    · next hp =>
      split_ifs
      · exact life_setFetch h hf (.inr (.inr hp)) (by simp)
      · intro j
        by_cases hj : j = k
        · subst hj
          have hj := h j
          unfold LifeOf at hj ⊢
          rw [hf, stageOf_none hlock] at hj
          rw [show (State.stageOf _ j) = _ from stageOf_of_lock _ rfl]
          rw [show (State.fetches _ j) = some { f with phase := .inside } from Function.update_self ..]
          show Life P j _ _ (s.tasks j) (s.requestsOf j) (s.Leased j) _
          generalize s.tasks j = t, s.requestsOf j = q at hj ⊢
          cases hj with
          | outside _ hl => exact .installing rfl hl
          | taskPutting hw | taskPut hw | taskRefused hw | taskReleasing hw | taskReleased hw =>
            rcases hw with ⟨hf, -⟩ | ⟨hf, -⟩ <;> simp [hp] at hf
          | returned hf | failed hf | dropped hf | droppedReleasing hf | lost hf => simp [hp] at hf
        · exact (h j).frame_db rfl (Function.update_of_ne hj _ _)
            ((stageOf_other rfl hj).trans (stageOf_none hlock j).symm) rfl rfl
    · exact h
  · exact h

end

theorem requestsOf_admitted (w : Waiter) (r : AttachmentRequest) (j : ℕ) :
    (s.admitted w r).requestsOf j = s.requestsOf j ++ if Waiter.asksAbout j (w, r) then [(w, r)] else [] := by
  simp only [requestsOf, admitted, List.filter_append, List.filter_cons, List.filter_nil]

/-- The fetch that holds the lock. -/
theorem lifeOf_of_lock {t : Task} {q : List (Waiter × AttachmentRequest)} (hlock : s.lock = some (.fetch k true stage))
    (hf : s.fetches k = some f) (ht : s.tasks k = t) (hq : s.requestsOf k = q)
    (h : Life P k (some f) (some stage) t q (s.Leased k) (s.Granted k)) : s.LifeOf P k := by
  unfold LifeOf
  rwa [hf, stageOf_of_lock _ hlock, ht, hq]

/-- The fetch that holds the lock acts, and the tables stay as they are. -/
theorem life_of_holder (h : ∀ j, s.LifeOf P j) (hlock : s.lock = some (.fetch k true stage))
    (hdb : s'.writer.db = s.writer.db) (hlock' : s'.lock = none ∨ ∃ stage', s'.lock = some (.fetch k true stage'))
    (hother : ∀ j ≠ k, s'.fetches j = s.fetches j ∧ s'.tasks j = s.tasks j ∧ s'.requestsOf j = s.requestsOf j)
    (hk : s'.LifeOf P k) : ∀ j, s'.LifeOf P j := by
  intro j
  by_cases hj : j = k
  · exact hj ▸ hk
  · obtain ⟨hf, ht, hq⟩ := hother j hj
    refine (h j).frame_db hdb hf ?_ ht hq
    rw [stageOf_other hlock hj]
    rcases hlock' with hnone | ⟨stage', hsome⟩
    · exact stageOf_none hnone j
    · exact stageOf_other hsome hj

theorem life_returnFetch {result : Except AttachError CachedAttachment} (h : ∀ j, s.LifeOf P j)
    (hlock : s.lock = some (.fetch k true stage))
    (hk : Life P k (some { f with phase := .returned result }) none (s.tasks k) (s.requestsOf k) (s.Leased k)
      ((s.returnFetch k f result).Granted k)) : ∀ j, (s.returnFetch k f result).LifeOf P j := by
  refine life_of_holder h hlock rfl (.inl rfl) (fun j hj => ⟨Function.update_of_ne hj _ _, rfl, rfl⟩) ?_
  unfold LifeOf
  rw [stageOf_none (s := s.returnFetch k f result) rfl]
  rwa [show (s.returnFetch k f result).fetches k = some { f with phase := .returned result } from Function.update_self ..]

theorem life_failed {e : AttachError} (h : ∀ j, s.LifeOf P j) (hlock : s.lock = some (.fetch k true stage))
    (ht : (s.tasks k).Settled) (hq : s.requestsOf k = []) (hl : ¬s.Leased k) :
    ∀ j, (s.returnFetch k f (.error e)).LifeOf P j :=
  life_returnFetch h hlock (hq ▸ .failed rfl ht hl)

/-- What ended a lease stays when the fetch goes on with its turn. -/
theorem granted_of_turn {f' : Fetch} (hdb : s'.writer.db = s.writer.db) (hf : s.fetches k = some f)
    (hf' : s'.fetches k = some f') (hturn : f'.turnRowId = f.turnRowId) (h : s.Granted k) : s'.Granted k := by
  unfold Granted Leased Over db at *
  rw [hdb]
  refine h.imp_right (Or.imp_right ?_)
  rintro ⟨f₀, hf₀, hover⟩
  obtain rfl := Option.some.inj (hf.symm.trans hf₀)
  exact ⟨f', hf', hturn ▸ hover⟩

variable {room : Except StoreError Unit} {result : Except StoreError ℕ}

theorem life_resumeFetch (h : ∀ j, s.LifeOf P j) (hlock : s.lock = some (.fetch k true stage))
    (hf : s.fetches k = some f)
    (hroom : ∀ token, stage = .verified token (.ok ()) → f.isCancelled = true → room.isOk = false → ¬s.Leased k) :
    ∀ j, (s.resumeFetch P k f stage room).LifeOf P j := by
  have hk := h k
  unfold LifeOf at hk
  rw [hf, stageOf_of_lock _ hlock] at hk
  unfold resumeFetch
  split
  · -- The install job failed.
    obtain ⟨-, ht, hq, hl⟩ := hk.of_stage nofun
    exact life_failed h hlock (.inl ht) hq hl
  · -- The install job is done: the fetch commits.
    obtain ⟨hp, ht, hq, hl⟩ := hk.of_stage nofun
    split_ifs with hcancel hcancellable
    · exact life_failed h hlock (.inl ht) hq hl
    · exact life_of_holder h hlock rfl (.inr ⟨_, rfl⟩) (fun j hj => ⟨rfl, Function.update_of_ne hj _ _, rfl⟩)
        (lifeOf_of_lock rfl hf (Function.update_self ..) hq (.ready hp hl))
    · split
      · exact life_failed h hlock (.inl ht) hq hl
      · refine life_of_holder h hlock rfl (.inr ⟨_, rfl⟩) (fun j hj => ⟨rfl, rfl, ?_⟩) ?_
        · refine (requestsOf_admitted .holder (f.putRequest P k) j).trans ?_
          simp [Waiter.asksAbout, Fetch.putRequest, Ne.symm hj]
        · refine lifeOf_of_lock rfl hf ht ((requestsOf_admitted ..).trans ?_) (.putting hp (by simpa using hcancellable) hl)
          simp [hq, Waiter.asksAbout, Fetch.putRequest]
  · -- The commit failed.
    obtain ⟨-, ht, hq, hl⟩ := hk.of_stage nofun
    exact life_failed h hlock ht hq hl
  · -- The commit is done: the fetch looks at the file again.
    next token =>
    obtain ⟨rfl, hp, ht, hq, hg⟩ := hk.of_stage nofun
    exact life_of_holder h hlock rfl (.inr ⟨_, rfl⟩) (fun j hj => ⟨rfl, rfl, rfl⟩)
      (lifeOf_of_lock rfl hf rfl hq (.verifying hp ht hg))
  · -- The second check failed.
    next token e =>
    obtain ⟨-, -, ht, hq, -, hl⟩ := hk.of_stage nofun
    exact life_failed h hlock ht hq (hl e rfl)
  · -- The attachment is ready, or the lease goes back.
    next token =>
    obtain ⟨rfl, hp, ht, hq, hg, -⟩ := hk.of_stage nofun
    split_ifs with hcancel
    · split
      · exact life_failed h hlock ht hq (hroom token rfl hcancel rfl)
      · refine life_of_holder h hlock rfl (.inr ⟨_, rfl⟩) (fun j hj => ⟨rfl, rfl, ?_⟩) ?_
        · refine (requestsOf_admitted .holder (.releaseAttachmentLease token) j).trans ?_
          simp [Waiter.asksAbout, Ne.symm hj]
        · refine lifeOf_of_lock rfl hf rfl ((requestsOf_admitted ..).trans ?_) (.releasing hp ht)
          simp [hq, Waiter.asksAbout]
    · refine life_returnFetch h hlock ?_
      rw [hq]
      exact .returned rfl ht (granted_of_turn (s := s) rfl hf (Function.update_self ..) rfl hg)
  · -- The lease went back.
    obtain ⟨-, ht, hq, hl⟩ := hk.of_stage nofun
    exact life_failed h hlock ht hq hl
  · exact h
  · exact h
  · exact h
  · exact h

theorem life_cancel (h : ∀ j, s.LifeOf P j) (hf : s.fetches k = some f) :
    ∀ j, (s.setFetch k { f with cancelled := true }).LifeOf P j := by
  have hk := h k
  unfold LifeOf at hk
  rw [hf] at hk
  exact life_write h (hk.cancel_mono true id (granted_of_turn rfl hf (Function.update_self ..) rfl))

/-! ## The task -/

/-- A result reaches the fetch that waits for it, or nobody. -/
theorem lock_finishTask (result : Except StoreError ℕ) :
    s.lock = some (.fetch k true (.committing none)) ∧
        (s.finishTask k result).lock = some (.fetch k true (.committing (some result))) ∨
      (s.finishTask k result).lock = s.lock := by
  unfold finishTask
  dsimp only
  split
  · next k' hlock =>
    split_ifs with hk
    · exact .inl ⟨by rw [hlock, hk], rfl⟩
    · exact .inr rfl
  · exact .inr rfl

theorem stageOf_finishTask (h : s.stageOf k = some (.committing none)) :
    (s.finishTask k result).stageOf k = some (.committing (some result)) := by
  have hlock := lock_of_stageOf h
  exact stageOf_of_lock _ (by simp [finishTask, hlock])

theorem stageOf_finishTask_other (h : j ≠ k ∨ s.stageOf j = none) :
    (s.finishTask k result).stageOf j = s.stageOf j := by
  rcases s.lock_finishTask (k := k) result with ⟨hlock, hlock'⟩ | hsame
  · rcases h with hj | hnone
    · rw [stageOf_other hlock' hj, stageOf_other hlock hj]
    · by_cases hj : j = k
      · rw [hj, stageOf_of_lock _ hlock] at hnone
        cases hnone
      · rw [stageOf_other hlock' hj, stageOf_other hlock hj]
  · simp only [stageOf, hsame]

theorem life_finishTask (h : ∀ j, s.LifeOf P j) (hf : s.fetches k = some f) (hw : Waits f (s.stageOf k))
    (hq : s.requestsOf k = [])
    (hok : ∀ token, result = .ok token → token = k ∧ s.Granted k ∧ (f.phase = .dropped → ¬s.Leased k))
    (herr : ∀ e, result = .error e → ¬s.Leased k) : ∀ j, (s.finishTask k result).LifeOf P j := by
  intro j
  by_cases hj : j = k
  · subst hj
    unfold LifeOf
    show Life P j (s.fetches j) _ (Function.update s.tasks j Task.finished j) (s.requestsOf j) (s.Leased j) (s.Granted j)
    rw [hf, hq, Function.update_self]
    rcases hw with ⟨hp, hstage⟩ | ⟨hp, hstage⟩
    · rw [stageOf_finishTask hstage]
      cases result with
      | error e => exact .refused hp (.inr rfl) (herr e rfl)
      | ok token =>
        obtain ⟨rfl, hg, -⟩ := hok token rfl
        exact .committed hp (.inr rfl) hg
    · rw [stageOf_finishTask_other (.inr hstage), hstage]
      refine .dropped hp (.inr rfl) ?_
      cases result with
      | error e => exact herr e rfl
      | ok token => exact (hok token rfl).2.2 hp
  · exact (h j).frame_db rfl rfl (stageOf_finishTask_other (.inl hj)) (Function.update_of_ne hj _ _) rfl

variable {r : AttachmentRequest}

theorem life_askTask {t : Task} (h : ∀ j, s.LifeOf P j) (hf : s.fetches k = some f)
    (hask : ∀ j, Waiter.asksAbout j (.task k, r) = decide (k = j))
    (hk : Life P k (some f) (s.stageOf k) t (s.requestsOf k ++ [(.task k, r)]) (s.Leased k) (s.Granted k)) :
    ∀ j, ((s.setTask k t).admitted (.task k) r).LifeOf P j := by
  intro j
  by_cases hj : j = k
  · subst hj
    unfold LifeOf
    rw [requestsOf_admitted, hask]
    show Life P j (s.fetches j) (s.stageOf j) (Function.update s.tasks j t j) (s.requestsOf j ++ _) (s.Leased j)
      (s.Granted j)
    rw [hf, Function.update_self]
    simpa using hk
  · refine (h j).frame_db rfl rfl rfl (Function.update_of_ne hj _ _) ?_
    rw [requestsOf_admitted, hask]
    simp [requestsOf, setTask, Ne.symm hj]

theorem life_pollTask (h : ∀ j, s.LifeOf P j)
    (hroom : ∀ f token, s.fetches k = some f → s.tasks k = .putting (some (.ok token)) → f.isCancelled = true →
      room.isOk = false → ¬s.Leased k) : ∀ j, (s.pollTask P k room).LifeOf P j := by
  unfold pollTask
  split
  · next f hf =>
    have hk := h k
    unfold LifeOf at hk
    rw [hf] at hk
    split
    · -- The task starts.
      next ht =>
      rw [ht] at hk
      obtain ⟨hp, hstage, hq, hl⟩ := hk.of_task (by simp [Task.Settled])
      split
      · exact life_finishTask h hf (.inl ⟨hp, hstage⟩) hq nofun fun _ _ => hl
      · refine life_askTask h hf (fun j => rfl) ?_
        rw [hq]
        exact .taskPutting (.inl ⟨hp, hstage⟩) (fun hd => by simp [hp] at hd) hl
    · -- The commit was refused.
      next e ht =>
      rw [ht] at hk
      obtain ⟨hw, hq, hl⟩ := hk.of_task (by simp [Task.Settled])
      exact life_finishTask h hf hw hq nofun fun _ _ => hl
    · -- The commit is done, and the task looks at the token.
      next token ht =>
      rw [ht] at hk
      obtain ⟨rfl, hw, hq, hg, hd⟩ := hk.of_task (by simp [Task.Settled])
      split_ifs with hc
      · split
        · exact life_finishTask h hf hw hq nofun fun _ _ => hroom f token hf ht hc rfl
        · refine life_askTask h hf (fun j => rfl) ?_
          rw [hq]
          exact .taskReleasing hw hg
      · exact life_finishTask h hf hw hq (fun _ he => by cases he; exact ⟨rfl, hg, fun hp hl => hc (hd hp hl)⟩) nofun
    · -- The lease went back.
      next token ht =>
      rw [ht] at hk
      obtain ⟨rfl, hw, hq, hl, hg⟩ := hk.of_task (by simp [Task.Settled])
      exact life_finishTask h hf hw hq (fun _ he => by cases he; exact ⟨rfl, hg, fun _ => hl⟩) nofun
    · next token e ht =>
      rw [ht] at hk
      obtain ⟨rfl, hw, hq, hl, hg⟩ := hk.of_task (by simp [Task.Settled])
      exact life_finishTask h hf hw hq nofun fun _ _ => hl
    · exact h
  · exact h

/-! ## Drops and crashes -/

theorem asksAbout_forget (j : ℕ) (e : Waiter × AttachmentRequest) :
    Waiter.asksAbout j (Waiter.forget e) = Waiter.asksAbout j e := by
  obtain ⟨w, r⟩ := e
  unfold Waiter.forget
  split_ifs with hw
  · simp only at hw
    subst hw
    cases r <;> rfl
  · rfl

theorem requestsOf_orphaned (j : ℕ) : s.orphaned.requestsOf j = (s.requestsOf j).map Waiter.forget := by
  simp only [requestsOf, orphaned, List.filter_map]
  congr 1
  exact List.filter_congr fun e _ => asksAbout_forget j e

/-- Requests that the holder does not wait for stay as they are. -/
theorem map_forget {q : List (Waiter × AttachmentRequest)} (h : ∀ e ∈ q, e.1 ≠ .holder) : q.map Waiter.forget = q := by
  conv_rhs => rw [← List.map_id q]
  exact List.map_congr_left fun e he => by simp [Waiter.forget, h e he]

/-- The lock after the holder was dropped: its blocking job keeps it, and else the receiver of its reply is gone too. -/
theorem abandon_cases (s : State) :
    (∃ h, s.abandon = { s with lock := some h } ∧ h.install? = s.install? ∧ (∀ k stage, h ≠ .fetch k true stage) ∧
        ∀ k stage, s.lock = some (.fetch k true stage) → stage ≠ .committing none ∧ stage ≠ .releasing false) ∨
      s.abandon = { s.orphaned with lock := none } ∧ s.install? = none := by
  unfold abandon install?
  cases hlock : s.lock with
  | none => exact .inr ⟨rfl, rfl⟩
  | some h =>
    cases h with
    | fetch k alive stage | sweep k alive stage => cases stage with | _ => simp [Holder.install?]

theorem frame_abandon (s : State) : s.abandon.fetches = s.fetches ∧ s.abandon.tasks = s.tasks ∧
    s.abandon.writer = s.writer ∧ s.abandon.disk = s.disk := by
  rcases s.abandon_cases with ⟨h, heq, -⟩ | ⟨heq, -⟩
  · rw [heq]
    exact ⟨rfl, rfl, rfl, rfl⟩
  · rw [heq]
    exact ⟨rfl, rfl, rfl, rfl⟩

theorem stageOf_abandon (s : State) (j : ℕ) : s.abandon.stageOf j = none := by
  rcases s.abandon_cases with ⟨h', heq, -, hnot, -⟩ | ⟨heq, -⟩
  · cases hst : s.abandon.stageOf j with
    | none => rfl
    | some stage =>
      have hlock := lock_of_stageOf hst
      rw [heq] at hlock
      exact absurd (Option.some.inj hlock) (hnot j stage)
  · rw [heq]
    exact stageOf_none rfl j

/-- The requests of a fetch after the holder was dropped. -/
theorem requestsOf_abandon (h : s.LifeOf P k) : s.abandon.requestsOf k = (s.requestsOf k).map Waiter.forget := by
  rcases s.abandon_cases with ⟨h', heq, -, -, hwait⟩ | ⟨heq, -⟩
  · rw [heq]
    refine (map_forget (Life.no_holder h ?_ ?_)).symm
    · exact fun hst => (hwait k _ (lock_of_stageOf hst)).1 rfl
    · exact fun hst => (hwait k _ (lock_of_stageOf hst)).2 rfl
  · rw [heq]
    exact requestsOf_orphaned k

/-- A fetch that does not hold the lock while the holder is dropped. -/
theorem LifeOf.abandon (h : s.LifeOf P k) (hstage : s.stageOf k = none) : s.abandon.LifeOf P k := by
  obtain ⟨hf, ht, hw, -⟩ := s.frame_abandon
  refine h.frame_db (by rw [hw]) (by rw [hf]) ?_ (by rw [ht]) ?_
  · rw [hstage, stageOf_abandon]
  · rw [requestsOf_abandon h]
    exact map_forget (Life.no_holder h (by simp [hstage]) (by simp [hstage]))

theorem stageOf_eq_none_of_holds (h : s.holdsFetch k = false) : s.stageOf k = none := by
  unfold holdsFetch at h
  unfold stageOf
  split at h <;> simp_all

variable {e : Waiter × AttachmentRequest} {sha256 : String} {bytes : ℕ} {w : Waiter} {d : Disk}
  {a : Except StoreError AttachmentAnswer} {rest : List (Waiter × AttachmentRequest)}

theorem mem_requestsOf :
    e ∈ s.requestsOf k ↔ e ∈ s.queue ∧ Waiter.asksAbout k e = true := List.mem_filter

theorem asksAbout_puts (h : e.2.Puts k sha256 bytes) (hw : e.1 ≠ .client) :
    Waiter.asksAbout k e = true := by
  obtain ⟨w, r⟩ := e
  obtain ⟨kind, turnRowId, rfl⟩ := h
  cases w <;> simp_all [Waiter.asksAbout]

theorem asksAbout_release (h : e.2 = .releaseAttachmentLease k) (hw : e.1 ≠ .client) :
    Waiter.asksAbout k e = true := by
  obtain ⟨w, r⟩ := e
  simp only at h
  subst h
  cases w <;> simp_all [Waiter.asksAbout]

theorem life_dropFetch (h : ∀ j, s.LifeOf P j)
    (hwell : s.holdsFetch k = true → s.tasks k ≠ .ready ∧ (s.Holds k → s.Compensated k)) :
    ∀ j, (s.dropFetch k).LifeOf P j := by
  unfold dropFetch
  split
  · next f hlive =>
    obtain ⟨hf, hphase⟩ : s.fetches k = some f ∧ (f.phase = .inside ∨
        f.phase = .downloading ∨ f.phase = .hashing ∨ f.phase = .locking) := by
      unfold liveFetch at hlive
      split at hlive
      · next f' hf' =>
        split at hlive <;> cases hlive
        refine ⟨hf', ?_⟩
        cases hp : f.phase <;> simp_all
      · cases hlive
    cases hholds : s.holdsFetch k with
    | false =>
      rw [if_neg Bool.false_ne_true]
      have hk := h k
      unfold LifeOf at hk
      rw [hf, stageOf_eq_none_of_holds hholds] at hk
      rcases hphase with hp | hp
      · exact absurd rfl (hk.stage_of_inside hp)
      · exact life_setFetch h hf hp (by simp)
    | true =>
      obtain ⟨hready, hcomp⟩ := hwell hholds
      obtain ⟨stage, hlock⟩ : ∃ stage, s.lock = some (.fetch k true stage) := by
        unfold holdsFetch at hholds
        split at hholds
        · next k' stage hlock =>
          simp only [decide_eq_true_eq] at hholds
          exact ⟨stage, by rw [hlock, hholds]⟩
        · cases hholds
      rw [if_pos rfl]
      intro j
      by_cases hj : j = k
      · subst hj
        have hk := h j
        unfold LifeOf at hk
        rw [hf, stageOf_of_lock _ hlock] at hk
        have hdrop := hk.drop hready fun hheld => by
          have hHolds : s.Holds j := hheld.imp_right fun ⟨e, he, hputs⟩ => ⟨e, (mem_requestsOf.1 he).1, hputs⟩
          rcases hcomp hHolds with ⟨f', hf', hcan, htask⟩ | ⟨e, he, hw, hrel⟩
          · rw [hf] at hf'
            cases hf'
            exact .inl ⟨hcan, htask⟩
          · exact .inr ⟨e, mem_requestsOf.2 ⟨he, asksAbout_release hrel hw⟩, hrel⟩
        obtain ⟨hfetches, htasks, hwriter, -⟩ := s.frame_abandon
        unfold LifeOf
        rw [show (s.abandon.fetchTo j f .dropped).fetches j = some { f with phase := .dropped } from
          Function.update_self ..]
        show Life P j _ (s.abandon.stageOf j) (s.abandon.tasks j) (s.abandon.requestsOf j) (s.abandon.Leased j) _
        rw [stageOf_abandon, htasks, requestsOf_abandon (h j)]
        exact hdrop.mono (by unfold Leased db; rw [hwriter]; exact id)
          (granted_of_turn (congrArg _ hwriter) hf (Function.update_self ..) rfl)
      · have hstage : s.stageOf j = none := stageOf_other hlock hj
        have hj' := (h j).abandon hstage
        exact hj'.frame_db rfl (Function.update_of_ne hj _ _) rfl rfl rfl
  · exact h

theorem life_crash (h : ∀ j, s.LifeOf P j) : ∀ j, s.crash.LifeOf P j := by
  intro j
  have hj := h j
  unfold LifeOf at hj ⊢
  rw [stageOf_none (s := s.crash) rfl]
  show Life P j ((s.fetches j).map _) none .idle [] (s.Leased j) _
  cases hf : s.fetches j with
  | none =>
    rw [hf] at hj
    generalize s.stageOf j = stage, s.tasks j = t, s.requestsOf j = q at hj
    cases hj with
    | absent hl => exact .absent hl
  | some f =>
    rw [hf] at hj
    have hcrash : s.crash.fetches j = some { f with phase := f.phase.crashed (s.pending j) } := by simp [crash, hf]
    refine (hj.crash (b := s.pending j) fun hb => ?_).mono id (granted_of_turn rfl hf hcrash rfl)
    simp only [pending, Bool.or_eq_false_iff, List.any_eq_false] at hb
    refine ⟨?_, List.filter_eq_nil_iff.2 fun e he => hb.2 e he⟩
    cases ht : s.tasks j <;> simp_all [Task.Settled]

/-! ## Passes, blocking jobs and turns -/

/-- A pass leaves every fetch alone. -/
theorem LifeOf.sweep (h : s.LifeOf P k) (hdb : s'.writer = s.writer) (hf : s'.fetches = s.fetches)
    (ht : s'.tasks = s.tasks) (hstage : s.stageOf k = none) (hstage' : s'.stageOf k = none)
    (hq : s'.requestsOf k = s.requestsOf k) : s'.LifeOf P k :=
  h.frame_db (by rw [hdb]) (by rw [hf]) (hstage'.trans hstage.symm) (by rw [ht]) hq

theorem requestsOf_request (h : ∀ j, Waiter.asksAbout j (w, r) = false) (j : ℕ) :
    (s.admitted w r).requestsOf j = s.requestsOf j := by
  rw [requestsOf_admitted, h]
  simp

theorem asksAbout_call (call : SweepCall) (j : ℕ) : Waiter.asksAbout j (.holder, call.request) = false := by
  cases call <;> rfl

section

variable (h : ∀ j, s.LifeOf P j)
include h

theorem life_advance {next : SweepNext} (hstage : ∀ j, s.stageOf j = none) :
    ∀ j, (s.advance k next room).LifeOf P j := by
  intro j
  unfold advance
  split
  · exact (h j).sweep rfl rfl rfl (hstage j) (stageOf_none rfl j) rfl
  · exact (h j).sweep rfl rfl rfl (hstage j) (stageOf_sweep _ rfl j) rfl
  · next call =>
    split
    · exact (h j).sweep rfl rfl rfl (hstage j) (stageOf_none rfl j) rfl
    · exact (h j).sweep rfl rfl rfl (hstage j) (stageOf_sweep _ rfl j) (requestsOf_request (asksAbout_call call) j)

theorem life_enterReconcile :
    ∀ j, (s.enterReconcile k room).LifeOf P j := by
  intro j
  unfold enterReconcile
  split
  · split
    · exact (h j).frame_db rfl rfl rfl rfl rfl
    · exact (h j).frame_db rfl rfl rfl rfl (requestsOf_request (fun _ => rfl) j)
  · exact h j

theorem life_dropSweep : ∀ j, (s.dropSweep k).LifeOf P j := by
  intro j
  unfold dropSweep
  split
  · cases hholds : s.holdsSweep k with
    | false => exact (h j).frame_db rfl rfl rfl rfl rfl
    | true =>
      have hstage : s.stageOf j = none := by
        unfold holdsSweep at hholds
        split at hholds
        · next hlock => exact stageOf_sweep _ hlock j
        · cases hholds
      exact ((h j).abandon hstage).frame_db rfl rfl rfl rfl rfl
  · exact h j

/-- The blocking job of the fetch that holds the lock goes on or ends. -/
theorem life_jobStage {stage' : FetchStage} (hlock : s.lock = some (.fetch k true stage))
    (hk : ∀ f, Life P k (some f) (some stage) (s.tasks k) (s.requestsOf k) (s.Leased k) (s.Granted k) →
      Life P k (some f) (some stage') (s.tasks k) (s.requestsOf k) (s.Leased k) (s.Granted k)) :
    ∀ j, ({ s with disk := d, lock := some (.fetch k true stage') } : State).LifeOf P j := by
  refine life_of_holder h hlock rfl (.inr ⟨stage', rfl⟩) (fun _ _ => ⟨rfl, rfl, rfl⟩) ?_
  have hlife := h k
  unfold LifeOf at hlife ⊢
  rw [stageOf_of_lock _ hlock] at hlife
  rw [stageOf_of_lock stage' rfl]
  show Life P k (s.fetches k) _ (s.tasks k) (s.requestsOf k) (s.Leased k) (s.Granted k)
  cases hf : s.fetches k with
  | none =>
    rw [hf] at hlife
    generalize s.tasks k = t, s.requestsOf k = q at hlife
    cases hlife
  | some f =>
    rw [hf] at hlife
    exact hk f hlife

/-- A detached job leaves every fetch alone. -/
theorem life_detached {lock : Option Holder} (hlock : s.lock = some (.fetch k false stage))
    (hnone : lock = none ∨ ∃ stage', lock = some (.fetch k false stage')) :
    ∀ j, ({ s with disk := d, lock := lock } : State).LifeOf P j := by
  intro j
  refine (h j).sweep rfl rfl rfl (stageOf_detached hlock rfl j) ?_ rfl
  rcases hnone with rfl | ⟨stage', rfl⟩
  · exact stageOf_none rfl j
  · exact stageOf_detached rfl rfl j

theorem life_work {fault : Bool} (hwell : ∀ k token job, s.lock = some (.fetch k true (.verifying token job)) → s.Leased k →
      ∀ e, (job.work P s.disk fault).2 ≠ .inr (.error e)) : ∀ j, (s.work P fault).LifeOf P j := by
  unfold work
  split
  · next k alive job hlock =>
    cases alive with
    | false =>
      split
      · exact life_detached h hlock (.inr ⟨_, rfl⟩)
      · exact life_detached h hlock (.inl rfl)
    | true =>
      split
      · refine life_jobStage h hlock fun f hk => ?_
        obtain ⟨hp, ht, hq, hl⟩ := hk.of_stage nofun
        rw [ht, hq]
        exact .installing hp hl
      · refine life_jobStage h hlock fun f hk => ?_
        obtain ⟨hp, ht, hq, hl⟩ := hk.of_stage nofun
        rw [ht, hq]
        exact .installed hp hl
  · next k alive token job hlock =>
    cases alive with
    | false =>
      split
      · exact life_detached h hlock (.inr ⟨_, rfl⟩)
      · exact life_detached h hlock (.inl rfl)
    | true =>
      split
      · refine life_jobStage h hlock fun f hk => ?_
        obtain ⟨rfl, hp, ht, hq, hg⟩ := hk.of_stage nofun
        rw [hq]
        exact .verifying hp ht hg
      · next result hwork =>
        refine life_jobStage h hlock fun f hk => ?_
        obtain ⟨rfl, hp, ht, hq, hg⟩ := hk.of_stage nofun
        rw [hq]
        refine .verified hp ht hg fun e he hl => hwell token token job hlock hl e ?_
        rw [hwork, he]
  · next k alive job hlock =>
    intro j
    split
    · refine (h j).sweep rfl rfl rfl (stageOf_sweep _ hlock j) ?_ rfl
      exact stageOf_sweep alive rfl j
    · refine (h j).sweep rfl rfl rfl (stageOf_sweep _ hlock j) ?_ rfl
      cases alive with
      | false => exact stageOf_none rfl j
      | true => exact stageOf_sweep true rfl j
  · exact h

/-- Turns begin and end; one that is over stays over. -/
theorem life_turns {turns : ℕ → Option Bool} (hover : ∀ turn, s.Over turn → turns turn = some true) :
    ∀ j, ({ s with writer := { s.writer with db := { s.writer.db with turns := turns } } } : State).LifeOf P j := by
  intro j
  refine (h j).frame rfl rfl rfl rfl id fun hg => ?_
  rcases hg with hg | hg | ⟨f, hf, ho⟩
  · exact .inl hg
  · exact .inr (.inl hg)
  · exact .inr (.inr ⟨f, hf, hover _ ho⟩)

/-! ## The store writer -/

end

/-- A queued request of a pass that holds the lock. -/
def asksForSweep : Waiter × AttachmentRequest → Bool
  | (.holder, .putAttachmentAndLease _ _ _ _ _) | (.holder, .releaseAttachmentLease _) => false
  | (.holder, _) => true
  | _ => false

/-- What the pass that holds the lock waits for. -/
def sweepAsks (s : State) : List AttachmentRequest :=
  match s.lock with
  | some (.sweep _ true (.calling call none)) => [call.request]
  | _ => []

/-- Every queued request is of a kind that its receiver makes, and the one of a pass that holds the lock is the one it
waits for. -/
structure QueueOk (s : State) : Prop where
  clients : ∀ e ∈ s.queue, e.1 = .client → ∀ k sha256 bytes, ¬e.2.Puts k sha256 bytes
  tasks : ∀ e ∈ s.queue, ∀ k, e.1 = .task k → Waiter.asksAbout k e = true
  snapshots : ∀ e ∈ s.queue, ∀ k, e.1 = .snapshot k → e.2 = .listAttachments
  forced : ∀ e ∈ s.queue, ∀ sha256, e.2 ≠ .deleteAttachmentForce sha256
  sweeps : (s.queue.filter asksForSweep).map (·.2) = s.sweepAsks

variable (P) in
/-- Every lease is of a fetch, under its hash and for its turn. -/
def LeasesOk (s : State) : Prop :=
  ∀ lease ∈ s.db.leases, ∃ f, s.fetches lease.leaseToken = some f ∧ lease.sha256 = P.sha256Hex f.content ∧
    lease.turnRowId = f.turnRowId

theorem leased_of_shrinks (h : s.db.Shrinks s'.db) (hl : s'.Leased k) : s.Leased k := by
  obtain ⟨lease, hlease, heq⟩ := hl
  exact ⟨lease, h.leases lease hlease, heq⟩

theorem granted_of_shrinks (hok : s.LeasesOk P) (h : s.db.Shrinks s'.db) (hf : s'.fetches = s.fetches)
    (hg : s.Granted k) : s'.Granted k := by
  have hturns : s'.db.turns = s.db.turns := h.turns
  rcases hg with ⟨lease, hlease, heq⟩ | hg | ⟨f, hfk, hover⟩
  · rcases h.kept lease hlease with hkept | hreleased | hover
    · exact .inl ⟨lease, hkept, heq⟩
    · exact .inr (.inl (heq ▸ hreleased))
    · obtain ⟨f, hfk, -, hturn⟩ := hok lease hlease
      refine .inr (.inr ⟨f, by rw [hf, ← heq]; exact hfk, ?_⟩)
      unfold Over
      rw [hturns, ← hturn]
      exact hover
  · exact .inr (.inl (h.released hg))
  · refine .inr (.inr ⟨f, by rw [hf]; exact hfk, ?_⟩)
    unfold Over
    rw [hturns]
    exact hover

/-- What the writer does with a request that stores no lease and forces nothing. -/
theorem runSized_shrinks (fate : Fate) (now : ℤ) (w : Writer AttachmentDb)
    (hput : ∀ k sha256 bytes, ¬r.Puts k sha256 bytes) (hforce : ∀ sha256, r ≠ .deleteAttachmentForce sha256) :
    w.db.Shrinks (w.runSized fate (r.job now)).2.db := by
  rcases w.runSized_cases fate (r.job now) with ⟨e, -, hdb⟩ | ⟨a, db, hj, -, -, hr⟩ | ⟨a, db, e, hj, -, -, hr⟩
  · rw [hdb]
    exact AttachmentDb.shrinks_refl _
  · rw [hr]
    exact AttachmentRequest.job_shrinks hj hput hforce
  · rw [hr]
    exact AttachmentRequest.job_shrinks hj hput hforce

/-- A release that the writer serves leaves no lease behind. -/
theorem runSized_release (fate : Fate) (now : ℤ) (w : Writer AttachmentDb)
    (h : (∃ lease ∈ w.db.leases, lease.leaseToken = k) → w.alive = true ∧ ∀ e stops, fate ≠ .reject e stops) :
    ∀ lease ∈ (w.runSized fate ((AttachmentRequest.releaseAttachmentLease k).job now)).2.db.leases,
      lease.leaseToken ≠ k := by
  rcases w.runSized_cases fate ((AttachmentRequest.releaseAttachmentLease k).job now) with
    ⟨e, he, hdb⟩ | ⟨a, db, hj, -, -, hr⟩ | ⟨a, db, e, hj, -, -, hr⟩
  · rw [hdb]
    intro lease hlease heq
    obtain ⟨halive, hfate⟩ := h ⟨lease, hlease, heq⟩
    unfold Writer.runSized at he hdb
    rw [if_pos halive] at he hdb
    cases fate with
    | reject e stops => exact hfate e stops rfl
    | execute => simp [AttachmentRequest.job] at he
    | executeThenFail e =>
      have hgone := @AttachmentRequest.release_gone now k w.db _ _ rfl lease
      simp only [AttachmentRequest.job] at hdb hgone
      rw [← hdb] at hlease
      exact hgone hlease heq
  · rw [hr]
    exact AttachmentRequest.release_gone hj
  · rw [hr]
    exact AttachmentRequest.release_gone hj

/-- What the writer does with a request that stores a lease, where it does not fail after it. -/
theorem runSized_put (fate : Fate) (now : ℤ) {kind : String} {turnRowId : ℕ} (w : Writer AttachmentDb)
    (hr : r = .putAttachmentAndLease k sha256 bytes kind turnRowId)
    (h : w.alive = true → ∀ e, fate = .executeThenFail e → ∀ p, r.job now w.db ≠ .ok p) :
    (∃ e, (w.runSized fate (r.job now)).1 = .error e ∧ (w.runSized fate (r.job now)).2.db = w.db) ∨
    ∃ a, (w.runSized fate (r.job now)).1 = .ok a ∧ a.token = k ∧ (w.runSized fate (r.job now)).2.db = { w.db with
      attachments := w.db.upsert sha256 bytes kind now
      leases := w.db.leases ++ [⟨k, sha256, turnRowId, now⟩] } := by
  rcases w.runSized_cases fate (r.job now) with hsame | ⟨a, db, hj, -, -, heq⟩ | ⟨a, db, e, hj, halive, hfate, -⟩
  · exact .inl hsame
  · rw [heq]
    subst hr
    obtain ⟨htoken, hdb⟩ := AttachmentDb.put_eq_ok hj
    exact .inr ⟨a, rfl, htoken, hdb⟩
  · exact absurd hj (h halive e hfate _)

theorem deliver_frame (s : State) (w : Waiter) (a : Except StoreError AttachmentAnswer) :
    (s.deliver w a).fetches = s.fetches ∧ (s.deliver w a).writer = s.writer ∧ (s.deliver w a).queue = s.queue ∧
      (s.deliver w a).disk = s.disk ∧ ((∀ j, w ≠ .task j) → (s.deliver w a).tasks = s.tasks) ∧
      (w ≠ .holder → (s.deliver w a).lock = s.lock) := by
  unfold deliver
  cases w with
  | holder => exact ⟨rfl, rfl, rfl, rfl, fun _ => rfl, fun h => absurd rfl h⟩
  | task k => dsimp only; split <;> exact ⟨rfl, rfl, rfl, rfl, fun h => absurd rfl (h k), fun _ => rfl⟩
  | snapshot k => dsimp only; split <;> exact ⟨rfl, rfl, rfl, rfl, fun _ => rfl, fun _ => rfl⟩
  | client | nobody => exact ⟨rfl, rfl, rfl, rfl, fun _ => rfl, fun _ => rfl⟩

theorem tasks_deliver_other (hj : j ≠ k) :
    (s.deliver (.task k) a).tasks j = s.tasks j := by
  unfold deliver
  dsimp only
  split
  · exact Function.update_of_ne hj _ _
  · exact Function.update_of_ne hj _ _
  · rfl

/-- A reply for a pass reaches no fetch. -/
theorem stageOf_deliver_sweep {call : SweepCall} (h : s.lock = some (.sweep k true (.calling call none))) (j : ℕ) :
    (s.deliver .holder a).stageOf j = s.stageOf j := by
  have hcalling : (s.deliver .holder a).lock = some (.sweep k true (.calling call (some a))) := by simp [deliver, h]
  rw [stageOf_sweep true h, stageOf_sweep true hcalling]

theorem lock_deliver_fetch (w : Waiter) (a : Except StoreError AttachmentAnswer)
    (h : s.lock = some (.fetch k true stage)) : ∃ stage', (s.deliver w a).lock = some (.fetch k true stage') := by
  by_cases hw : w = .holder
  · subst hw
    unfold deliver
    simp only [h]
    split <;> simp_all
  · exact ⟨stage, by rw [(s.deliver_frame w a).2.2.2.2.2 hw, h]⟩

theorem asksAbout_unique (hk : Waiter.asksAbout k e = true) (hj : j ≠ k) :
    Waiter.asksAbout j e = false := by
  obtain ⟨w, r⟩ := e
  cases w <;> cases r <;> simp_all [Waiter.asksAbout, Ne.symm]

/-- The head of the queue is about the fetch `k`. -/
theorem requestsOf_head (hqueue : s.queue = (w, r) :: rest) (k : ℕ) :
    s.requestsOf k = if Waiter.asksAbout k (w, r) then (w, r) :: rest.filter (Waiter.asksAbout k)
      else rest.filter (Waiter.asksAbout k) := by
  simp only [requestsOf, hqueue, List.filter_cons]

/-- A request at the head of the queue that asks for a pass is that of the pass inside. -/
theorem QueueOk.sweep_head (h : s.QueueOk) (hqueue : s.queue = (w, r) :: rest) (hasks : asksForSweep (w, r) = true) :
    ∃ k call, s.lock = some (.sweep k true (.calling call none)) ∧ r = call.request ∧
      (rest.filter asksForSweep).map (·.2) = [] ∧ w = .holder := by
  have hw : w = .holder := by cases w <;> simp_all [asksForSweep]
  have hsweeps := h.sweeps
  rw [hqueue, List.filter_cons_of_pos hasks, List.map_cons] at hsweeps
  unfold sweepAsks at hsweeps
  split at hsweeps
  · next hlock => exact ⟨_, _, hlock, (List.cons.inj hsweeps).1, (List.cons.inj hsweeps).2, hw⟩
  · cases hsweeps

/-- Any other request of the holder is that of the fetch inside. -/
theorem holder_fetch (h : ∀ j, s.LifeOf P j) (hqueue : s.queue = (.holder, r) :: rest)
    (hasks : asksForSweep (.holder, r) = false) : ∃ j stage, s.lock = some (.fetch j true stage) := by
  obtain ⟨j, hj⟩ : ∃ j, Waiter.asksAbout j (.holder, r) = true := by
    cases r <;> simp_all [asksForSweep, Waiter.asksAbout]
  have hlife := h j
  unfold LifeOf at hlife
  rw [requestsOf_head hqueue, if_pos hj] at hlife
  obtain ⟨-, f, -, hcases⟩ := hlife.of_request
  rcases hcases with ⟨-, -, hstage, -⟩ | ⟨he, -⟩ | ⟨he, -⟩ | ⟨-, -, -, hstage⟩ | ⟨he, -⟩
  · exact ⟨j, _, lock_of_stageOf hstage⟩
  · cases he
  · cases he
  · exact ⟨j, _, lock_of_stageOf hstage⟩
  · cases he

/-- A fetch that the served request is not about, while leases only go. -/
theorem LifeOf.served_other (h : s.LifeOf P k) (hqueue : s.queue = (w, r) :: rest) (hf : s'.fetches = s.fetches)
    (hq : s'.queue = rest) (habout : Waiter.asksAbout k (w, r) = false) (hstage : s'.stageOf k = s.stageOf k)
    (htask : s'.tasks k = s.tasks k) (hl : s'.Leased k → s.Leased k) (hg : s.Granted k → s'.Granted k) :
    s'.LifeOf P k := by
  refine h.frame (by rw [hf]) hstage htask ?_ hl hg
  rw [requestsOf_head hqueue, habout]
  simp only [requestsOf, hq, Bool.false_eq_true, if_false]

/-- **One request of the writer.** -/
theorem life_serve {fate : Fate} {now : ℤ} (h : ∀ j, s.LifeOf P j) (hok : s.QueueOk) (hleases : s.LeasesOk P)
    (hwell : ∀ w r rest, s.queue = (w, r) :: rest →
      (∀ k, r = .releaseAttachmentLease k → w ≠ .client → s.Leased k →
        s.writer.alive = true ∧ ∀ e stops, fate ≠ .reject e stops) ∧
      (∀ k sha256 bytes, r.Puts k sha256 bytes → s.writer.alive = true → ∀ e, fate = .executeThenFail e →
        ∀ p, r.job now s.db ≠ .ok p)) : ∀ j, (s.serve fate now).LifeOf P j := by
  unfold serve
  split
  · exact h
  next w r rest hqueue =>
  obtain ⟨hwellRelease, hwellPut⟩ := hwell w r rest hqueue
  have hmem : (w, r) ∈ s.queue := by rw [hqueue]; exact List.mem_cons_self ..
  dsimp only
  generalize hwriter : (s.writer.runSized fate (r.job now)).2 = writer
  generalize hanswer : (s.writer.runSized fate (r.job now)).1 = answer
  obtain ⟨hf', hw', hq', -, ht', hl'⟩ := deliver_frame { s with writer := writer, queue := rest } w answer
  generalize hs' : deliver { s with writer := writer, queue := rest } w answer = s' at hf' hw' hq' ht' hl' ⊢
  replace hf' : s'.fetches = s.fetches := hf'
  replace hq' : s'.queue = rest := hq'
  by_cases habout : ∃ k, Waiter.asksAbout k (w, r) = true
  · obtain ⟨k, hk⟩ := habout
    have hlife := h k
    unfold LifeOf at hlife
    rw [requestsOf_head hqueue, if_pos hk] at hlife
    obtain ⟨hrest, f, hf, hcases⟩ := hlife.of_request
    have hq : rest.filter (Waiter.asksAbout k) = [] := hrest
    have hrequests : s'.requestsOf k = [] := by
      simp only [requestsOf, hq', hq]
    have hfk : s'.fetches k = some f := by rw [hf', hf]
    have hother : ∀ j ≠ k, s'.stageOf j = s.stageOf j ∧
        s'.tasks j = s.tasks j := by
      intro j hj
      have hholder : ∀ stage, s.stageOf k = some stage → w = .holder →
          s'.stageOf j = s.stageOf j ∧
          s'.tasks j = s.tasks j := by
        rintro stage hstage rfl
        have hlock := lock_of_stageOf hstage
        obtain ⟨stage', hlock'⟩ := hs' ▸ lock_deliver_fetch (s := { s with writer := writer, queue := rest }) .holder answer hlock
        exact ⟨by rw [stageOf_other hlock' hj, stageOf_other hlock hj], by rw [ht' nofun]⟩
      have htask : w = .task k → s'.stageOf j = s.stageOf j ∧
          s'.tasks j = s.tasks j := by
        rintro rfl
        exact ⟨by simp only [stageOf, hl' nofun], by rw [← hs', tasks_deliver_other hj]⟩
      rcases hcases with ⟨he, -, hstage, -⟩ | ⟨he, -⟩ | ⟨he, -⟩ | ⟨he, -, -, hstage⟩ | ⟨he, -⟩
      · exact hholder _ hstage (congrArg Prod.fst he)
      · exact htask (congrArg Prod.fst he)
      · exact htask (congrArg Prod.fst he)
      · exact hholder _ hstage (congrArg Prod.fst he)
      · have hw : w = .nobody := congrArg Prod.fst he
        exact ⟨by simp only [stageOf, hl' (by simp [hw])], by rw [ht' (by simp [hw])]⟩
    -- A request that stores the lease: who waits for it learns whether it is there.
    have hputs : r = f.putRequest P k → ¬s.Leased k →
        (∀ l g : Prop, (∀ e, answer = .error e → ¬l) → (∀ a, answer = .ok a → a.token = k ∧ g) →
          Life P k (some f) (s'.stageOf k)
            (s'.tasks k) [] l g) →
        ∀ j, s'.LifeOf P j := by
      intro hr hl hk'
      have hwrote := runSized_put fate now s.writer hr
        (hwellPut k _ _ ⟨_, _, hr⟩)
      rw [hwriter, hanswer] at hwrote
      have hdb : s'.writer.db = writer.db := by rw [hw']
      intro j
      by_cases hj : j = k
      · subst hj
        unfold LifeOf
        rw [hfk, hrequests]
        refine hk' _ _ (fun e he => ?_) (fun a ha => ?_)
        · rcases hwrote with ⟨_, -, hsame⟩ | ⟨a, ha, -⟩
          · unfold Leased db at *
            rwa [hdb, hsame]
          · rw [he] at ha
            cases ha
        · rcases hwrote with ⟨e, he, -⟩ | ⟨a', ha', htoken, hnew⟩
          · rw [ha] at he
            cases he
          · rw [ha] at ha'
            cases ha'
            refine ⟨htoken, .inl ⟨⟨j, P.sha256Hex f.content, f.turnRowId, now⟩, ?_, rfl⟩⟩
            unfold db
            rw [hdb, hnew]
            exact List.mem_append_right _ (List.mem_singleton_self _)
      · refine (h j).served_other hqueue hf' hq' (asksAbout_unique hk hj) (hother j hj).1 (hother j hj).2 (fun hlj => ?_)
          (fun hg => ?_)
        · obtain ⟨lease, hlease, heq⟩ := hlj
          unfold db at hlease
          rcases hwrote with ⟨_, -, hsame⟩ | ⟨_, -, -, hnew⟩
          · rw [hdb, hsame] at hlease
            exact ⟨lease, hlease, heq⟩
          · rw [hdb, hnew] at hlease
            rcases List.mem_append.1 hlease with hlease | hlease
            · exact ⟨lease, hlease, heq⟩
            · rw [List.mem_singleton.1 hlease] at heq
              exact absurd heq.symm hj
        · unfold Granted Leased Over db at *
          rw [hdb, hf']
          rcases hwrote with ⟨_, -, hsame⟩ | ⟨_, -, -, hnew⟩
          · rwa [hsame]
          · rw [hnew]
            exact hg.imp_left fun ⟨lease, hlease, heq⟩ => ⟨lease, List.mem_append_left _ hlease, heq⟩
    -- A request that releases the lease: it is gone whatever becomes of the reply.
    have hreleases : r = .releaseAttachmentLease k → w ≠ .client →
        (∀ l g : Prop, ¬l → (s.Granted k → g) →
          Life P k (some f) (s'.stageOf k)
            (s'.tasks k) [] l g) →
        ∀ j, s'.LifeOf P j := by
      intro hr hw hk'
      have hshrinks : s.db.Shrinks writer.db :=
        hwriter ▸ runSized_shrinks _ _ s.writer (by simp [hr, AttachmentRequest.Puts]) (by simp [hr])
      have hdb : s'.db = writer.db := by
        unfold db
        rw [hw']
      have hgone := runSized_release fate now s.writer (hwellRelease k hr hw)
      rw [← hr, hwriter] at hgone
      intro j
      by_cases hj : j = k
      · subst hj
        unfold LifeOf
        rw [hfk, hrequests]
        refine hk' _ _ ?_ (granted_of_shrinks hleases (hdb ▸ hshrinks) hf')
        rintro ⟨lease, hlease, heq⟩
        rw [hdb] at hlease
        exact hgone lease hlease heq
      · exact (h j).served_other hqueue hf' hq' (asksAbout_unique hk hj) (hother j hj).1 (hother j hj).2
          (leased_of_shrinks (hdb ▸ hshrinks)) (granted_of_shrinks hleases (hdb ▸ hshrinks) hf')
    rcases hcases with ⟨he, hp, hstage, htk, hl⟩ | ⟨he, hw, hd, htk, hl⟩ | ⟨he, hw, htk, hg⟩ | ⟨he, hp, hts, hstage⟩ |
      ⟨he, hp, hts, hstage⟩
    · cases he
      refine hputs rfl hl fun l g herr hokk => ?_
      have hlock := lock_of_stageOf hstage
      rw [stageOf_of_lock (.committing (some (answer.map (·.token)))) (by simp [← hs', deliver, hlock]), ht' nofun, htk]
      cases answer with
      | error e => exact .refused hp (.inl rfl) (herr e rfl)
      | ok a =>
        obtain ⟨htoken, hg⟩ := hokk a rfl
        simp only [Except.map, htoken]
        exact .committed hp (.inl rfl) hg
    · cases he
      refine hputs rfl hl fun l g herr hokk => ?_
      have htask : s'.tasks k =
          .putting (some (answer.map (·.token))) := by
        simp [← hs', deliver, htk, setTask]
      rw [htask, show s'.stageOf k = s.stageOf k from by simp only [stageOf, hl' nofun]]
      cases answer with
      | error e => exact .taskRefused hw (herr e rfl)
      | ok a =>
        obtain ⟨htoken, hg⟩ := hokk a rfl
        simp only [Except.map, htoken]
        exact .taskPut hw (fun hdrop _ => hd hdrop) hg
    · cases he
      refine hreleases rfl nofun fun l g hgone hmono => ?_
      have htask : s'.tasks k =
          .releasing k (some (answer.map fun _ => ())) := by
        simp [← hs', deliver, htk, setTask]
      rw [htask, show s'.stageOf k = s.stageOf k from by simp only [stageOf, hl' nofun]]
      exact .taskReleased hw hgone (hmono hg)
    · cases he
      refine hreleases rfl nofun fun l g hgone hmono => ?_
      have hlock := lock_of_stageOf hstage
      rw [stageOf_of_lock (.releasing true) (by simp [← hs', deliver, hlock]), ht' nofun]
      exact .released hp hts hgone
    · cases he
      refine hreleases rfl nofun fun l g hgone hmono => ?_
      rw [show s'.stageOf k = s.stageOf k from by simp only [stageOf, hl' nofun], hstage, ht' nofun]
      exact .dropped hp hts hgone
  · -- The request is about no lease of the cache.
    simp only [not_exists, Bool.not_eq_true] at habout
    have hput : ∀ k sha256 bytes, ¬r.Puts k sha256 bytes := by
      intro k sha256 bytes hputs
      by_cases hw : w = .client
      · exact hok.clients _ hmem hw k sha256 bytes hputs
      · simpa [habout k] using asksAbout_puts (e := (w, r)) hputs hw
    have hshrinks : s.db.Shrinks writer.db :=
      hwriter ▸ runSized_shrinks _ _ s.writer hput (hok.forced _ hmem)
    have hdb' : s'.db = writer.db := by
      unfold db
      rw [hw']
    intro j
    refine (h j).served_other hqueue hf' hq' (habout j) ?_ ?_ (leased_of_shrinks (hdb' ▸ hshrinks))
      (granted_of_shrinks hleases (hdb' ▸ hshrinks) hf')
    · by_cases hw : w = .holder
      · subst hw
        have hasks : asksForSweep (.holder, r) = true := by
          cases r with
          | putAttachmentAndLease k => exact absurd ⟨_, _, rfl⟩ (hput _ _ _)
          | releaseAttachmentLease k => simpa [Waiter.asksAbout] using habout k
          | _ => rfl
        obtain ⟨k, call, hlock, -⟩ := hok.sweep_head hqueue hasks
        exact hs' ▸ stageOf_deliver_sweep (s := { s with writer := writer, queue := rest }) hlock j
      · simp only [stageOf, hl' hw]
    · rw [ht' fun k hk => ?_]
      subst hk
      simpa [habout k] using hok.tasks _ hmem k rfl

end State

end LarkCodexBridge.Runtime.Attachments
