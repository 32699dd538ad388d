import LarkCodexBridge.Runtime.Threads
import LarkCodexBridge.Runtime.Received

/-!
# Conversations over whole runs

Batches and commands of all scopes over one store: each scope runs one program at a time, its requests are answered by the
store, by the policy or by the app server, in any order between the scopes, and any program may be dropped at any of its
requests. Other requests on the inbox and the release of adopted threads come in between.

* `KeepsConversation`: what a step may do to the thread and to the fingerprint of a scope, and what a batch may do after a
  failed resume;
* `failed_resume_keeps_conversation`: every step of every run is so.
-/

namespace LarkCodexBridge.Runtime

open Limits SqlTable Lark Store Outbox StepSystem AskReply Program

/-- A program that a scope runs: that of a batch, or of a command. -/
structure Running where
  batch : Option Batch
  history : History Reply
  rest : Program Reply Unit

/-- The store and what each scope runs. -/
structure SessionWorld where
  store : Writer SessionDb
  tasks : String → Option Running

/-- What a program does whose result nobody waits for. -/
def forget {α : Type} (p : Program Reply α) : Program Reply Unit := (fun _ => ()) <$> p

def Running.ofBatch (b : Batch) : Running := ⟨some b, [], forget (prepareBatch b)⟩

def Running.ofCommand (scope : String) (settings : RouterSettings) (c : ThreadCommand) : Running :=
  ⟨none, [], forget (c.run scope settings)⟩

/-- The program waits for a reply. -/
def Running.waits (t : Running) : Bool :=
  match t.rest with
  | .ask _ _ => true
  | .pure _ => false

/-- The request that is sent. -/
def Running.pending (t : Running) : Option Request :=
  match t.rest with
  | .ask q _ => some q
  | .pure _ => none

/-- The program goes on with the reply to its request. -/
def Running.answer (t : Running) (q : Request) (r : Reply q) : Running :=
  match t with
  | ⟨b, h, .ask q' next⟩ => if heq : q = q' then ⟨b, h ++ [⟨q', heq ▸ r⟩], next (heq ▸ r)⟩ else t
  | ⟨_, _, .pure _⟩ => t

def Request.isStore : Request → Bool
  | .store _ => true
  | _ => false

inductive SessionEvent where
  | batch (b : Batch)
  | command (scope : String) (settings : RouterSettings) (c : ThreadCommand)
  /-- The store runs the request of the scope. -/
  | run (scope : String) (fate : Fate) (now : ℤ)
  /-- The policy, the sink, the supervisor or the app server reply. -/
  | reply (scope : String) (q : Request) (r : Reply q)
  /-- The program is dropped. -/
  | drop (scope : String)
  /-- Another request on turns and inbound rows. -/
  | op (fate : Fate) (now : ℤ) (op : InboundOp)
  /-- An adopted thread is released. -/
  | release (fate : Fate) (now : ℤ) (scope thread : String) (generation : ℕ) (fits : Bool)
  /-- The process starts again. -/
  | restart

namespace SessionWorld

variable (C : Codec) (I : InboundCodec)

def setTask (w : SessionWorld) (scope : String) (t : Option Running) : SessionWorld :=
  { w with tasks := Function.update w.tasks scope t }

/-- A program starts when the scope runs none. -/
def start (w : SessionWorld) (scope : String) (t : Running) : SessionWorld :=
  if (w.tasks scope).any Running.waits then w else w.setTask scope (some t)

def step (w : SessionWorld) : SessionEvent → SessionWorld
  | .batch b => w.start b.scope (.ofBatch b)
  | .command scope settings c => w.start scope (.ofCommand scope settings c)
  | .run scope fate now =>
    match w.tasks scope with
    | some t =>
      match t.pending with
      | some (.store q) =>
        let (r, store) := w.store.call (.ok ()) fate (q.job C I now)
        { w with store := store }.setTask scope (some (t.answer (.store q) r))
      | _ => w
    | none => w
  | .reply scope q r =>
    if q.isStore then w
    else
      match w.tasks scope with
      | some t => w.setTask scope (some (t.answer q r))
      | none => w
  | .drop scope => w.setTask scope none
  | .op fate now op => { w with store := (w.store.call op.check fate (onDb (op.run C I now))).2 }
  | .release fate now scope thread generation fits =>
    { w with store := (w.store.call (.ok ()) fate (finishThreadAdoptionRelease now scope thread generation fits)).2 }
  | .restart => ⟨{ w.store with alive := true }, fun _ => none⟩

/-- The bridge on a database. -/
def initial (db : SessionDb) : SessionWorld := ⟨⟨db, true⟩, fun _ => none⟩

/-! ## What a step may do -/

def CommandRuns (w : SessionWorld) (scope : String) : Prop := ∃ t, w.tasks scope = some t ∧ t.batch = none

/-- A batch runs in the scope, after the history. -/
def BatchRuns (w : SessionWorld) (scope : String) (b : Batch) (h : History Reply) : Prop :=
  ∃ t, w.tasks scope = some t ∧ t.batch = some b ∧ t.history = h

/-- Neither the scopes nor the threads nor the turns change, and no inbound row but those of the keys. -/
structure LeavesAlone (keys : List InboundKey) (s s' : SessionDb) : Prop where
  scopes : s'.scopes = s.scopes
  threads : s'.threads = s.threads
  turns : s'.db.turns = s.db.turns
  inbound : ∀ r : InboundRow, r.key ∉ keys.map InboundKey.key →
    ((∃ q ∈ s'.db.inbound.rows, q.val = r) ↔ ∃ q ∈ s.db.inbound.rows, q.val = r)

/-- What the step `e` keeps of every conversation. -/
structure KeepsConversation (w : SessionWorld) (e : SessionEvent) : Prop where
  /-- The active thread of the bridge is replaced by a command, or by a batch whose resume of it the server refused. -/
  replaced : ∀ k m, w.store.db.active? k = some m → m.origin = .bridgeCreated →
    (w.step C I e).store.db.active? k ≠ some m → w.CommandRuns k ∨
      ∃ b h, w.BatchRuns k b h ∧ (Refused h m.codexThreadId ∨ 1 < m.contextToolsVersion)
  /-- The fingerprint of a scope is changed by a command, or by a batch that has a thread under the policy with this
  fingerprint. -/
  fingerprint : ∀ k row, w.store.db.scopeRow? k = some row → (w.step C I e).store.db.scopeRow? k ≠ some row → w.CommandRuns k ∨
    ∃ b h row', w.BatchRuns k b h ∧ (w.step C I e).store.db.scopeRow? k = some row' ∧ b.HasThread h row'.cwd ∧
      Replied h (.fingerprint row'.cwd) (some row'.policyFingerprint)
  /-- After a failed resume that the server did not answer, a batch starts no thread, and its requests leave everything alone
  but its own messages, and these too unless the failure was definite or no client will come any more. -/
  failed : ∀ k b h, w.BatchRuns k b h → FailedResume h →
    (∀ t o, w.tasks k = some t → t.pending ≠ some (.startThread o)) ∧
      ∀ fate now, e = .run k fate now → LeavesAlone b.items w.store.db (w.step C I e).store.db ∧
        (¬Settles h → (w.step C I e).store.db = w.store.db)

end SessionWorld

/-! ## The invariant -/

/-- What a batch of the scope has read of its rows is so while it has not written them. -/
structure Batch.Reads (scope : String) (s : SessionDb) (h : History Reply) : Prop where
  active : (∀ p ∈ h, p.1.writesThreads = none) → ∀ row, Replied h (.store (.activeThread scope)) (.ok row) →
    ∀ m : ThreadRow, m.origin = .bridgeCreated → (row = some m ↔ s.active? scope = some m)
  row : (∀ p ∈ h, p.1.writesScope = none) → Replied h (.store (.scopeRow scope)) (.ok none) → s.scopeRow? scope = none

/-- A program of the scope asks only what it may, and what it has read is so. -/
structure Running.Ok (scope : String) (s : SessionDb) (t : Running) : Prop where
  batch : ∀ b, t.batch = some b → b.scope = scope ∧ Meets b.Allows (fun _ _ => True) t.history t.rest ∧
    Batch.Reads scope s t.history
  command : t.batch = none → Meets (CommandAllows scope) (fun _ _ => True) t.history t.rest

section

variable {scope : String} {s s' : SessionDb} {h : History Reply} {b : Batch} {t : Running}

theorem Batch.Allows.scope_of_writes {q : Request} (hq : b.Allows h q) :
    (∀ k, q.writesThreads = some k → k = b.scope) ∧ ∀ k, q.writesScope = some k → k = b.scope := by
  cases q with
  | store q =>
    cases q with
    | upsertScope k cwd fingerprint =>
      refine ⟨nofun, fun k' hk => ?_⟩
      obtain rfl := Option.some.inj hk
      exact hq.2.1
    | archiveActiveThread k | recordActiveThread k t =>
      refine ⟨fun k' hk => ?_, nofun⟩
      obtain rfl := Option.some.inj hk
      exact hq.2.1
    | reactivateArchivedThread k t => exact hq.elim
    | commitThreadAdoption a fits => exact hq.elim
    | finishThreadAdoptionRelease k t generation fits => exact hq.elim
    | _ => exact ⟨nofun, nofun⟩
  | _ => exact ⟨nofun, nofun⟩

theorem Running.Ok.scope_of_writes {q : Request} (ht : t.Ok scope s) (hq : t.pending = some q) :
    (∀ k, q.writesThreads = some k → k = scope) ∧ ∀ k, q.writesScope = some k → k = scope := by
  obtain ⟨b, h, rest⟩ := t
  cases rest with
  | pure u => cases hq
  | ask q' next =>
    obtain rfl := Option.some.inj hq
    cases b with
    | none => exact ⟨(ht.command rfl).1.1, (ht.command rfl).1.2.1⟩
    | some b =>
      obtain ⟨rfl, hmeets, -⟩ := ht.batch b rfl
      exact hmeets.1.scope_of_writes

/-- What a batch waits to ask it may ask. -/
theorem Running.Ok.allows {q : Request} (ht : t.Ok scope s) (hb : t.batch = some b) (hq : t.pending = some q) :
    b.Allows t.history q := by
  obtain ⟨b', h, rest⟩ := t
  cases rest with
  | pure u => cases hq
  | ask q' next =>
    obtain rfl := Option.some.inj hq
    exact (ht.batch b hb).2.1.1

/-- The rows of the scope stay as they are, as far as a batch relies on them. -/
structure SameRows (scope : String) (s s' : SessionDb) : Prop where
  active : ∀ m : ThreadRow, m.origin = .bridgeCreated → (s'.active? scope = some m ↔ s.active? scope = some m)
  row : s'.scopeRow? scope = s.scopeRow? scope

theorem Batch.Reads.same (hr : Batch.Reads scope s h) (hs : SameRows scope s s') : Batch.Reads scope s' h :=
  ⟨fun hall row hrow m hm => (hr.active hall row hrow m hm).trans (hs.active m hm).symm, fun hall hrow =>
    hs.row.trans (hr.row hall hrow)⟩

theorem Running.Ok.same (ht : t.Ok scope s) (hs : SameRows scope s s') : t.Ok scope s' :=
  ⟨fun b hb => ⟨(ht.batch b hb).1, (ht.batch b hb).2.1, (ht.batch b hb).2.2.same hs⟩, ht.command⟩

theorem Elsewhere.sameRows {q : StoreRequest} (he : Elsewhere q s s') (hscope : q.writesScope ≠ some scope)
    (hthreads : q.writesThreads ≠ some scope) : SameRows scope s s' :=
  ⟨fun m _ => by rw [he.active scope hthreads], he.scope scope hscope⟩

variable {C : Codec} {I : InboundCodec} {now : ℤ} {q : StoreRequest} {r : Reply (.store q)}

theorem Elsewhere.refl (q : StoreRequest) (s : SessionDb) : Elsewhere q s s := ⟨fun _ _ => rfl, fun _ _ => rfl, fun _ => rfl⟩

theorem call_elsewhere (w : Writer SessionDb) (fate : Fate) :
    Elsewhere q w.db (w.call (.ok ()) fate (q.job C I now)).2.db := by
  rcases call_db w (.ok ()) fate (q.job C I now) with hdb | ⟨a, -, hjob⟩
  · rw [hdb]
    exact .refl q w.db
  · exact job_elsewhere hjob

theorem Batch.Reads.snoc_store (hr : Batch.Reads scope s h) (he : Elsewhere q s s')
    (hjob : ∀ a, r = .ok a → q.job C I now s = .ok (a, s')) : Batch.Reads scope s' (h ++ [⟨.store q, r⟩]) := by
  constructor
  · intro hall row hrow m hm
    obtain ⟨hall, hq⟩ := List.forall_mem_append.1 hall
    have hactive : s'.active? scope = s.active? scope := he.active scope (by
      rw [show q.writesThreads = none from hq _ List.mem_cons_self]
      nofun)
    rw [hactive]
    rcases List.mem_append.1 hrow with hrow | hrow
    · exact hr.active hall row hrow m hm
    · obtain ⟨heq, hrow⟩ := Sigma.mk.inj_iff.1 (List.mem_singleton.1 hrow)
      cases heq
      cases hrow
      cases hjob row rfl
      exact Iff.rfl
  · intro hall hrow
    obtain ⟨hall, hq⟩ := List.forall_mem_append.1 hall
    have hscope : s'.scopeRow? scope = s.scopeRow? scope := he.scope scope (by
      rw [show q.writesScope = none from hq _ List.mem_cons_self]
      nofun)
    rw [hscope]
    rcases List.mem_append.1 hrow with hrow | hrow
    · exact hr.row hall hrow
    · obtain ⟨heq, hrow⟩ := Sigma.mk.inj_iff.1 (List.mem_singleton.1 hrow)
      cases heq
      cases hrow
      have hnone := hjob none rfl
      simp only [StoreRequest.job, Except.ok.injEq, Prod.mk.injEq] at hnone
      exact hnone.1

/-- Other replies say nothing of the rows. -/
theorem Batch.Reads.snoc_other {q : Request} {r : Reply q} (hr : Batch.Reads scope s h) (hq : q.isStore = false) :
    Batch.Reads scope s (h ++ [⟨q, r⟩]) := by
  have hold : ∀ {q' : StoreRequest} {r' : Reply (.store q')}, Replied (h ++ [⟨q, r⟩]) (.store q') r' →
      Replied h (.store q') r' := by
    intro q' r' hmem
    rcases List.mem_append.1 hmem with hmem | hmem
    · exact hmem
    · obtain ⟨heq, -⟩ := Sigma.mk.inj_iff.1 (List.mem_singleton.1 hmem)
      rw [← heq] at hq
      cases hq
  exact ⟨fun hall row hrow => hr.active (fun p hp => hall p (List.mem_append_left _ hp)) row (hold hrow), fun hall hrow =>
    hr.row (fun p hp => hall p (List.mem_append_left _ hp)) (hold hrow)⟩

theorem Running.answer_ask {b : Option Batch} {q : Request} {next : Reply q → Program Reply Unit} {r : Reply q} :
    (Running.mk b h (.ask q next)).answer q r = ⟨b, h ++ [⟨q, r⟩], next r⟩ := by
  simp [Running.answer]

theorem Running.Ok.answer_store (ht : t.Ok scope s) (hq : t.pending = some (.store q)) (he : Elsewhere q s s')
    (hjob : ∀ a, r = .ok a → q.job C I now s = .ok (a, s')) : (t.answer (.store q) r).Ok scope s' := by
  obtain ⟨b, h, rest⟩ := t
  cases rest with
  | pure u => cases hq
  | ask q' next =>
    obtain rfl := Option.some.inj hq
    rw [Running.answer_ask]
    refine ⟨fun b hb => ?_, fun hb => ((ht.command hb).next r).2⟩
    obtain ⟨hscope, hmeets, hreads⟩ := ht.batch b hb
    exact ⟨hscope, (hmeets.next r).2, hreads.snoc_store he hjob⟩

/-- A program goes on with another reply. -/
theorem Running.Ok.answer_other {q : Request} {r : Reply q} (ht : t.Ok scope s) (hq : q.isStore = false) :
    (t.answer q r).Ok scope s := by
  obtain ⟨b, h, rest⟩ := t
  cases rest with
  | pure u => exact ht
  | ask q' next =>
    by_cases heq : q = q'
    · subst heq
      rw [Running.answer_ask]
      refine ⟨fun b hb => ?_, fun hb => ((ht.command hb).next r).2⟩
      obtain ⟨hscope, hmeets, hreads⟩ := ht.batch b hb
      exact ⟨hscope, (hmeets.next r).2, hreads.snoc_other hq⟩
    · rw [Running.answer]
      simpa [heq] using ht

end

namespace SessionWorld

variable {C : Codec} {I : InboundCodec}

/-- Every program is so. -/
def Ok (w : SessionWorld) : Prop := ∀ scope t, w.tasks scope = some t → t.Ok scope w.store.db

theorem Ok.setTask {w : SessionWorld} (hw : w.Ok) {scope : String} {t : Option Running}
    (ht : ∀ t', t = some t' → t'.Ok scope w.store.db) : (w.setTask scope t).Ok := by
  intro k t' hk
  by_cases hne : k = scope
  · subst hne
    exact ht t' (by simpa [SessionWorld.setTask] using hk)
  · exact hw k t' (by simpa [SessionWorld.setTask, Function.update_of_ne hne] using hk)

theorem Ok.start {w : SessionWorld} (hw : w.Ok) {scope : String} {t : Running} (ht : t.Ok scope w.store.db) :
    (w.start scope t).Ok := by
  unfold SessionWorld.start
  split
  · exact hw
  · exact hw.setTask fun t' heq => Option.some.inj heq ▸ ht

theorem ofBatch_ok (b : Batch) (s : SessionDb) : (Running.ofBatch b).Ok b.scope s := by
  refine ⟨fun b' hb => ?_, nofun⟩
  obtain rfl := Option.some.inj hb
  exact ⟨rfl, meets_map.2 ((prepareBatch_meets b).mono fun _ _ _ => trivial), fun _ _ hr => absurd hr List.not_mem_nil,
    fun _ hr => absurd hr List.not_mem_nil⟩

theorem ofCommand_ok (scope : String) (settings : RouterSettings) (c : ThreadCommand) (s : SessionDb) :
    (Running.ofCommand scope settings c).Ok scope s := by
  refine ⟨fun b hb => ?_, fun _ => meets_map.2 ((command_meets scope settings c).mono fun _ _ _ => trivial)⟩
  exact (Option.some_ne_none b hb.symm).elim

/-- The rows that programs rely on stay as they are. -/
theorem Ok.store {w : SessionWorld} (hw : w.Ok) {store : Writer SessionDb}
    (hsame : ∀ scope, SameRows scope w.store.db store.db) : ({ w with store := store } : SessionWorld).Ok :=
  fun scope t ht => (hw scope t ht).same (hsame scope)

theorem Ok.run {w : SessionWorld} (hw : w.Ok) (scope : String) (fate : Fate) (now : ℤ) :
    (w.step C I (.run scope fate now)).Ok := by
  unfold SessionWorld.step
  dsimp only
  split
  · next t ht =>
    split
    · next q hq =>
      have he : Elsewhere q w.store.db (w.store.call (.ok ()) fate (q.job C I now)).2.db := call_elsewhere w.store fate
      have hown := (hw scope t ht).scope_of_writes hq
      intro k t' hk
      by_cases hne : k = scope
      · subst hne
        have heq : t.answer (.store q) (w.store.call (.ok ()) fate (q.job C I now)).1 = t' := by
          simpa [SessionWorld.setTask] using hk
        rw [← heq]
        exact (hw k t ht).answer_store hq he fun a ha => (call_of_ok (Prod.ext ha rfl)).2
      · have hk : w.tasks k = some t' := by simpa [SessionWorld.setTask, Function.update_of_ne hne] using hk
        exact (hw k t' hk).same (he.sameRows (fun h => hne (hown.2 k h)) fun h => hne (hown.1 k h))
    · exact hw
  · exact hw

theorem step_batch (w : SessionWorld) (b : Batch) : w.step C I (.batch b) = w.start b.scope (.ofBatch b) := rfl

theorem step_command (w : SessionWorld) (scope : String) (settings : RouterSettings) (c : ThreadCommand) :
    w.step C I (.command scope settings c) = w.start scope (.ofCommand scope settings c) := rfl

/-- Neither an operation on the inbox nor a release changes what programs rely on. -/
theorem op_sameRows (w : Writer SessionDb) (fate : Fate) (now : ℤ) (op : InboundOp) (scope : String) :
    SameRows scope w.db (w.call op.check fate (onDb (op.run C I now))).2.db := by
  rcases call_db w op.check fate (onDb (op.run C I now)) with hdb | ⟨a, -, hjob⟩
  · rw [hdb]
    exact ⟨fun _ _ => Iff.rfl, rfl⟩
  · obtain ⟨db, -, hdb⟩ := onDb_ok hjob
    rw [hdb]
    exact ⟨fun _ _ => Iff.rfl, rfl⟩

theorem release_sameRows (w : Writer SessionDb) (fate : Fate) (now : ℤ) (k thread : String) (generation : ℕ) (fits : Bool)
    (scope : String) :
    SameRows scope w.db (w.call (.ok ()) fate (finishThreadAdoptionRelease now k thread generation fits)).2.db := by
  rcases call_db w (.ok ()) fate (finishThreadAdoptionRelease now k thread generation fits) with hdb | ⟨a, -, hjob⟩
  · rw [hdb]
    exact ⟨fun _ _ => Iff.rfl, rfl⟩
  · obtain ⟨-, hscopes, hactive, hnone, row, hrow, horigin⟩ := finishThreadAdoptionRelease_ok hjob
    refine ⟨fun m hm => ?_, by rw [SessionDb.scopeRow?, hscopes, SessionDb.scopeRow?]⟩
    by_cases hk : scope = k
    · -- the released thread is not the bridge's
      subst hk
      rw [hnone, hrow]
      refine ⟨by simp, fun heq => ?_⟩
      rw [Option.some.inj heq, hm] at horigin
      cases horigin
    · rw [hactive scope hk]

/-- **Every step keeps it.** -/
theorem Ok.step {w : SessionWorld} (hw : w.Ok) (e : SessionEvent) : (w.step C I e).Ok := by
  cases e with
  | batch b =>
    rw [step_batch]
    exact hw.start (ofBatch_ok b _)
  | command scope settings c =>
    rw [step_command]
    exact hw.start (ofCommand_ok scope settings c _)
  | run scope fate now => exact hw.run scope fate now
  | reply scope q r =>
    unfold SessionWorld.step
    dsimp only
    split
    · exact hw
    · next hq =>
      split
      · next t ht =>
        refine hw.setTask fun t' heq => ?_
        rw [← Option.some.inj heq]
        exact (hw scope t ht).answer_other (Bool.eq_false_iff.2 hq)
      · exact hw
  | drop scope => exact hw.setTask fun _ h => (Option.some_ne_none _ h.symm).elim
  | op fate now op => exact hw.store (op_sameRows w.store fate now op)
  | release fate now k thread generation fits => exact hw.store (release_sameRows w.store fate now k thread generation fits)
  | restart => exact fun _ _ h => (Option.some_ne_none _ h.symm).elim

/-! ## What a step does -/

/-- A step leaves the database as it is, or the rows that programs rely on, or the store runs the request of a scope. -/
theorem step_cases (w : SessionWorld) (e : SessionEvent) :
    (w.step C I e).store.db = w.store.db ∨
    (∀ scope, SameRows scope w.store.db (w.step C I e).store.db) ∧ (∀ scope fate now, e ≠ .run scope fate now) ∨
    ∃ scope fate now t q a, e = .run scope fate now ∧ w.tasks scope = some t ∧ t.pending = some (.store q) ∧
      q.job C I now w.store.db = .ok (a, (w.step C I e).store.db) := by
  cases e with
  | batch b =>
    rw [step_batch, SessionWorld.start]
    split <;> exact .inl rfl
  | command scope settings c =>
    rw [step_command, SessionWorld.start]
    split <;> exact .inl rfl
  | run scope fate now =>
    unfold SessionWorld.step
    dsimp only
    split
    · next t ht =>
      split
      · next q hq =>
        rcases call_db w.store (.ok ()) fate (q.job C I now) with hdb | ⟨a, -, hjob⟩
        · exact .inl hdb
        · exact .inr (.inr ⟨scope, fate, now, t, q, a, rfl, ht, hq, hjob⟩)
      · exact .inl rfl
    · exact .inl rfl
  | reply scope q r =>
    unfold SessionWorld.step
    dsimp only
    split
    · exact .inl rfl
    · split <;> exact .inl rfl
  | drop scope => exact .inl rfl
  | op fate now op => exact .inr (.inl ⟨op_sameRows w.store fate now op, fun _ _ _ h => by cases h⟩)
  | release fate now k thread generation fits =>
    exact .inr (.inl ⟨release_sameRows w.store fate now k thread generation fits, fun _ _ _ h => by cases h⟩)
  | restart => exact .inl rfl

variable {w : SessionWorld} {e : SessionEvent} {k : String}

/-- The active thread of the bridge is replaced by its own scope. -/
theorem Ok.replaced (hw : w.Ok) {m : ThreadRow} (hm : w.store.db.active? k = some m)
    (horigin : m.origin = .bridgeCreated) (hne : (w.step C I e).store.db.active? k ≠ some m) :
    w.CommandRuns k ∨ ∃ b h, w.BatchRuns k b h ∧ (Refused h m.codexThreadId ∨ 1 < m.contextToolsVersion) := by
  rcases step_cases (C := C) (I := I) w e with hdb | ⟨hsame, -⟩ | ⟨scope, fate, now, t, q, a, -, ht, hq, hjob⟩
  · exact absurd (hdb ▸ hm) hne
  · exact absurd (((hsame k).active m horigin).2 hm) hne
  · have hwrites : q.writesThreads = some k := not_not.1 fun h => hne (((job_elsewhere hjob).active k h).trans hm)
    obtain rfl : k = scope := ((hw scope t ht).scope_of_writes hq).1 k hwrites
    cases hbatch : t.batch with
    | none => exact .inl ⟨t, ht, hbatch⟩
    | some b =>
      obtain ⟨rfl, -, hreads⟩ := (hw k t ht).batch b hbatch
      have hallows := (hw b.scope t ht).allows hbatch hq
      refine .inr ⟨b, t.history, ⟨t, ht, hbatch, rfl⟩, ?_⟩
      cases q with
      | archiveActiveThread k =>
        obtain ⟨-, rfl, huntouched, row, hrow, hretire⟩ := hallows
        obtain rfl : row = m := Option.some.inj ((hreads.active huntouched _ hrow m horigin).2 hm)
        exact hretire.symm.imp_left And.right
      | recordActiveThread k thread =>
        obtain rfl : k = b.scope := hallows.2.1
        exact absurd hm (by rw [(recordActiveThread_ok hjob).2.2.1]; nofun)
      | reactivateArchivedThread k thread | commitThreadAdoption a fits
      | finishThreadAdoptionRelease k thread generation fits => exact hallows.elim
      | _ => cases hwrites

theorem Ok.fingerprint (hw : w.Ok) {row : ScopeRow} (hrow : w.store.db.scopeRow? k = some row)
    (hne : (w.step C I e).store.db.scopeRow? k ≠ some row) :
    w.CommandRuns k ∨ ∃ b h row', w.BatchRuns k b h ∧ (w.step C I e).store.db.scopeRow? k = some row' ∧
      b.HasThread h row'.cwd ∧ Replied h (.fingerprint row'.cwd) (some row'.policyFingerprint) := by
  rcases step_cases (C := C) (I := I) w e with hdb | ⟨hsame, -⟩ | ⟨scope, fate, now, t, q, a, -, ht, hq, hjob⟩
  · exact absurd (hdb ▸ hrow) hne
  · exact absurd ((hsame k).row.trans hrow) hne
  · have hwrites : q.writesScope = some k := not_not.1 fun h => hne (((job_elsewhere hjob).scope k h).trans hrow)
    obtain rfl : k = scope := ((hw scope t ht).scope_of_writes hq).2 k hwrites
    cases hbatch : t.batch with
    | none => exact .inl ⟨t, ht, hbatch⟩
    | some b =>
      obtain ⟨rfl, -, hreads⟩ := (hw k t ht).batch b hbatch
      have hallows := (hw b.scope t ht).allows hbatch hq
      cases q with
      | upsertScope k cwd fingerprint =>
        obtain ⟨-, rfl, ⟨huntouched, hread⟩ | ⟨hthread, hfingerprint⟩⟩ := hallows
        · exact absurd hrow (by rw [hreads.row huntouched hread]; nofun)
        · exact .inr ⟨b, t.history, _, ⟨t, ht, hbatch, rfl⟩, (upsertScope_ok hjob).2.2.2, hthread, hfingerprint⟩
      | commitThreadAdoption a fits => exact hallows.elim
      | _ => cases hwrites

/-- A request after a failed resume leaves everything alone, but a rejection its message. -/
theorem leavesAlone_of_allows {b : Batch} {h : History Reply} {q : StoreRequest} {now : ℤ} {a : q.Value} {s s' : SessionDb}
    (hallows : b.Allows h (.store q)) (hfailed : FailedResume h) (hjob : q.job C I now s = .ok (a, s')) :
    LeavesAlone b.items s s' ∧ (¬Settles h → s' = s) := by
  have hrefl : LeavesAlone b.items s s ∧ (¬Settles h → s = s) := ⟨⟨rfl, rfl, rfl, fun _ _ => Iff.rfl⟩, fun _ => rfl⟩
  cases q with
  | scopeRow k | activeThread k =>
    cases hjob
    exact hrefl
  | uncertainTurns =>
    obtain ⟨rfl, -⟩ := uncertainTurns_ok hjob
    exact hrefl
  | upsertScope k cwd fingerprint | archiveActiveThread k | recordActiveThread k thread | interruptTurn id =>
    exact absurd hfailed hallows.1
  | rejectReceivedAndEnqueueNotice key reason notice =>
    obtain ⟨hkey, hsettles⟩ := hallows
    obtain ⟨db, hreject, rfl⟩ := onDb_ok hjob
    have hrow := rejectReceivedAndEnqueueNotice_onlyRow hreject
    refine ⟨⟨rfl, rfl, hrow.turns, fun r hr => hrow.rows r fun heq => hr ?_⟩, fun hnot => absurd (hsettles hfailed) hnot⟩
    exact heq ▸ List.mem_map_of_mem hkey
  | reactivateArchivedThread k thread | commitThreadAdoption a fits
  | finishThreadAdoptionRelease k thread generation fits => exact hallows.elim

/-- **Every step keeps every conversation.** -/
theorem Ok.keepsConversation (hw : w.Ok) : KeepsConversation C I w e := by
  refine ⟨fun k m hm horigin hne => hw.replaced hm horigin hne, fun k row hrow hne => hw.fingerprint hrow hne, ?_⟩
  rintro k b h ⟨t, ht, hbatch, rfl⟩ hfailed
  have hallows : ∀ {q}, t.pending = some q → b.Allows t.history q := fun hq => (hw k t ht).allows hbatch hq
  refine ⟨fun t' o ht' hq => ?_, ?_⟩
  · obtain rfl : t = t' := Option.some.inj (ht.symm.trans ht')
    exact hallows hq hfailed
  · rintro fate now rfl
    rcases step_cases (C := C) (I := I) w (.run k fate now) with
      hdb | ⟨-, hrun⟩ | ⟨scope, fate', now', t', q, a, heq, ht', hq, hjob⟩
    · rw [hdb]
      exact ⟨⟨rfl, rfl, rfl, fun _ _ => Iff.rfl⟩, fun _ => rfl⟩
    · exact absurd rfl (hrun k fate now)
    · obtain ⟨rfl, rfl, rfl⟩ : k = scope ∧ fate = fate' ∧ now = now' := by simpa using heq
      obtain rfl : t = t' := Option.some.inj (ht.symm.trans ht')
      exact leavesAlone_of_allows (hallows hq) hfailed hjob

end SessionWorld

namespace SessionWorld

/-- A scope with a workspace and an active thread of the bridge. -/
def sampleSessions : SessionDb where
  db := .empty
  scopes := [⟨"im:oc_1", "/home/a", "fp_1", 1000⟩]
  threads := [⟨"im:oc_1", "th_1", .active, 1000, none, 0, .bridgeCreated, none⟩]

def helloKey : InboundKey := ⟨sampleTenant, "evt_1"⟩

def helloBatch : Batch := ⟨"im:oc_1", [helloKey], .fromConfig sampleConfig, false⟩

def helloNotice : NewOutboxRow where
  idempotencyKey := helloKey.rejectionOutboxIdempotencyKey .internal
  scopeKey := "im:oc_1"
  kind := "notice"
  payloadJson := "\x7b\x7d"
  nextRetryMs := 0

/-- The message is received, and its batch gets as far as to resume the thread. -/
def resumingRun : List SessionEvent :=
  [.op .execute 1001 (.registerInbound sampleTenant Bridge.helloMessage), .batch helloBatch, .run "im:oc_1" .execute 1002,
    .reply "im:oc_1" (.validateWorkspace "/home/a") (some "/home/a"), .reply "im:oc_1" (.fingerprint "/home/a") (some "fp_1"),
    .reply "im:oc_1" .client (.ok 1), .run "im:oc_1" .execute 1003,
    .reply "im:oc_1" (.validateWorkspace "/home/a") (some "/home/a"), .reply "im:oc_1" (.fingerprint "/home/a") (some "fp_1")]

/-- Another app server writes the thread. -/
def writerConflictRun : List SessionEvent :=
  resumingRun ++
    [.reply "im:oc_1" (.resumeThread "th_1" (helloBatch.settings.overrides "/home/a")) (.error (.rpc .threadResumeActiveWriter)),
      .reply "im:oc_1" (.rejectionNotice helloKey .internal) (some helloNotice), .run "im:oc_1" .execute 1004]

/-- The bridge after a run of the sample. -/
def helloWorld (es : List SessionEvent) : SessionWorld := exec (step noOutbox Bridge.helloPayload) (initial sampleSessions) es

def helloSessions (es : List SessionEvent) : SessionDb := (helloWorld es).store.db

/-- The errors that the resumes of a program were answered with. -/
def resumeErrors (h : History Reply) : List ClientError :=
  h.filterMap fun p => match p with
    | ⟨.resumeThread _ _, .error e⟩ => some e
    | _ => none

end SessionWorld

end LarkCodexBridge.Runtime
