import LarkCodexBridge.Runtime.AttachmentLife

/-!
# Attachment rows, leases and files agree

The invariant of the cache, next to the life of each fetch: what the queue of the writer holds (`State.QueueOk`), whose
the leases are (`State.LeasesOk`), and what is on the disk (`DiskOk`). Every well-behaved step keeps it, and it gives
what the cache promises.

* A row has its file, or the job that holds the lock is about to put it back;
* no pass sees a stored name without its file: whoever holds the lock has all commits before its list of rows.
-/

namespace LarkCodexBridge.Runtime.Attachments

open Lark Store Limits StepSystem

variable {P : Params} {s s' : State} {k : ℕ}

/-! ## What a pass does next -/

/-- What a pass may do next: it drops no row, and it takes away files that no row names. -/
def NextOk (d : Disk) (rows : List AttachmentRow) : SweepNext → Prop
  | .call (.drop _ _) | .call (.recheckDrop _ _) | .run (.removeCorrupt _ _) => False
  | .run (.apply job) => Fresh d rows job.rows
  | .run (.removeEvicted row _) => ∀ r ∈ rows, r.sha256 ≠ row.sha256
  | .call _ | .finish _ => True

variable {d d' : Disk} {rows rows' : List AttachmentRow}

theorem NextOk.mono {next : SweepNext} (h : NextOk d rows next) (hrows : ∀ row ∈ rows', row ∈ rows)
    (hd : d'.files = d.files) : NextOk d' rows' next := by
  match next with
  | .run (.apply job) => exact Fresh.mono h hrows fun r _ => by rw [hd]
  | .run (.removeEvicted row g) => exact fun r hr => h r (hrows r hr)
  | .run (.removeCorrupt sha left) => exact h
  | .call call => cases call <;> exact h
  | .finish result => trivial

/-- An eviction pass asks for the next row or ends. -/
theorem GcLoop.seek_cases (g : GcLoop) : ∀ (rows : List AttachmentRow) (stats : GcStats),
    (∃ row g', g.seek P rows stats = .call (.evict row g')) ∨ ∃ result, g.seek P rows stats = .finish result
  | [], stats => .inr ⟨_, rfl⟩
  | row :: rest, stats => by
    unfold GcLoop.seek
    split_ifs
    · exact .inr ⟨_, rfl⟩
    · exact .inl ⟨_, _, rfl⟩
    · exact g.seek_cases rest _

theorem GcLoop.next_ok (g : GcLoop) (d : Disk) (rows : List AttachmentRow) : NextOk d rows (g.next P) := by
  rcases g.seek_cases (P := P) g.rows g.stats with ⟨row, g', h⟩ | ⟨result, h⟩ <;> rw [GcLoop.next, h] <;> trivial

/-- Where a pass is: what it does next is in order, whatever the reply it has. -/
def SweepStage.Ok (P : Params) (d : Disk) (rows : List AttachmentRow) : SweepStage → Prop
  | .calling call none => NextOk d rows (.call call)
  | .calling call (some answer) => NextOk d rows (.call call) ∧ ∀ now, NextOk d rows (call.answered P now answer)
  | .running job => NextOk d rows (.run job)
  | .ran done => NextOk d rows (done.resumed P)

theorem SweepStage.Ok.mono {stage : SweepStage} (h : stage.Ok P d rows) (hrows : ∀ row ∈ rows', row ∈ rows)
    (hd : d'.files = d.files) : stage.Ok P d' rows' := by
  match stage with
  | .calling call none => exact NextOk.mono h hrows hd
  | .calling call (some answer) => exact ⟨h.1.mono hrows hd, fun now => (h.2 now).mono hrows hd⟩
  | .running job => exact NextOk.mono h hrows hd
  | .ran done => exact NextOk.mono h hrows hd

/-! ## The queue -/

namespace State

theorem QueueOk.of_eq (h : s.QueueOk) (hq : s'.queue = s.queue) (hs : s'.sweepAsks = s.sweepAsks) : s'.QueueOk :=
  ⟨hq ▸ h.clients, hq ▸ h.tasks, hq ▸ h.snapshots, hq ▸ h.forced, by rw [hq, hs]; exact h.sweeps⟩

theorem sweepAsks_of_lock (h : s'.lock = s.lock) : s'.sweepAsks = s.sweepAsks := by
  simp only [sweepAsks, h]

theorem sweepAsks_fetch {alive : Bool} {stage : FetchStage} (h : s.lock = some (.fetch k alive stage)) :
    s.sweepAsks = [] := by
  simp only [sweepAsks, h]

theorem sweepAsks_none (h : s.lock = none) : s.sweepAsks = [] := by
  simp only [sweepAsks, h]

/-- One more request. -/
theorem QueueOk.admitted {w : Waiter} {r : AttachmentRequest} (h : s.QueueOk) (hq : s'.queue = s.queue ++ [(w, r)])
    (hclient : w = .client → ∀ k sha256 bytes, ¬r.Puts k sha256 bytes)
    (htask : ∀ k, w = .task k → Waiter.asksAbout k (w, r) = true)
    (hsnapshot : ∀ k, w = .snapshot k → r = .listAttachments) (hforce : ∀ sha256, r ≠ .deleteAttachmentForce sha256)
    (hsweeps : s'.sweepAsks = s.sweepAsks ++ if asksForSweep (w, r) then [r] else []) : s'.QueueOk := by
  have hcase : ∀ e ∈ s'.queue, e ∈ s.queue ∨ e = (w, r) := fun e he => by simpa [hq] using he
  refine ⟨fun e he hw => ?_, fun e he k hk => ?_, fun e he k hk => ?_, fun e he => ?_, ?_⟩
  · rcases hcase e he with he | rfl
    · exact h.clients e he hw
    · exact hclient hw
  · rcases hcase e he with he | rfl
    · exact h.tasks e he k hk
    · exact htask k hk
  · rcases hcase e he with he | rfl
    · exact h.snapshots e he k hk
    · exact hsnapshot k hk
  · rcases hcase e he with he | rfl
    · exact h.forced e he
    · exact hforce
  · rw [hq, List.filter_append, List.map_append, h.sweeps, hsweeps]
    congr 1
    simp only [List.filter_cons, List.filter_nil]
    split <;> rfl

theorem asksForSweep_forget (e : Waiter × AttachmentRequest) : asksForSweep (Waiter.forget e) = false := by
  obtain ⟨w, r⟩ := e
  cases w <;> rfl

/-- The holder is dropped. -/
theorem QueueOk.abandon (h : s.QueueOk) : s.abandon.QueueOk := by
  unfold State.abandon
  split
  · next hlock => exact h.of_eq rfl (by rw [sweepAsks_fetch hlock, sweepAsks_fetch rfl])
  · next hlock => exact h.of_eq rfl (by rw [sweepAsks_fetch hlock, sweepAsks_fetch rfl])
  · next alive job hlock => exact h.of_eq rfl (by cases alive <;> simp [sweepAsks, hlock])
  · have hcase : ∀ e ∈ s.orphaned.queue, ∃ e₀ ∈ s.queue, e.2 = e₀.2 ∧ (e.1 ≠ .nobody → e = e₀) := by
      intro e he
      obtain ⟨e₀, he₀, rfl⟩ := List.mem_map.1 he
      refine ⟨e₀, he₀, ?_, ?_⟩ <;> unfold Waiter.forget <;> split <;> simp
    refine ⟨fun e he hw => ?_, fun e he k hk => ?_, fun e he k hk => ?_, fun e he => ?_, ?_⟩
    · obtain ⟨e₀, he₀, -, heq⟩ := hcase e he
      exact heq (by simp [hw]) ▸ h.clients e₀ he₀ (heq (by simp [hw]) ▸ hw)
    · obtain ⟨e₀, he₀, -, heq⟩ := hcase e he
      obtain rfl := heq (by simp [hk])
      exact h.tasks e he₀ k hk
    · obtain ⟨e₀, he₀, -, heq⟩ := hcase e he
      obtain rfl := heq (by simp [hk])
      exact h.snapshots e he₀ k hk
    · obtain ⟨e₀, he₀, heq, -⟩ := hcase e he
      rw [heq]
      exact h.forced e₀ he₀
    · rw [sweepAsks_none rfl, List.map_eq_nil_iff, List.filter_eq_nil_iff]
      intro e he
      obtain ⟨e₀, -, rfl⟩ := List.mem_map.1 he
      simp [asksForSweep_forget]

/-- The pass inside goes on. -/
theorem QueueOk.advance {next : SweepNext} {room : Except StoreError Unit} {d : Disk} {rows : List AttachmentRow}
    (h : s.QueueOk) (hasks : s.sweepAsks = []) (hnext : NextOk d rows next) : (s.advance k next room).QueueOk := by
  unfold State.advance
  split
  · exact h.of_eq rfl (by rw [hasks]; rfl)
  · exact h.of_eq rfl (by rw [hasks]; rfl)
  · next call =>
    split
    · exact h.of_eq rfl (by rw [hasks]; rfl)
    · refine h.admitted (w := .holder) (r := call.request) rfl nofun nofun nofun ?_ ?_
      · cases call with
        | drop => exact hnext.elim
        | _ => intro sha256 hr; cases hr
      · rw [hasks]
        cases call <;> rfl

/-- The writer takes the next request. -/
theorem QueueOk.serve {fate : Fate} {now : ℤ} (h : s.QueueOk) (hlife : ∀ j, s.LifeOf P j) :
    (s.serve fate now).QueueOk := by
  unfold State.serve
  split
  · exact h
  next w r rest hqueue =>
  dsimp only
  generalize hwriter : (s.writer.runSized fate (r.job now)).2 = writer
  generalize hanswer : (s.writer.runSized fate (r.job now)).1 = answer
  obtain ⟨-, -, hq', -, -, hl'⟩ := deliver_frame { s with writer := writer, queue := rest } w answer
  have hsub : ∀ e ∈ (deliver { s with writer := writer, queue := rest } w answer).queue, e ∈ s.queue := fun e he => by
    rw [hq'] at he
    rw [hqueue]
    exact List.mem_cons_of_mem _ he
  refine ⟨fun e he => h.clients e (hsub e he), fun e he => h.tasks e (hsub e he),
    fun e he => h.snapshots e (hsub e he), fun e he => h.forced e (hsub e he), ?_⟩
  rw [hq']
  cases hasks : asksForSweep (w, r) with
  | true =>
    obtain ⟨k, call, hlock, -, hnone, rfl⟩ := h.sweep_head hqueue hasks
    rw [hnone]
    simp [deliver, hlock, sweepAsks]
  | false =>
    have hsweeps := h.sweeps
    rw [hqueue, List.filter_cons_of_neg (by simp [hasks])] at hsweeps
    show (rest.filter asksForSweep).map (·.2) = _
    rw [hsweeps]
    by_cases hw : w = .holder
    · subst hw
      obtain ⟨j, stage, hlock⟩ := holder_fetch hlife hqueue hasks
      obtain ⟨stage', hlock'⟩ := lock_deliver_fetch (s := { s with writer := writer, queue := rest }) .holder answer hlock
      rw [sweepAsks_fetch hlock, sweepAsks_fetch hlock']
    · exact (sweepAsks_of_lock (hl' hw)).symm

/-! ## Leases -/

/-- What no step changes of a fetch: its turn and, once it is downloaded, its content. -/
def Keeps (s s' : State) : Prop :=
  ∀ k f, s.fetches k = some f → ∃ f', s'.fetches k = some f' ∧ f'.turnRowId = f.turnRowId ∧
    (f'.content = f.content ∨ f.phase = .downloading)

theorem keeps_refl (h : s'.fetches = s.fetches) : Keeps s s' :=
  fun _ f hf => ⟨f, by rw [h]; exact hf, rfl, .inl rfl⟩

theorem keeps_setFetch {f' : Fetch} (hs : s'.fetches = Function.update s.fetches k (some f'))
    (h : ∀ f, s.fetches k = some f → f'.turnRowId = f.turnRowId ∧ (f'.content = f.content ∨ f.phase = .downloading)) :
    Keeps s s' := by
  intro j f hf
  by_cases hj : j = k
  · subst hj
    exact ⟨f', by rw [hs]; exact Function.update_self .., h f hf⟩
  · exact ⟨f, by rw [hs, Function.update_of_ne hj]; exact hf, rfl, .inl rfl⟩

theorem kept_self {f f' : Fetch} (hf : s.fetches k = some f) (hturn : f'.turnRowId = f.turnRowId)
    (hcontent : f'.content = f.content) : ∀ f, s.fetches k = some f →
      f'.turnRowId = f.turnRowId ∧ (f'.content = f.content ∨ f.phase = .downloading) := by
  intro f₀ hf₀
  obtain rfl := Option.some.inj (hf.symm.trans hf₀)
  exact ⟨hturn, .inl hcontent⟩

/-- A fetch after one was written. -/
theorem fetches_cases {j : ℕ} {f f' : Fetch} (hs : s'.fetches = Function.update s.fetches k (some f'))
    (hf : s'.fetches j = some f) : j = k ∧ f = f' ∨ s.fetches j = some f := by
  rw [hs] at hf
  by_cases hj : j = k
  · rw [hj, Function.update_self] at hf
    exact .inl ⟨hj, (Option.some.inj hf).symm⟩
  · rw [Function.update_of_ne hj] at hf
    exact .inr hf

theorem phase_of_leased {f : Fetch} (h : s.LifeOf P k) (hl : s.Leased k) (hf : s.fetches k = some f) :
    f.phase ≠ .downloading := by
  unfold LifeOf at h
  rw [hf] at h
  generalize s.stageOf k = stage, s.tasks k = t, s.requestsOf k = q at h
  intro hp
  cases h with
  | outside _ hn | putting _ _ hn | ready _ hn | installing _ hn | installed _ hn => exact hn hl
  | taskPutting hw | taskPut hw | taskRefused hw | taskReleasing hw | taskReleased hw =>
    rcases hw with ⟨hd, -⟩ | ⟨hd, -⟩ <;> simp [hp] at hd
  | committed hd | refused hd | verifying hd | verified hd | releasing hd | released hd | returned hd | failed hd
  | dropped hd | droppedReleasing hd | lost hd => simp [hp] at hd

theorem LeasesOk.keep (h : s.LeasesOk P) (hlife : ∀ j, s.LifeOf P j) (hkeep : Keeps s s')
    (hsub : ∀ lease ∈ s'.db.leases, lease ∈ s.db.leases) : s'.LeasesOk P := by
  intro lease hlease
  obtain ⟨f, hf, hsha, hturn⟩ := h lease (hsub lease hlease)
  obtain ⟨f', hf', hturn', hcontent⟩ := hkeep _ f hf
  refine ⟨f', hf', ?_, by rw [hturn', hturn]⟩
  rcases hcontent with hcontent | hp
  · rw [hcontent, hsha]
  · exact absurd hp (phase_of_leased (hlife _) ⟨lease, hsub lease hlease, rfl⟩ hf)

theorem LeasesOk.serve {fate : Fate} {now : ℤ} (h : s.LeasesOk P) (hok : s.QueueOk) (hlife : ∀ j, s.LifeOf P j)
    (hwell : ∀ w r rest, s.queue = (w, r) :: rest → ∀ k sha256 bytes, r.Puts k sha256 bytes → s.writer.alive = true →
      ∀ e, fate = .executeThenFail e → ∀ p, r.job now s.db ≠ .ok p) : (s.serve fate now).LeasesOk P := by
  unfold State.serve
  split
  · exact h
  next w r rest hqueue =>
  dsimp only
  obtain ⟨hf', hw', -⟩ := deliver_frame { s with writer := (s.writer.runSized fate (r.job now)).2, queue := rest } w
    (s.writer.runSized fate (r.job now)).1
  have hmem : (w, r) ∈ s.queue := by rw [hqueue]; exact List.mem_cons_self ..
  by_cases hput : ∃ k sha256 bytes, r.Puts k sha256 bytes
  · obtain ⟨k, sha256, bytes, hputs⟩ := hput
    have hclient : w ≠ .client := fun hw => hok.clients _ hmem hw _ _ _ hputs
    have hlifek := hlife k
    unfold LifeOf at hlifek
    rw [requestsOf_head hqueue, if_pos (asksAbout_puts (e := (w, r)) hputs hclient)] at hlifek
    obtain ⟨-, f, hf, hcases⟩ := hlifek.of_request
    have hr : r = f.putRequest P k := by
      obtain ⟨kind, turnRowId, rfl⟩ := hputs
      rcases hcases with ⟨he, -⟩ | ⟨he, -⟩ | ⟨he, -⟩ | ⟨he, -⟩ | ⟨he, -⟩ <;> cases he <;> rfl
    intro lease hlease
    unfold db at hlease
    rw [hw'] at hlease
    rw [hf']
    rcases runSized_put fate now s.writer hr (hwell w r rest hqueue k _ _ ⟨_, _, hr⟩) with
      ⟨_, -, hsame⟩ | ⟨_, -, -, hnew⟩
    · rw [hsame] at hlease
      exact h lease hlease
    · rw [hnew] at hlease
      rcases List.mem_append.1 hlease with hlease | hlease
      · exact h lease hlease
      · rw [List.mem_singleton.1 hlease]
        exact ⟨f, hf, rfl, rfl⟩
  · simp only [not_exists] at hput
    have hshrinks := runSized_shrinks fate now s.writer hput (hok.forced _ hmem)
    refine h.keep hlife (keeps_refl hf') fun lease hlease => ?_
    unfold db at hlease
    rw [hw'] at hlease
    exact hshrinks.leases lease hlease

/-! ## The disk -/

/-- The job that holds the lock has taken a file away and is about to put it in place. -/
def Replacing (s : State) (name : String) : Prop :=
  ∃ job t, s.install? = some job ∧ job.sha = name ∧ job.point = .rename t

/-- The file of a name is there, or is about to be. -/
def Stored (s : State) (name : String) : Prop := (s.disk.files name).isSome = true ∨ s.Replacing name

/-- Nobody replaces a file. -/
def Still (s : State) : Prop := ∀ name, ¬s.Replacing name

theorem still_of_install (h : ∀ job, s.install? = some job → ∀ t, job.point ≠ .rename t) : s.Still :=
  fun _ ⟨job, t, hjob, _, hpoint⟩ => h job hjob t hpoint

theorem still_none (h : s.install? = none) : s.Still :=
  still_of_install fun job hjob => by simp [h] at hjob

theorem replacing_of_still (h : s.Still) (h' : s'.Still) (name : String) : s'.Replacing name ↔ s.Replacing name :=
  iff_of_false (h' name) (h name)

theorem replacing_of_install (h : s'.install? = s.install?) (name : String) : s'.Replacing name ↔ s.Replacing name := by
  simp only [Replacing, h]

theorem install_of_lock (h : s'.lock = s.lock) : s'.install? = s.install? := by
  simp only [install?, h]

end State

def FetchPhase.HasContent : FetchPhase → Prop
  | .hashing | .locking | .inside | .returned (.ok _) => True
  | _ => False

/-- Where a fetch is that holds the lock: its job is at work on its content, and from the end of the job on the file is
in place. -/
def FetchStage.Ok (P : Params) (C : List (List UInt8)) (d : Disk) (f : Fetch) (alive : Bool) : FetchStage → Prop
  | .installing job | .verifying _ job => job.content ∈ C ∧ job.sha = P.sha256Hex job.content ∧ job.Placed d ∧
      (alive = true → job.content = f.content)
  | .installed (.ok ()) | .verified _ (.ok ()) | .committing _ =>
    alive = true ∧ (d.files (P.sha256Hex f.content)).isSome = true
  | .installed (.error _) | .verified _ (.error _) | .releasing _ => alive = true

variable {f : Fetch}

theorem FetchStage.installing_first {C : List (List UInt8)} (hc : f.content ∈ C) :
    (FetchStage.installing (.first (P.sha256Hex f.content) f.content)).Ok P C d f true :=
  ⟨hc, rfl, ⟨nofun, by simp [Install.first], nofun⟩, fun _ => rfl⟩

theorem FetchStage.verifying_again {C : List (List UInt8)} {token : ℕ} (hc : f.content ∈ C) :
    (FetchStage.verifying token (.again (P.sha256Hex f.content) f.content)).Ok P C d f true :=
  ⟨hc, rfl, ⟨nofun, by simp [Install.again], nofun⟩, fun _ => rfl⟩

/-- Every request that stores a row comes before one of the pass that holds the lock. -/
def Quieted (q : List (Waiter × AttachmentRequest)) : Prop :=
  ∀ pre e post, q = pre ++ e :: post → (∃ k sha256 bytes, e.2.Puts k sha256 bytes) → ∃ e' ∈ post, State.asksForSweep e' = true

variable {q : List (Waiter × AttachmentRequest)} {e : Waiter × AttachmentRequest}

theorem Quieted.tail (h : Quieted (e :: q)) :
    Quieted q :=
  fun pre e' post hq hput => h (e :: pre) e' post (by rw [hq, List.cons_append]) hput

/-- A pass that waits for nothing has all commits behind it. -/
theorem Quieted.no_puts (h : Quieted q) (hno : ∀ e ∈ q, State.asksForSweep e = false) :
    ∀ e ∈ q, ∀ k sha256 bytes, ¬e.2.Puts k sha256 bytes := by
  intro e he k sha256 bytes hputs
  obtain ⟨pre, post, rfl⟩ := List.append_of_mem he
  obtain ⟨e', he', hasks⟩ := h pre e post rfl ⟨k, sha256, bytes, hputs⟩
  simp [hno e' (List.mem_append_right _ (List.mem_cons_of_mem _ he'))] at hasks

theorem Quieted.append (h : Quieted q) (hput : ∀ k sha256 bytes, ¬e.2.Puts k sha256 bytes) : Quieted (q ++ [e]) := by
  intro pre e' post hq hputs
  rcases List.eq_nil_or_concat post with rfl | ⟨post', last, rfl⟩
  · obtain ⟨-, heq⟩ := List.append_singleton_inj.1 hq
    cases heq
    obtain ⟨k, sha256, bytes, hputs⟩ := hputs
    exact absurd hputs (hput k sha256 bytes)
  · rw [List.concat_eq_append, ← List.cons_append, ← List.append_assoc] at hq
    obtain ⟨hq', -⟩ := List.append_inj' hq rfl
    obtain ⟨e'', he'', hasks⟩ := h pre e' post' hq' hputs
    exact ⟨e'', by simp [he''], hasks⟩

/-- A request of a pass comes after all there are. -/
theorem Quieted.ask (he : State.asksForSweep e = true) : Quieted (q ++ [e]) := by
  intro pre e' post hq hputs
  rcases List.eq_nil_or_concat post with rfl | ⟨post', last, rfl⟩
  · obtain ⟨-, heq⟩ := List.append_singleton_inj.1 hq
    cases heq
    obtain ⟨w, r⟩ := e
    obtain ⟨k, sha256, bytes, kind, turnRowId, rfl⟩ := hputs
    cases w <;> simp [State.asksForSweep] at he
  · rw [List.concat_eq_append, ← List.cons_append, ← List.append_assoc] at hq
    obtain ⟨-, heq⟩ := List.append_inj' hq rfl
    cases heq
    exact ⟨e, by simp, he⟩

/-- **What is on the disk.** -/
structure DiskOk (P : Params) (C : List (List UInt8)) (s : State) : Prop where
  intact : s.disk.Intact P C
  rows : ∀ row ∈ s.db.attachments, s.Stored row.sha256 ∧ ∃ c ∈ C, P.sha256Hex c = row.sha256 ∧ c.length = row.bytes
  puts : ∀ e ∈ s.queue, ∀ k sha256 bytes, e.2.Puts k sha256 bytes →
    s.Stored sha256 ∧ ∃ c ∈ C, P.sha256Hex c = sha256 ∧ c.length = bytes
  contents : ∀ k f, s.fetches k = some f → f.phase.HasContent → f.content ∈ C
  holder : ∀ k alive stage, s.lock = some (.fetch k alive stage) →
    ∃ f, s.fetches k = some f ∧ stage.Ok P C s.disk f alive
  sweep : ∀ k alive stage, s.lock = some (.sweep k alive stage) → stage.Ok P s.disk s.db.attachments ∧ Quieted s.queue
  backed : ∀ lease ∈ s.db.leases, ∃ row ∈ s.db.attachments, row.sha256 = lease.sha256
  unread : ∀ name, s.Replacing name → ∀ k f att, s.Guaranteed k f att → att.sha256 ≠ name

/-- **The invariant of the cache.** -/
structure Inv (P : Params) (C : List (List UInt8)) (s : State) : Prop where
  life : ∀ j, s.LifeOf P j
  queue : s.QueueOk
  leases : s.LeasesOk P
  disk : DiskOk P C s

variable {C : List (List UInt8)}

theorem State.QueueOk.no_sweep (h : s.QueueOk) (hasks : s.sweepAsks = []) : ∀ e ∈ s.queue, asksForSweep e = false := by
  have hnil := h.sweeps
  rw [hasks, List.map_eq_nil_iff, List.filter_eq_nil_iff] at hnil
  exact fun e he => by simpa using hnil e he

/-- An attachment in use has its row, and its file is there or about to be. -/
theorem Inv.guaranteed (h : Inv P C s) {att : CachedAttachment} (hg : s.Guaranteed k f att) :
    (∃ row ∈ s.db.attachments, row.sha256 = att.sha256) ∧ att.sha256 = P.sha256Hex f.content ∧ s.Stored att.sha256 ∧
      f.content ∈ C := by
  obtain ⟨hf, hp, hnot, hover⟩ := hg
  have hlife := h.life k
  unfold State.LifeOf at hlife
  rw [hf] at hlife
  obtain ⟨rfl, hgranted⟩ : att = f.attachment P k ∧ s.Granted k := by
    generalize s.stageOf k = stage, s.tasks k = t, s.requestsOf k = q at hlife
    cases hlife with
    | returned hr ht hg => exact ⟨by simpa [hp] using hr, hg⟩
    | outside hr => rcases hr with hr | hr | hr <;> simp [hp] at hr
    | taskPutting hw | taskPut hw | taskRefused hw | taskReleasing hw | taskReleased hw =>
      rcases hw with ⟨hd, -⟩ | ⟨hd, -⟩ <;> simp [hp] at hd
    | installing hd | installed hd | putting hd | ready hd | committed hd | refused hd | verifying hd | verified hd
    | releasing hd | released hd | failed hd | dropped hd | droppedReleasing hd | lost hd => simp [hp] at hd
  obtain ⟨lease, hlease, heq⟩ : s.Leased k := by
    rcases hgranted with hl | hr | ⟨f', hf', ho⟩
    · exact hl
    · exact absurd hr hnot
    · rw [hf] at hf'
      cases hf'
      exact absurd ho hover
  obtain ⟨f', hf', hsha, -⟩ := h.leases lease hlease
  rw [heq, hf] at hf'
  cases hf'
  obtain ⟨row, hrow, hname⟩ := h.disk.backed lease hlease
  rw [hsha] at hname
  refine ⟨⟨row, hrow, hname⟩, rfl, ?_, h.disk.contents k f hf (by rw [hp]; trivial)⟩
  have hstored := (h.disk.rows row hrow).1
  rwa [hname] at hstored

/-! ## Steps that leave the files -/

/-- The lock, the queue and the fetches change, and the same file is being replaced. -/
theorem DiskOk.frame (h : DiskOk P C s) (hdisk : s'.disk = s.disk) (hdb : s'.writer.db = s.writer.db)
    (hrepl : ∀ name, s'.Replacing name ↔ s.Replacing name)
    (hputs : ∀ e ∈ s'.queue, ∀ k sha256 bytes, e.2.Puts k sha256 bytes → (∃ e₀ ∈ s.queue, e₀.2 = e.2) ∨
      s.Stored sha256 ∧ ∃ c ∈ C, P.sha256Hex c = sha256 ∧ c.length = bytes)
    (hcontents : ∀ k f, s'.fetches k = some f → f.phase.HasContent → f.content ∈ C)
    (hholder : ∀ k alive stage, s'.lock = some (.fetch k alive stage) →
      ∃ f, s'.fetches k = some f ∧ stage.Ok P C s.disk f alive)
    (hsweep : ∀ k alive stage, s'.lock = some (.sweep k alive stage) →
      stage.Ok P s.disk s.db.attachments ∧ Quieted s'.queue)
    (hunread : s.Still ∨ ∀ k f att, s'.Guaranteed k f att → ∃ f', s.Guaranteed k f' att) : DiskOk P C s' := by
  have hstored : ∀ name, s.Stored name → s'.Stored name := fun name hn => by
    rwa [State.Stored, hdisk, hrepl]
  refine ⟨hdisk ▸ h.intact, fun row hrow => ?_, fun e he k sha256 bytes hp => ?_, hcontents,
    fun k alive stage hl => ?_, fun k alive stage hl => ?_, fun lease hlease => ?_, fun name hr k f att hg => ?_⟩
  · unfold State.db at hrow
    rw [hdb] at hrow
    exact (h.rows row hrow).imp_left (hstored _)
  · rcases hputs e he k sha256 bytes hp with ⟨e₀, he₀, heq⟩ | hput
    · exact (h.puts e₀ he₀ k sha256 bytes (heq ▸ hp)).imp_left (hstored _)
    · exact hput.imp_left (hstored _)
  · rw [hdisk]
    exact hholder k alive stage hl
  · unfold State.db
    rw [hdisk, hdb]
    exact hsweep k alive stage hl
  · unfold State.db at *
    rw [hdb] at hlease ⊢
    exact h.backed lease hlease
  · rcases hunread with hstill | hg'
    · exact absurd ((hrepl name).1 hr) (hstill name)
    · obtain ⟨f', hg'⟩ := hg' k f att hg
      exact h.unread name ((hrepl name).1 hr) k f' att hg'

theorem DiskOk.contents_of_write {f' : Fetch} (h : DiskOk P C s) (hs : s'.fetches = Function.update s.fetches k (some f'))
    (hcontent : f'.phase.HasContent → f'.content ∈ C) :
    ∀ j f, s'.fetches j = some f → f.phase.HasContent → f.content ∈ C := by
  intro j f hf hp
  rcases State.fetches_cases hs hf with ⟨rfl, rfl⟩ | hf
  · exact hcontent hp
  · exact h.contents j f hf hp

/-- One fetch is written, and nothing else. -/
theorem DiskOk.setFetch {f' : Fetch} (h : DiskOk P C s) (hcontent : f'.phase.HasContent → f'.content ∈ C)
    (hholds : ∀ f stage, s.fetches k = some f → s.lock = some (.fetch k true stage) → f'.content = f.content)
    (hret : ∀ att, f'.phase = .returned (.ok att) →
      ∃ f, s.fetches k = some f ∧ f.phase = .returned (.ok att) ∧ f.turnRowId = f'.turnRowId) :
    DiskOk P C (s.setFetch k f') := by
  refine h.frame rfl rfl (fun _ => Iff.rfl) (fun e he _ _ _ _ => .inl ⟨e, he, rfl⟩) (h.contents_of_write rfl hcontent)
    (fun j alive stage hl => ?_) h.sweep (.inr fun j f att ⟨hf, hp, hnot, hover⟩ => ?_)
  · obtain ⟨f, hf, hok⟩ := h.holder j alive stage hl
    by_cases hj : j = k
    · subst hj
      have hc : alive = true → f'.content = f.content := by
        rintro rfl
        exact hholds f stage hf hl
      refine ⟨f', Function.update_self .., ?_⟩
      match stage with
      | .installing job | .verifying _ job =>
        exact ⟨hok.1, hok.2.1, hok.2.2.1, fun ha => (hok.2.2.2 ha).trans (hc ha).symm⟩
      | .installed (.ok ()) | .verified _ (.ok ()) | .committing _ =>
        exact ⟨hok.1, by rw [hc hok.1]; exact hok.2⟩
      | .installed (.error _) | .verified _ (.error _) | .releasing _ => exact hok
    · exact ⟨f, (Function.update_of_ne hj _ _).trans hf, hok⟩
  · rcases State.fetches_cases rfl hf with ⟨rfl, rfl⟩ | hf
    · obtain ⟨f₀, hf₀, hp₀, hturn⟩ := hret att hp
      exact ⟨f₀, hf₀, hp₀, hnot, hturn ▸ hover⟩
    · exact ⟨f, hf, hp, hnot, hover⟩

theorem Inv.stage_inside (h : Inv P C s) {stage : FetchStage} (hlock : s.lock = some (.fetch k true stage))
    (hf : s.fetches k = some f) : f.phase = .inside := by
  have hlife := h.life k
  unfold State.LifeOf at hlife
  rw [hf, State.stageOf_of_lock _ hlock] at hlife
  exact hlife.inside_of_stage

theorem Inv.of_eq (h : Inv P C s) (hdisk : s'.disk = s.disk) (hwriter : s'.writer = s.writer)
    (hqueue : s'.queue = s.queue) (hlock : s'.lock = s.lock) (hfetches : s'.fetches = s.fetches)
    (htasks : s'.tasks = s.tasks) : Inv P C s' := by
  obtain ⟨disk, writer, queue, lock, scanner, fetches, sweeps, tasks⟩ := s
  obtain ⟨disk', writer', queue', lock', scanner', fetches', sweeps', tasks'⟩ := s'
  obtain rfl : disk' = disk := hdisk
  obtain rfl : writer' = writer := hwriter
  obtain rfl : queue' = queue := hqueue
  obtain rfl : lock' = lock := hlock
  obtain rfl : fetches' = fetches := hfetches
  obtain rfl : tasks' = tasks := htasks
  exact ⟨h.life, ⟨h.queue.clients, h.queue.tasks, h.queue.snapshots, h.queue.forced, h.queue.sweeps⟩, h.leases,
    ⟨h.disk.intact, h.disk.rows, h.disk.puts, h.disk.contents, h.disk.holder, h.disk.sweep, h.disk.backed,
      h.disk.unread⟩⟩

theorem Inv.setFetch {f' : Fetch} (h : Inv P C s) (hlife : ∀ j, (s.setFetch k f').LifeOf P j)
    (hkeep : ∀ f, s.fetches k = some f → f'.turnRowId = f.turnRowId ∧
      (f'.content = f.content ∨ f.phase = .downloading))
    (hcontent : f'.phase.HasContent → f'.content ∈ C)
    (hret : ∀ att, f'.phase = .returned (.ok att) → ∃ f, s.fetches k = some f ∧ f.phase = .returned (.ok att)) :
    Inv P C (s.setFetch k f') := by
  refine ⟨hlife, h.queue.of_eq rfl rfl, h.leases.keep h.life (State.keeps_setFetch rfl hkeep) fun _ hl => hl,
    h.disk.setFetch hcontent (fun f stage hf hl => ?_) fun att hp => ?_⟩
  · exact (hkeep f hf).2.resolve_right (by simp [h.stage_inside hl hf])
  · obtain ⟨f, hf, hpf⟩ := hret att hp
    exact ⟨f, hf, hpf, (hkeep f hf).1.symm⟩

namespace State

theorem inv_downloaded {result : Except AttachError (List UInt8)} (h : Inv P C s)
    (hc : ∀ bytes, result = .ok bytes → bytes ∈ C) : Inv P C (s.downloaded P k result) := by
  have hlife : ∀ j, (s.downloaded P k result).LifeOf P j := life_downloaded h.life
  unfold downloaded at hlife ⊢
  split at hlife
  · next f hf =>
    split at hlife
    · next hp =>
      have hkeep : ∀ (content : List UInt8) f', s.fetches k = some f' → f.turnRowId = f'.turnRowId ∧
          (content = f'.content ∨ f'.phase = .downloading) := by
        intro content f' hf'
        rw [hf] at hf'
        cases hf'
        exact ⟨rfl, .inr hp⟩
      split_ifs at hlife ⊢
      · exact h.setFetch hlife (hkeep _) nofun (by simp)
      · split at hlife
        · exact h.setFetch hlife (hkeep _) nofun (by simp)
        · next bytes =>
          split at hlife
          · exact h.setFetch hlife (hkeep _) nofun (by simp)
          · exact h.setFetch hlife (hkeep _) (fun _ => hc bytes rfl) (by simp)
    · exact h
  · exact h

variable {f : Fetch}

theorem inv_newFetch (h : Inv P C s) (hf : s.fetches k = none)
    (hnew : f.phase = .downloading ∨ ∃ e, f.phase = .returned (.error e)) : Inv P C (s.setFetch k f) := by
  refine h.setFetch (life_newFetch h.life hf hnew) (fun f' hf' => by simp [hf] at hf') (fun hp => ?_) (fun att hp => ?_)
  · rcases hnew with hn | ⟨e, hn⟩ <;> rw [hn] at hp <;> exact hp.elim
  · rcases hnew with hn | ⟨e, hn⟩ <;> simp [hn] at hp

theorem inv_cancel (h : Inv P C s) (hf : s.fetches k = some f) :
    Inv P C (s.setFetch k { f with cancelled := true }) :=
  h.setFetch (life_cancel h.life hf) (kept_self hf rfl rfl) (h.disk.contents k f hf) fun _ hp => ⟨f, hf, hp⟩

/-- A fetch goes on, fails or is dropped with the content it has. -/
theorem inv_fetchTo (h : Inv P C s) {phase : FetchPhase} (hf : s.fetches k = some f)
    (hlife : ∀ j, (s.fetchTo k f phase).LifeOf P j) (hcontent : phase.HasContent → f.content ∈ C)
    (hret : ∀ att, phase ≠ .returned (.ok att)) : Inv P C (s.fetchTo k f phase) :=
  h.setFetch hlife (kept_self hf rfl rfl) hcontent fun att hp => absurd hp (hret att)

theorem inv_hashed (h : Inv P C s) : Inv P C (s.hashed k) := by
  have hlife := life_hashed (k := k) h.life
  unfold hashed at hlife ⊢
  split at hlife
  · next f hf =>
    split at hlife
    · next hp =>
      split_ifs at hlife ⊢
      · exact inv_fetchTo h hf hlife nofun (by simp)
      · exact inv_fetchTo h hf hlife (fun _ => h.disk.contents k f hf (by rw [hp]; trivial)) (by simp)
    · exact h
  · exact h

theorem inv_lockFetch (h : Inv P C s) : Inv P C (s.lockFetch P k) := by
  have hlife := life_lockFetch (k := k) h.life
  unfold lockFetch at hlife ⊢
  split at hlife
  · next f hlock hf =>
    split at hlife
    · next hp =>
      split_ifs at hlife ⊢
      · exact inv_fetchTo h hf hlife nofun (by simp)
      · have hcontent : f.content ∈ C := h.disk.contents k f hf (by rw [hp]; trivial)
        have hstill : s.Still := still_none (by simp [State.install?, hlock])
        refine ⟨hlife, h.queue.of_eq rfl (by rw [sweepAsks_none hlock]; rfl),
          h.leases.keep h.life (keeps_setFetch rfl (kept_self hf rfl rfl)) fun _ hl => hl,
          h.disk.frame rfl rfl (replacing_of_still hstill (still_of_install ?_)) (fun e he _ _ _ _ => .inl ⟨e, he, rfl⟩)
            (h.disk.contents_of_write rfl fun _ => hcontent) (fun j alive stage hl => ?_)
            (fun j alive stage hl => by simp at hl) (.inl hstill)⟩
        · intro job hjob t
          simp only [State.install?, Option.bind_some, Holder.install?, Option.some.injEq] at hjob
          simp [← hjob, Install.first]
        · cases hl
          exact ⟨{ f with phase := .inside }, Function.update_self .., FetchStage.installing_first hcontent⟩
    · exact h
  · exact h

/-! ## The fetch that holds the lock -/

variable {stage : FetchStage} {alive : Bool}

theorem still_fetch (h : s.lock = some (.fetch k alive stage))
    (hjob : ∀ job, Holder.install? (.fetch k alive stage) = some job → job.point = .verify) : s.Still :=
  still_of_install fun job hj t => by
    simp only [State.install?, h, Option.bind_some] at hj
    simp [hjob job hj]

theorem inv_returnFetch {result : Except AttachError CachedAttachment} (h : Inv P C s)
    (hlock : s.lock = some (.fetch k true stage)) (hf : s.fetches k = some f) (hstill : s.Still)
    (hlife : ∀ j, (s.returnFetch k f result).LifeOf P j) : Inv P C (s.returnFetch k f result) := by
  have hcontent : f.content ∈ C := h.disk.contents k f hf (by rw [h.stage_inside hlock hf]; trivial)
  refine ⟨hlife, h.queue.of_eq rfl (by rw [sweepAsks_fetch hlock]; rfl),
    h.leases.keep h.life (keeps_setFetch rfl (kept_self hf rfl rfl)) fun _ hl => hl,
    h.disk.frame rfl rfl (replacing_of_still hstill (still_none rfl)) (fun e he _ _ _ _ => .inl ⟨e, he, rfl⟩)
      (h.disk.contents_of_write rfl fun _ => hcontent) (fun j alive stage hl => ?_) (fun j alive stage hl => ?_)
      (.inl hstill)⟩
  all_goals simp [returnFetch] at hl

/-- The fetch that holds the lock goes on, and may ask the store. -/
theorem inv_stage {stage' : FetchStage} (h : Inv P C s) (hlock : s.lock = some (.fetch k true stage))
    (hf : s.fetches k = some f) (hstill : s.Still) (hlife : ∀ j, s'.LifeOf P j) (hdisk : s'.disk = s.disk)
    (hwriter : s'.writer = s.writer) (hfetches : s'.fetches = s.fetches)
    (hlock' : s'.lock = some (.fetch k true stage')) (hstill' : s'.Still) (hok : stage'.Ok P C s.disk f true)
    (hqueue : s'.queue = s.queue ∨ ∃ r, s'.queue = s.queue ++ [(.holder, r)] ∧ asksForSweep (.holder, r) = false ∧
      (∀ sha256, r ≠ .deleteAttachmentForce sha256) ∧ ∀ k sha256 bytes, r.Puts k sha256 bytes →
        (s.disk.files sha256).isSome = true ∧ ∃ c ∈ C, P.sha256Hex c = sha256 ∧ c.length = bytes) : Inv P C s' := by
  have hasks : s'.sweepAsks = s.sweepAsks := by rw [sweepAsks_fetch hlock', sweepAsks_fetch hlock]
  refine ⟨hlife, ?_, h.leases.keep h.life (keeps_refl hfetches) fun _ hl => by unfold db at *; rwa [hwriter] at hl,
    h.disk.frame hdisk (by rw [hwriter]) (replacing_of_still hstill hstill') (fun e he j sha256 bytes hp => ?_)
      (fun j f' hf' => h.disk.contents j f' (by rwa [hfetches] at hf')) (fun j alive stage hl => ?_)
      (fun j alive stage hl => by simp [hlock'] at hl) (.inl hstill)⟩
  · rcases hqueue with hq | ⟨r, hq, hasks', hforce, -⟩
    · exact h.queue.of_eq hq hasks
    · exact h.queue.admitted hq nofun nofun nofun hforce (by rw [hasks, hasks']; simp)
  · rcases hqueue with hq | ⟨r, hq, -, -, hput⟩
    · exact .inl ⟨e, hq ▸ he, rfl⟩
    · rw [hq] at he
      rcases List.mem_append.1 he with he | he
      · exact .inl ⟨e, he, rfl⟩
      · rw [List.mem_singleton.1 he] at hp
        exact .inr ((hput j sha256 bytes hp).imp_left .inl)
  · rw [hlock'] at hl
    cases hl
    exact ⟨f, by rw [hfetches]; exact hf, hok⟩

variable {room : Except StoreError Unit} {r : AttachmentRequest} {next : SweepNext}

section

variable (h : Inv P C s)
include h

theorem inv_resumeFetch (hlock : s.lock = some (.fetch k true stage)) (hf : s.fetches k = some f)
    (hroom : ∀ token, stage = .verified token (.ok ()) → f.isCancelled = true → room.isOk = false → ¬s.Leased k) :
    Inv P C (s.resumeFetch P k f stage room) := by
  have hlife := life_resumeFetch h.life hlock hf hroom
  obtain ⟨f', hf', hok⟩ := h.disk.holder k true stage hlock
  rw [hf] at hf'
  cases hf'
  have hcontent : f.content ∈ C := h.disk.contents k f hf (by rw [h.stage_inside hlock hf]; trivial)
  unfold resumeFetch at hlife ⊢
  split at hlife
  · exact inv_returnFetch h hlock hf (still_fetch hlock (by rintro _ ⟨⟩)) hlife
  · split_ifs at hlife ⊢
    · exact inv_returnFetch h hlock hf (still_fetch hlock (by rintro _ ⟨⟩)) hlife
    · exact inv_stage h hlock hf (still_fetch hlock (by rintro _ ⟨⟩)) hlife rfl rfl rfl rfl (still_fetch rfl (by rintro _ ⟨⟩)) hok (.inl rfl)
    · split at hlife
      · exact inv_returnFetch h hlock hf (still_fetch hlock (by rintro _ ⟨⟩)) hlife
      · refine inv_stage h hlock hf (still_fetch hlock (by rintro _ ⟨⟩)) hlife rfl rfl rfl rfl (still_fetch rfl (by rintro _ ⟨⟩)) hok
          (.inr ⟨f.putRequest P k, rfl, rfl, by rintro _ ⟨⟩, fun j sha256 bytes hp => ?_⟩)
        obtain ⟨kind, turnRowId, hp⟩ := hp
        cases hp
        exact ⟨hok.2, f.content, hcontent, rfl, rfl⟩
  · exact inv_returnFetch h hlock hf (still_fetch hlock (by rintro _ ⟨⟩)) hlife
  · refine inv_stage h hlock hf (still_fetch hlock (by rintro _ ⟨⟩)) hlife rfl rfl rfl rfl (still_fetch rfl fun job hjob => ?_)
      (FetchStage.verifying_again hcontent) (.inl rfl)
    simp only [Holder.install?, Option.some.injEq] at hjob
    rw [← hjob]
    rfl
  · exact inv_returnFetch h hlock hf (still_fetch hlock (by rintro _ ⟨⟩)) hlife
  · split_ifs at hlife ⊢
    · split at hlife
      · exact inv_returnFetch h hlock hf (still_fetch hlock (by rintro _ ⟨⟩)) hlife
      · refine inv_stage h hlock hf (still_fetch hlock (by rintro _ ⟨⟩)) hlife rfl rfl rfl rfl (still_fetch rfl (by rintro _ ⟨⟩)) rfl
          (.inr ⟨_, rfl, rfl, by simp, fun j sha256 bytes hp => ?_⟩)
        obtain ⟨kind, turnRowId, hp⟩ := hp
        cases hp
    · exact inv_returnFetch h hlock hf (still_fetch hlock (by rintro _ ⟨⟩)) hlife
  · exact inv_returnFetch h hlock hf (still_fetch hlock (by rintro _ ⟨⟩)) hlife
  · exact h
  · exact h
  · exact h
  · exact h

/-! ## Requests outside the lock -/

/-- One more request that no pass under the lock makes. -/
theorem inv_admitted {w : Waiter} (hlife : ∀ j, s'.LifeOf P j) (hdisk : s'.disk = s.disk)
    (hwriter : s'.writer = s.writer) (hfetches : s'.fetches = s.fetches) (hlock : s'.lock = s.lock)
    (hqueue : s'.queue = s.queue ++ [(w, r)]) (hclient : w = .client → ∀ k sha256 bytes, ¬r.Puts k sha256 bytes)
    (htask : ∀ k, w = .task k → Waiter.asksAbout k (w, r) = true)
    (hsnapshot : ∀ k, w = .snapshot k → r = .listAttachments) (hforce : ∀ sha256, r ≠ .deleteAttachmentForce sha256)
    (hasks : asksForSweep (w, r) = false) (hput : ∀ k sha256 bytes, r.Puts k sha256 bytes →
      (s.Stored sha256 ∧ ∃ c ∈ C, P.sha256Hex c = sha256 ∧ c.length = bytes) ∧
        ∀ k alive stage, s.lock ≠ some (.sweep k alive stage)) : Inv P C s' := by
  have hdb : s'.db = s.db := by unfold db; rw [hwriter]
  refine ⟨hlife, h.queue.admitted hqueue hclient htask hsnapshot hforce (by rw [sweepAsks_of_lock hlock, hasks]; simp),
    h.leases.keep h.life (keeps_refl hfetches) fun _ hl => hdb ▸ hl,
    h.disk.frame hdisk (congrArg _ hwriter) (replacing_of_install (install_of_lock hlock)) (fun e he k sha256 bytes hp => ?_)
      (hfetches ▸ h.disk.contents) (fun k alive stage hl => ?_) (fun k alive stage hl => ?_) (.inr fun k f att hg => ⟨f, ?_⟩)⟩
  · rw [hqueue] at he
    rcases List.mem_append.1 he with he | he
    · exact .inl ⟨e, he, rfl⟩
    · rw [List.mem_singleton.1 he] at hp
      exact .inr (hput k sha256 bytes hp).1
  · rw [hfetches]
    exact h.disk.holder k alive stage (hlock ▸ hl)
  · obtain ⟨hok, hquiet⟩ := h.disk.sweep k alive stage (hlock ▸ hl)
    rw [hqueue]
    exact ⟨hok, hquiet.append fun j sha256 bytes hp => (hput j sha256 bytes hp).2 k alive stage (hlock ▸ hl)⟩
  · unfold Guaranteed Over at *
    rwa [hdb, hfetches] at hg

/-- A client releases a lease, or the leases of a turn. -/
theorem inv_client (hput : ∀ k sha256 bytes, ¬r.Puts k sha256 bytes)
    (hforce : ∀ sha256, r ≠ .deleteAttachmentForce sha256) : Inv P C (s.admitted .client r) :=
  inv_admitted h (fun j => (h.life j).frame_db rfl rfl rfl rfl (requestsOf_request (fun _ => rfl) j)) rfl rfl rfl rfl rfl
    (fun _ => hput) nofun nofun hforce rfl fun k sha256 bytes hp => absurd hp (hput k sha256 bytes)

theorem inv_enterReconcile : Inv P C (s.enterReconcile k room) := by
  have hlife : ∀ j, (s.enterReconcile k room).LifeOf P j := life_enterReconcile h.life
  unfold enterReconcile at hlife ⊢
  split at hlife
  · split at hlife
    · exact h.of_eq rfl rfl rfl rfl rfl rfl
    · exact inv_admitted h hlife rfl rfl rfl rfl rfl nofun nofun (fun _ _ => rfl) nofun rfl
        fun k sha256 bytes ⟨kind, turnRowId, hp⟩ => by cases hp
  · exact h

/-! ## The task -/

/-- The task hands its result to the fetch that waits for it, or to nobody. -/
theorem inv_finishTask {result : Except StoreError ℕ} (hlife : ∀ j, (s.finishTask k result).LifeOf P j) :
    Inv P C (s.finishTask k result) := by
  rcases s.lock_finishTask (k := k) result with ⟨hlock, hlock'⟩ | hsame
  · obtain ⟨f, hf, hok⟩ := h.disk.holder k true _ hlock
    exact inv_stage h hlock hf (still_fetch hlock nofun) hlife rfl rfl rfl hlock' (still_fetch hlock' nofun) hok (.inl rfl)
  · refine ⟨hlife, h.queue.of_eq rfl (sweepAsks_of_lock hsame), h.leases.keep h.life (keeps_refl rfl) fun _ hl => hl,
      h.disk.frame rfl rfl (replacing_of_install (install_of_lock hsame)) (fun e he _ _ _ _ => .inl ⟨e, he, rfl⟩)
        h.disk.contents (fun _ _ _ hl => h.disk.holder _ _ _ (hsame ▸ hl)) (fun _ _ _ hl => h.disk.sweep _ _ _ (hsame ▸ hl))
        (.inr fun j f att hg => ⟨f, hg⟩)⟩

theorem inv_pollTask (hroom : ∀ f token, s.fetches k = some f → s.tasks k = .putting (some (.ok token)) → f.isCancelled = true →
      room.isOk = false → ¬s.Leased k) : Inv P C (s.pollTask P k room) := by
  have hlife := life_pollTask h.life hroom
  unfold pollTask at hlife ⊢
  split at hlife
  · next f hf =>
    have hk := h.life k
    unfold LifeOf at hk
    rw [hf] at hk
    split at hlife
    · next ht =>
      split at hlife
      · exact inv_finishTask h hlife
      · rw [ht] at hk
        obtain ⟨hp, hstage, -⟩ := hk.of_task (by simp [Task.Settled])
        have hlock := lock_of_stageOf hstage
        obtain ⟨f', hf', hok⟩ := h.disk.holder k true _ hlock
        rw [hf] at hf'
        cases hf'
        refine inv_admitted h hlife rfl rfl rfl rfl rfl (by simp) (fun j hj => ?_) (by simp) (by rintro _ ⟨⟩) rfl
          fun j sha256 bytes hp' => ?_
        · cases hj
          simp [Waiter.asksAbout, Fetch.putRequest]
        · obtain ⟨kind, turnRowId, hp'⟩ := hp'
          cases hp'
          exact ⟨⟨.inl hok.2, f.content, h.disk.contents k f hf (by rw [hp]; trivial), rfl, rfl⟩, by simp [hlock]⟩
    · exact inv_finishTask h hlife
    · next token ht =>
      rw [ht] at hk
      obtain ⟨rfl, -⟩ := hk.of_task (by simp [Task.Settled])
      split_ifs at hlife ⊢
      · split at hlife
        · exact inv_finishTask h hlife
        · refine inv_admitted h hlife rfl rfl rfl rfl rfl (by simp) (fun j hj => ?_) (by simp) (by simp) rfl
            (by rintro j sha256 bytes ⟨kind, turnRowId, ⟨⟩⟩)
          cases hj
          simp [Waiter.asksAbout]
      · exact inv_finishTask h hlife
    · exact inv_finishTask h hlife
    · exact inv_finishTask h hlife
    · exact h
  · exact h

/-! ## Drops, crashes and turns -/

end

/-- The lock changes and nothing else, with the same replacement under way. -/
theorem disk_of_lock {lock : Option Holder} (h : DiskOk P C s) (hinstall : lock.bind Holder.install? = s.install?)
    (hholder : ∀ k alive stage, lock = some (.fetch k alive stage) →
      ∃ f, s.fetches k = some f ∧ stage.Ok P C s.disk f alive)
    (hsweep : ∀ k alive stage, lock = some (.sweep k alive stage) →
      stage.Ok P s.disk s.db.attachments ∧ Quieted s.queue) : DiskOk P C { s with lock := lock } :=
  h.frame rfl rfl (replacing_of_install hinstall) (fun e he _ _ _ _ => .inl ⟨e, he, rfl⟩) h.contents hholder hsweep
    (.inr fun _ f _ hg => ⟨f, hg⟩)

theorem disk_abandon (h : DiskOk P C s) : DiskOk P C s.abandon := by
  unfold State.abandon
  split
  · next k alive job hlock =>
    obtain ⟨f, hf, hc, hsha, hplaced, -⟩ := h.holder k alive _ hlock
    refine disk_of_lock h (by simp [State.install?, hlock, Holder.install?]) (fun j a stage hl => ?_)
      (fun j a stage hl => by simp at hl)
    cases hl
    exact ⟨f, hf, hc, hsha, hplaced, by simp⟩
  · next k alive token job hlock =>
    obtain ⟨f, hf, hc, hsha, hplaced, -⟩ := h.holder k alive _ hlock
    refine disk_of_lock h (by simp [State.install?, hlock, Holder.install?]) (fun j a stage hl => ?_)
      (fun j a stage hl => by simp at hl)
    cases hl
    exact ⟨f, hf, hc, hsha, hplaced, by simp⟩
  · next k alive job hlock =>
    refine disk_of_lock h (by simp [State.install?, hlock, Holder.install?]) (fun j a stage hl => by simp at hl)
      (fun j a stage hl => ?_)
    cases hl
    exact h.sweep k alive _ hlock
  · next hinst hver hrun =>
    have hnone : s.install? = none := by
      unfold State.install?
      cases hlock : s.lock with
      | none => rfl
      | some holder =>
        cases holder with
        | fetch k alive stage =>
          cases stage with
          | installing job => exact absurd hlock (hinst k alive job)
          | verifying token job => exact absurd hlock (hver k alive token job)
          | _ => rfl
        | sweep k alive stage => rfl
    refine h.frame rfl rfl (replacing_of_still (still_none hnone) (still_none rfl)) (fun e he k sha256 bytes hp => .inl ?_)
      h.contents (fun j a stage hl => by simp at hl) (fun j a stage hl => by simp at hl) (.inl (still_none hnone))
    obtain ⟨e₀, he₀, rfl⟩ := List.mem_map.1 he
    refine ⟨e₀, he₀, ?_⟩
    unfold Waiter.forget
    split <;> rfl

/-- No detached job belongs to a fetch that still runs. -/
theorem lock_abandon (s : State) (stage : FetchStage) : s.abandon.lock ≠ some (.fetch k true stage) := by
  rcases s.abandon_cases with ⟨h', heq, -, hnot, -⟩ | ⟨heq, -⟩
  · rw [heq]
    exact fun hl => hnot k stage (Option.some.inj hl)
  · rw [heq]
    simp

theorem inv_dropFetch (h : Inv P C s)
    (hwell : s.holdsFetch k = true → s.tasks k ≠ .ready ∧ (s.Holds k → s.Compensated k)) :
    Inv P C (s.dropFetch k) := by
  have hlife := life_dropFetch h.life hwell
  unfold dropFetch at hlife ⊢
  split at hlife
  · next f hlive =>
    have hf : s.fetches k = some f := by
      unfold liveFetch at hlive
      split at hlive
      · next f' hf' => split at hlive <;> cases hlive; exact hf'
      · cases hlive
    cases hholds : s.holdsFetch k with
    | false =>
      simp only [hholds, Bool.false_eq_true, if_false] at hlife ⊢
      exact inv_fetchTo h hf hlife nofun nofun
    | true =>
      simp only [hholds, if_true] at hlife ⊢
      obtain ⟨hfetches, htasks, hwriter, hdisk⟩ := s.frame_abandon
      have hdb : s.abandon.db = s.db := by unfold db; rw [hwriter]
      have hs : (s.abandon.fetchTo k f .dropped).fetches = Function.update s.fetches k (some { f with phase := .dropped }) := by
        rw [← hfetches]
        rfl
      exact ⟨hlife, h.queue.abandon.of_eq rfl rfl, h.leases.keep h.life (keeps_setFetch hs (kept_self hf rfl rfl)) fun _ hl => hdb ▸ hl,
        (disk_abandon h.disk).setFetch nofun (fun _ stage _ hl => absurd hl (lock_abandon s stage)) nofun⟩
  · exact h

theorem inv_dropSweep (h : Inv P C s) : Inv P C (s.dropSweep k) := by
  have hlife := life_dropSweep (k := k) h.life
  unfold dropSweep at hlife ⊢
  split at hlife
  · next hlive =>
    cases hholds : s.holdsSweep k with
    | false =>
      simp only [hlive, Bool.false_eq_true, if_false, if_true]
      exact h.of_eq rfl rfl rfl rfl rfl rfl
    | true =>
      simp only [hholds, hlive, if_true] at hlife ⊢
      obtain ⟨hfetches, htasks, hwriter, hdisk⟩ := s.frame_abandon
      have hdb : s.abandon.db = s.db := by unfold db; rw [hwriter]
      have hdrop : Inv P C s.abandon := ⟨fun j => (hlife j).frame_db rfl rfl rfl rfl rfl, h.queue.abandon,
        h.leases.keep h.life (keeps_refl hfetches) fun _ hl => hdb ▸ hl, disk_abandon h.disk⟩
      exact hdrop.of_eq rfl rfl rfl rfl rfl rfl
  · next hlive =>
    simp only [hlive, Bool.false_eq_true, if_false]
    exact h

/-- Turns begin and end; one that is over stays over. -/
theorem inv_turns {turns : ℕ → Option Bool} (h : Inv P C s) (hover : ∀ turn, s.Over turn → turns turn = some true) :
    Inv P C { s with writer := { s.writer with db := { s.writer.db with turns := turns } } } :=
  ⟨life_turns h.life hover, h.queue.of_eq rfl rfl, h.leases.keep h.life (keeps_refl rfl) fun _ hl => hl,
    ⟨h.disk.intact, h.disk.rows, h.disk.puts, h.disk.contents, h.disk.holder, h.disk.sweep, h.disk.backed,
      fun name hr k f att ⟨hf, hp, hnot, ho⟩ =>
        h.disk.unread name hr k f att ⟨hf, hp, hnot, fun hov => ho (hover _ hov)⟩⟩⟩

theorem inv_crash (h : Inv P C s) (hwell : ∀ job, s.install? = some job → (∃ t, job.point = .rename t) →
    ∀ row ∈ s.db.attachments, row.sha256 ≠ job.sha) : Inv P C s.crash := by
  have hfetches : ∀ k f', s.crash.fetches k = some f' → ∃ f, s.fetches k = some f ∧
      f' = { f with phase := f.phase.crashed (s.pending k) } := by
    intro k f' hf'
    obtain ⟨f, hf, rfl⟩ := Option.map_eq_some_iff.1 hf'
    exact ⟨f, hf, rfl⟩
  refine ⟨life_crash h.life, ⟨nofun, nofun, nofun, nofun, rfl⟩, h.leases.keep h.life (fun k f hf => ?_) fun _ hl => hl,
    ⟨h.disk.intact, fun row hrow => ?_, nofun, fun k f' hf' hp => ?_, fun j a stage hl => by simp [crash] at hl,
      fun j a stage hl => by simp [crash] at hl, h.disk.backed, fun name ⟨job, t, hjob, _⟩ => by simp [State.install?, crash] at hjob⟩⟩
  · exact ⟨{ f with phase := f.phase.crashed (s.pending k) }, by simp [crash, hf], rfl, .inl rfl⟩
  · refine (h.disk.rows row hrow).imp_left fun hstored => ?_
    rcases hstored with hfile | ⟨job, t, hjob, hsha, hpoint⟩
    · exact .inl hfile
    · exact absurd hsha.symm (hwell job hjob ⟨t, hpoint⟩ row hrow)
  · obtain ⟨f, hf, rfl⟩ := hfetches k f' hf'
    refine h.disk.contents k f hf ?_
    revert hp
    cases f.phase with
    | dropped => simp only [FetchPhase.crashed]; split <;> exact fun hp => hp
    | _ => simp [FetchPhase.crashed, FetchPhase.HasContent]

/-! ## Passes under the lock -/

theorem still_sweep {stage : SweepStage} (h : s.lock = some (.sweep k alive stage)) : s.Still :=
  still_none (by simp [State.install?, h, Holder.install?])

/-- The lock is with a pass, or free. -/
theorem still_advance (k : ℕ) (next : SweepNext) (room : Except StoreError Unit) : (s.advance k next room).Still := by
  refine still_none ?_
  unfold advance State.install?
  split
  · rfl
  · rfl
  · split <;> rfl

/-- The pass inside goes on. -/
theorem inv_advance (h : Inv P C s) (hstage : ∀ j, s.stageOf j = none) (hasks : s.sweepAsks = []) (hstill : s.Still)
    (hnext : NextOk s.disk s.db.attachments next) (hquiet : (∃ job, next = .run job) → Quieted s.queue) :
    Inv P C (s.advance k next room) := by
  have hlife : ∀ j, (s.advance k next room).LifeOf P j := life_advance h.life hstage
  have hqueue : (s.advance k next room).QueueOk := h.queue.advance hasks hnext
  have hstill' := still_advance (s := s) k next room
  have hfree : ∀ s' : State, s'.Still → s'.disk = s.disk → s'.writer = s.writer → s'.queue = s.queue →
      s'.fetches = s.fetches → s'.lock = none → DiskOk P C s' := fun s' hs hd hw hq hf hl =>
    h.disk.frame hd (by rw [hw]) (replacing_of_still hstill hs) (fun e he _ _ _ _ => .inl ⟨e, hq ▸ he, rfl⟩)
      (fun j f hj => h.disk.contents j f (hf ▸ hj)) (fun j a stage hl' => by simp [hl] at hl')
      (fun j a stage hl' => by simp [hl] at hl') (.inl hstill)
  unfold advance at hlife hqueue hstill' ⊢
  split at hlife
  · exact ⟨hlife, hqueue, h.leases, hfree _ hstill' rfl rfl rfl rfl rfl⟩
  · next job =>
    refine ⟨hlife, hqueue, h.leases, h.disk.frame rfl rfl (replacing_of_still hstill hstill')
      (fun e he _ _ _ _ => .inl ⟨e, he, rfl⟩) h.disk.contents (fun j a stage hl => by simp at hl) (fun j a stage hl => ?_)
      (.inl hstill)⟩
    cases hl
    exact ⟨hnext, hquiet ⟨job, rfl⟩⟩
  · next call =>
    split at hlife
    · exact ⟨hlife, hqueue, h.leases, hfree _ hstill' rfl rfl rfl rfl rfl⟩
    · refine ⟨hlife, hqueue, h.leases, h.disk.frame rfl rfl (replacing_of_still hstill hstill')
        (fun e he j sha256 bytes hp => ?_) h.disk.contents (fun j a stage hl => by simp at hl) (fun j a stage hl => ?_)
        (.inl hstill)⟩
      · rcases List.mem_append.1 he with he | he
        · exact .inl ⟨e, he, rfl⟩
        · rw [List.mem_singleton.1 he] at hp
          obtain ⟨kind, turnRowId, hp⟩ := hp
          cases call <;> cases hp
      · cases hl
        exact ⟨hnext, Quieted.ask (by cases call <;> rfl)⟩

theorem inv_lockSweep (h : Inv P C s) : Inv P C (s.lockSweep k room) := by
  unfold lockSweep
  split
  · next candidates hlock _ =>
    refine inv_advance (s := s.setSweep k .inside) (h.of_eq rfl rfl rfl rfl rfl rfl) (stageOf_none hlock)
      (sweepAsks_none hlock) (still_none (by simp [State.install?, setSweep, hlock])) ?_ (by simp)
    cases candidates <;> trivial
  · exact h

/-- The pass that holds the lock reads its reply or the outcome of its job. -/
theorem inv_resumeSweep {stage : SweepStage} (h : Inv P C s) (hlock : s.lock = some (.sweep k true stage))
    (hasks : s.sweepAsks = []) (hnext : stage.Ok P s.disk s.db.attachments → NextOk s.disk s.db.attachments next) :
    Inv P C (s.advance k next room) := by
  obtain ⟨hok, hquiet⟩ := h.disk.sweep k true stage hlock
  exact inv_advance h (stageOf_sweep _ hlock) hasks (still_sweep hlock) (hnext hok) fun _ => hquiet

end State

end LarkCodexBridge.Runtime.Attachments
