import LarkCodexBridge.Runtime.AttachmentAgreement

/-!
# Runs of the attachment cache

The steps that change files or rows keep the invariant: an operation of the blocking job that holds the lock, and a
request that the writer serves. With them every well-behaved step does, so rows, leases and files agree after every
well-behaved run in which no two downloads collide under the digest.

* `inv_work`, `inv_serve`: the two steps;
* `cache_agrees`: every well-behaved run;
* `not_cache_agrees`: a second fetch of content that is in use takes the file away.
-/

namespace LarkCodexBridge.Runtime.Attachments

open Lark Store Limits StepSystem

variable {P : Params} {C : List (List UInt8)} {s s' : State} {k : ℕ}

/-! ## Blocking jobs -/

theorem Disk.Intact.of_files {d d' : Disk} (h : d.Intact P C)
    (hfiles : ∀ name, d'.files name = d.files name ∨ d'.files name = none) : d'.Intact P C := by
  intro name data hdata
  rcases hfiles name with heq | heq
  · exact h name data (heq ▸ hdata)
  · simp [heq] at hdata

namespace State

/-- Where the lock is after an operation of an install job. -/
def afterInstall (k : ℕ) (alive : Bool) (running : Install → FetchStage) (done : Except AttachError Unit → FetchStage) :
    Install ⊕ Except AttachError Unit → Option Holder
  | .inl job => some (.fetch k alive (running job))
  | .inr result => Holder.after alive (.fetch k alive (done result))

/-- The two uses of an install job. -/
structure Uses (P : Params) (k : ℕ) (alive : Bool) (running : Install → FetchStage)
    (done : Except AttachError Unit → FetchStage) : Prop where
  install : ∀ job, Holder.install? (.fetch k alive (running job)) = some job
  idle : ∀ result, Holder.install? (.fetch k alive (done result)) = none
  running : ∀ C d f job, (running job).Ok P C d f alive ↔ job.content ∈ C ∧ job.sha = P.sha256Hex job.content ∧
    job.Placed d ∧ (alive = true → job.content = f.content)
  ended : ∀ C d f, (done (.ok ())).Ok P C d f alive ↔ alive = true ∧ (d.files (P.sha256Hex f.content)).isSome = true
  failed : ∀ C d f e, (done (.error e)).Ok P C d f alive ↔ alive = true

theorem uses_first (alive : Bool) : Uses P k alive .installing .installed :=
  ⟨fun _ => rfl, fun _ => rfl, fun _ _ _ _ => Iff.rfl, fun _ _ _ => Iff.rfl, fun _ _ _ _ => Iff.rfl⟩

theorem uses_again (alive : Bool) (token : ℕ) : Uses P k alive (.verifying token) (.verified token) :=
  ⟨fun _ => rfl, fun _ => rfl, fun _ _ _ _ => Iff.rfl, fun _ _ _ => Iff.rfl, fun _ _ _ _ => Iff.rfl⟩

variable {alive fault : Bool} {d : Disk} {job : Install} {out : Install ⊕ Except AttachError Unit}
  {running : Install → FetchStage} {done : Except AttachError Unit → FetchStage} {stage : SweepStage}
  {rows : List AttachmentRow} {r : AttachmentRequest} {fate : Fate}

/-- A file that the job put in place or left there is stored; one that it takes away is about to be put back. -/
theorem stored_install {name : String} (huses : Uses P k alive running done)
    (hlock : s.lock = some (.fetch k alive (running job))) (heffect : Install.Effect job s.disk fault d out)
    (hlock' : s'.lock = afterInstall k alive running done out) (hdisk : s'.disk = d)
    (hfail : (∃ t, job.point = .rename t) → fault = true → job.sha ≠ name) (h : s.Stored name) :
    s'.Stored name := by
  have hinstall : s.install? = some job := by simp only [State.install?, hlock, Option.bind_some, huses.install]
  have hpoint : s.Replacing name → job.sha = name ∧ ∃ t, job.point = .rename t := by
    rintro ⟨job', t, hjob, hsha, hp⟩
    rw [hinstall] at hjob
    cases hjob
    exact ⟨hsha, t, hp⟩
  have hfile : (∀ t, job.point ≠ .rename t) → (s.disk.files name).isSome = true := fun hno =>
    h.resolve_right fun hr => by
      obtain ⟨-, t, hp⟩ := hpoint hr
      exact hno t hp
  cases heffect with
  | moves hfiles hplaced hno | ends hfiles hplaced hno =>
    refine .inl ?_
    rw [hdisk, hfiles]
    exact hfile hno
  | @removes t hp hf =>
    by_cases hname : job.sha = name
    · refine .inr ⟨{ job with point := .rename t }, t, ?_, hname, rfl⟩
      simp only [State.install?, hlock', afterInstall, Option.bind_some, huses.install]
    · refine .inl ?_
      rw [hdisk, Disk.setFile_files, Function.update_of_ne (Ne.symm hname)]
      exact hfile (by simp [hp])
  | renames hp hf =>
    refine .inl ?_
    rw [hdisk, Disk.dropTemp_files, Disk.setFile_files, Function.update_apply]
    split
    · rfl
    · next hname => exact h.resolve_right fun hr => hname (hpoint hr).1.symm
  | fails hfiles hf =>
    refine .inl ?_
    rw [hdisk, hfiles]
    refine h.resolve_right fun hr => ?_
    obtain ⟨hsha, hp⟩ := hpoint hr
    exact hfail hp hf hsha

/-- **An operation of an install job** keeps what is on the disk. -/
theorem disk_install (h : Inv P C s) (huses : Uses P k alive running done)
    (hlock : s.lock = some (.fetch k alive (running job))) (heffect : Install.Effect job s.disk fault d out)
    (huse : (∃ t, job.point = .removeCorrupt t) → fault = false →
      ∀ j f att, s.Guaranteed j f att → att.sha256 ≠ job.sha)
    (hfail : (∃ t, job.point = .rename t) → fault = true → ¬s.Named job.sha) :
    DiskOk P C { s with disk := d, lock := afterInstall k alive running done out } := by
  obtain ⟨f, hf, hok⟩ := h.disk.holder k alive _ hlock
  rw [huses.running] at hok
  obtain ⟨hcontent, hsha, -, hown⟩ := hok
  have hinstall : s.install? = some job := by simp only [State.install?, hlock, Option.bind_some, huses.install]
  have hstored : ∀ name, s.Named name → s.Stored name →
      Stored { s with disk := d, lock := afterInstall k alive running done out } name := fun name hnamed =>
    stored_install huses hlock heffect rfl rfl fun hp hf heq => hfail hp hf (heq ▸ hnamed)
  refine ⟨?_, fun row hrow => ?_, fun e he j sha256 bytes hp => ?_, h.disk.contents, fun j a stage hl => ?_,
    fun j a stage hl => ?_, h.disk.backed, fun name hr j f' att hg heq => ?_⟩
  · cases heffect with
    | moves hfiles | ends hfiles | fails hfiles => exact h.disk.intact.of_files fun name => .inl (by rw [hfiles])
    | removes => exact h.disk.intact.remove P _
    | renames =>
      rw [hsha]
      exact (h.disk.intact.put P hcontent).of_files fun name => .inl rfl
  · exact (h.disk.rows row hrow).imp_left (hstored _ (.inl ⟨row, hrow, rfl⟩))
  · exact (h.disk.puts e he j sha256 bytes hp).imp_left (hstored _ (.inr ⟨e, he, j, bytes, hp⟩))
  · refine ⟨f, ?_⟩
    cases heffect with
    | moves hfiles hplaced =>
      cases hl
      exact ⟨hf, (huses.running ..).2 ⟨hcontent, hsha, hplaced, hown⟩⟩
    | removes hp =>
      cases hl
      exact ⟨hf, (huses.running ..).2 ⟨hcontent, hsha, ⟨fun _ _ => Function.update_self .., by simp, by simp⟩, hown⟩⟩
    | renames hp =>
      cases hl
      refine ⟨hf, (huses.running ..).2 ⟨hcontent, hsha, ⟨by simp, fun _ => ?_, by simp⟩, hown⟩⟩
      simp
    | ends hfiles hplaced =>
      cases alive with
      | false => cases hl
      | true =>
        cases hl
        refine ⟨hf, (huses.ended ..).2 ⟨rfl, ?_⟩⟩
        rw [← hown rfl, ← hsha, hfiles]
        exact hplaced
    | fails hfiles =>
      cases alive with
      | false => cases hl
      | true =>
        cases hl
        exact ⟨hf, (huses.failed ..).2 rfl⟩
  · cases out with
    | inl job' => simp [afterInstall] at hl
    | inr result => cases alive <;> simp [afterInstall, Holder.after] at hl
  · -- A job comes to `rename` where it took the file away, or where there was none.
    have hg' : s.Guaranteed j f' att := hg
    obtain ⟨job', t, hjob, hname, hpoint⟩ := hr
    cases out with
    | inr result =>
      cases alive <;> simp [State.install?, afterInstall, Holder.after, huses.idle] at hjob
    | inl job'' =>
      simp only [State.install?, afterInstall, Option.bind_some, huses.install, Option.some.injEq] at hjob
      subst hjob
      cases heffect with
      | moves hfiles hplaced hno =>
        obtain ⟨-, -, hst, -⟩ := h.guaranteed hg'
        rcases hst with hfile | ⟨job₀, t₀, hjob₀, -, hp₀⟩
        · rw [heq, ← hname] at hfile
          have hnone := hplaced.rename t hpoint
          rw [hfiles] at hnone
          simp [hnone] at hfile
        · rw [hinstall] at hjob₀
          cases hjob₀
          exact hno t₀ hp₀
      | removes hp hfault => exact huse ⟨_, hp⟩ hfault j f' att hg' (heq.trans hname.symm)
      | renames => simp at hpoint

/-- A job of a pass takes away no file that a row names. -/
theorem disk_pass {lock : Option Holder} (h : DiskOk P C s) (hlock : s.lock = some (.sweep k alive stage))
    (hputs : ∀ e ∈ s.queue, ∀ j sha256 bytes, ¬e.2.Puts j sha256 bytes)
    (hfiles : ∀ name, d.files name = s.disk.files name ∨
      d.files name = none ∧ ∀ row ∈ s.db.attachments, row.sha256 ≠ name)
    (hlock' : lock = none ∨ ∃ stage', lock = some (.sweep k alive stage') ∧ stage'.Ok P d s.db.attachments) :
    DiskOk P C { s with disk := d, lock := lock } := by
  have hstill : s.Still := still_sweep hlock
  have hstill' : ∀ name, ¬State.Replacing { s with disk := d, lock := lock } name := by
    rintro name ⟨job, t, hjob, -⟩
    rcases hlock' with rfl | ⟨stage', rfl, -⟩ <;> simp [State.install?, Holder.install?] at hjob
  refine ⟨h.intact.of_files fun name => (hfiles name).imp_right And.left, fun row hrow => ?_,
    fun e he j sha256 bytes hp => absurd hp (hputs e he j sha256 bytes), h.contents, fun j a st hl => ?_,
    fun j a st hl => ?_, h.backed, fun name hr => absurd hr (hstill' name)⟩
  · refine (h.rows row hrow).imp_left fun hst => .inl ?_
    rcases hfiles row.sha256 with heq | ⟨-, hno⟩
    · rw [heq]
      exact hst.resolve_right (hstill _)
    · exact absurd rfl (hno row hrow)
  · rcases hlock' with rfl | ⟨stage', rfl, -⟩ <;> simp at hl
  · rcases hlock' with rfl | ⟨stage', rfl, hok⟩
    · simp at hl
    · cases hl
      exact ⟨hok, (h.sweep k alive stage hlock).2⟩

theorem sweepJob_work {job : SweepJob} (fault : Bool) (h : NextOk d rows (.run job)) :
    (∀ name, (SweepJob.work P d fault job).1.files name = d.files name ∨
      (SweepJob.work P d fault job).1.files name = none ∧ ∀ row ∈ rows, row.sha256 ≠ name) ∧
    (∀ job', (SweepJob.work P d fault job).2 = .inl job' → NextOk (SweepJob.work P d fault job).1 rows (.run job')) ∧
    ∀ done, (SweepJob.work P d fault job).2 = .inr done → NextOk (SweepJob.work P d fault job).1 rows (done.resumed P) := by
  cases job with
  | apply job =>
    obtain ⟨hfiles, hinl, hinr⟩ := Apply.work_effect P.limits.reconcileBatch fault h
    have hrows : ∀ r ∈ job.rows, (job.work P.limits.reconcileBatch d fault).1.files r.sha256 = d.files r.sha256 :=
      fun r hr => (hfiles r.sha256).resolve_right fun hno => hno.2 r hr rfl
    unfold SweepJob.work
    rcases hw : job.work P.limits.reconcileBatch d fault with ⟨d', job' | result⟩
    · rw [hw] at hfiles hinl hrows
      simp only [hw]
      refine ⟨fun name => (hfiles name).imp_right fun hno => ⟨hno.1, fun row hrow heq => ?_⟩, ?_, nofun⟩
      · obtain ⟨r, hr, hname⟩ := h.1 row hrow
        exact hno.2 r hr (hname.trans heq)
      · rintro _ ⟨⟩
        have hsame := hinl job' rfl
        show Fresh d' rows job'.rows
        rw [hsame]
        exact Fresh.mono h (fun _ hrow => hrow) hrows
    · rw [hw] at hfiles hinr
      simp only [hw]
      refine ⟨fun name => (hfiles name).imp_right fun hno => ⟨hno.1, fun row hrow heq => ?_⟩, nofun, ?_⟩
      · obtain ⟨r, hr, hname⟩ := h.1 row hrow
        exact hno.2 r hr (hname.trans heq)
      · rintro _ ⟨⟩
        cases result with
        | error e => trivial
        | ok found =>
          have hnone := hinr found rfl
          show NextOk d' rows (Drops.next ⟨found.dropRows, found.deleteAfterDrop, found.stats⟩)
          simp only [hnone, Drops.next]
          trivial
  | removeCorrupt sha left => exact h.elim
  | removeEvicted row g =>
    unfold SweepJob.work removeFile
    cases fault with
    | true =>
      refine ⟨fun _ => .inl rfl, nofun, ?_⟩
      rintro _ ⟨⟩
      trivial
    | false =>
      refine ⟨fun name => ?_, nofun, ?_⟩
      · simp only [Bool.false_eq_true, if_false, Disk.setFile_files, Function.update_apply]
        split
        · next heq => exact .inr ⟨rfl, fun r hr => heq ▸ h r hr⟩
        · exact .inl rfl
      · rintro _ ⟨⟩
        exact (g.evicted row).next_ok _ _

/-- **One operation of the blocking job that holds the lock.** -/
theorem inv_work (h : Inv P C s) (huse : ∀ job, s.install? = some job →
      ((∃ t, job.point = .removeCorrupt t) → fault = false → ∀ k f att, s.Guaranteed k f att → att.sha256 ≠ job.sha) ∧
      ((∃ t, job.point = .rename t) → fault = true → ¬s.Named job.sha))
    (hverify : ∀ k token job, s.lock = some (.fetch k true (.verifying token job)) → s.Leased k →
      ∀ e, (job.work P s.disk fault).2 ≠ .inr (.error e)) : Inv P C (s.work P fault) := by
  have hlife := life_work h.life hverify
  unfold work at hlife ⊢
  split at hlife
  · next j alive job hlock =>
    obtain ⟨hremove, hrename⟩ := huse job (by simp [State.install?, hlock, Holder.install?])
    obtain ⟨f, hf, -, -, hplaced, -⟩ := h.disk.holder j alive _ hlock
    have hdisk := disk_install h (uses_first alive) hlock (Install.work_effect (P := P) fault hplaced) hremove hrename
    rcases hw : job.work P s.disk fault with ⟨d, job' | result⟩ <;> simp only [hw, afterInstall] at hlife hdisk ⊢
    · exact ⟨hlife, h.queue.of_eq rfl (by rw [sweepAsks_fetch hlock]; rfl), h.leases, hdisk⟩
    · refine ⟨hlife, h.queue.of_eq rfl ?_, h.leases, hdisk⟩
      rw [sweepAsks_fetch hlock]
      cases alive <;> rfl
  · next j alive token job hlock =>
    obtain ⟨hremove, hrename⟩ := huse job (by simp [State.install?, hlock, Holder.install?])
    obtain ⟨f, hf, -, -, hplaced, -⟩ := h.disk.holder j alive _ hlock
    have hdisk := disk_install h (uses_again alive token) hlock (Install.work_effect (P := P) fault hplaced) hremove
      hrename
    rcases hw : job.work P s.disk fault with ⟨d, job' | result⟩ <;> simp only [hw, afterInstall] at hlife hdisk ⊢
    · exact ⟨hlife, h.queue.of_eq rfl (by rw [sweepAsks_fetch hlock]; rfl), h.leases, hdisk⟩
    · refine ⟨hlife, h.queue.of_eq rfl ?_, h.leases, hdisk⟩
      rw [sweepAsks_fetch hlock]
      cases alive <;> rfl
  · next j alive job hlock =>
    obtain ⟨hok, hquiet⟩ := h.disk.sweep j alive _ hlock
    have hasks : s.sweepAsks = [] := by cases alive <;> simp only [sweepAsks, hlock]
    have hputs := hquiet.no_puts (h.queue.no_sweep hasks)
    obtain ⟨hfiles, hinl, hinr⟩ := sweepJob_work (P := P) fault hok
    rcases hw : SweepJob.work P s.disk fault job with ⟨d, job' | done⟩ <;> simp only [hw] at hlife hfiles hinl hinr ⊢
    · refine ⟨hlife, h.queue.of_eq rfl ?_, h.leases,
        disk_pass h.disk hlock hputs hfiles (.inr ⟨_, rfl, hinl job' rfl⟩)⟩
      rw [hasks]
      cases alive <;> rfl
    · refine ⟨hlife, h.queue.of_eq rfl ?_, h.leases, disk_pass h.disk hlock hputs hfiles ?_⟩
      · rw [hasks]
        cases alive <;> rfl
      · cases alive with
        | false => exact .inl rfl
        | true => exact .inr ⟨_, rfl, hinr done rfl⟩
  · exact h

/-! ## The store writer -/

/-- No two of the contents have one hash. -/
def CollisionFree (P : Params) (C : List (List UInt8)) : Prop :=
  ∀ a ∈ C, ∀ b ∈ C, P.sha256Hex a = P.sha256Hex b → a = b

instance : Decidable (CollisionFree P C) :=
  inferInstanceAs (Decidable (∀ a ∈ C, ∀ b ∈ C, P.sha256Hex a = P.sha256Hex b → a = b))

theorem lock_deliver (s : State) (w : Waiter) (a : Except StoreError AttachmentAnswer) :
    (s.deliver w a).lock = s.lock ∨ w = .holder ∧
      ((∃ k, s.lock = some (.fetch k true (.committing none)) ∧
        (s.deliver w a).lock = some (.fetch k true (.committing (some (a.map (·.token)))))) ∨
      (∃ k, s.lock = some (.fetch k true (.releasing false)) ∧
        (s.deliver w a).lock = some (.fetch k true (.releasing true))) ∨
      ∃ k call, s.lock = some (.sweep k true (.calling call none)) ∧
        (s.deliver w a).lock = some (.sweep k true (.calling call (some a)))) := by
  by_cases hw : w = .holder
  · subst hw
    unfold deliver
    dsimp only
    split
    · next k hlock => exact .inr ⟨rfl, .inl ⟨k, hlock, rfl⟩⟩
    · next k hlock => exact .inr ⟨rfl, .inr (.inl ⟨k, hlock, rfl⟩)⟩
    · next k call hlock => exact .inr ⟨rfl, .inr (.inr ⟨k, call, hlock, rfl⟩)⟩
    · exact .inl rfl
  · exact .inl ((s.deliver_frame w a).2.2.2.2.2 hw)

theorem install_deliver (s : State) (w : Waiter) (a : Except StoreError AttachmentAnswer) :
    (s.deliver w a).install? = s.install? := by
  unfold State.install?
  rcases s.lock_deliver w a with heq | ⟨-, ⟨k, hl, hl'⟩ | ⟨k, hl, hl'⟩ | ⟨k, call, hl, hl'⟩⟩
  · rw [heq]
  all_goals
    rw [hl, hl']
    rfl

/-- What a served request does to the tables. -/
structure Served (r : AttachmentRequest) (db db' : AttachmentDb) : Prop where
  rows : ∀ row ∈ db'.attachments, (∃ old ∈ db.attachments, row.sha256 = old.sha256 ∧ row.bytes = old.bytes) ∨
    ∃ k, r.Puts k row.sha256 row.bytes
  kept : (∀ k sha256 bytes, ¬r.Puts k sha256 bytes) → ∀ row ∈ db'.attachments, row ∈ db.attachments
  backed : (∀ lease ∈ db.leases, ∃ row ∈ db.attachments, row.sha256 = lease.sha256) →
    ∀ lease ∈ db'.leases, ∃ row ∈ db'.attachments, row.sha256 = lease.sha256
  released : db.released ⊆ db'.released
  turns : db'.turns = db.turns

theorem served_of_shrinks {db db' : AttachmentDb} (h : db.Shrinks db') : Served r db db' where
  rows row hrow := .inl ⟨row, h.rows row hrow, rfl, rfl⟩
  kept _ := h.rows
  backed hb lease hlease := by
    obtain ⟨row, hrow, heq⟩ := hb lease (h.leases lease hlease)
    exact ⟨row, h.backed lease hlease row hrow heq, heq⟩
  released := h.released
  turns := h.turns

theorem runSized_served (fate : Fate) (now : ℤ) (w : Writer AttachmentDb)
    (hforce : ∀ sha256, r ≠ .deleteAttachmentForce sha256)
    (h : ∀ k sha256 bytes, r.Puts k sha256 bytes → w.alive = true → ∀ e, fate = .executeThenFail e →
      ∀ p, r.job now w.db ≠ .ok p) : Served r w.db (w.runSized fate (r.job now)).2.db := by
  by_cases hput : ∃ k sha256 bytes, r.Puts k sha256 bytes
  · obtain ⟨k, sha256, bytes, kind, turnRowId, hr⟩ := hput
    rcases runSized_put fate now w hr (h k sha256 bytes ⟨_, _, hr⟩) with ⟨e, -, hsame⟩ | ⟨a, -, -, hnew⟩
    · rw [hsame]
      exact served_of_shrinks (AttachmentDb.shrinks_refl _)
    · rw [hnew]
      refine ⟨fun row hrow => ?_, fun hno => absurd ⟨kind, turnRowId, hr⟩ (hno k sha256 bytes), fun hb lease hlease => ?_,
        fun _ ht => ht, rfl⟩
      · rcases AttachmentDb.mem_upsert hrow with hold | ⟨hname, hbytes⟩
        · exact .inl hold
        · exact .inr ⟨k, kind, turnRowId, by rw [hr, hname, hbytes]⟩
      · refine AttachmentDb.upsert_has ?_
        rcases List.mem_append.1 hlease with hlease | hlease
        · exact .inl (hb lease hlease)
        · rw [List.mem_singleton.1 hlease]
          exact .inr rfl
  · simp only [not_exists] at hput
    exact served_of_shrinks (runSized_shrinks _ _ w hput hforce)

/-- The rows that a pass reads are as the table has them, and their files are there. -/
theorem fresh_list (hfree : CollisionFree P C) (h : DiskOk P C s) (hstill : s.Still)
    (hrows : ∀ row, row ∈ rows ↔ row ∈ s.db.attachments) : Fresh s.disk s.db.attachments rows := by
  refine ⟨fun row hrow => ⟨row, (hrows row).2 hrow, rfl⟩, fun row hrow => ?_⟩
  obtain ⟨hst, c, hc, hname, hlen⟩ := h.rows row ((hrows row).1 hrow)
  refine ⟨hname ▸ isValidSha256Name_sha256Hex P c, ?_⟩
  obtain ⟨data, hdata⟩ := Option.isSome_iff_exists.1 (hst.resolve_right (hstill _))
  obtain ⟨hmem, hsha⟩ := h.intact _ _ hdata
  obtain rfl := hfree data hmem c hc (hsha.trans hname.symm)
  exact ⟨data, hdata, hlen⟩

/-- What a pass does with the reply to its request. -/
theorem answered_ok {now' : ℤ} {call : SweepCall} (hfree : CollisionFree P C) (h : DiskOk P C s) (hstill : s.Still)
    (hcall : NextOk s.disk s.db.attachments (.call call)) (now : ℤ) :
    NextOk s.disk (s.writer.runSized fate (call.request.job now')).2.db.attachments
      (call.answered P now (s.writer.runSized fate (call.request.job now')).1) := by
  rcases s.writer.runSized_cases fate (call.request.job now') with ⟨e, he, -⟩ | ⟨a, db', hj, -, -, hr⟩ |
    ⟨a, db', e, -, -, -, hr⟩
  · rw [he]
    trivial
  · rw [hr]
    cases call with
    | rows c =>
      obtain ⟨rfl, hrows⟩ := AttachmentRequest.list_rows hj
      exact fresh_list hfree h hstill hrows
    | drop sha left => exact hcall.elim
    | recheckDrop sha left => exact hcall.elim
    | stale stats => trivial
    | gcRows pass => exact GcLoop.next_ok _ _ _
    | evict row g =>
      simp only [SweepCall.answered]
      split_ifs
      · exact GcLoop.next_ok _ _ _
      · trivial
      · exact GcLoop.next_ok _ _ _
    | recheck row g =>
      obtain ⟨rfl, hnone⟩ := AttachmentRequest.row_eq_none hj
      simp only [SweepCall.answered]
      split_ifs with hsome
      · exact GcLoop.next_ok _ _ _
      · exact hnone (by simpa using hsome)
  · rw [hr]
    trivial

theorem holder_asks {rest : List (Waiter × AttachmentRequest)} (h : ∀ j, s.LifeOf P j)
    (hqueue : s.queue = (.holder, r) :: rest) (hlock : s.lock = some (.sweep k alive stage)) :
    asksForSweep (.holder, r) = true := by
  cases hasks : asksForSweep (.holder, r) with
  | true => rfl
  | false =>
    obtain ⟨j, stage', hlock'⟩ := holder_fetch h hqueue hasks
    cases hlock.symm.trans hlock'

/-- **One request of the writer** keeps what is on the disk. -/
theorem disk_serve {now : ℤ} (hfree : CollisionFree P C) (h : Inv P C s)
    (hwell : ∀ w r rest, s.queue = (w, r) :: rest → ∀ k sha256 bytes, r.Puts k sha256 bytes → s.writer.alive = true →
      ∀ e, fate = .executeThenFail e → ∀ p, r.job now s.db ≠ .ok p) : DiskOk P C (s.serve fate now) := by
  unfold State.serve
  split
  · exact h.disk
  next w r rest hqueue =>
  dsimp only
  have hmem : (w, r) ∈ s.queue := by rw [hqueue]; exact List.mem_cons_self ..
  have hserved := runSized_served fate now s.writer (h.queue.forced _ hmem) (hwell w r rest hqueue)
  have hanswer : ∀ k call, s.lock = some (.sweep k true (.calling call none)) → w = .holder →
      asksForSweep (w, r) = true → NextOk s.disk s.db.attachments (.call call) → ∀ now',
      NextOk s.disk (s.writer.runSized fate (r.job now)).2.db.attachments
        (call.answered P now' (s.writer.runSized fate (r.job now)).1) := by
    intro k call hlock hw hasks hcall now'
    obtain ⟨k', call', hlock', hr, -⟩ := h.queue.sweep_head hqueue hasks
    cases hlock.symm.trans hlock'
    rw [hr]
    exact answered_ok hfree h.disk (still_sweep hlock) hcall now'
  generalize hwriter : (s.writer.runSized fate (r.job now)).2 = writer at hserved hanswer ⊢
  generalize (s.writer.runSized fate (r.job now)).1 = answer at hanswer ⊢
  obtain ⟨hf', hw', hq', hd', -, -⟩ := deliver_frame { s with writer := writer, queue := rest } w answer
  have hinstall := install_deliver { s with writer := writer, queue := rest } w answer
  have hlocks := lock_deliver { s with writer := writer, queue := rest } w answer
  generalize deliver { s with writer := writer, queue := rest } w answer = s' at hf' hw' hq' hd' hinstall hlocks ⊢
  replace hf' : s'.fetches = s.fetches := hf'
  replace hq' : s'.queue = rest := hq'
  replace hd' : s'.disk = s.disk := hd'
  have hdb : s'.db = writer.db := by unfold db; rw [hw']
  have hrepl : ∀ name, s'.Replacing name ↔ s.Replacing name := fun name => by
    simp only [State.Replacing, hinstall]
    rfl
  have hstored : ∀ name, s'.Stored name ↔ s.Stored name := fun name => by simp only [State.Stored, hd', hrepl]
  have hsub : ∀ e ∈ rest, e ∈ s.queue := fun e he => by rw [hqueue]; exact List.mem_cons_of_mem _ he
  refine ⟨hd' ▸ h.disk.intact, fun row hrow => ?_, fun e he k sha256 bytes hp => ?_, fun k f hf =>
    h.disk.contents k f (hf' ▸ hf), fun k alive stage hl => ?_, fun k alive stage hl => ?_, ?_,
    fun name hr k f att hg => ?_⟩
  · rw [hstored]
    rw [hdb] at hrow
    rcases hserved.rows row hrow with ⟨old, hold, hname, hbytes⟩ | ⟨k, hputs⟩
    · rw [hname, hbytes]
      exact h.disk.rows old hold
    · exact h.disk.puts _ hmem k _ _ hputs
  · rw [hstored]
    exact h.disk.puts e (hsub e (hq' ▸ he)) k sha256 bytes hp
  · rw [hd', hf']
    rcases hlocks with heq | ⟨-, ⟨j, hl₀, hl'⟩ | ⟨j, hl₀, hl'⟩ | ⟨j, call, hl₀, hl'⟩⟩
    · exact h.disk.holder k alive stage (heq ▸ hl)
    · obtain ⟨f, hf, hok⟩ := h.disk.holder j true _ hl₀
      rw [hl'] at hl
      cases hl
      exact ⟨f, hf, hok⟩
    · obtain ⟨f, hf, hok⟩ := h.disk.holder j true _ hl₀
      rw [hl'] at hl
      cases hl
      exact ⟨f, hf, hok⟩
    · rw [hl'] at hl
      cases hl
  · rw [hq', hdb, hd']
    have hkeep : ∀ st, s.lock = some (.sweep k alive st) → st.Ok P s.disk s.db.attachments →
        Quieted s.queue → st.Ok P s.disk writer.db.attachments := by
      intro st hlock hok hquiet
      by_cases hput : ∃ k sha256 bytes, r.Puts k sha256 bytes
      · -- A commit before its list of rows: the pass waits for a reply.
        cases hasks : s.sweepAsks with
        | nil =>
          obtain ⟨j, sha256, bytes, hputs⟩ := hput
          exact absurd hputs (hquiet.no_puts (h.queue.no_sweep hasks) _ hmem j sha256 bytes)
        | cons r' rs =>
          unfold sweepAsks at hasks
          split at hasks
          · next call hl₀ =>
            rw [hl₀] at hlock
            cases hlock
            cases call <;> exact hok
          · cases hasks
      · simp only [not_exists] at hput
        exact hok.mono (hserved.kept hput) rfl
    rcases hlocks with heq | ⟨hw, ⟨j, hl₀, hl'⟩ | ⟨j, hl₀, hl'⟩ | ⟨j, call, hl₀, hl'⟩⟩
    · have hlock : s.lock = some (.sweep k alive stage) := heq ▸ hl
      obtain ⟨hok, hquiet⟩ := h.disk.sweep k alive stage hlock
      exact ⟨hkeep stage hlock hok hquiet, (hqueue ▸ hquiet).tail⟩
    · rw [hl'] at hl
      cases hl
    · rw [hl'] at hl
      cases hl
    · rw [hl'] at hl
      cases hl
      obtain ⟨hok, hquiet⟩ := h.disk.sweep k true _ hl₀
      subst hw
      exact ⟨⟨hkeep _ hl₀ hok hquiet, hanswer k call hl₀ rfl (holder_asks h.life hqueue hl₀) hok⟩,
        (hqueue ▸ hquiet).tail⟩
  · rw [hdb]
    exact hserved.backed h.disk.backed
  · obtain ⟨hf, hp, hnot, hover⟩ := hg
    rw [hdb] at hnot
    refine h.disk.unread name ((hrepl name).1 hr) k f att ⟨hf' ▸ hf, hp, fun ht => hnot (hserved.released ht), ?_⟩
    unfold Over at hover ⊢
    rwa [hdb, hserved.turns] at hover

/-! ## Passes outside the lock -/

theorem inv_resumeSnapshot (h : Inv P C s) : Inv P C (s.resumeSnapshot k) := by
  unfold resumeSnapshot
  split <;> exact h.of_eq rfl rfl rfl rfl rfl rfl

theorem inv_scanned {entry : Entry} (h : Inv P C s) : Inv P C (s.scanned P k entry) := by
  unfold scanned
  split
  · split <;> exact h.of_eq rfl rfl rfl rfl rfl rfl
  · exact h

theorem inv_scanEnded {result : Except Unit Bool} (h : Inv P C s) : Inv P C (s.scanEnded k result) := by
  unfold scanEnded
  split
  · split <;> exact h.of_eq rfl rfl rfl rfl rfl rfl
  · exact h

end State

/-! ## Steps and runs -/

open State

/-- **Every well-behaved step keeps the invariant.** -/
theorem inv_step {e : Event} (hfree : CollisionFree P C) (hc : ∀ k bytes, e = .downloaded k (.ok bytes) → bytes ∈ C)
    (h : Inv P C s) (hwell : WellBehaved P s e) : Inv P C (step P s e) := by
  cases e with
  | fetch k key kind turnRowId cancellable =>
    simp only [step]
    split
    · exact h
    · next hnone =>
      refine inv_newFetch h (by simpa using hnone) ?_
      cases P.limits.checkResourceKey key with
      | ok => exact .inl rfl
      | error e => exact .inr ⟨e, rfl⟩
  | downloaded k result => exact inv_downloaded h fun bytes hr => hc k bytes (by rw [hr])
  | hashed k => exact inv_hashed h
  | lockFetch k => exact inv_lockFetch h
  | cancel k =>
    simp only [step]
    split
    · next f hf => exact inv_cancel h hf
    · exact h
  | dropFetch k => exact inv_dropFetch h hwell
  | pollTask k room => exact inv_pollTask h hwell
  | gc k | reconcile k =>
    simp only [step]
    split
    · exact h
    · exact h.of_eq rfl rfl rfl rfl rfl rfl
  | enterReconcile k room => exact inv_enterReconcile h
  | resumeSnapshot k => exact inv_resumeSnapshot h
  | scanned k entry => exact inv_scanned h
  | scanEnded k result => exact inv_scanEnded h
  | lockSweep k room => exact inv_lockSweep h
  | dropSweep k => exact inv_dropSweep h
  | resume room now =>
    simp only [step]
    split
    · next k stage hlock =>
      split
      · next f hf => exact inv_resumeFetch h hlock hf fun token hst => hwell k f token (hst ▸ hlock) hf
      · exact h
    · next k call answer hlock =>
      exact inv_resumeSweep h hlock (by simp only [sweepAsks, hlock]) fun hok => hok.2 now
    · next k done hlock => exact inv_resumeSweep h hlock (by simp only [sweepAsks, hlock]) id
    · exact h
  | work fault => exact inv_work h hwell.1 hwell.2
  | serve fate now =>
    exact ⟨life_serve h.life h.queue h.leases hwell, h.queue.serve h.life,
      h.leases.serve h.queue h.life fun w r rest hq => (hwell w r rest hq).2,
      disk_serve hfree h fun w r rest hq => (hwell w r rest hq).2⟩
  | releaseLease token | releaseTurn turnRowId => exact inv_client h (by rintro _ _ _ ⟨_, _, ⟨⟩⟩) (by rintro _ ⟨⟩)
  | openTurn turnRowId =>
    simp only [step]
    split
    · exact h
    · next hnone =>
      refine inv_turns h fun turn hover => ?_
      rw [Function.update_apply]
      split
      · next heq =>
        subst heq
        unfold Over at hover
        simp [hover] at hnone
      · exact hover
  | resolveTurn turnRowId =>
    simp only [step]
    split
    · exact h
    · refine inv_turns h fun turn hover => ?_
      rw [Function.update_apply]
      split
      · rfl
      · exact hover
  | crash => exact inv_crash h hwell

/-- The content that a download brings. -/
def Event.content? : Event → Option (List UInt8)
  | .downloaded _ (.ok bytes) => some bytes
  | _ => none

/-- The contents that the downloads of a run bring. -/
def contents (es : List Event) : List (List UInt8) := es.filterMap Event.content?

/-- **The invariant after a well-behaved run.** -/
theorem inv_exec (hfree : CollisionFree P C) : ∀ {s : State} {es : List Event}, Inv P C s →
    Along (step P) (WellBehaved P) s es → contents es ⊆ C → Inv P C (exec (step P) s es)
  | _, [], h, _, _ => h
  | s, e :: es, h, ⟨hwell, hrest⟩, hsub =>
    have hstep := inv_step hfree (fun k bytes he => hsub (List.mem_filterMap.2 ⟨e, List.mem_cons_self .., by rw [he]; rfl⟩))
      h hwell
    inv_exec (s := step P s e) hfree hstep hrest fun _ hb =>
      have ⟨e', he', hb'⟩ := List.mem_filterMap.1 hb
      hsub (List.mem_filterMap.2 ⟨e', List.mem_cons_of_mem _ he', hb'⟩)

theorem disk_initial (turns : ℕ → Option Bool) : DiskOk P C (.initial turns) where
  intact _ _ h := by simp [State.initial] at h
  rows _ h := by simp [State.db, State.initial] at h
  puts _ h := by simp [State.initial] at h
  contents _ _ h := by simp [State.initial] at h
  holder _ _ _ h := by simp [State.initial] at h
  sweep _ _ _ h := by simp [State.initial] at h
  backed _ h := by simp [State.db, State.initial] at h
  unread _ h := absurd h (still_none rfl _)

theorem inv_initial (turns : ℕ → Option Bool) : Inv P C (.initial turns) where
  life _ := .absent (by simp [State.Leased, State.db, State.initial])
  queue := ⟨nofun, nofun, nofun, nofun, rfl⟩
  leases _ h := by simp [State.db, State.initial] at h
  disk := disk_initial turns

theorem Inv.agrees (hfree : CollisionFree P C) (h : Inv P C s) : s.Agrees P where
  leased k f att hg := by
    obtain ⟨hrow, hsha, hst, hmem⟩ := h.guaranteed hg
    obtain ⟨data, hdata⟩ := Option.isSome_iff_exists.1
      (hst.resolve_right fun hr => h.disk.unread att.sha256 hr k f att hg rfl)
    obtain ⟨hdmem, hname⟩ := h.disk.intact _ _ hdata
    obtain rfl := hfree data hdmem f.content hmem (hname.trans hsha)
    exact ⟨hrow, hsha, hdata⟩
  rows hquiet row hrow := by
    refine (h.disk.rows row hrow).1.resolve_right ?_
    exact still_none (by simp [State.install?, hquiet.lock]) row.sha256
  failed k hfailed hpending := by
    obtain ⟨f, hf, hphase⟩ := hfailed
    have hlife := h.life k
    unfold LifeOf at hlife
    rw [hf] at hlife
    unfold pending at hpending
    have hqueue : ∀ e ∈ s.requestsOf k, False := fun e he => by
      obtain ⟨hmem, habout⟩ := mem_requestsOf.1 he
      simp only [Bool.or_eq_false_iff, List.any_eq_false] at hpending
      exact hpending.2 e hmem habout
    generalize s.stageOf k = stage, s.requestsOf k = q at hlife hqueue
    generalize ht : s.tasks k = t at hlife hpending
    have hnot : ¬(f.phase = .inside) := by rcases hphase with ⟨e, hp⟩ | hp <;> simp [hp]
    cases hlife with
    | outside _ hl | failed _ _ hl | dropped _ _ hl => exact hl
    | installing hp | installed hp | putting hp | ready hp | committed hp | refused hp | verifying hp | verified hp
    | releasing hp | released hp => exact absurd hp hnot
    | taskPutting | taskPut | taskRefused | taskReleasing | taskReleased => simp at hpending
    | returned hp | lost hp => rcases hphase with ⟨e, hp'⟩ | hp' <;> simp [hp'] at hp
    | droppedReleasing => exact (hqueue _ (List.mem_singleton_self _)).elim

/-- **Rows, leases and files agree after every well-behaved run** whose downloads do not collide. -/
theorem cache_agrees (P : Params) (turns : ℕ → Option Bool) (es : List Event)
    (hfree : CollisionFree P (contents es)) (h : Along (step P) (WellBehaved P) (.initial turns) es) :
    (after P turns es).Agrees P :=
  (inv_exec hfree (inv_initial turns) h fun _ hb => hb).agrees hfree

/-! ## A run that keeps the promise, and one that breaks it -/

def digestOfA : Digest :=
  ⟨[202, 151, 129, 18, 202, 27, 189, 202, 250, 194, 49, 179, 154, 35, 220, 77, 167, 134, 239, 248, 20, 124, 78, 114,
    185, 128, 119, 133, 175, 238, 72, 187], rfl⟩

def digestOfDigestOfA : Digest :=
  ⟨[191, 93, 58, 255, 183, 62, 253, 46, 198, 195, 106, 211, 17, 45, 217, 51, 239, 237, 99, 196, 225, 203, 255, 207,
    168, 142, 39, 89, 193, 68, 242, 216], rfl⟩

/-- The digest as far as the runs below ask for it. -/
def paramsA : Params := ⟨{}, fun data => if data = [97] then digestOfA else digestOfDigestOfA⟩

/-- A fetch of the byte 97 up to the cache lock. -/
def startFetch (k turnRowId : ℕ) : List Event :=
  [.fetch k "key" .file turnRowId false, .downloaded k (.ok [97]), .hashed k, .lockFetch k]

/-- It installs the file and stores row and lease. -/
def storeFetch (k turnRowId : ℕ) : List Event :=
  startFetch k turnRowId ++ List.replicate 8 (.work false) ++ [.resume (.ok ()) 0, .serve .execute 0, .resume (.ok ()) 0]

/-- One fetch from its start to its end. -/
def wholeFetch (k turnRowId : ℕ) : List Event :=
  storeFetch k turnRowId ++ List.replicate 10 (.work false) ++ [.resume (.ok ()) 0]

/-- Steps that can break nothing: no job takes a file away, no call is dropped and no lease is released. -/
def harmless (s : State) : Event → Bool
  | .work fault => !fault && match s.lock with
    | some (.fetch _ _ (.installing job)) => match job.point with
      | .removeCorrupt _ => false
      | _ => true
    | _ => false
  | .serve fate _ => match fate, s.queue with
    | .execute, (_, .putAttachmentAndLease _ _ _ _ _) :: _ => true
    | _, _ => false
  | .resume _ _ => match s.lock with
    | some (.fetch _ true (.verified _ (.ok ()))) => false
    | _ => true
  | .dropFetch _ | .pollTask _ _ | .crash => false
  | _ => true

theorem wellBehaved_of_harmless {e : Event} (h : harmless s e = true) : WellBehaved P s e := by
  cases e with
  | work fault =>
    simp only [harmless, Bool.and_eq_true, Bool.not_eq_true'] at h
    obtain ⟨rfl, h⟩ := h
    split at h
    · next k alive job hlock =>
      refine ⟨fun job' hjob => ?_, fun k token job' hl => by simp [hlock] at hl⟩
      simp only [State.install?, hlock, Option.bind_some, Holder.install?, Option.some.injEq] at hjob
      subst hjob
      refine ⟨?_, by simp⟩
      rintro ⟨t, hp⟩
      simp [hp] at h
    · cases h
  | serve fate now =>
    intro w r rest hqueue
    simp only [harmless] at h
    split at h
    · next hq =>
      rw [hq] at hqueue
      cases hqueue
      exact ⟨by simp, by simp⟩
    · cases h
  | resume room now =>
    intro k f token hlock
    simp [harmless, hlock] at h
  | dropFetch k | pollTask k room | crash => cases h
  | _ => trivial

theorem storeFetch_wellBehaved :
    Along (step paramsA) (WellBehaved paramsA) (.initial fun _ => none) (.openTurn 1 :: storeFetch 0 1) := by
  have h : Along (step paramsA) (fun s e => harmless s e = true) (.initial fun _ => none)
      (.openTurn 1 :: storeFetch 0 1) := by decide
  exact h.mono fun _ _ => wellBehaved_of_harmless

/-- A fetch that stores its lease is well-behaved. -/
theorem cache_agrees_store : (after paramsA (fun _ => none) (.openTurn 1 :: storeFetch 0 1)).Agrees paramsA :=
  cache_agrees paramsA _ _ (by decide) storeFetch_wellBehaved

/-- A fetch returned the attachment of the byte 97; a second fetch of it comes up to the rename. -/
def refetchRun : List Event := [.openTurn 1] ++ wholeFetch 0 1 ++ startFetch 1 1 ++ List.replicate 6 (.work false)

theorem refetch_file : (after paramsA (fun _ => none) refetchRun).disk.files (paramsA.sha256Hex [97]) = none := by
  decide

theorem refetch_guaranteed : ∃ f att, (after paramsA (fun _ => none) refetchRun).Guaranteed 0 f att ∧
    att.sha256 = paramsA.sha256Hex [97] := by
  refine ⟨_, _, ⟨rfl, rfl, ?_, ?_⟩, ?_⟩
  · decide
  · unfold Over
    decide
  · decide

/-- **The second fetch takes away the file of the first**, whose attachment is in use. -/
theorem not_cache_agrees : ¬∀ (P : Params) (turns : ℕ → Option Bool) (es : List Event),
    CollisionFree P (contents es) → (after P turns es).Agrees P := by
  intro h
  obtain ⟨f, att, hg, hname⟩ := refetch_guaranteed
  obtain ⟨-, -, hfile⟩ := (h paramsA (fun _ => none) refetchRun (by decide)).leased 0 f att hg
  rw [hname, refetch_file] at hfile
  cases hfile

end LarkCodexBridge.Runtime.Attachments
