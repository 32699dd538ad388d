import Mathlib
import LarkCodexBridge.External.Snapshots
import LarkCodexBridge.External.Uncertainty

/-!
# Conflicting terminal reports

A turn that is reported over with two statuses makes its thread uncertain. Each report is compared with what was recorded
before its call, and the first status that was recorded stays. The reports of one call are not compared with each other: where
a call brings a turn twice, with two statuses and for the first time, the first one is recorded and the thread is ready.

* `reports`: what the calls of a run report, each by a call whose fence holds;
* `step_reports`: what a step does to the recorded statuses and to the thread of its reports;
* `told_exec`: a report is what was recorded, or its thread is uncertain;
* `conflicting_reports_fence`: so conflicting reports leave an uncertain thread exactly in the runs without such a call.
-/

namespace LarkCodexBridge.External

open Limits SqlTable Store StepSystem

/-! ## Reports -/

def ExternalDb.turnStatus (db : ExternalDb) (thread : String × String) (turnId : String) : Option ExternalTerminalStatus :=
  (db.turnTerminals.lookup (thread.1, thread.2, turnId)).map (·.val.status)

structure TerminalReport where
  thread : String × String
  turn : ExternalTurnTerminal
  deriving DecidableEq

/-- The reports of a call that a live writer takes and whose fence holds. -/
def ProjectionEvent.reports (w : Writer ProjectionDb) : ProjectionEvent → List TerminalReport
  | .restart => []
  | .call fate now c =>
    match c.op with
    | .applyTerminals e t n turns finish =>
      if fate.runs = true ∧ w.alive = true ∧ c.check now = .ok () ∧ epochI64 n = .ok n ∧
          w.db.db.terminalFence e t n finish = true then
        turns.map (⟨(e, t), ·⟩)
      else []
    | _ => []

def reports : Writer ProjectionDb → List ProjectionEvent → List TerminalReport
  | _, [] => []
  | w, e :: es => e.reports w ++ reports (projectionStep w e) es

/-- Another status was recorded before. -/
def ExternalDb.contradicts (db : ExternalDb) (r : TerminalReport) : Bool :=
  (db.turnStatus r.thread r.turn.turnId).any (· ≠ r.turn.status)

/-- Two reports of one turn with different statuses. -/
def TerminalReport.Conflict (r q : TerminalReport) : Prop :=
  r.thread = q.thread ∧ r.turn.turnId = q.turn.turnId ∧ r.turn.status ≠ q.turn.status

/-- Conflicting reports have left their thread uncertain. -/
def Fenced (db : ExternalDb) (seen : List TerminalReport) : Prop :=
  ∀ r ∈ seen, ∀ q ∈ seen, r.Conflict q → db.threadState r.thread = some .uncertain

/-- The call contradicts what was recorded, or its reports do not contradict each other. -/
def OneStatus (w : Writer ProjectionDb) (e : ProjectionEvent) : Prop :=
  (∃ r ∈ e.reports w, w.db.db.contradicts r = true) ∨ ∀ r ∈ e.reports w, ∀ q ∈ e.reports w, ¬ r.Conflict q

instance (r q : TerminalReport) : Decidable (r.Conflict q) := by unfold TerminalReport.Conflict; infer_instance

instance (w : Writer ProjectionDb) (e : ProjectionEvent) : Decidable (OneStatus w e) := by unfold OneStatus; infer_instance

theorem reports_append : ∀ {w : Writer ProjectionDb} {es fs : List ProjectionEvent},
    reports w (es ++ fs) = reports w es ++ reports (exec projectionStep w es) fs
  | _, [], _ => rfl
  | w, e :: es, fs => by
    rw [List.cons_append, reports, reports, reports_append, List.append_assoc]
    rfl

variable {s s' : ProjectionDb} {db db' : ExternalDb} {now : ℤ} {e t x : String} {n : ℕ}
  {turns : List ExternalTurnTerminal} {finish : Bool} {thread : String × String} {r : Row TurnTerminalRow}
  {items : List ExternalItemTerminal} {o : TerminalsOutcome} {seen : List TerminalReport} {w : Writer ProjectionDb}
  {ev : ProjectionEvent}

/-! ## Recorded statuses -/

theorem conflicts_iff : db.conflicts e t turns = true ↔ ∃ turn ∈ turns, db.contradicts ⟨(e, t), turn⟩ = true := by
  simp [ExternalDb.conflicts, ExternalDb.contradicts, ExternalDb.turnStatus, Option.any_map]

/-- What is recorded stays. -/
theorem insertTerminals_keeps :
    ∀ {turns : List ExternalTurnTerminal} {table : Table TurnTerminalRow TurnTerminalRow.key}, r ∈ table.rows →
      r ∈ (insertTerminals e t n turns table).2.rows
  | [], _, h => h
  | turn :: turns, table, h => by
    unfold insertTerminals
    split
    · exact insertTerminals_keeps h
    · next table' hins =>
      obtain ⟨hk, rfl⟩ := Table.insertOrIgnore_eq_some hins
      exact insertTerminals_keeps ((Table.mem_insert (h := hk)).2 (.inl h))

/-- The row of a turn was there before, or it has the status of a report. -/
theorem insertTerminals_mem :
    ∀ {turns : List ExternalTurnTerminal} {table : Table TurnTerminalRow TurnTerminalRow.key},
      r ∈ (insertTerminals e t n turns table).2.rows →
        r ∈ table.rows ∨ ∃ turn ∈ turns, r.val = ⟨e, t, turn.turnId, turn.status, n⟩
  | [], _, h => .inl h
  | turn :: turns, table, h => by
    unfold insertTerminals at h
    split at h
    · exact (insertTerminals_mem h).imp_right fun ⟨turn', hmem, heq⟩ => ⟨turn', List.mem_cons_of_mem _ hmem, heq⟩
    · next table' hins =>
      obtain ⟨hk, rfl⟩ := Table.insertOrIgnore_eq_some hins
      rcases insertTerminals_mem h with hmem | ⟨turn', hmem, heq⟩
      · rcases (Table.mem_insert (h := hk)).1 hmem with hmem | rfl
        · exact .inl hmem
        · exact .inr ⟨turn, List.mem_cons_self, rfl⟩
      · exact .inr ⟨turn', List.mem_cons_of_mem _ hmem, heq⟩

/-- Turns that are all recorded are passed over. -/
theorem insertTerminals_of_hasKey {table : Table TurnTerminalRow TurnTerminalRow.key} :
    ∀ {turns : List ExternalTurnTerminal}, (∀ turn ∈ turns, ∃ r, table.lookup (e, t, turn.turnId) = some r) →
      insertTerminals e t n turns table = (0, table)
  | [], _ => rfl
  | turn :: turns, h => by
    obtain ⟨⟨r, hr⟩, hturns⟩ := List.forall_mem_cons.1 h
    have hins : table.insertOrIgnore ⟨e, t, turn.turnId, turn.status, n⟩ = none := Table.insertOrIgnore_of_lookup hr
    rw [insertTerminals, hins]
    exact insertTerminals_of_hasKey hturns

theorem insertItems_of_hasKey {table : Table ItemTerminalRow ItemTerminalRow.key} :
    ∀ {items : List ExternalItemTerminal}, (∀ item ∈ items, ∃ r, table.lookup ((e, t), item.turnId, item.itemId) = some r) →
      insertItems e t n items table = (0, table)
  | [], _ => rfl
  | item :: items, h => by
    obtain ⟨⟨r, hr⟩, hitems⟩ := List.forall_mem_cons.1 h
    have hins : table.insertOrIgnore ⟨e, t, item.turnId, item.itemId, n⟩ = none := Table.insertOrIgnore_of_lookup hr
    rw [insertItems, hins]
    exact insertItems_of_hasKey hitems

/-- The tables have the recorded statuses of earlier ones. -/
def KeepsStatuses (db db' : ExternalDb) : Prop :=
  ∀ thread turnId status, db.turnStatus thread turnId = some status → db'.turnStatus thread turnId = some status

theorem turnStatus_eq_some {status : ExternalTerminalStatus} : db.turnStatus thread x = some status ↔
    ∃ r ∈ db.turnTerminals.rows, r.val.key = (thread.1, thread.2, x) ∧ r.val.status = status := by
  simp only [ExternalDb.turnStatus, Option.map_eq_some_iff, Table.lookup_eq_some, and_assoc]

theorem keepsStatuses_insert (h : db'.turnTerminals = (insertTerminals e t n turns db.turnTerminals).2) : KeepsStatuses db db' := by
  intro thread x status hstatus
  obtain ⟨r, hr, hk, hs⟩ := turnStatus_eq_some.1 hstatus
  exact turnStatus_eq_some.2 ⟨r, h ▸ insertTerminals_keeps hr, hk, hs⟩

theorem keepsStatuses_of_eq (h : db'.turnTerminals = db.turnTerminals) : KeepsStatuses db db' := by
  intro thread x status hstatus
  rw [ExternalDb.turnStatus, h]
  exact hstatus

theorem turnStatus_insert {turn : ExternalTurnTerminal} (h : db'.turnTerminals = (insertTerminals e t n turns db.turnTerminals).2)
    (hturn : turn ∈ turns) (hcontradicts : db.contradicts ⟨(e, t), turn⟩ = false) :
    ∃ reported ∈ turns, reported.turnId = turn.turnId ∧ db'.turnStatus (e, t) turn.turnId = some reported.status := by
  cases hstatus : db.turnStatus (e, t) turn.turnId with
  | some status =>
    refine ⟨turn, hturn, rfl, keepsStatuses_insert h _ _ _ ?_⟩
    rw [hstatus]
    simpa [ExternalDb.contradicts, hstatus] using hcontradicts
  | none =>
    have hkey : (insertTerminals e t n turns db.turnTerminals).2.HasKey (e, t, turn.turnId) :=
      insertTerminals_hasKey.2 (.inr ⟨turn, hturn, rfl⟩)
    obtain ⟨r, hr, hk⟩ := hkey
    rcases insertTerminals_mem hr with hold | ⟨reported, hmem, heq⟩
    · rw [turnStatus_eq_some.2 ⟨r, hold, hk, rfl⟩] at hstatus
      cases hstatus
    · refine ⟨reported, hmem, ?_, turnStatus_eq_some.2 ⟨r, h ▸ hr, hk, by rw [heq]⟩⟩
      rw [heq] at hk
      exact congrArg (fun k => k.2.2) hk

/-! ## Calls -/

theorem threadState_update {p : Row ManagedThreadRow → Bool} {f : ManagedThreadRow → ManagedThreadRow} {r : Row ManagedThreadRow}
    {state : ExternalThreadState} (ht : Table.Maps (fun r => if p r then f r.val else r.val) db.threads db'.threads)
    (hr : r ∈ db.threads.rows) (hp : p r = true) (hf : (f r.val).thread = r.val.thread) (hstate : (f r.val).state = state) :
    db'.threadState r.val.thread = some state := by
  refine Option.map_eq_some_iff.2 ⟨⟨r.id, r.serial, f r.val⟩, Table.lookup_eq_some.2 ⟨ht.mem.2 ⟨r, hr, ?_⟩, hf⟩, hstate⟩
  rw [if_pos hp]

/-- A call whose fence holds records its turns and leaves the thread ready, or finds a contradiction and leaves it
uncertain. -/
theorem applyTerminals_fenced {o : ExternalApplyOutcome} (hfence : db.terminalFence e t n finish = true)
    (h : applyTerminals now e t n turns finish db = .ok (o, db')) :
    db.conflicts e t turns = true ∧ db'.turnTerminals = db.turnTerminals ∧ db'.threadState (e, t) = some .uncertain ∨
    db.conflicts e t turns = false ∧ db'.turnTerminals = (insertTerminals e t n turns db.turnTerminals).2 ∧
      db'.threadState (e, t) = some .ready := by
  obtain ⟨epoch, he, h⟩ := bind_eq_ok.1 h
  cases epochI64_eq_ok he
  obtain ⟨r, hr, hp⟩ := List.any_eq_true.1 (Bool.and_eq_true_iff.1 hfence).1
  obtain ⟨hthread, hepoch, hstate⟩ := of_decide_eq_true hp
  dsimp only at h
  rw [terminalFence_eq, hfence] at h
  simp only [Bool.not_true, Bool.false_eq_true, if_false] at h
  rw [← hthread]
  split at h
  · next hconflict =>
    cases h
    exact .inl ⟨hconflict, rfl, threadState_update (Table.maps_update rfl rfl) hr (decide_eq_true ⟨hthread, hepoch⟩) rfl rfl⟩
  · next hconflict =>
    cases h
    refine .inr ⟨Bool.eq_false_iff.2 hconflict, rfl, ?_⟩
    cases finish with
    | true => exact threadState_update (Table.maps_update rfl rfl) hr (decide_eq_true ⟨hthread, hepoch⟩) rfl rfl
    | false => exact Option.map_eq_some_iff.2 ⟨r, Table.lookup_eq_some.2 ⟨hr, rfl⟩, hstate⟩

theorem applyTerminalItems_db (h : applyTerminalItems now e t n turns items finish s = .ok (o, s')) :
    ∃ o', applyTerminals now e t n turns finish s.db = .ok (o', s'.db) := by
  unfold applyTerminalItems at h
  split at h <;> cases h
  all_goals exact ⟨_, by assumption⟩

/-- A call under an epoch that can be stored answers. -/
theorem applyTerminalItems_total (hn : epochI64 n = .ok n) :
    ∃ o s', applyTerminalItems now e t n turns items finish s = .ok (o, s') := by
  have htotal : ∃ o db', applyTerminals now e t n turns finish s.db = .ok (o, db') := by
    unfold applyTerminals
    rw [hn]
    dsimp only [bind, Except.bind]
    rw [terminalFence_eq]
    split
    · exact ⟨_, _, rfl⟩
    · split <;> exact ⟨_, _, rfl⟩
  obtain ⟨o, db', h⟩ := htotal
  unfold applyTerminalItems
  rw [h]
  cases o <;> exact ⟨_, _, rfl⟩

/-- Without a report nothing is recorded. With reports the fence of their call holds, and its job runs. -/
theorem step_reports (w : Writer ProjectionDb) (ev : ProjectionEvent) :
    ev.reports w = [] ∧ (projectionStep w ev).db.db.turnTerminals = w.db.db.turnTerminals ∨
    ∃ e t n turns finish now o, ev.reports w = turns.map (⟨(e, t), ·⟩) ∧ w.db.db.terminalFence e t n finish = true ∧
      applyTerminals now e t n turns finish w.db.db = .ok (o, (projectionStep w ev).db.db) := by
  cases ev with
  | restart => exact .inl ⟨rfl, rfl⟩
  | call fate now c =>
    by_cases hop : ∃ e t n turns finish, c.op = .applyTerminals e t n turns finish
    · obtain ⟨e, t, n, turns, finish, hop⟩ := hop
      have hrun : c.run now w.db = Job.answer (applyTerminalItems now e t n turns c.items finish) (fun _ => ()) w.db := by
        rw [ProjectionCall.run, hop]
      simp only [ProjectionEvent.reports, hop]
      split
      · next htaken =>
        obtain ⟨hfate, halive, hcheck, hn, hfence⟩ := htaken
        obtain ⟨o, s', hitems⟩ : ∃ o s', applyTerminalItems now e t n turns c.items finish w.db = .ok (o, s') :=
          applyTerminalItems_total hn
        have hjob : c.run now w.db = .ok ((), s') := by
          rw [hrun, Job.answer, hitems]
          rfl
        obtain ⟨o', hturns⟩ := applyTerminalItems_db hitems
        refine .inr ⟨e, t, n, turns, finish, now, o', rfl, hfence, ?_⟩
        rw [projectionStep, call_takes_job halive hcheck hfate hjob]
        exact hturns
      · next htaken =>
        refine .inl ⟨rfl, ?_⟩
        rcases call_takes w (c.check now) fate (c.run now) with hdb | ⟨⟨_, hcheck, hjob⟩, halive, hfate⟩
        · rw [projectionStep, hdb]
        · rw [hrun] at hjob
          obtain ⟨o, hitems, -⟩ := answer_ok hjob
          obtain ⟨-, ⟨-, hsame, -⟩ | ⟨hfence, -, -⟩⟩ := applyTerminalItems_cases hitems
          · exact hsame
          · obtain ⟨o', hturns⟩ := applyTerminalItems_db hitems
            obtain ⟨epoch, hn, -⟩ := bind_eq_ok.1 hturns
            cases epochI64_eq_ok hn
            exact absurd ⟨Fate.runs_iff.2 hfate, halive, hcheck, hn, (Bool.and_eq_true_iff.1 hfence).1⟩ htaken
    · have hop' : ∀ e t n turns finish, c.op = .applyTerminals e t n turns finish → False :=
        fun e t n turns finish h => hop ⟨e, t, n, turns, finish, h⟩
      refine .inl ⟨?_, ?_⟩
      · dsimp only [ProjectionEvent.reports]
        split
        · next h => exact (hop' _ _ _ _ _ h).elim
        · rfl
      rcases call_db w (c.check now) fate (c.run now) with hdb | ⟨_, -, hjob⟩
      · rw [projectionStep, hdb]
      · rw [projectionStep]
        generalize (w.call (c.check now) fate (c.run now)).2.db = s' at hjob ⊢
        unfold ProjectionCall.run at hjob
        split at hjob
        · next h => exact (hop' _ _ _ _ _ h).elim
        · obtain ⟨⟨u, db'⟩, hrun, heq⟩ := map_eq_ok.1 hjob
          cases heq
          exact (run_keepsTerminals hrun hop').terminals

/-! ## Steps -/

/-- The invariant of the tables, with the uncertain threads kept. -/
theorem step_projection_sticky (w : Writer ProjectionDb) (ev : ProjectionEvent) (h : Sticky w.db.db) :
    Sticky (projectionStep w ev).db.db ∧ Grows w.db.db (projectionStep w ev).db.db := by
  cases ev with
  | restart => exact ⟨h, .refl _⟩
  | call fate now c =>
    rcases call_db w (c.check now) fate (c.run now) with hdb | ⟨_, -, hjob⟩
    · rw [projectionStep, hdb]
      exact ⟨h, .refl _⟩
    · rw [projectionStep]
      generalize (w.call (c.check now) fate (c.run now)).2.db = s' at hjob ⊢
      unfold ProjectionCall.run at hjob
      split at hjob
      · obtain ⟨o, hitems, -⟩ := answer_ok hjob
        obtain ⟨o', hturns⟩ := applyTerminalItems_db hitems
        exact applyTerminals_sticky h hturns
      · obtain ⟨⟨u, db'⟩, hrun, heq⟩ := map_eq_ok.1 hjob
        cases heq
        exact run_sticky h hrun

theorem step_keepsStatuses (w : Writer ProjectionDb) (ev : ProjectionEvent) : KeepsStatuses w.db.db (projectionStep w ev).db.db := by
  rcases step_reports w ev with ⟨-, hsame⟩ | ⟨e, t, n, turns, finish, now, o, -, hfence, hturns⟩
  · exact keepsStatuses_of_eq hsame
  · rcases applyTerminals_fenced hfence hturns with ⟨-, hsame, -⟩ | ⟨-, hinsert, -⟩
    · exact keepsStatuses_of_eq hsame
    · exact keepsStatuses_insert hinsert

theorem exec_keepsStatuses : ∀ (w : Writer ProjectionDb) (es : List ProjectionEvent),
    KeepsStatuses w.db.db (exec projectionStep w es).db.db
  | _, [] => fun _ _ _ h => h
  | w, ev :: es => fun thread x status h =>
    exec_keepsStatuses (projectionStep w ev) es thread x status (step_keepsStatuses w ev thread x status h)

/-- A report is what was recorded, or its thread is uncertain. -/
def Told (db : ExternalDb) (seen : List TerminalReport) : Prop :=
  ∀ r ∈ seen, db.threadState r.thread = some .uncertain ∨ db.turnStatus r.thread r.turn.turnId = some r.turn.status

theorem Told.fenced (h : Told db seen) : Fenced db seen := by
  rintro r hr q hq ⟨hthread, hturn, hstatus⟩
  rcases h r hr with hu | hr'
  · exact hu
  · rcases h q hq with hu | hq'
    · rwa [hthread]
    · rw [hthread, hturn, hq'] at hr'
      exact absurd (Option.some.inj hr').symm hstatus

/-- **One step.** -/
theorem told_step (h : Told w.db.db seen) (hsticky : Sticky w.db.db) (hone : OneStatus w ev) :
    Told (projectionStep w ev).db.db (seen ++ ev.reports w) := by
  intro r hr
  rcases List.mem_append.1 hr with hr | hr
  · exact (h r hr).imp ((step_projection_sticky w ev hsticky).2.threads _) (step_keepsStatuses w ev _ _ _)
  rcases step_reports w ev with ⟨hnone, -⟩ | ⟨e, t, n, turns, finish, now, o, hreports, hfence, hturns⟩
  · rw [hnone] at hr
    cases hr
  · rw [hreports] at hr
    obtain ⟨turn, hturn, rfl⟩ := List.mem_map.1 hr
    rcases applyTerminals_fenced hfence hturns with ⟨-, -, hu⟩ | ⟨hconflicts, hinsert, -⟩
    · exact .inl hu
    · -- the status that is recorded was reported with it, and so it is the same
      have hcontradicts : ∀ turn ∈ turns, w.db.db.contradicts ⟨(e, t), turn⟩ = false := fun turn hmem =>
        Bool.eq_false_iff.2 fun hc => Bool.eq_false_iff.1 hconflicts (conflicts_iff.2 ⟨turn, hmem, hc⟩)
      obtain ⟨reported, hmem, hid, hstatus⟩ := turnStatus_insert hinsert hturn (hcontradicts turn hturn)
      refine .inr (hstatus.trans (congrArg some ?_))
      unfold OneStatus at hone
      rw [hreports] at hone
      rcases hone with ⟨q, hq, hc⟩ | hagree
      · obtain ⟨turn', hturn', rfl⟩ := List.mem_map.1 hq
        rw [hcontradicts turn' hturn'] at hc
        cases hc
      · by_contra hne
        exact hagree _ (List.mem_map_of_mem hmem) _ (List.mem_map_of_mem hturn) ⟨rfl, hid, hne⟩

theorem ready_of_not_oneStatus (hone : ¬ OneStatus w ev) :
    ¬ Fenced (projectionStep w ev).db.db (ev.reports w) := by
  intro hfenced
  rw [OneStatus, not_or] at hone
  obtain ⟨hcontradicts, hconflict⟩ := hone
  push Not at hconflict
  obtain ⟨r, hr, q, hq, hrq⟩ := hconflict
  have hu := hfenced r hr q hq hrq
  rcases step_reports w ev with ⟨hnone, -⟩ | ⟨e, t, n, turns, finish, now, o, hreports, hfence, hturns⟩
  · rw [hnone] at hr
    cases hr
  · rw [hreports] at hr hcontradicts
    obtain ⟨turn, hturn, rfl⟩ := List.mem_map.1 hr
    rcases applyTerminals_fenced hfence hturns with ⟨hconflicts, -, -⟩ | ⟨-, -, hready⟩
    · obtain ⟨turn', hturn', hc⟩ := conflicts_iff.1 hconflicts
      exact hcontradicts ⟨_, List.mem_map_of_mem hturn', hc⟩
    · rw [hready] at hu
      cases hu

/-! ## Runs -/

/-- **A run.** -/
theorem told_exec : ∀ {es : List ProjectionEvent} {w : Writer ProjectionDb} {seen : List TerminalReport}, Told w.db.db seen →
    Sticky w.db.db → Along projectionStep OneStatus w es → Told (exec projectionStep w es).db.db (seen ++ reports w es)
  | [], _, _, h, _, _ => by simpa [reports] using h
  | ev :: es, w, seen, h, hsticky, ⟨hone, hes⟩ => by
    rw [reports, ← List.append_assoc]
    exact told_exec (told_step h hsticky hone) (step_projection_sticky w ev hsticky).1 hes

/-- Conflicting reports leave an uncertain thread after every front of the run exactly where each of its calls contradicts what
was recorded or brings no turn with two statuses. -/
theorem fenced_iff_along (es : List ProjectionEvent) :
    (∀ fs, fs <+: es → Fenced (projectionsAfter fs).db (reports emptyProjections fs)) ↔
      Along projectionStep OneStatus emptyProjections es := by
  constructor
  · induction es using List.reverseRecOn with
    | nil => exact fun _ => trivial
    | append_singleton es ev ih =>
      intro h
      refine along_append.2 ⟨ih fun fs hfs => h fs (hfs.trans (List.prefix_append _ _)), ?_, trivial⟩
      by_contra hone
      refine ready_of_not_oneStatus hone fun r hr q hq hrq => ?_
      have hall := h _ (List.prefix_refl _)
      rw [projectionsAfter, exec_append] at hall
      refine hall r ?_ q ?_ hrq
      all_goals
        rw [reports_append]
        exact List.mem_append_right _ (by simpa [reports])
  · rintro h fs ⟨gs, rfl⟩
    have hempty : Told emptyProjections.db.db [] := by rintro r ⟨⟩
    exact (told_exec hempty Sticky.empty (along_append.1 h).1).fenced

/-- Reports of what is recorded already. -/
theorem applyTerminalItems_identical (hturns : ∀ turn ∈ turns, s.db.turnStatus (e, t) turn.turnId = some turn.status)
    (hitems : ∀ item ∈ items, (item.turnId, item.itemId) ∈ s.itemIds (e, t))
    (h : applyTerminalItems now e t n turns items finish s = .ok (o, s')) :
    (o = .stale ∨ o = .applied 0 0) ∧ s'.db.turnTerminals = s.db.turnTerminals ∧ s'.itemTerminals = s.itemTerminals ∧
      (finish = false → s' = s) := by
  have hconflicts : s.db.conflicts e t turns = false := by
    refine Bool.eq_false_iff.2 fun hc => ?_
    obtain ⟨turn, hturn, hc⟩ := conflicts_iff.1 hc
    simp [ExternalDb.contradicts, hturns turn hturn] at hc
  have hinsert : insertTerminals e t n turns s.db.turnTerminals = (0, s.db.turnTerminals) :=
    insertTerminals_of_hasKey fun turn hturn => by
      obtain ⟨r, hr, -⟩ := Option.map_eq_some_iff.1 (hturns turn hturn)
      exact ⟨r, hr⟩
  have hinsertItems : insertItems e t n items s.itemTerminals = (0, s.itemTerminals) :=
    insertItems_of_hasKey fun item hitem => by
      obtain ⟨r, hr, hk⟩ := mem_itemIds.1 (hitems item hitem)
      exact ⟨r, Table.lookup_eq_some.2 ⟨hr, hk⟩⟩
  unfold applyTerminalItems at h
  rw [hinsertItems] at h
  cases happly : applyTerminals now e t n turns finish s.db with
  | error err => rw [happly] at h; cases h
  | ok result =>
    obtain ⟨outcome, db'⟩ := result
    rw [happly] at h
    obtain ⟨epoch, hn, happly⟩ := bind_eq_ok.1 happly
    cases epochI64_eq_ok hn
    dsimp only at happly
    rw [terminalFence_eq] at happly
    split at happly
    · cases happly
      cases h
      exact ⟨.inl rfl, rfl, rfl, fun _ => rfl⟩
    split at happly
    · next hc => exact absurd hc (Bool.eq_false_iff.1 hconflicts)
    · rw [hinsert] at happly
      cases happly
      cases h
      refine ⟨.inr rfl, rfl, rfl, ?_⟩
      rintro rfl
      rfl

/-- **Conflicting terminal reports** leave an uncertain thread in every state of exactly the runs in which each call that brings a
turn with two statuses contradicts what was recorded. A recorded status stays, and a report of it changes nothing. -/
theorem conflicting_reports_fence (es : List ProjectionEvent) :
    ((∀ fs, fs <+: es → Fenced (projectionsAfter fs).db (reports emptyProjections fs)) ↔
      Along projectionStep OneStatus emptyProjections es) ∧
    (∀ fs, KeepsStatuses (projectionsAfter es).db (projectionsAfter (es ++ fs)).db) ∧
    ∀ now e t n turns items finish o s', applyTerminalItems now e t n turns items finish (projectionsAfter es) = .ok (o, s') →
      (∀ turn ∈ turns, (projectionsAfter es).db.turnStatus (e, t) turn.turnId = some turn.status) →
      (∀ item ∈ items, (item.turnId, item.itemId) ∈ (projectionsAfter es).itemIds (e, t)) →
      (o = .stale ∨ o = .applied 0 0) ∧ s'.db.turnTerminals = (projectionsAfter es).db.turnTerminals ∧
        s'.itemTerminals = (projectionsAfter es).itemTerminals ∧ (finish = false → s' = projectionsAfter es) := by
  refine ⟨fenced_iff_along es, fun fs => ?_, ?_⟩
  · rw [projectionsAfter, projectionsAfter, exec_append]
    exact exec_keepsStatuses _ fs
  · intro now e t n turns items finish o s' h hturns hitems
    exact applyTerminalItems_identical hturns hitems h

/-- A reconciliation brings one turn as completed and as failed. -/
def twoStatusRun : List ProjectionEvent :=
  reconcilingRun ++
    [.call .execute 0 ⟨.applyTerminals "e" "t" 1 [⟨"u", .completed⟩, ⟨"u", .failed⟩] true, []⟩]

/-- Its thread is ready. -/
theorem twoStatusRun_ready : ¬ ∀ es, Fenced (projectionsAfter es).db (reports emptyProjections es) := by
  intro h
  have hconflict : (⟨("e", "t"), ⟨"u", .completed⟩⟩ : TerminalReport) ∈ reports emptyProjections twoStatusRun ∧
      (⟨("e", "t"), ⟨"u", .failed⟩⟩ : TerminalReport) ∈ reports emptyProjections twoStatusRun := by decide
  have hready : (projectionsAfter twoStatusRun).db.threadState ("e", "t") = some .ready := by decide
  have hu := h twoStatusRun _ hconflict.1 _ hconflict.2 ⟨rfl, rfl, nofun⟩
  rw [hready] at hu
  cases hu

end LarkCodexBridge.External
