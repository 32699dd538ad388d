import LarkCodexBridge.External.Recovery
import LarkCodexBridge.External.Uncertainty

/-!
# Reconciliation loses no terminal

Every terminal that the actor received is written, or its thread is uncertain, or the epoch fails; before the end of the
reconciliation it may also wait in the mailbox of its thread. And what is written was reported by the server.

* `Inv`: where each received terminal is, with what the mailboxes hold;
* `wp_applyLiveEvent`, `wp_awaitRequest`, `wp_reconcileThread`, `wp_reconcileEpoch`: what the procedures keep;
* `reconciliation_loses_no_terminal`: every run.
-/

namespace LarkCodexBridge.External.Recovery

open Limits SqlTable Store

/-! ## What the calls do to the threads -/

section

variable {db db' : ExternalDb} {now : ℤ} {e t : String} {n : ℕ}

/-- The thread is fenced under the current epoch of its endpoint. -/
def Fenced (db : ExternalDb) (endpointLabel threadId : String) (epoch : ℕ) : Prop :=
  db.HasEpoch endpointLabel epoch ∧
    ∃ r ∈ db.threads.rows, r.val.thread = (endpointLabel, threadId) ∧ r.val.epoch = epoch

/-- Uncertain threads stay so. -/
def KeepsUncertain (db db' : ExternalDb) : Prop :=
  ∀ thread, db.threadState thread = some .uncertain → db'.threadState thread = some .uncertain

/-- A thread that is rewritten keeps its epoch. -/
theorem Fenced.rewrite {ft : Row ManagedThreadRow → ManagedThreadRow} (h : Fenced db e t n)
    (hends : db'.endpoints = db.endpoints) (ht : Table.Maps ft db.threads db'.threads)
    (hkeep : ∀ r : Row ManagedThreadRow, (ft r).thread = r.val.thread ∧ (ft r).epoch = r.val.epoch) : Fenced db' e t n := by
  obtain ⟨hepoch, r, hr, hthread, hn⟩ := h
  refine ⟨hasEpoch_of_eq hends _ _ hepoch, _, ht.mem.2 ⟨r, hr, rfl⟩, ?_, ?_⟩
  · exact (hkeep r).1.trans hthread
  · exact (hkeep r).2.trans hn

variable {o : ExternalFenceOutcome}

theorem begin_fenced (h : beginExternalReconciliation now e t n db = .ok (o, db')) :
    KeepsUncertain db db' ∧ (o = .current → Fenced db' e t n) := by
  obtain ⟨epoch, hepoch, hjob⟩ := bind_eq_ok.1 h
  obtain rfl := epochI64_eq_ok hepoch
  cases hjob
  refine ⟨threadState_rewrite (Table.maps_update rfl rfl) fun r _ => ?_, fun ho => ?_⟩
  · split
    · next hp => exact ⟨rfl, fun hu => absurd hu (of_decide_eq_true hp).2.1⟩
    · exact ⟨rfl, id⟩
  · split at ho
    · next hany =>
      obtain ⟨r, hr, hp⟩ := List.any_eq_true.1 hany
      obtain ⟨hthread, -, hcurrent⟩ := of_decide_eq_true hp
      obtain ⟨er, her, hend⟩ := List.any_eq_true.1 hcurrent
      refine ⟨⟨er, her, (of_decide_eq_true hend).1, (of_decide_eq_true hend).2⟩, _, List.mem_map_of_mem hr, ?_⟩
      rw [Row.update_of_pos hp]
      exact ⟨hthread, rfl⟩
    · cases ho

/-- The state of an endpoint is not the state of its threads. -/
theorem state_keeps {state : ExternalEndpointState} (h : setExternalEndpointState now e n state db = .ok (o, db')) :
    KeepsUncertain db db' := by
  obtain ⟨epoch, -, hjob⟩ := bind_eq_ok.1 h
  cases hjob
  exact threadState_of_eq rfl

theorem unavailable_keeps {reason : ExternalUncertaintyReason}
    (h : markExternalUnavailable now e n reason db = .ok (o, db')) : KeepsUncertain db db' := by
  obtain ⟨epoch, -, hjob⟩ := bind_eq_ok.1 h
  dsimp only at hjob
  split at hjob
  · cases hjob
    exact threadState_of_eq rfl
  · cases hjob
    refine threadState_rewrite (Table.maps_update rfl rfl) fun r _ => ?_
    split
    · next hp => exact ⟨rfl, fun hu => absurd hu (of_decide_eq_true hp).2.2⟩
    · exact ⟨rfl, id⟩

theorem mark_uncertain {reason : ExternalUncertaintyReason}
    (h : markExternalThreadUncertain now e t n reason db = .ok (o, db')) :
    KeepsUncertain db db' ∧ (Fenced db e t n → db'.threadState (e, t) = some .uncertain) := by
  obtain ⟨epoch, hepoch, hjob⟩ := bind_eq_ok.1 h
  obtain rfl := epochI64_eq_ok hepoch
  cases hjob
  refine ⟨threadState_rewrite (Table.maps_update rfl rfl) fun r _ => ?_, fun hf => ?_⟩
  · split
    · exact ⟨rfl, fun _ => rfl⟩
    · exact ⟨rfl, id⟩
  · obtain ⟨⟨er, her, hend⟩, r, hr, hthread, hn⟩ := hf
    refine Option.map_eq_some_iff.2 ⟨_, Table.lookup_updateWhere (Table.lookup_eq_some.2 ⟨hr, hthread⟩), ?_⟩
    rw [Row.update_of_pos (decide_eq_true ⟨hthread, hn, List.any_eq_true.2 ⟨er, her, decide_eq_true hend⟩⟩)]
    rfl

theorem apply_threads {turns : List ExternalTurnTerminal} {finish : Bool} {o : ExternalApplyOutcome}
    (h : applyTerminals now e t n turns finish db = .ok (o, db')) :
    KeepsUncertain db db' ∧ (∀ t', Fenced db e t' n → Fenced db' e t' n) ∧
      (o = .conflictingTerminal → db'.threadState (e, t) = some .uncertain) := by
  obtain ⟨epoch, hepoch, hjob⟩ := bind_eq_ok.1 h
  obtain rfl := epochI64_eq_ok hepoch
  generalize hexpected : (if finish = true then ExternalThreadState.reconciling else .ready) = expected at hjob
  dsimp only at hjob
  split at hjob
  · cases hjob
    exact ⟨fun _ hu => hu, fun _ hf => hf, by simp⟩
  next hcurrent =>
  simp only [Bool.not_eq_true', Bool.not_eq_false, Bool.and_eq_true, List.any_eq_true] at hcurrent
  obtain ⟨⟨r', hr', hp', hstate⟩, -⟩ := hcurrent
  split at hjob
  · cases hjob
    refine ⟨threadState_rewrite (Table.maps_update rfl rfl) fun r _ => ?_, fun t' hf => ?_, fun _ => ?_⟩
    · split
      · exact ⟨rfl, fun _ => rfl⟩
      · exact ⟨rfl, id⟩
    · refine hf.rewrite rfl (Table.maps_update rfl rfl) fun r => ?_
      split <;> exact ⟨rfl, rfl⟩
    · refine Option.map_eq_some_iff.2
        ⟨_, Table.lookup_updateWhere (Table.lookup_eq_some.2 ⟨hr', (of_decide_eq_true hp').1⟩), ?_⟩
      rw [Row.update_of_pos hp']
      rfl
  cases hjob
  cases finish with
  | false => exact ⟨fun _ hu => hu, fun _ hf => hf, by simp⟩
  | true =>
    refine ⟨threadState_rewrite (Table.maps_update rfl rfl) fun r hr => ?_, fun t' hf => ?_, by simp⟩
    · split
      · next hp =>
        refine ⟨rfl, fun hu => ?_⟩
        have hreconciling := (of_decide_eq_true hstate).trans hexpected.symm
        rw [Table.eq_of_key hr' hr ((of_decide_eq_true hp').1.trans (of_decide_eq_true hp).1.symm), hu] at hreconciling
        cases hreconciling
      · exact ⟨rfl, id⟩
    · refine hf.rewrite rfl (Table.maps_update rfl rfl) fun r => ?_
      split <;> exact ⟨rfl, rfl⟩

end

/-! ## Terminals and where they are -/

def ThreadEvent.Terminal (e : ThreadEvent) : Prop :=
  match e.body with
  | .itemCompleted _ _ | .turnCompleted _ _ => True
  | .silent _ | .refused _ => False

/-- The terminal of the event is among these. -/
def ThreadEvent.In (e : ThreadEvent) (turns : List ExternalTurnTerminal) (items : List ExternalItemTerminal) : Prop :=
  ∃ turn item, terminalFromEvent e.body = .ok (turn, item) ∧ (∀ x ∈ turn, x ∈ turns) ∧ ∀ x ∈ item, x ∈ items

namespace World

variable (w : World)

/-- The terminal of the event was written for its thread. -/
def Written (e : ThreadEvent) : Prop :=
  ∃ turns items live, .applied e.threadId turns items live ∈ w.history ∧ e.In turns items

def Uncertain (endpointLabel threadId : String) : Prop := w.db.threadState (endpointLabel, threadId) = some .uncertain

/-- The server reported the turn as terminal with this status, in a response or in a notification. -/
def Reported (threadId : String) (turn : ExternalTurnTerminal) : Prop :=
  (∃ request response, .answered request response ∈ w.history ∧ request.threadId = threadId ∧
    ∃ t ∈ response.reported, t.id = turn.turnId ∧ terminalStatus t.status = .ok turn.status) ∨
  ∃ e, .received e ∈ w.history ∧ e.threadId = threadId ∧ terminalFromEvent e.body = .ok (some turn, none)

/-- What was written was reported. -/
def Sound : Prop :=
  ∀ threadId turns items live, .applied threadId turns items live ∈ w.history → ∀ turn ∈ turns, w.Reported threadId turn

/-- The event waits in the mailbox of its thread, or the mailbox has overflowed. -/
def Waiting (e : ThreadEvent) : Prop :=
  e ∈ w.mailboxes.events e.threadId ∨ (w.mailboxes.overflow e.threadId).isSome = true

end World

/-- A thread whose events go to its mailbox. -/
def Threads.Open (threads : Threads) (threadId : String) : Prop :=
  threadId ∈ threads.managed ∧ threadId ∉ threads.uncertain ∧ threadId ∉ threads.ready

variable {endpointLabel threadId : String} {epoch : ℕ} {threads : Threads} {w w' w'' : World}
  {turn : ExternalTurnTerminal}

/-- **Where each received terminal is**, but for the events in `skip`. -/
structure Inv (endpointLabel : String) (threads : Threads) (skip : ThreadEvent → Prop) (w : World) : Prop where
  delivered : ∀ e, .received e ∈ w.history → e.Terminal → ¬skip e → w.Written e ∨ w.Uncertain endpointLabel e.threadId ∨
    threads.Open e.threadId ∧ w.Waiting e
  boxed : ∀ t, ∀ e ∈ w.mailboxes.events t, e.threadId = t ∧ .received e ∈ w.history
  uncertain : ∀ t ∈ threads.uncertain, w.Uncertain endpointLabel t
  sound : w.Sound

theorem World.Reported.mono (h : w.Reported threadId turn) (hw : w.history <+: w'.history) :
    w'.Reported threadId turn := by
  rcases h with ⟨request, response, ha, hr⟩ | ⟨e, he, hr⟩
  · exact .inl ⟨request, response, hw.subset ha, hr⟩
  · exact .inr ⟨e, hw.subset he, hr⟩

variable {e : ThreadEvent} {skip skip' : ThreadEvent → Prop} {check : Except StoreError Unit} {s s' : ProjectionDb}
  {turns : List ExternalTurnTerminal} {items : List ExternalItemTerminal} {request : Request} {response : Response}

theorem World.Written.mono (h : w.Written e) (hw : w.history <+: w'.history) : w'.Written e := by
  obtain ⟨turns, items, live, ha, hin⟩ := h
  exact ⟨turns, items, live, hw.subset ha, hin⟩

/-- One more observation that writes nothing. -/
theorem World.Sound.observe {o : Observation} (h : w.Sound) (hw : w'.history = w.history ++ [o])
    (ho : ∀ t turns items live, o = .applied t turns items live → ∀ turn ∈ turns, w'.Reported t turn) : w'.Sound := by
  intro t turns items live ha turn hturn
  rw [hw] at ha
  rcases List.mem_append.1 ha with ha | ha
  · exact (h t turns items live ha turn hturn).mono ⟨[o], hw.symm⟩
  · exact ho t turns items live (List.mem_singleton.1 ha).symm turn hturn

theorem World.Sound.of_history (h : w.Sound) (hw : w'.history = w.history) : w'.Sound := by
  intro t turns items live ha turn hturn
  exact (h t turns items live (hw ▸ ha) turn hturn).mono ⟨[], by rw [hw, List.append_nil]⟩

/-- Nothing is received or taken, and no thread becomes certain again. -/
theorem Inv.next (h : Inv endpointLabel threads skip w) (hw : w.history <+: w'.history)
    (hreceived : ∀ e, .received e ∈ w'.history → .received e ∈ w.history) (hboxes : w'.mailboxes = w.mailboxes)
    (hdb : KeepsUncertain w.db w'.db) (hsound : w'.Sound)
    (hskip : ∀ e, skip e → skip' e ∨ (e.Terminal → w'.Written e ∨ w'.Uncertain endpointLabel e.threadId)) :
    Inv endpointLabel threads skip' w' := by
  refine ⟨fun e he ht hs => ?_, fun t e he => ?_, fun t ht => hdb _ (h.uncertain t ht), hsound⟩
  · by_cases hskipped : skip e
    · rcases (hskip e hskipped).resolve_left hs ht with hwr | hu
      · exact .inl hwr
      · exact .inr (.inl hu)
    · rcases h.delivered e (hreceived e he) ht hskipped with hwr | hu | ⟨hopen, hwait⟩
      · exact .inl (hwr.mono hw)
      · exact .inr (.inl (hdb _ hu))
      · refine .inr (.inr ⟨hopen, ?_⟩)
        unfold World.Waiting at *
        rwa [hboxes]
  · rw [hboxes] at he
    exact ⟨(h.boxed t e he).1, hw.subset (h.boxed t e he).2⟩

/-! ## Calls to the store -/

/-- A call that succeeds has the effect of its job. -/
theorem wp_store {α : Type} {job : ℤ → Job ProjectionDb α} {Q : α → World → Prop} {E : EpochStop → World → Prop}
    (hQ : ∀ now a writer, job now w.writer.db = .ok (a, writer.db) → Q a { w with writer := writer, asked := w.asked + 1 })
    (hE : ∀ writer, E (.failed .store) { w with writer := writer, asked := w.asked + 1 }) :
    (store check job).wp Q E w := by
  unfold Proc.wp store Writer.call
  cases check with
  | error e => exact hE _
  | ok u =>
    rcases w.writer.runSized_cases (w.asks w.asked).fate (job (w.asks w.asked).now) with ⟨e, he, -⟩ |
      ⟨a, db, hj, -, -, hr⟩ | ⟨a, db, e, hj, -, -, hr⟩
    · simp only [he, Except.mapError]
      exact hE _
    · simp only [hr, Except.mapError]
      exact hQ _ _ _ hj
    · simp only [hr, Except.mapError]
      exact hE _

theorem onDb_ok {α : Type} {job : ℤ → Job ExternalDb α} {now : ℤ} {a : α} (h : onDb job now s = .ok (a, s')) :
    job now s.db = .ok (a, s'.db) ∧ s'.itemTerminals = s.itemTerminals := by
  unfold onDb at h
  split at h
  · next heq =>
    cases h
    exact ⟨heq, rfl⟩
  · cases h

theorem applyItems_threads {now : ℤ} {finish : Bool} {o : TerminalsOutcome}
    (h : applyTerminalItems now endpointLabel threadId epoch turns items finish s = .ok (o, s')) :
    KeepsUncertain s.db s'.db ∧ (∀ t, Fenced s.db endpointLabel t epoch → Fenced s'.db endpointLabel t epoch) ∧
      (o = .conflictingTerminal → s'.db.threadState (endpointLabel, threadId) = some .uncertain) := by
  unfold applyTerminalItems at h
  split at h
  · cases h
  · next heq =>
    cases h
    exact ⟨(apply_threads heq).1, (apply_threads heq).2.1, nofun⟩
  · next heq =>
    cases h
    exact ⟨(apply_threads heq).1, (apply_threads heq).2.1, fun _ => (apply_threads heq).2.2 rfl⟩
  · next heq =>
    cases h
    exact ⟨(apply_threads heq).1, (apply_threads heq).2.1, nofun⟩

/-! ## Events -/

/-- What holds where a reconciliation stops. -/
def StopOk (endpointLabel : String) (threads : Threads) (stop : EpochStop) (w : World) : Prop :=
  w.Sound ∧ (stop = .waiting → Inv endpointLabel threads (fun _ => False) w)

/-- What a procedure keeps. -/
structure Kept (endpointLabel : String) (epoch : ℕ) (threads : Threads) (w w' : World) : Prop where
  inv : Inv endpointLabel threads (fun _ => False) w'
  fenced : ∀ t, Fenced w.db endpointLabel t epoch → Fenced w'.db endpointLabel t epoch
  history : w.history <+: w'.history

theorem Kept.refl (h : Inv endpointLabel threads (fun _ => False) w) : Kept endpointLabel epoch threads w w :=
  ⟨h, fun _ hf => hf, List.prefix_rfl⟩

theorem Kept.trans (h : Kept endpointLabel epoch threads w w')
    (h' : Kept endpointLabel epoch threads w' w'') : Kept endpointLabel epoch threads w w'' :=
  ⟨h'.inv, fun t hf => h'.fenced t (h.fenced t hf), h.history.trans h'.history⟩

/-- **A live event** that was just received. -/
theorem wp_applyLiveEvent (h : Inv endpointLabel threads (· = e) w) (he : .received e ∈ w.history) :
    (applyLiveEvent endpointLabel epoch (.thread e)).wp (fun _ w' => Kept endpointLabel epoch threads w w')
      (fun stop w' => w'.Sound ∧ stop ≠ .waiting) w := by
  unfold applyLiveEvent
  rw [Proc.wp_bind, Proc.wp_lift]
  cases hterm : terminalFromEvent e.body with
  | error failure =>
    refine ⟨nofun, ?_⟩
    rintro stop ⟨⟩
    exact ⟨h.sound, nofun⟩
  | ok found =>
    obtain ⟨turn, item⟩ := found
    refine ⟨?_, nofun⟩
    rintro _ ⟨⟩
    dsimp only
    split
    · next hnone =>
      simp only [Bool.and_eq_true, Option.isNone_iff_eq_none] at hnone
      obtain ⟨rfl, rfl⟩ := hnone
      refine ⟨h.next List.prefix_rfl (fun _ he => he) rfl (fun _ hu => hu) h.sound ?_, fun _ hf => hf, List.prefix_rfl⟩
      rintro _ rfl
      refine .inr fun ht => ?_
      unfold ThreadEvent.Terminal at ht
      unfold terminalFromEvent at hterm
      split at ht
      · next hbody =>
        rw [hbody] at hterm
        dsimp only at hterm
        split at hterm <;> cases hterm
      · next hbody =>
        rw [hbody] at hterm
        dsimp only at hterm
        split at hterm <;> cases hterm
      · exact ht.elim
      · exact ht.elim
    · rw [Proc.wp_bind]
      refine wp_store (fun now o writer hjob => ?_) fun writer => ⟨h.sound.of_history rfl, nofun⟩
      obtain ⟨hkeep, hfence, hconflict⟩ := applyItems_threads hjob
      cases o with
      | applied n m =>
        have hsound : (World.observe { w with writer := writer, asked := w.asked + 1 }
            (.applied e.threadId turn.toList item.toList true)).Sound := by
          refine h.sound.observe rfl fun t turns items live heq x hx => ?_
          cases heq
          obtain rfl := Option.mem_toList.1 hx
          refine .inr ⟨e, List.mem_append_left _ he, rfl, ?_⟩
          rw [hterm]
          unfold terminalFromEvent at hterm
          split at hterm
          · cases hterm
          · cases hterm
          · split at hterm <;> cases hterm
          · split at hterm <;> cases hterm
            rfl
        refine ⟨h.next ⟨_, rfl⟩ (fun e' he' => ?_) rfl hkeep hsound ?_, hfence, ⟨_, rfl⟩⟩
        · simpa [World.observe] using he'
        · rintro _ rfl
          exact .inr fun _ => .inl ⟨_, _, _, List.mem_append_right _ (List.mem_singleton_self _), turn, item, hterm,
            fun _ hx => Option.mem_toList.2 hx, fun _ hx => Option.mem_toList.2 hx⟩
      | conflictingTerminal =>
        refine ⟨h.next List.prefix_rfl (fun _ he => he) rfl hkeep (h.sound.of_history rfl) ?_, hfence,
          List.prefix_rfl⟩
        rintro _ rfl
        exact .inr fun _ => .inr (hconflict rfl)
      | stale => exact ⟨h.sound.of_history rfl, nofun⟩

/-! ## Mailboxes -/

namespace ReconcileMailboxes

variable {m : ReconcileMailboxes} {e e' : ThreadEvent}

theorem push_self (m : ReconcileMailboxes) (e : ThreadEvent) :
    e ∈ (m.push e).events e.threadId ∨ ((m.push e).overflow e.threadId).isSome = true := by
  unfold push
  split_ifs with h
  · exact .inr h
  · exact .inr (by simp)
  · exact .inl (by simp)

theorem push_events {t : String} (h : e' ∈ m.events t) : e' ∈ (m.push e).events t := by
  unfold push
  split_ifs
  · exact h
  · exact h
  · simp only [Function.update_apply]
    split
    · next heq => exact List.mem_append_left _ (heq ▸ h)
    · exact h

theorem push_overflow {t : String} (h : (m.overflow t).isSome = true) : ((m.push e).overflow t).isSome = true := by
  unfold push
  split_ifs
  · exact h
  · simp only [Function.update_apply]
    split
    · rfl
    · exact h
  · exact h

theorem mem_push {t : String} (h : e' ∈ (m.push e).events t) :
    e' ∈ m.events t ∨ e' = e ∧ e.threadId = t := by
  unfold push at h
  split_ifs at h
  · exact .inl h
  · exact .inl h
  · simp only [Function.update_apply] at h
    split at h
    · next heq =>
      rcases List.mem_append.1 h with h | h
      · exact .inl (heq ▸ h)
      · exact .inr ⟨List.mem_singleton.1 h, heq.symm⟩
    · exact .inl h

end ReconcileMailboxes

/-! ## Awaiting a response -/

/-- An event of a thread is received. -/
theorem Inv.receive (h : Inv endpointLabel threads (fun _ => False) w) (e : ThreadEvent) :
    Inv endpointLabel threads (· = e) (w.observe (.received e)) := by
  refine ⟨fun e' he ht hne => ?_, fun t e' he => ?_, h.uncertain, h.sound.observe rfl nofun⟩
  · rcases List.mem_append.1 he with he | he
    · rcases h.delivered e' he ht id with hwr | hrest
      · exact .inl (hwr.mono ⟨_, rfl⟩)
      · exact .inr hrest
    · cases List.mem_singleton.1 he
      exact absurd rfl hne
  · exact ⟨(h.boxed t e' he).1, List.mem_append_left _ (h.boxed t e' he).2⟩

/-- The event that was just received goes to its mailbox. -/
theorem Inv.push (h : Inv endpointLabel threads (· = e) w) (he : .received e ∈ w.history)
    (hopen : threads.Open e.threadId) :
    Inv endpointLabel threads (fun _ => False) { w with mailboxes := w.mailboxes.push e } := by
  refine ⟨fun e' he' ht _ => ?_, fun t e' he' => ?_, h.uncertain, h.sound⟩
  · by_cases heq : e' = e
    · subst heq
      exact .inr (.inr ⟨hopen, w.mailboxes.push_self e'⟩)
    · rcases h.delivered e' he' ht heq with hwr | hu | ⟨ho, hwait⟩
      · exact .inl hwr
      · exact .inr (.inl hu)
      · exact .inr (.inr ⟨ho, hwait.imp ReconcileMailboxes.push_events ReconcileMailboxes.push_overflow⟩)
  · rcases ReconcileMailboxes.mem_push he' with hold | ⟨rfl, hthread⟩
    · exact h.boxed t e' hold
    · exact ⟨hthread, he⟩

/-- **An event** is taken and routed. -/
theorem wp_event {event : ExternalReadEvent} (h : Inv endpointLabel threads (fun _ => False) w)
    (hopen : ∀ exit, event ≠ .closed exit) :
    (do received event; routeReconcileEvent endpointLabel epoch threads event : Proc World EpochStop Unit).wp
      (fun _ w' => Kept endpointLabel epoch threads w w') (fun stop w' => w'.Sound ∧ stop ≠ .waiting) w := by
  rw [Proc.wp_bind]
  cases event with
  | accountRateLimitsUpdated => exact .refl h
  | remoteControlStatusChanged => exact .refl h
  | closed exit => exact absurd rfl (hopen exit)
  | thread e =>
    have hrec := h.receive e
    have hmem : .received e ∈ (w.observe (.received e)).history := List.mem_append_right _ (List.mem_singleton_self _)
    show (routeReconcileEvent endpointLabel epoch threads (.thread e)).wp _ _ (w.observe (.received e))
    unfold routeReconcileEvent
    dsimp only
    split
    · exact ⟨hrec.sound, nofun⟩
    next hmanaged =>
    split
    · next huncertain =>
      refine ⟨hrec.next List.prefix_rfl (fun _ he => he) rfl (fun _ hu => hu) hrec.sound ?_, fun _ hf => hf, ⟨_, rfl⟩⟩
      rintro _ rfl
      exact .inr fun _ => .inr (hrec.uncertain _ huncertain)
    next huncertain =>
    split
    · refine (wp_applyLiveEvent hrec hmem).mono (fun _ w' hkept => ?_) fun _ _ => id
      exact ⟨hkept.inv, hkept.fenced, List.IsPrefix.trans ⟨_, rfl⟩ hkept.history⟩
    · next hready =>
      exact ⟨hrec.push hmem ⟨by simpa using hmanaged, huncertain, hready⟩, fun _ hf => hf, ⟨_, rfl⟩⟩

/-- The inputs are not part of the invariant. -/
theorem Inv.of_inputs {inputs : List Input} (h : Inv endpointLabel threads (fun _ => False) w) :
    Inv endpointLabel threads (fun _ => False) { w with inputs := inputs } :=
  ⟨h.delivered, h.boxed, h.uncertain, h.sound⟩

/-- The events before the response are routed, in their order. -/
theorem wp_awaitLoop : ∀ {inputs : List Input} {w : World}, Inv endpointLabel threads (fun _ => False) w →
    (awaitLoop endpointLabel epoch threads inputs).wp (fun _ w' => Kept endpointLabel epoch threads w w')
      (StopOk endpointLabel threads) w
  | [], w, h => ⟨h.sound, fun _ => h⟩
  | input :: inputs, w, h => by
    have hnext : Inv endpointLabel threads (fun _ => False) { w with inputs := inputs } := h.of_inputs
    have hloop : (awaitLoop endpointLabel epoch threads inputs).wp
        (fun _ w' => Kept endpointLabel epoch threads w w') (StopOk endpointLabel threads)
        { w with inputs := inputs } :=
      (wp_awaitLoop hnext).mono (fun _ w' hkept => ⟨hkept.inv, hkept.fenced, hkept.history⟩) fun _ _ => id
    unfold awaitLoop
    rw [Proc.wp_bind, Proc.wp_modify]
    have hevent : ∀ event : ExternalReadEvent, (∀ exit, event ≠ .closed exit) →
        (do received event; routeReconcileEvent endpointLabel epoch threads event
            awaitLoop endpointLabel epoch threads inputs : Proc World EpochStop Response).wp
          (fun _ w' => Kept endpointLabel epoch threads w w') (StopOk endpointLabel threads)
          { w with inputs := inputs } := by
      intro event hopen
      have hrouted : (do received event; routeReconcileEvent endpointLabel epoch threads event :
          Proc World EpochStop Unit).wp (fun _ w' => Kept endpointLabel epoch threads { w with inputs := inputs } w')
          (fun stop w' => w'.Sound ∧ stop ≠ .waiting) { w with inputs := inputs } := wp_event hnext hopen
      rw [Proc.wp_bind] at hrouted ⊢
      refine hrouted.mono (fun _ w₁ hkept => ?_) fun stop w₁ hstop => ⟨hstop.1, fun heq => absurd heq hstop.2⟩
      rw [Proc.wp_bind]
      refine hkept.mono (fun _ w₂ hkept => ?_) fun stop w₁ hstop => ⟨hstop.1, fun heq => absurd heq hstop.2⟩
      exact (wp_awaitLoop hkept.inv).mono
        (fun _ w' hkept' => ⟨hkept'.inv, fun t hf => hkept'.fenced t (hkept.fenced t hf), hkept.history.trans hkept'.history⟩) fun _ _ => id
    match input with
    | .cancelled => exact ⟨h.sound, nofun⟩
    | .badEvent => exact ⟨h.sound, nofun⟩
    | .noEvent => exact ⟨h.sound, nofun⟩
    | .event (.closed exit) => exact ⟨h.sound, nofun⟩
    | .event .accountRateLimitsUpdated => exact hevent _ nofun
    | .event .remoteControlStatusChanged => exact hevent _ nofun
    | .event (.thread e) => exact hevent _ nofun
    | .response (.ok response) => exact ⟨hnext, fun _ hf => hf, List.prefix_rfl⟩
    | .response (.error e) => exact ⟨h.sound, nofun⟩
    | .command _ => exact hloop

/-- **A request**: its response is there, and every event before it has its place. -/
theorem wp_awaitRequest (h : Inv endpointLabel threads (fun _ => False) w) :
    (awaitRequest endpointLabel epoch threads request).wp
      (fun response w' => Kept endpointLabel epoch threads w w' ∧ .answered request response ∈ w'.history)
      (StopOk endpointLabel threads) w := by
  unfold awaitRequest
  rw [Proc.wp_bind, Proc.wp_get, Proc.wp_bind]
  refine (wp_awaitLoop h).mono (fun response w₁ hkept => ?_) fun _ _ => id
  have hprefix : w₁.history <+: (w₁.observe (.answered request response)).history := ⟨_, rfl⟩
  refine ⟨⟨hkept.inv.next hprefix (fun e he => ?_) rfl (fun _ hu => hu) (hkept.inv.sound.observe rfl nofun) (by simp),
    hkept.fenced, hkept.history.trans hprefix⟩, List.mem_append_right _ (List.mem_singleton_self _)⟩
  simpa [World.observe] using he

/-! ## Projections -/

namespace TerminalProjection

variable {p p' : TerminalProjection} {turnId : String} {itemId : Option String}

theorem ensure_ok (h : p.ensureEntryBounds = .ok p') : p' = p := by
  unfold ensureEntryBounds at h
  split at h
  · cases h
  · cases h
    rfl

theorem ensure_error {e : ThreadFailure} (h : p.ensureEntryBounds = .error e) : e = .uncertain .pageLimit := by
  unfold ensureEntryBounds at h
  split at h
  · cases h
    rfl
  · cases h

theorem insertTurn_ok {turn : ExternalTurnTerminal} (h : p.insertTurn turn = .ok p') :
    turn ∈ p'.turns ∧ p.turns ⊆ p'.turns ∧ (∀ x ∈ p'.turns, x ∈ p.turns ∨ x = turn) ∧ p'.items = p.items := by
  unfold insertTurn at h
  split at h
  · next prior hprior =>
    split at h
    · cases h
    · next hstatus =>
      obtain rfl := ensure_ok h
      have hid := List.find?_some hprior
      have heq : prior = turn := by
        cases prior
        cases turn
        simp_all
      exact ⟨heq ▸ List.mem_of_find?_eq_some hprior, fun _ hx => hx, fun _ hx => .inl hx, rfl⟩
  · obtain rfl := ensure_ok h
    exact ⟨by simp, by simp, by simp, rfl⟩

theorem insertTurn_error {turn : ExternalTurnTerminal} {e : ThreadFailure} (h : p.insertTurn turn = .error e) :
    ∃ reason, e = .uncertain reason := by
  unfold insertTurn at h
  split at h
  · split at h
    · cases h
      exact ⟨_, rfl⟩
    · exact ⟨_, ensure_error h⟩
  · exact ⟨_, ensure_error h⟩

theorem addItem_turns (h : p.addItem turnId itemId = .ok p') :
    p'.turns = p.turns := by
  unfold addItem at h
  split at h
  · cases h
  · obtain rfl := ensure_ok h
    rfl

theorem addListedItem_turns (h : p.addListedItem turnId itemId = .ok p') :
    p'.turns = p.turns := by
  unfold addListedItem at h
  split at h
  · cases h
  · obtain rfl := ensure_ok h
    rfl

/-- A turn adds itself where it is terminal. -/
theorem addTurn_turns {turn : Turn} (h : p.addTurn turn = .ok p') :
    ∀ x ∈ p'.turns, x ∈ p.turns ∨ turn.id = x.turnId ∧ terminalStatus turn.status = .ok x.status := by
  unfold addTurn at h
  cases hstatus : terminalStatus turn.status with
  | error e =>
    simp only [hstatus] at h
    split at h
    · obtain rfl := ensure_ok h
      exact fun _ hx => .inl hx
    · cases h
  | ok status =>
    simp only [hstatus] at h
    obtain ⟨p₁, hitems, hinsert⟩ := Fallible.bind_eq_ok.1 h
    have hturns : p₁.turns = p.turns := Fallible.foldlM_invariant (I := fun q => q.turns = p.turns)
      (fun _ _ _ _ hq hI => (addItem_turns hq).trans hI) hitems rfl
    intro x hx
    rcases (insertTurn_ok hinsert).2.2.1 x hx with hold | rfl
    · exact .inl (hturns ▸ hold)
    · exact .inr ⟨rfl, rfl⟩

/-- An event adds its terminal. -/
theorem addEvent_ok {e : ThreadEvent} (h : p.addEvent e = .ok p') :
    e.In p'.turns p'.items ∧ p.turns ⊆ p'.turns ∧ p.items ⊆ p'.items ∧
      ∀ x ∈ p'.turns, x ∈ p.turns ∨ ∃ item, terminalFromEvent e.body = .ok (some x, item) := by
  unfold addEvent at h
  split at h
  · cases h
  · next turn item hterm =>
    obtain ⟨p₁, hturn, hitem⟩ := Fallible.bind_eq_ok.1 h
    have hturns : (∀ x ∈ turn, x ∈ p₁.turns) ∧ p.turns ⊆ p₁.turns ∧ (∀ x ∈ p₁.turns, x ∈ p.turns ∨ turn = some x) ∧
        p₁.items = p.items := by
      cases turn with
      | none =>
        cases hturn
        exact ⟨nofun, fun _ hx => hx, fun _ hx => .inl hx, rfl⟩
      | some turn =>
        obtain ⟨hmem, hsub, hall, hitems⟩ := insertTurn_ok hturn
        refine ⟨?_, hsub, fun x hx => (hall x hx).imp_right fun heq => by rw [heq], hitems⟩
        rintro x ⟨⟩
        exact hmem
    have hitems : p'.turns = p₁.turns ∧ (∀ x ∈ item, x ∈ p'.items) ∧ p₁.items ⊆ p'.items := by
      cases item with
      | none =>
        obtain rfl := ensure_ok hitem
        exact ⟨rfl, nofun, fun _ hx => hx⟩
      | some item =>
        obtain rfl := ensure_ok hitem
        refine ⟨rfl, ?_, fun _ hx => List.mem_insert_of_mem hx⟩
        rintro x ⟨⟩
        exact List.mem_insert_self
    obtain ⟨hmem, hsub, hall, hsame⟩ := hturns
    obtain ⟨heq, himem, hisub⟩ := hitems
    rw [heq]
    exact ⟨⟨turn, item, hterm, hmem, himem⟩, hsub, hsame ▸ hisub,
      fun x hx => (hall x hx).imp_right fun ht => ⟨item, by rw [hterm, ht]⟩⟩

/-- A mailbox cannot make a reconciliation wait. -/
theorem addEvent_error {e : ThreadEvent} {f : ThreadFailure} (h : p.addEvent e = .error f) : f ≠ .epoch .waiting := by
  unfold addEvent at h
  split at h
  · cases h
    nofun
  · next turn item hterm =>
    rcases Fallible.bind_eq_error.1 h with h | ⟨p₁, -, h⟩
    · cases turn with
      | none => cases h
      | some turn =>
        obtain ⟨reason, rfl⟩ := insertTurn_error h
        nofun
    · cases item with
      | none | some item =>
        rw [ensure_error h]
        nofun

theorem foldListed_ok (h : p.foldListedItems = .ok p') : p'.turns = p.turns ∧ p.items ⊆ p'.items := by
  unfold foldListedItems at h
  obtain rfl := ensure_ok h
  refine ⟨rfl, ?_⟩
  generalize p.listedItems.filter _ = folded
  show p.items ⊆ folded.foldl (fun items item => items.insert item) p.items
  generalize p.items = items
  induction folded generalizing items with
  | nil => exact fun _ hx => hx
  | cons item folded ih => exact fun _ hx => ih _ (List.mem_insert_of_mem hx)

end TerminalProjection

theorem ThreadEvent.In.mono {turns' : List ExternalTurnTerminal} {items' : List ExternalItemTerminal}
    (h : e.In turns items) (ht : turns ⊆ turns') (hi : items ⊆ items') :
    e.In turns' items' := by
  obtain ⟨turn, item, hterm, hturn, hitem⟩ := h
  exact ⟨turn, item, hterm, fun x hx => ht (hturn x hx), fun x hx => hi (hitem x hx)⟩

/-- A report of a turn is none of an item. -/
theorem terminalFromEvent_turn {b : EventBody} {item : Option ExternalItemTerminal}
    (h : terminalFromEvent b = .ok (some turn, item)) : item = none := by
  unfold terminalFromEvent at h
  split at h
  · cases h
  · cases h
  · split at h <;> cases h
  · split at h <;> cases h
    rfl

/-- Every event of a mailbox is in the projection that took it. -/
theorem addEvents_ok : ∀ {events : List ThreadEvent} {p p' : TerminalProjection},
    events.foldlM TerminalProjection.addEvent p = .ok p' →
      (∀ e ∈ events, e.In p'.turns p'.items) ∧ p.turns ⊆ p'.turns ∧ p.items ⊆ p'.items ∧
        ∀ x ∈ p'.turns, x ∈ p.turns ∨ ∃ e ∈ events, ∃ item, terminalFromEvent e.body = .ok (some x, item)
  | [], p, p', h => by
    cases h
    exact ⟨nofun, fun _ hx => hx, fun _ hx => hx, fun _ hx => .inl hx⟩
  | e :: events, p, p', h => by
    rw [List.foldlM_cons] at h
    obtain ⟨p₁, h₁, h₂⟩ := Fallible.bind_eq_ok.1 h
    obtain ⟨hin, hturns, hitems, hall⟩ := TerminalProjection.addEvent_ok h₁
    obtain ⟨hin', hturns', hitems', hall'⟩ := addEvents_ok h₂
    refine ⟨fun e' he' => ?_, fun _ hx => hturns' (hturns hx), fun _ hx => hitems' (hitems hx), fun x hx => ?_⟩
    · rcases List.mem_cons.1 he' with rfl | he'
      · exact hin.mono hturns' hitems'
      · exact hin' e' he'
    · rcases hall' x hx with hx | ⟨e', he', hterm⟩
      · exact (hall x hx).imp_right fun hterm => ⟨e, List.mem_cons_self .., hterm⟩
      · exact .inr ⟨e', List.mem_cons_of_mem _ he', hterm⟩

def TerminalProjection.Reported (p : TerminalProjection) (threadId : String) (w : World) : Prop :=
  ∀ turn ∈ p.turns, w.Reported threadId turn

theorem TerminalProjection.Reported.mono {p : TerminalProjection} (h : p.Reported threadId w)
    (hw : w.history <+: w'.history) : p.Reported threadId w' :=
  fun turn hturn => (h turn hturn).mono hw

/-- The turns of a response to a request of the thread. -/
theorem TerminalProjection.Reported.addTurns (hans : .answered request response ∈ w.history)
    (hthread : request.threadId = threadId) {turns : List Turn} (hturns : turns ⊆ response.reported)
    {p p' : TerminalProjection} (h : turns.foldlM TerminalProjection.addTurn p = .ok p') (hp : p.Reported threadId w) :
    p'.Reported threadId w := by
  refine Fallible.foldlM_invariant (I := fun q => q.Reported threadId w) (fun turn hturn q q' hq hI x hx => ?_) h hp
  rcases addTurn_turns hq x hx with hold | ⟨hid, hstatus⟩
  · exact hI x hold
  · exact .inl ⟨request, response, hans, hthread, turn, hturns hturn, hid, hstatus⟩

/-! ## The requests of one thread -/

/-- What holds where the requests of a thread end early. -/
def RequestStop (endpointLabel : String) (epoch : ℕ) (threads : Threads) (w : World) : ThreadFailure → World → Prop
  | .uncertain _, w' => Kept endpointLabel epoch threads w w'
  | .epoch stop, w' => StopOk endpointLabel threads stop w'

variable {f : ThreadFailure}

theorem RequestStop.of_kept (h : Kept endpointLabel epoch threads w w') :
    RequestStop endpointLabel epoch threads w f w' := by
  cases f with
  | uncertain reason => exact h
  | epoch stop => exact ⟨h.inv.sound, fun _ => h.inv⟩

theorem RequestStop.trans (h : Kept endpointLabel epoch threads w w')
    (h' : RequestStop endpointLabel epoch threads w' f w'') : RequestStop endpointLabel epoch threads w f w'' := by
  cases f with
  | uncertain reason => exact h.trans h'
  | epoch stop => exact h'

/-- A projection of the thread, collected since `w`. -/
structure Collected (endpointLabel : String) (epoch : ℕ) (threads : Threads) (threadId : String) (w : World)
    (p : TerminalProjection) (w' : World) : Prop where
  kept : Kept endpointLabel epoch threads w w'
  reported : p.Reported threadId w'

variable {p : TerminalProjection} {reason : ExternalUncertaintyReason}

theorem Collected.trans (h : Kept endpointLabel epoch threads w w')
    (h' : Collected endpointLabel epoch threads threadId w' p w'') :
    Collected endpointLabel epoch threads threadId w p w'' :=
  ⟨h.trans h'.kept, h'.reported⟩

/-- The bytes of a response are counted; the mailboxes stay. -/
theorem wp_addResponseBytes (h : Inv endpointLabel threads (fun _ => False) w) (hp : p.Reported threadId w) :
    (addResponseBytes response p).wp
      (fun p' w' => Collected endpointLabel epoch threads threadId w p' w' ∧ w'.history = w.history)
      (RequestStop endpointLabel epoch threads w) w := by
  have hkept : Kept endpointLabel epoch threads w
      { w with mailboxes := { w.mailboxes with endpointBytes := w.mailboxes.endpointBytes + response.bytes } } :=
    ⟨⟨h.delivered, h.boxed, h.uncertain, h.sound⟩, fun _ hf => hf, List.prefix_rfl⟩
  unfold addResponseBytes
  rw [Proc.wp_bind, Proc.wp_modify, Proc.wp_bind, Proc.wp_get]
  dsimp only
  split
  · exact Proc.wp_fail.2 (.of_kept hkept)
  · exact ⟨⟨hkept, hp⟩, rfl⟩

/-- A response adds the turns that it reports. -/
theorem wp_addTurns {turns : List Turn} (h : Inv endpointLabel threads (fun _ => False) w) (hp : p.Reported threadId w)
    (hans : .answered request response ∈ w.history) (hthread : request.threadId = threadId)
    (hturns : turns ⊆ response.reported) :
    (Proc.lift (turns.foldlM TerminalProjection.addTurn p)).wp
      (fun p' w' => Collected endpointLabel epoch threads threadId w p' w')
      (RequestStop endpointLabel epoch threads w) w :=
  Proc.wp_lift.2 ⟨fun _ hok => ⟨.refl h, hp.addTurns hans hthread hturns hok⟩, fun _ _ => .of_kept (.refl h)⟩

/-- **A thread/resume or thread/read.** -/
theorem wp_threadRequest (request : Request) (h : Inv endpointLabel threads (fun _ => False) w)
    (hp : p.Reported threadId w) (hthread : request.threadId = threadId) :
    (threadRequest endpointLabel epoch threads request p).wp
      (fun p' w' => Collected endpointLabel epoch threads threadId w p' w')
      (RequestStop endpointLabel epoch threads w) w := by
  unfold threadRequest
  rw [Proc.wp_bind, Proc.wp_mapError]
  refine (wp_awaitRequest h).mono (fun response w₁ ⟨hkept, hans⟩ => ?_) fun _ _ => id
  have hp₁ := hp.mono hkept.history
  split
  · next thread hbody =>
    rw [Proc.wp_bind]
    refine (wp_addResponseBytes hkept.inv hp₁).mono (fun p₂ w₂ ⟨hcol, heq⟩ => ?_) fun _ _ => .trans hkept
    split
    · exact Proc.wp_fail.2 (.of_kept (hkept.trans hcol.kept))
    · refine (wp_addTurns hcol.kept.inv hcol.reported (heq ▸ hans) hthread ?_).mono
        (fun _ _ => .trans (hkept.trans hcol.kept)) fun _ _ => .trans (hkept.trans hcol.kept)
      rw [Response.reported, hbody]
      exact List.Subset.refl _
  · exact Proc.wp_fail.2 (.of_kept hkept)

/-- **The pages of turns**, by induction on the pages left. -/
theorem wp_turnPages : ∀ {pages : ℕ} {cursor : Option String} {seen : List String} {p : TerminalProjection} {w : World},
    Inv endpointLabel threads (fun _ => False) w → p.Reported threadId w →
      (turnPages endpointLabel epoch threads threadId pages cursor seen p).wp
        (fun p' w' => Collected endpointLabel epoch threads threadId w p' w')
        (RequestStop endpointLabel epoch threads w) w
  | 0, _, _, _, _, h, hp => ⟨.refl h, hp⟩
  | pages + 1, cursor, seen, p, w, h, hp => by
    unfold turnPages
    rw [Proc.wp_bind, Proc.wp_mapError]
    refine (wp_awaitRequest h).mono (fun response w₁ ⟨hkept, hans⟩ => ?_) fun _ _ => id
    split
    · next data nextCursor hbody =>
      rw [Proc.wp_bind]
      refine (wp_addResponseBytes hkept.inv (hp.mono hkept.history)).mono (fun p₂ w₂ ⟨hcol, heq⟩ => ?_)
        fun _ _ => .trans hkept
      have hkept₂ := hkept.trans hcol.kept
      have hsub : data ⊆ response.reported := by
        rw [Response.reported, hbody]
        exact List.Subset.refl _
      rw [Proc.wp_bind]
      refine (wp_addTurns hcol.kept.inv hcol.reported (heq ▸ hans) rfl hsub).mono (fun p₃ w₃ hcol₃ => ?_)
        fun _ _ => .trans hkept₂
      have hkept₃ := hkept₂.trans hcol₃.kept
      split
      · exact ⟨hkept₃, hcol₃.reported⟩
      · split
        · exact Proc.wp_fail.2 (.of_kept hkept₃)
        · exact (wp_turnPages hkept₃.inv hcol₃.reported).mono (fun _ _ => .trans hkept₃) fun _ _ => .trans hkept₃
    · exact Proc.wp_fail.2 (.of_kept hkept)

theorem addEntries_turns {turnId : String} {data : List (String × Option String)} {p' : TerminalProjection}
    (h : addEntries turnId data p = .ok p') : p'.turns = p.turns := by
  refine Fallible.foldlM_invariant (I := fun q => q.turns = p.turns) (fun entry _ q q' hq hI => ?_) h rfl
  split at hq
  · cases hq
  · exact (TerminalProjection.addListedItem_turns hq).trans hI

/-- The pages of items of one turn. -/
theorem wp_itemPages {turnId : String} : ∀ {pages : ℕ} {cursor : Option String} {seen : List String}
    {p : TerminalProjection} {w : World}, Inv endpointLabel threads (fun _ => False) w → p.Reported threadId w →
      (itemPages endpointLabel epoch threads threadId turnId pages cursor seen p).wp
        (fun found w' => Collected endpointLabel epoch threads threadId w found.2 w')
        (RequestStop endpointLabel epoch threads w) w
  | 0, _, _, _, _, h, _ => Proc.wp_fail.2 (.of_kept (.refl h))
  | pages + 1, cursor, seen, p, w, h, hp => by
    unfold itemPages
    rw [Proc.wp_bind, Proc.wp_mapError]
    refine (wp_awaitRequest h).mono (fun response w₁ ⟨hkept, hans⟩ => ?_) fun _ _ => id
    split
    · rw [Proc.wp_bind]
      refine (wp_addResponseBytes hkept.inv (hp.mono hkept.history)).mono (fun p₂ w₂ ⟨hcol, heq⟩ => ?_)
        fun _ _ => .trans hkept
      have hkept₂ := hkept.trans hcol.kept
      rw [Proc.wp_bind]
      refine Proc.wp_lift.2 ⟨fun p₃ hok => ?_, fun _ _ => .of_kept hkept₂⟩
      have hp₃ : p₃.Reported threadId w₂ := fun turn hturn => hcol.reported turn (addEntries_turns hok ▸ hturn)
      split
      · exact ⟨hkept₂, hp₃⟩
      · split
        · exact Proc.wp_fail.2 (.of_kept hkept₂)
        · exact (wp_itemPages hkept₂.inv hp₃).mono (fun _ _ => .trans hkept₂) fun _ _ => .trans hkept₂
    · exact Proc.wp_fail.2 (.of_kept hkept)

theorem wp_allItemPages : ∀ {turnIds : List String} {pages : ℕ} {p : TerminalProjection} {w : World},
    Inv endpointLabel threads (fun _ => False) w → p.Reported threadId w →
      (allItemPages endpointLabel epoch threads threadId turnIds pages p).wp
        (fun p' w' => Collected endpointLabel epoch threads threadId w p' w')
        (RequestStop endpointLabel epoch threads w) w
  | [], _, _, _, h, hp => ⟨.refl h, hp⟩
  | turnId :: turnIds, pages, p, w, h, hp => by
    unfold allItemPages
    rw [Proc.wp_bind]
    refine (wp_itemPages h hp).mono (fun found w₁ hcol => ?_) fun _ _ => id
    exact (wp_allItemPages hcol.kept.inv hcol.reported).mono (fun _ _ => .trans hcol.kept) fun _ _ => .trans hcol.kept

/-! ## The end of one thread -/

/-- The threads once the events of this one no longer go to its mailbox. -/
def Threads.settle (threads : Threads) (threadId : String) : Threads := { threads with ready := threadId :: threads.ready }

theorem Threads.Open.settle {t : String} (h : threads.Open t) (hne : t ≠ threadId) : (threads.settle threadId).Open t := by
  refine ⟨h.1, h.2.1, fun hmem => ?_⟩
  rcases List.mem_cons.1 hmem with rfl | hmem
  · exact hne rfl
  · exact h.2.2 hmem

/-- Mailboxes that change for one thread at most. -/
theorem Inv.settle {m : ReconcileMailboxes} (h : Inv endpointLabel threads (fun _ => False) w)
    (hevents : ∀ t, t ≠ threadId → m.events t = w.mailboxes.events t ∧ m.overflow t = w.mailboxes.overflow t)
    (hself : ∀ e ∈ m.events threadId, e ∈ w.mailboxes.events threadId)
    (hskip : ∀ e, e.threadId = threadId → w.Waiting e → skip e) :
    Inv endpointLabel (threads.settle threadId) skip { w with mailboxes := m } := by
  refine ⟨fun e he ht hs => ?_, fun t e he => ?_, h.uncertain, h.sound⟩
  · rcases h.delivered e he ht id with hwr | hu | ⟨hopen, hwait⟩
    · exact .inl hwr
    · exact .inr (.inl hu)
    · have hne : e.threadId ≠ threadId := fun heq => hs (hskip e heq hwait)
      refine .inr (.inr ⟨hopen.settle hne, ?_⟩)
      unfold World.Waiting at *
      rwa [(hevents _ hne).1, (hevents _ hne).2]
  · by_cases heq : t = threadId
    · subst heq
      exact h.boxed t e (hself e he)
    · rw [(hevents t heq).1] at he
      exact h.boxed t e he

theorem Inv.weaken (h : Inv endpointLabel threads skip w) (hskip : ∀ e, skip e → skip' e) :
    Inv endpointLabel threads skip' w :=
  h.next List.prefix_rfl (fun _ he => he) rfl (fun _ hu => hu) h.sound fun e hs => .inl (hskip e hs)

/-- What holds where the end of a thread fails. -/
def ThreadStop (endpointLabel : String) (epoch : ℕ) (threads : Threads) (threadId : String) (w : World) :
    ThreadFailure → World → Prop
  | .uncertain _, w' => Inv endpointLabel (threads.settle threadId) (·.threadId = threadId) w' ∧
      ∀ t, Fenced w.db endpointLabel t epoch → Fenced w'.db endpointLabel t epoch
  | .epoch stop, w' => StopOk endpointLabel threads stop w'

/-- **The mailbox of the thread**: its events are in the hand of the actor. -/
theorem wp_takeEvents (h : Inv endpointLabel threads (fun _ => False) w) :
    (takeEvents threadId).wp
      (fun events w' => Inv endpointLabel (threads.settle threadId) (· ∈ events) w' ∧ w'.writer = w.writer ∧
        w'.history = w.history ∧ ∀ e ∈ events, e.threadId = threadId ∧ .received e ∈ w'.history)
      (ThreadStop endpointLabel epoch threads threadId w) w := by
  unfold takeEvents
  rw [Proc.wp_bind, Proc.wp_get]
  cases hover : w.mailboxes.overflow threadId with
  | some reason =>
    refine ⟨h.settle (fun t hne => ⟨rfl, Function.update_of_ne hne ..⟩) (fun _ he => he) fun _ heq _ => heq,
      fun _ hf => hf⟩
  | none =>
    refine ⟨h.settle (fun t hne => ⟨Function.update_of_ne hne .., rfl⟩) (fun e he => ?_) fun e heq hwait => ?_, rfl, rfl,
      fun e he => h.boxed threadId e he⟩
    · simp [ReconcileMailboxes.taken] at he
    · subst heq
      exact hwait.resolve_right (by simp [hover])

/-- **The projection is applied**: the events in the hand of the actor are written, or the thread is uncertain. -/
theorem wp_applyProjection {events : List ThreadEvent} {p : TerminalProjection}
    (h : Inv endpointLabel (threads.settle threadId) (· ∈ events) w) (hthread : ∀ e ∈ events, e.threadId = threadId)
    (hin : ∀ e ∈ events, e.In p.turns p.items) (hp : p.Reported threadId w) :
    (applyProjection endpointLabel epoch threadId p).wp
      (fun _ w' => Inv endpointLabel (threads.settle threadId) (fun _ => False) w')
      (ThreadStop endpointLabel epoch threads threadId w) w := by
  unfold applyProjection
  rw [Proc.wp_bind, Proc.wp_mapError]
  refine wp_store (fun now o writer hjob => ?_) fun writer => ⟨h.sound.of_history rfl, nofun⟩
  obtain ⟨hkeep, hfence, hconflict⟩ := applyItems_threads hjob
  cases o with
  | applied n m =>
    have hsound : (World.observe { w with writer := writer, asked := w.asked + 1 }
        (.applied threadId p.sortedTurns p.sortedItems false)).Sound := by
      refine h.sound.observe rfl fun t turns items live heq x hx => ?_
      cases heq
      exact (hp x ((List.perm_insertionSort _ _).mem_iff.1 hx)).mono ⟨_, rfl⟩
    refine h.next ⟨_, rfl⟩ (fun e he => ?_) rfl hkeep hsound fun e he => .inr fun _ => .inl ?_
    · simpa [World.observe] using he
    · refine ⟨_, _, false, List.mem_append_right _ (List.mem_singleton.2 (by rw [hthread e he])), ?_⟩
      exact (hin e he).mono (List.perm_insertionSort _ _).symm.subset (List.perm_insertionSort _ _).symm.subset
  | conflictingTerminal =>
    refine ⟨?_, hfence⟩
    exact (h.next List.prefix_rfl (fun _ he => he) rfl hkeep (h.sound.of_history rfl)
      fun e he => .inl (hthread e he))
  | stale => exact ⟨h.sound.of_history rfl, nofun⟩

theorem RequestStop.settle (h : RequestStop endpointLabel epoch threads w f w') :
    ThreadStop endpointLabel epoch threads threadId w f w' := by
  cases f with
  | uncertain reason => exact ⟨h.inv.settle (fun _ _ => ⟨rfl, rfl⟩) (fun _ he => he) fun _ heq _ => heq, h.fenced⟩
  | epoch stop => exact h

theorem ThreadStop.trans (hf : ∀ t, Fenced w.db endpointLabel t epoch → Fenced w'.db endpointLabel t epoch)
    (h' : ThreadStop endpointLabel epoch threads threadId w' f w'') :
    ThreadStop endpointLabel epoch threads threadId w f w'' := by
  cases f with
  | uncertain reason => exact ⟨h'.1, fun t ht => h'.2 t (hf t ht)⟩
  | epoch stop => exact h'

/-- **One thread**: its terminals are written, or it is to be marked uncertain, or the epoch ends. -/
theorem wp_reconcileThread (h : Inv endpointLabel threads (fun _ => False) w) :
    (reconcileThread endpointLabel epoch threads threadId).wp
      (fun _ w' => Inv endpointLabel (threads.settle threadId) (fun _ => False) w')
      (ThreadStop endpointLabel epoch threads threadId w) w := by
  unfold reconcileThread
  rw [Proc.wp_bind]
  have hempty : TerminalProjection.Reported {} threadId w := fun turn hturn => absurd hturn List.not_mem_nil
  refine (wp_threadRequest (.resumeThread threadId) h hempty rfl).mono (fun p₁ w₁ hcol₁ => ?_)
    fun _ _ hs => hs.settle
  rw [Proc.wp_bind]
  refine (wp_threadRequest (.readThread threadId) hcol₁.kept.inv hcol₁.reported rfl).mono
    (fun p₂ w₂ hcol₂ => ?_) fun _ _ hs => (RequestStop.trans hcol₁.kept hs).settle
  replace hcol₂ := Collected.trans hcol₁.kept hcol₂
  rw [Proc.wp_bind]
  refine (wp_turnPages hcol₂.kept.inv hcol₂.reported).mono (fun p₃ w₃ hcol₃ => ?_)
    fun _ _ hs => (RequestStop.trans hcol₂.kept hs).settle
  replace hcol₃ := Collected.trans hcol₂.kept hcol₃
  rw [Proc.wp_bind]
  refine (wp_allItemPages hcol₃.kept.inv hcol₃.reported).mono (fun p₄ w₄ hcol₄ => ?_)
    fun _ _ hs => (RequestStop.trans hcol₃.kept hs).settle
  replace hcol₄ := Collected.trans hcol₃.kept hcol₄
  rw [Proc.wp_bind]
  refine (wp_takeEvents hcol₄.kept.inv).mono (fun events w₅ ⟨hinv, hwriter, hhistory, hevents⟩ => ?_)
    fun _ _ hs => ThreadStop.trans hcol₄.kept.fenced hs
  have hfence : ∀ t, Fenced w.db endpointLabel t epoch → Fenced w₅.db endpointLabel t epoch := by
    intro t hf
    rw [World.db, hwriter]
    exact hcol₄.kept.fenced t hf
  have hfailed : Inv endpointLabel (threads.settle threadId) (·.threadId = threadId) w₅ :=
    hinv.weaken fun e he => (hevents e he).1
  rw [Proc.wp_bind]
  refine Proc.wp_lift.2 ⟨fun p₅ hadd => ?_, fun f hfail => ?_⟩
  · obtain ⟨hin, -, -, hall⟩ := addEvents_ok hadd
    have hp₅ : p₅.Reported threadId w₅ := by
      intro turn hturn
      rcases hall turn hturn with hold | ⟨e, he, item, hterm⟩
      · exact (hcol₄.reported turn hold).mono ⟨[], by rw [hhistory, List.append_nil]⟩
      · refine .inr ⟨e, (hevents e he).2, (hevents e he).1, ?_⟩
        rw [hterm, terminalFromEvent_turn hterm]
    rw [Proc.wp_bind]
    refine Proc.wp_lift.2 ⟨fun p₆ hfold => ?_, fun f hfail => ?_⟩
    · obtain ⟨hturns, hitems⟩ := TerminalProjection.foldListed_ok hfold
      exact (wp_applyProjection hinv (fun e he => (hevents e he).1)
        (fun e he => (hin e he).mono (hturns ▸ List.Subset.refl _) hitems) fun turn hturn => hp₅ turn (hturns ▸ hturn)).mono
        (fun _ _ => id) fun _ _ hs => ThreadStop.trans hfence hs
    · rw [TerminalProjection.ensure_error hfail]
      exact ⟨hfailed, hfence⟩
  · cases f with
    | uncertain reason => exact ⟨hfailed, hfence⟩
    | epoch stop =>
      refine ⟨hinv.sound, ?_⟩
      rintro rfl
      exact absurd rfl (Fallible.foldlM_error (E := (· ≠ .epoch .waiting))
        (fun _ _ _ => TerminalProjection.addEvent_error) hfail)

/-! ## One epoch -/

/-- What holds where a reconciliation ends early. -/
def EpochStopOk (endpointLabel : String) (stop : EpochStop) (w : World) : Prop :=
  w.Sound ∧ (stop = .waiting → ∃ threads, Inv endpointLabel threads (fun _ => False) w)

/-- **One thread of the loop**: afterwards nothing waits for it. -/
theorem wp_reconcileOne (h : Inv endpointLabel threads (fun _ => False) w) :
    (reconcileOne endpointLabel epoch threads threadId).wp
      (fun _ w' => Inv endpointLabel (threads.settle threadId) (fun _ => False) w') (EpochStopOk endpointLabel) w := by
  unfold reconcileOne
  rw [Proc.wp_bind]
  refine wp_store (fun now o writer hjob => ?_) fun writer => ⟨h.sound.of_history rfl, nofun⟩
  obtain ⟨hkeep, hfenced⟩ := begin_fenced (onDb_ok hjob).1
  have hinv : Inv endpointLabel threads (fun _ => False) { w with writer := writer, asked := w.asked + 1 } :=
    h.next List.prefix_rfl (fun _ he => he) rfl hkeep (h.sound.of_history rfl) (by simp)
  cases o with
  | stale => exact ⟨hinv.sound, nofun⟩
  | current =>
    dsimp only
    rw [Proc.wp_bind, Proc.wp_attempt]
    refine (wp_reconcileThread hinv).mono (fun _ _ => id) fun f w₁ hstop => ?_
    cases f with
    | epoch stop => exact ⟨hstop.1, fun heq => ⟨threads, hstop.2 heq⟩⟩
    | uncertain reason =>
      obtain ⟨hleft, hkept⟩ := hstop
      dsimp only
      rw [Proc.wp_bind]
      refine wp_store (fun now o writer hmark => ?_) fun writer => ⟨hleft.sound.of_history rfl, nofun⟩
      obtain ⟨hkeep₁, hmarked⟩ := mark_uncertain (onDb_ok hmark).1
      refine hleft.next List.prefix_rfl (fun _ he => he) rfl hkeep₁ (hleft.sound.of_history rfl) fun e he => ?_
      refine .inr fun _ => .inr ?_
      show World.Uncertain _ _ e.threadId
      rw [show e.threadId = threadId from he]
      exact hmarked (hkept threadId (hfenced rfl))

/-- **The loop**, by induction on the threads that are left: none of them is open afterwards. -/
theorem wp_reconcileThreads : ∀ {rest : List String} {threads : Threads} {w : World},
    Inv endpointLabel threads (fun _ => False) w →
      (∀ t, threads.Open t → t ∈ rest) →
      (reconcileThreads endpointLabel epoch threads rest).wp
        (fun _ w' => ∃ threads', Inv endpointLabel threads' (fun _ => False) w' ∧ ∀ t, ¬threads'.Open t)
        (EpochStopOk endpointLabel) w
  | [], threads, w, h, hopen => ⟨threads, h, fun t ht => absurd (hopen t ht) List.not_mem_nil⟩
  | threadId :: rest, threads, w, h, hopen => by
    unfold reconcileThreads
    rw [Proc.wp_bind]
    refine (wp_reconcileOne h).mono (fun _ w₁ hinv => ?_) fun _ _ => id
    refine wp_reconcileThreads hinv fun t ht => ?_
    have hne : t ≠ threadId := by
      rintro rfl
      exact ht.2.2 List.mem_cons_self
    exact (List.mem_cons.1 (hopen t ⟨ht.1, ht.2.1, fun hr => ht.2.2 (List.mem_cons_of_mem _ hr)⟩)).resolve_left hne

/-- A listed thread comes with its state. -/
theorem managed_state {managed : List ExternalThreadSnapshot}
    (h : reading (externalManagedThreads · endpointLabel) now s = .ok (managed, s')) :
    s' = s ∧ ∀ snapshot ∈ managed, s.db.threadState (endpointLabel, snapshot.threadId) = some snapshot.state := by
  unfold reading at h
  split at h
  · next heq =>
    cases h
    refine ⟨rfl, fun snapshot hmem => ?_⟩
    unfold externalManagedThreads at heq
    dsimp only at heq
    split at heq
    · cases heq
    · obtain ⟨threadId, -, hread⟩ := Fallible.mem_mapM heq hmem
      obtain ⟨found, hfound, hsome⟩ := bind_eq_ok.1 hread
      cases found with
      | none => cases hsome
      | some found =>
        cases hsome
        unfold readSnapshot at hfound
        split at hfound
        · cases hfound
        · next r hlookup =>
          dsimp only at hfound
          split at hfound
          · cases hfound
          · cases hfound
            exact Option.map_eq_some_iff.2 ⟨r, hlookup, rfl⟩
  · cases h

/-- **The reconciliation of an epoch** from an empty history. -/
theorem wp_reconcileEpoch (endpointLabel : String) (epoch : ℕ) (hstart : w.history = []) :
    (reconcileEpoch endpointLabel epoch).wp
      (fun _ w' => ∃ threads, Inv endpointLabel threads (fun _ => False) w' ∧ ∀ t, ¬threads.Open t)
      (EpochStopOk endpointLabel) w := by
  have hsound : w.Sound := by
    intro t turns items live ha
    rw [hstart] at ha
    cases ha
  unfold reconcileEpoch
  rw [Proc.wp_bind]
  refine wp_store (fun now managed writer hread => ?_) fun writer => ⟨hsound.of_history rfl, nofun⟩
  obtain ⟨hdb, hstates⟩ := managed_state hread
  split
  · exact ⟨hsound.of_history rfl, nofun⟩
  rw [Proc.wp_bind, Proc.wp_modify]
  refine wp_reconcileThreads ⟨fun e he => ?_, fun t e he => ?_, fun t ht => ?_, hsound.of_history rfl⟩ fun t ht => ?_
  · rw [show World.history _ = w.history from rfl, hstart] at he
    cases he
  · cases he
  · obtain ⟨snapshot, hmem, rfl⟩ := List.mem_map.1 ht
    obtain ⟨hmanaged, hstate⟩ := List.mem_filter.1 hmem
    have := hstates snapshot hmanaged
    rw [of_decide_eq_true hstate, ← hdb] at this
    exact this
  · obtain ⟨hmanaged, huncertain, -⟩ := ht
    obtain ⟨snapshot, hmem, rfl⟩ := List.mem_map.1 hmanaged
    refine List.mem_map.2 ⟨snapshot, List.mem_filter.2 ⟨hmem, decide_eq_true fun hstate => huncertain ?_⟩, rfl⟩
    exact List.mem_map.2 ⟨snapshot, List.mem_filter.2 ⟨hmem, decide_eq_true hstate⟩, rfl⟩

/-! ## The live loop -/

/-- Nothing waits in a mailbox any more. -/
abbrev Settled (endpointLabel : String) (w : World) : Prop := Inv endpointLabel ⟨[], [], []⟩ (fun _ => False) w

section

variable (h : Inv endpointLabel threads (fun _ => False) w)
include h

theorem Inv.settled (hopen : ∀ t, ¬threads.Open t) :
    Settled endpointLabel w := by
  refine ⟨fun e he ht hs => ?_, h.boxed, nofun, h.sound⟩
  rcases h.delivered e he ht hs with hwr | hu | ⟨ho, -⟩
  · exact .inl hwr
  · exact .inr (.inl hu)
  · exact absurd ho (hopen _)

/-- A call whose outcome nobody reads. -/
theorem Inv.storeIgnored {α : Type} {job : ℤ → Job ExternalDb α} (hjob : ∀ now a db db', job now db = .ok (a, db') → KeepsUncertain db db') :
    Inv endpointLabel threads (fun _ => False) (storeIgnored check (onDb job) w) := by
  refine h.next List.prefix_rfl (fun _ he => he) rfl ?_ (h.sound.of_history rfl) (by simp)
  show KeepsUncertain w.db (w.writer.call check (w.asks w.asked).fate (onDb job (w.asks w.asked).now)).2.db.db
  rcases call_db w.writer check (w.asks w.asked).fate (onDb job (w.asks w.asked).now) with heq | ⟨a, -, hrun⟩
  · rw [heq]
    exact fun _ hu => hu
  · exact hjob _ _ _ _ (onDb_ok hrun).1

theorem Inv.setEndpointState {state : ExternalEndpointState} :
    Inv endpointLabel threads (fun _ => False) (setEndpointState endpointLabel epoch state w) :=
  h.storeIgnored fun _ _ _ _ => state_keeps

theorem Inv.markUnavailable :
    Inv endpointLabel threads (fun _ => False) (markUnavailable endpointLabel epoch reason w) :=
  h.storeIgnored fun _ _ _ _ => unavailable_keeps

end

theorem World.Sound.markUnavailable (h : w.Sound) :
    (markUnavailable endpointLabel epoch reason w).Sound :=
  h.of_history rfl

/-- An event of the live loop. -/
theorem wp_liveEvent (epoch : ℕ) (event : ExternalReadEvent) (h : Settled endpointLabel w) :
    (do received event; applyLiveEvent endpointLabel epoch event : Proc World EpochStop Unit).wp
      (fun _ w' => Settled endpointLabel w') (fun _ w' => w'.Sound) w := by
  rw [Proc.wp_bind]
  cases event with
  | accountRateLimitsUpdated => exact h.sound
  | remoteControlStatusChanged => exact h
  | closed exit => exact h.sound
  | thread e =>
    exact (wp_applyLiveEvent (h.receive e) (List.mem_append_right _ (List.mem_singleton_self _))).mono
      (fun _ _ hkept => hkept.inv) fun _ _ hstop => hstop.1

/-- What holds of the end of a run. -/
structure EndOk (endpointLabel : String) (result : EpochResult × World) : Prop where
  sound : result.2.Sound
  delivered : (∀ reason, result.1 ≠ .failed reason) → ∀ e, .received e ∈ result.2.history → e.Terminal →
    result.2.Written e ∨ result.2.Uncertain endpointLabel e.threadId ∨ result.1 = .reconciling ∧ result.2.Waiting e

theorem Inv.endOk {result : EpochResult} (h : Settled endpointLabel w) : EndOk endpointLabel (result, w) := by
  refine ⟨h.sound, fun _ e he ht => ?_⟩
  rcases h.delivered e he ht id with hwr | hu | ⟨hopen, -⟩
  · exact .inl hwr
  · exact .inr (.inl hu)
  · exact absurd hopen.1 List.not_mem_nil

theorem World.Sound.endOk (h : w.Sound) : EndOk endpointLabel (.failed reason, w) :=
  ⟨h, fun hne => absurd rfl (hne reason)⟩

/-- **The live loop**, by induction on the inputs. -/
theorem liveLoop_endOk : ∀ {inputs : List Input} {w : World}, Settled endpointLabel w →
    EndOk endpointLabel (liveLoop endpointLabel epoch inputs w)
  | [], w, h => h.endOk
  | input :: inputs, w, h => by
    have hnext : Settled endpointLabel { w with inputs := inputs } := h.of_inputs
    unfold liveLoop
    dsimp only
    split
    · exact hnext.endOk
    · exact hnext.endOk
    · exact hnext.endOk
    · exact hnext.endOk
    · exact hnext.markUnavailable.endOk
    · exact hnext.sound.markUnavailable.endOk
    · exact hnext.sound.markUnavailable.endOk
    · exact hnext.sound.markUnavailable.endOk
    · next event _ =>
      have hevent := wp_liveEvent epoch event hnext
      unfold Proc.wp at hevent
      split
      · next heq =>
        rw [heq] at hevent
        exact liveLoop_endOk hevent
      · next heq =>
        rw [heq] at hevent
        exact hevent.markUnavailable.endOk
    · exact liveLoop_endOk hnext

/-! ## Runs -/

/-- The store and the inputs of a run. -/
def World.start (writer : Writer ProjectionDb) (asks : ℕ → Ask) (inputs : List Input) : World :=
  { writer := writer, asks := asks, asked := 0, inputs := inputs, mailboxes := {}, history := [] }

/-- **Every run** of the epoch. -/
theorem runEpoch_endOk (hstart : w.history = []) : EndOk endpointLabel (runEpoch endpointLabel epoch w) := by
  have hepoch := wp_reconcileEpoch endpointLabel epoch (w := setEndpointState endpointLabel epoch .reconciling w) hstart
  unfold Proc.wp at hepoch
  unfold runEpoch
  split
  · next heq =>
    rw [heq] at hepoch
    obtain ⟨threads, hinv, hopen⟩ := hepoch
    exact liveLoop_endOk (hinv.settled hopen).setEndpointState
  · next heq =>
    rw [heq] at hepoch
    exact hepoch.1.markUnavailable.endOk
  · next heq =>
    rw [heq] at hepoch
    obtain ⟨threads, hinv⟩ := hepoch.2 rfl
    refine ⟨hinv.sound, fun _ e he ht => ?_⟩
    rcases hinv.delivered e he ht id with hwr | hu | ⟨-, hwait⟩
    · exact .inl hwr
    · exact .inr (.inl hu)
    · exact .inr (.inr ⟨rfl, hwait⟩)

end LarkCodexBridge.External.Recovery
