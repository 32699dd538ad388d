import LarkCodexBridge.Runtime.ScopeTask

/-!
# One turn at a time

A scope actor sends `turn/start` for a thread of the bridge only when every earlier request for the thread is settled: by a
server error, by the completion of its turn, or because the epoch it was sent in is over. The actor enforces this on the one
way out of a turn with an unknown result that ends with `wait_for_epoch_end`; where the finalization fails before, it goes on.

* `Settling`: at most the latest request is open, and then the actor is still with its turn, or has ended;
* `one_turn_at_a_time`: so it is in every run in which such a finalization fails only when nothing is left to wait for.
-/

namespace LarkCodexBridge.Runtime

open Limits Lark Store StepSystem

/-- The turn whose request may be open: it is starting, runs, or is finalized without its result. -/
def ActorPc.openTurn : ActorPc → Option TurnTask
  | .starting t | .markRunning t _ | .running t | .finalizing t _ true | .resolving t _ true | .epochEnd t => some t
  | _ => none

namespace SentTurn

variable {access : SupervisorAccess} {r : SentTurn}

@[simp] theorem closeEnded_epoch : (r.closeEnded access).epoch = r.epoch := by
  unfold closeEnded
  split <;> rfl

theorem closeEnded_settled (h : r.settled = true) : (r.closeEnded access).settled = true := by
  unfold closeEnded
  split
  · exact h
  · rfl

theorem open_of_closeEnded (h : (r.closeEnded access).settled = false) :
    r.settled = false ∧ access.client = true ∧ access.epoch = r.epoch := by
  unfold closeEnded at h
  split at h
  · next hepoch => exact ⟨h, hepoch⟩
  · cases h

end SentTurn

namespace ScopeTask

variable {tenant : TenantNamespace}

/-! ## The condition -/

def EpochOver (s : ScopeTask) (epoch : ℕ) : Prop := s.supervisor.epoch ≠ epoch ∨ s.supervisor.client = false

/-- There is nothing to wait for after the turn: it is not the bridge's, its epoch is over, or the actor shuts down. -/
def NothingToAwait (s : ScopeTask) (t : TurnTask) : Prop :=
  t.adopted = true ∨ s.actor.cancelled = true ∨ s.EpochOver t.epoch

instance (s : ScopeTask) (t : TurnTask) : Decidable (s.NothingToAwait t) :=
  inferInstanceAs (Decidable (_ ∨ _ ∨ _ ∨ _))

/-- The turn with an unknown result whose finalization fails in this step: at the sink, in the store, or because the
supervisor is gone before the epoch is over. -/
def failedFinalization (s : ScopeTask) (env : Env) : Option TurnTask :=
  match s.actor.pc, s.actor.answer, env.answer with
  | .finalizing t _ true, _, .finalized (some _) => some t
  | .resolving t _ true, some (.error _), _ => some t
  | .epochEnd t, _, .closed => some t
  | _, _, _ => none

/-- Such a finalization fails only when there is nothing to wait for. -/
def FailsLate (s : ScopeTask) : TaskEvent → Prop
  | .go env => ∀ t ∈ s.failedFinalization env, s.NothingToAwait t
  | .route _ | .store _ | .supervise _ | .configure _ | .cancel => True

instance (s : ScopeTask) : ∀ e, Decidable (s.FailsLate e)
  | .go env => inferInstanceAs (Decidable (∀ t ∈ s.failedFinalization env, _))
  | .route _ | .store _ | .supervise _ | .configure _ | .cancel => isTrue trivial

/-! ## The invariant -/

/-- At most the latest request is open, and then the actor is still with its turn, or has ended. -/
structure Settling (pc : ActorPc) (sent : List SentTurn) : Prop where
  earlier : ∀ r ∈ sent.tail, r.settled = true
  latest : ∀ r ∈ sent.head?, r.settled = false →
    pc = .ended ∨ ∃ t, pc.openTurn = some t ∧ t.adopted = false ∧ r.epoch = t.epoch

namespace Settling

variable {pc pc' : ActorPc} {sent : List SentTurn}

theorem of_settled (h : ∀ r ∈ sent, r.settled = true) : Settling pc sent := by
  refine ⟨fun r hr => h r (List.mem_of_mem_tail hr), fun r hr hopen => ?_⟩
  rw [h r (List.mem_of_mem_head? hr)] at hopen
  cases hopen

theorem settled (h : Settling pc sent) (hended : pc ≠ .ended) (hopen : pc.openTurn = none) :
    ∀ r ∈ sent, r.settled = true := by
  obtain ⟨hearlier, hlatest⟩ := h
  cases sent with
  | nil => exact fun r hr => absurd hr List.not_mem_nil
  | cons last rest =>
    refine List.forall_mem_cons.2 ⟨?_, hearlier⟩
    by_contra hne
    rcases hlatest last rfl (Bool.eq_false_iff.2 hne) with hpc | ⟨t, ht, -⟩
    · exact hended hpc
    · rw [hopen] at ht
      cases ht

/-- Requests whose epochs are over are settled, so the others have to be accounted for only. -/
theorem closeEnded {access : SupervisorAccess} (hearlier : ∀ r ∈ sent.tail, r.settled = true)
    (hlatest : ∀ r ∈ sent.head?, r.settled = false → access.client = true → access.epoch = r.epoch →
      pc = .ended ∨ ∃ t, pc.openTurn = some t ∧ t.adopted = false ∧ r.epoch = t.epoch) :
    Settling pc (sent.map (·.closeEnded access)) := by
  cases sent with
  | nil => exact of_settled fun r hr => absurd hr List.not_mem_nil
  | cons last rest =>
    constructor
    · intro r hr
      obtain ⟨r', hr', rfl⟩ := List.mem_map.1 hr
      exact SentTurn.closeEnded_settled (hearlier r' hr')
    · intro r hr hopen
      obtain rfl : last.closeEnded access = r := Option.some.inj hr
      obtain ⟨hlast, hclient, hepoch⟩ := SentTurn.open_of_closeEnded hopen
      rw [SentTurn.closeEnded_epoch]
      exact hlatest last rfl hlast hclient hepoch

theorem closeEnded_settled {access : SupervisorAccess} (h : ∀ r ∈ sent, r.settled = true) :
    Settling pc (sent.map (·.closeEnded access)) := by
  refine of_settled fun r hr => ?_
  obtain ⟨r', hr', rfl⟩ := List.mem_map.1 hr
  exact SentTurn.closeEnded_settled (h r' hr')

end Settling

variable {sent : List SentTurn}

theorem settleLatest_settled (h : ∀ r ∈ sent.tail, r.settled = true) :
    ∀ r ∈ settleLatest sent, r.settled = true := by
  cases sent with
  | nil => exact fun r hr => absurd hr List.not_mem_nil
  | cons last rest => exact List.forall_mem_cons.2 ⟨rfl, h⟩

theorem tail_settleLatest : ∀ sent : List SentTurn, (settleLatest sent).tail = sent.tail
  | [] | _ :: _ => rfl

variable {pc pc' : ActorPc} {thread : Option String}

/-- Only an assembled turn adds a request. -/
theorem sentAfter_cases (hpc : ∀ t, pc ≠ .assembling t) :
    sentAfter pc pc' thread sent = sent ∨ sentAfter pc pc' thread sent = settleLatest sent := by
  unfold sentAfter
  split
  · next t _ => exact absurd rfl (hpc t)
  · split
    · exact .inl rfl
    · exact .inr rfl
  · split
    · exact .inl rfl
    · exact .inr rfl
  · exact .inl rfl

theorem sentAfter_settled (hpc : ∀ t, pc ≠ .assembling t) (h : ∀ r ∈ sent, r.settled = true) :
    ∀ r ∈ sentAfter pc pc' thread sent, r.settled = true := by
  have hcases : sentAfter pc pc' thread sent = sent ∨ sentAfter pc pc' thread sent = settleLatest sent :=
    sentAfter_cases hpc
  rcases hcases with heq | heq
  · rwa [heq]
  · rw [heq]
    exact settleLatest_settled fun r hr => h r (List.mem_of_mem_tail hr)

theorem sentAfter_tail (hpc : ∀ t, pc ≠ .assembling t) :
    (sentAfter pc pc' thread sent).tail = sent.tail := by
  have hcases : sentAfter pc pc' thread sent = sent ∨ sentAfter pc pc' thread sent = settleLatest sent :=
    sentAfter_cases hpc
  rcases hcases with h | h
  · rw [h]
  · rw [h, tail_settleLatest]

variable {t : TurnTask} {x : Ctx} {state : ScopeState} {batch : List TurnInbound} {dropped : List ActorInbound}
  {log : List LogEntry}

theorem sentAfter_known {t' : TurnTask} {resolution : TurnResolution} (hpc : pc = .starting t ∨ pc = .running t)
    (hadopted : t.adopted = false) :
    sentAfter pc (.finalizing t' resolution false) thread sent = settleLatest sent := by
  rcases hpc with rfl | rfl
  · simp [sentAfter, hadopted]
  · simp [sentAfter, hadopted]

theorem sentAfter_assembling (h : pc'.openTurn = none) : sentAfter (.assembling t) pc' thread sent = sent := by
  cases pc' with
  | starting t' => cases h
  | _ => rfl

theorem open_of_sentAfter {r : SentTurn} (hpc : ∀ t, pc ≠ .assembling t) (hr : r ∈ (sentAfter pc pc' thread sent).head?)
    (hopen : r.settled = false) :
    r ∈ sent.head? := by
  have hcases : sentAfter pc pc' thread sent = sent ∨ sentAfter pc pc' thread sent = settleLatest sent :=
    sentAfter_cases hpc
  rcases hcases with h | h
  · rwa [h] at hr
  · rw [h] at hr
    cases sent with
    | nil => cases hr
    | cons last rest =>
      obtain rfl := Option.some.inj hr
      cases hopen

/-! ## Steps of a turn -/

theorem leaveBatch_pc {a : Actor} (h : a.cancelled = true) :
    (a.leaveBatch x state batch dropped log).actor.pc = .ended := by
  unfold Actor.leaveBatch
  dsimp only
  rw [if_pos h]
  rfl

/-- How a step leaves a turn whose request may be open. -/
inductive Leaves (s : ScopeTask) (t : TurnTask) (pc' : ActorPc) : Prop where
  | ended (h : pc' = .ended)
  /-- The actor is still with the turn. -/
  | still (t' : TurnTask) (h : pc'.openTurn = some t') (hadopted : t'.adopted = t.adopted) (hepoch : t'.epoch = t.epoch)
  /-- The result is known. -/
  | known (t' : TurnTask) (resolution : TurnResolution) (h : pc' = .finalizing t' resolution false)
      (hpc : s.actor.pc = .starting t ∨ s.actor.pc = .running t)
  | adopted (h : t.adopted = true)
  | epochOver (h : s.EpochOver t.epoch)

variable {s : ScopeTask}

/-- An actor that leaves its batch after the finalization failed. -/
theorem NothingToAwait.leaves (h : s.NothingToAwait t) :
    s.Leaves t (s.actor.leaveBatch x state batch dropped log).actor.pc := by
  rcases h with hadopted | hcancelled | hover
  · exact .adopted hadopted
  · exact .ended (leaveBatch_pc hcancelled)
  · exact .epochOver hover

variable {env : Env}

/-- One step of a turn whose request may be open. -/
theorem go_leaves (hpc : s.actor.pc = pc) (hopen : pc.openTurn = some t) (hlate : s.FailsLate (.go env)) :
    s.Leaves t (s.go tenant env).actor.pc := by
  have hstay : s.Leaves t s.actor.pc := .still t (by rw [hpc, hopen]) rfl rfl
  unfold go
  dsimp only
  unfold Actor.run
  rw [hpc]
  cases pc with
  | starting t' =>
    obtain rfl := Option.some.inj hopen
    simp only [ActorPc.op]
    split
    · exact hstay
    · simp only [Actor.awaited, hpc, Actor.onStarting]
      split
      · exact .still t'.commitPendingMedia rfl rfl rfl
      · exact .known t' _ rfl (.inl hpc)
      · exact .still t'.commitPendingMedia rfl rfl rfl
      · exact .still t'.commitPendingMedia rfl rfl rfl
      · exact hstay
  | markRunning t' turnId =>
    obtain rfl := Option.some.inj hopen
    simp only [ActorPc.op]
    cases s.actor.answer with
    | none => exact hstay
    | some r =>
      simp only [Actor.answered, hpc]
      split
      · exact .still t' rfl rfl rfl
      · exact .still t' rfl rfl rfl
  | running t' =>
    obtain rfl := Option.some.inj hopen
    simp only [ActorPc.op]
    split
    · exact hstay
    · simp only [Actor.awaited, hpc, Actor.onRunning]
      split
      · next resolution _ =>
        cases resolution with
        | none => exact .still t' rfl rfl rfl
        | some resolution => exact .known t' resolution rfl (.inr hpc)
      · exact .still t' rfl rfl rfl
      · exact hstay
  | finalizing t' resolution waits =>
    cases waits with
    | false => cases hopen
    | true =>
      obtain rfl := Option.some.inj hopen
      simp only [ActorPc.op]
      split
      · exact hstay
      · simp only [Actor.awaited, hpc, Actor.onFinalizing]
        split
        · exact .still t' rfl rfl rfl
        · next heq => exact (hlate t' (by rw [failedFinalization, hpc, heq]; rfl)).leaves
        · exact hstay
  | resolving t' resolution waits =>
    cases waits with
    | false => cases hopen
    | true =>
      obtain rfl := Option.some.inj hopen
      simp only [ActorPc.op]
      cases hanswer : s.actor.answer with
      | none => exact hstay
      | some r =>
        simp only [Actor.answered, hpc]
        cases r with
        | ok reply =>
          simp only [Except.isOk, Except.toBool, ↓reduceIte, Actor.resolved]
          split
          · next hadopted => exact .adopted hadopted
          · exact .still t' rfl rfl rfl
        | error error => exact (hlate t' (by rw [failedFinalization, hpc, hanswer]; rfl)).leaves
  | epochEnd t' =>
    obtain rfl := Option.some.inj hopen
    simp only [ActorPc.op]
    split
    · exact hstay
    · next hblocked =>
      simp only [Actor.awaited, hpc, Actor.onEpochEnd]
      split
      · next hover => exact .epochOver hover
      · split
        · next heq =>
          -- only an actor that shuts down sees the token
          refine .ended (leaveBatch_pc ?_)
          simpa [Actor.blocked, heq] using hblocked
        · next heq => exact (hlate t' (by rw [failedFinalization, hpc, heq]; rfl)).leaves
        · exact hstay
  | _ => cases hopen

theorem go_assembling (hpc : s.actor.pc = .assembling t) :
    (s.go tenant env).actor.pc = .starting t ∨ (s.go tenant env).actor.pc.openTurn = none := by
  have hstay : s.actor.pc.openTurn = none := by
    rw [hpc]
    rfl
  unfold go
  dsimp only
  unfold Actor.run
  rw [hpc]
  simp only [ActorPc.op]
  split
  · exact .inr hstay
  · simp only [Actor.awaited, hpc, Actor.onAssembling]
    split
    · exact .inl rfl
    · exact .inr rfl
    · exact .inr hstay

theorem go_ended (hpc : s.actor.pc = .ended) : (s.go tenant env).actor.pc = .ended := by
  unfold go
  dsimp only
  unfold Actor.run
  rw [hpc]
  simp only [ActorPc.op]
  split
  · exact hpc
  · simp only [Actor.awaited, hpc]
    exact hpc

/-! ## Runs -/

/-- The actor and its requests. -/
def Settled (s : ScopeTask) : Prop := Settling s.actor.pc s.sent

/-- What follows a turn whose request may be open. -/
theorem Settled.leaves (h : s.Settled) (hopen : s.actor.pc.openTurn = some t) (hleaves : s.Leaves t pc') :
    Settling pc' ((sentAfter s.actor.pc pc' s.thread s.sent).map (·.closeEnded s.supervisor)) := by
  have hpc : ∀ t', s.actor.pc ≠ .assembling t' := by
    intro t' heq
    rw [heq] at hopen
    cases hopen
  refine Settling.closeEnded (fun r hr => h.earlier r (by rwa [sentAfter_tail hpc] at hr)) fun r hr hr' hclient hepoch => ?_
  -- an open request is that of `t`
  rcases h.latest r (open_of_sentAfter hpc hr hr') hr' with hended | ⟨t', ht', hadopted, hre⟩
  · rw [hended] at hopen
    cases hopen
  obtain rfl : t = t' := Option.some.inj (hopen.symm.trans ht')
  rcases hleaves with hended | ⟨t', ht', ha, he⟩ | ⟨t', resolution, hknown, hfrom⟩ | hadopted' | hover
  · exact .inl hended
  · exact .inr ⟨t', ht', ha.trans hadopted, hre.trans he.symm⟩
  · rw [hknown, sentAfter_known hfrom hadopted] at hr
    rw [settleLatest_settled h.earlier r (List.mem_of_mem_head? hr)] at hr'
    cases hr'
  · rw [hadopted] at hadopted'
    cases hadopted'
  · rcases hover with hne | hclient'
    · exact absurd (hepoch.trans hre) hne
    · rw [hclient] at hclient'
      cases hclient'

theorem Settling.assembled {access : SupervisorAccess} (h : ∀ r ∈ sent, r.settled = true)
    (hpc' : pc' = .starting t ∨ pc'.openTurn = none) :
    Settling pc' ((sentAfter (.assembling t) pc' thread sent).map (·.closeEnded access)) := by
  rcases hpc' with rfl | hnone
  · unfold sentAfter
    dsimp only
    split
    · exact Settling.closeEnded_settled h
    · next hadopted =>
      refine Settling.closeEnded h fun r hr _ _ _ => ?_
      obtain rfl := Option.some.inj hr
      exact .inr ⟨t, rfl, Bool.eq_false_iff.2 hadopted, rfl⟩
  · rw [sentAfter_assembling hnone]
    exact Settling.closeEnded_settled h

/-- A step of the actor keeps it. -/
theorem Settled.go (h : s.Settled) (hlate : s.FailsLate (.go env)) :
    (s.go tenant env).Settled := by
  cases hopen : s.actor.pc.openTurn with
  | some t => exact h.leaves hopen (go_leaves rfl hopen hlate)
  | none =>
    by_cases hended : s.actor.pc = .ended
    · have hpc : ∀ t, s.actor.pc ≠ .assembling t := by
        intro t heq
        rw [hended] at heq
        cases heq
      exact Settling.closeEnded (fun r hr => h.earlier r (by rwa [sentAfter_tail hpc] at hr)) fun _ _ _ _ _ =>
        .inl (go_ended hended)
    · have hall : ∀ r ∈ s.sent, r.settled = true := Settling.settled h hended hopen
      by_cases hassembling : ∃ t, s.actor.pc = .assembling t
      · obtain ⟨t, hpc⟩ := hassembling
        have hassembled : Settling (s.go tenant env).actor.pc
            ((sentAfter (.assembling t) (s.go tenant env).actor.pc s.thread s.sent).map (·.closeEnded s.supervisor)) :=
          Settling.assembled hall (go_assembling hpc)
        rw [← hpc] at hassembled
        exact hassembled
      · exact Settling.closeEnded_settled (sentAfter_settled (fun t heq => hassembling ⟨t, heq⟩) hall)

theorem Settled.step (h : s.Settled) (e : TaskEvent) (hlate : s.FailsLate e) :
    (s.step tenant e).Settled := by
  cases e with
  | route command | store reply =>
    unfold ScopeTask.step
    dsimp only
    split
    · exact h
    · exact h
  | go env => exact h.go hlate
  | supervise access => exact Settling.closeEnded h.earlier fun r hr hr' _ _ => h.latest r hr hr'
  | configure live => exact h
  | cancel => exact h

/-- If a step sends a request, then the earlier requests for the thread are settled. -/
def OneTurnAtATime (tenant : TenantNamespace) (s : ScopeTask) (e : TaskEvent) : Prop :=
  s.sent.length < (s.step tenant e).sent.length → ∀ r ∈ s.sent, r.thread = s.thread → r.settled = true

instance (s : ScopeTask) (e : TaskEvent) : Decidable (OneTurnAtATime tenant s e) :=
  inferInstanceAs (Decidable (_ → _))

theorem settleLatest_length : ∀ sent : List SentTurn, (settleLatest sent).length = sent.length
  | [] | _ :: _ => rfl

theorem assembling_of_sends {e : TaskEvent} (h : s.sent.length < (s.step tenant e).sent.length) :
    ∃ t, s.actor.pc = .assembling t := by
  by_contra hne
  have hpc : ∀ t, s.actor.pc ≠ .assembling t := fun t heq => hne ⟨t, heq⟩
  refine absurd h (not_lt_of_ge (le_of_eq ?_))
  cases e with
  | go env =>
    change (List.map _ (sentAfter s.actor.pc (s.go tenant env).actor.pc s.thread s.sent)).length = s.sent.length
    have hcases : sentAfter s.actor.pc (s.go tenant env).actor.pc s.thread s.sent = s.sent ∨
        sentAfter s.actor.pc (s.go tenant env).actor.pc s.thread s.sent = settleLatest s.sent := sentAfter_cases hpc
    rw [List.length_map]
    rcases hcases with hsent | hsent
    · rw [hsent]
    · rw [hsent, settleLatest_length]
  | route command | store reply =>
    unfold ScopeTask.step
    dsimp only
    split <;> rfl
  | supervise access => exact List.length_map _
  | configure live => rfl
  | cancel => rfl

theorem Settled.oneTurnAtATime (h : s.Settled) (e : TaskEvent) : OneTurnAtATime tenant s e := by
  intro hsends r hr _
  obtain ⟨t, hpc⟩ := assembling_of_sends hsends
  refine Settling.settled h ?_ ?_ r hr
  · rw [hpc]
    nofun
  · rw [hpc]
    rfl

/-- **One turn at a time per thread**, in every run in which the finalization of a turn with an unknown result fails only
when there is nothing to wait for. -/
theorem one_turn_at_a_time (tenant : TenantNamespace) (scope : ScopeKey) (live : Live) (supervisor : SupervisorAccess)
    (es : List TaskEvent) (hlate : Along (step tenant) FailsLate (spawn scope live supervisor) es) :
    Along (step tenant) (OneTurnAtATime tenant) (spawn scope live supervisor) es :=
  along_of_invariant (fun _ e (h : Settled _) hlate => h.step e hlate) (fun _ e h _ => h.oneTurnAtATime e)
    (Settling.of_settled nofun) hlate

/-! ### Two turns in one epoch -/

/-- The next message gets as far as the first one in `assembledRun`. -/
def secondRun : List TaskEvent :=
  [goes .next, goes .next, .route (.inbound ⟨directMessage "evt_2" "om_2" "oc_1" "ou_1" "again", 0⟩)] ++
  [.message, .timer, .adoption (some none), .mapping (some none), .next, .permit, .mapping (some none),
    .workspace (.ok false), .next, .thread (.ok "thread_1"), .subscribed (.ok "client_2")].map (goes ·) ++
  [.store (.ok (.begun (.started 2 [⟨⟨sampleTenant, "evt_2"⟩, ⟨directMessage "evt_2" "om_2" "oc_1" "ou_1" "again", 1⟩⟩] []))),
    goes .next, goes (.assembled true)]

/-- The first turn completes. -/
def completedRun : List TaskEvent :=
  runningRun ++ [goes (.turnEnded (some .completed)), goes (.finalized none), .store (.ok .done), goes .next,
    goes (.released true)] ++ secondRun

theorem one_turn_at_a_time_completedRun :
    Along (step sampleTenant) (OneTurnAtATime sampleTenant) (spawn (.chat "oc_1") ⟨[], sampleInner⟩ ⟨1, true, false⟩)
      completedRun :=
  one_turn_at_a_time sampleTenant (.chat "oc_1") ⟨[], sampleInner⟩ ⟨1, true, false⟩ completedRun (by decide)

/-- `turn/start` is answered, but the store fails to record the running turn and then to resolve it. -/
def unrecordedRun : List TaskEvent :=
  assembledRun ++ [goes (.assembled true), goes (.start (.started "turn_1" true)), .store (.error .queueFull), goes .next,
    goes (.finalized none), .store (.error .queueFull), goes .next] ++ secondRun

/-- **A second writer**: the turn of the first request runs, its epoch is not over, and `turn/start` is sent for the same
thread again. -/
theorem second_turn_started :
    ¬Along (step sampleTenant) (OneTurnAtATime sampleTenant) (spawn (.chat "oc_1") ⟨[], sampleInner⟩ ⟨1, true, false⟩)
        unrecordedRun ∧
      (scopeTaskAfter unrecordedRun).sent = [⟨some "thread_1", 1, false⟩, ⟨some "thread_1", 1, false⟩] := by
  constructor <;> decide

end ScopeTask

end LarkCodexBridge.Runtime
