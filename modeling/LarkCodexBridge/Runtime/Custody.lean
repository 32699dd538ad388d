import LarkCodexBridge.Runtime.ActorSteps
import LarkCodexBridge.Runtime.System

/-!
# Who holds a message

Every copy of a message that a task of the bridge holds has a stage (`Stage`): whether its row is still to be settled, and
whether an effect (a command that runs, media that are staged) may still come of it. `Accounts` relates what was held
before a step to what is held after it, dropped, and put into effect: nothing that owes a settled row disappears, and no
copy is made.

* `Actor.run_keeps`: a step of an actor accounts for what it held;
* `Bridge.routerStep_keeps`, `Bridge.actorStep_keeps`: so do the router and the bridge.
-/

namespace LarkCodexBridge.Runtime

open Limits Lark Store Outbox SqlTable StepSystem

/-! ## Stages -/

/-- How far a copy of a message has come. -/
inductive Stage where
  /-- Handed out by the store and not queued yet. -/
  | handed
  /-- On its way: its row is to be settled, and an effect may come. -/
  | waits
  /-- In a batch or about to be rejected: its row is to be settled, and no effect comes. -/
  | bound
  /-- A command that was let through: its row is to be settled. -/
  | ran
  /-- Media whose row is completed and that are to be staged. -/
  | staging
  deriving DecidableEq

/-- Its row is to be settled. -/
def Stage.owes : Stage → Bool
  | .waits | .bound | .ran => true
  | .handed | .staging => false

abbrev Held := InboundEvent × Stage

/-- A way to count copies: those of which an effect may come, and none of which it came. -/
structure Counting (q : Stage → Bool) : Prop where
  handed : q .handed = true
  waits : q .waits = true
  ran : q .ran = false
  staging : q .staging = true

/-- The number of copies that `q` counts, of the events that `p` chooses. -/
def weigh (q : Stage → Bool) (p : InboundEvent → Bool) (hs : List Held) : ℕ := hs.countP fun h => q h.2 && p h.1

section

variable {q : Stage → Bool} {p : InboundEvent → Bool} {hs hs' : List Held}

@[simp] theorem weigh_nil : weigh q p [] = 0 := rfl

@[simp] theorem weigh_append (hs hs' : List Held) : weigh q p (hs ++ hs') = weigh q p hs + weigh q p hs' :=
  List.countP_append

@[simp] theorem weigh_cons (h : Held) (hs : List Held) : weigh q p (h :: hs) = weigh q p hs + if q h.2 && p h.1 then 1 else 0 :=
  List.countP_cons

theorem weigh_perm (h : hs.Perm hs') : weigh q p hs = weigh q p hs' := h.countP_eq _

theorem weigh_le (h : hs.Sublist hs') : weigh q p hs ≤ weigh q p hs' := h.countP_le

end

/-- What was held before is held after, or dropped, or its row is settled, and no copy is made. -/
structure Accounts (before after : List Held) (dropped effects : List InboundEvent) : Prop where
  owed : ∀ h ∈ before, h.2.owes = true →
    (∃ h' ∈ after, h'.2.owes = true ∧ h'.1.eventId = h.1.eventId) ∨ ∃ event ∈ dropped, event.eventId = h.1.eventId
  counted : ∀ q, Counting q → ∀ p, weigh q p after + effects.countP p ≤ weigh q p before

namespace Accounts

variable {b b' a a' : List Held} {d d' e e' : List InboundEvent} {event : InboundEvent}

theorem refl (hs : List Held) : Accounts hs hs [] [] := ⟨fun h hh ho => .inl ⟨h, hh, ho, rfl⟩, fun _ _ _ => by simp⟩

theorem append (h : Accounts b a d e) (h' : Accounts b' a' d' e') : Accounts (b ++ b') (a ++ a') (d ++ d') (e ++ e') where
  owed := by
    intro x hx ho
    rcases List.mem_append.1 hx with hx | hx
    · refine (h.owed x hx ho).imp ?_ ?_
      · exact fun ⟨y, hy, hyo⟩ => ⟨y, List.mem_append_left _ hy, hyo⟩
      · exact fun ⟨y, hy, hyo⟩ => ⟨y, List.mem_append_left _ hy, hyo⟩
    · refine (h'.owed x hx ho).imp ?_ ?_
      · exact fun ⟨y, hy, hyo⟩ => ⟨y, List.mem_append_right _ hy, hyo⟩
      · exact fun ⟨y, hy, hyo⟩ => ⟨y, List.mem_append_right _ hy, hyo⟩
  counted := by
    intro q hq p
    have h₁ := h.counted q hq p
    have h₂ := h'.counted q hq p
    rw [weigh_append, weigh_append, List.countP_append]
    omega

theorem perm (h : Accounts b a d e) (hb : b.Perm b') (ha : a.Perm a') : Accounts b' a' d e where
  owed := by
    intro x hx ho
    refine (h.owed x (hb.mem_iff.2 hx) ho).imp_left ?_
    exact fun ⟨y, hy, hyo⟩ => ⟨y, ha.mem_iff.1 hy, hyo⟩
  counted := by
    intro q hq p
    rw [← weigh_perm hb, ← weigh_perm ha]
    exact h.counted q hq p

theorem trans {m : List Held} (h : Accounts b m [] []) (h' : Accounts m a d e) : Accounts b a d e where
  owed := by
    intro x hx ho
    rcases h.owed x hx ho with ⟨y, hy, hyo, hid⟩ | ⟨_, hmem, -⟩
    · rw [← hid]
      exact h'.owed y hy hyo
    · cases hmem
  counted := by
    intro q hq p
    have h₁ := h.counted q hq p
    have h₂ := h'.counted q hq p
    simp only [List.countP_nil] at h₁
    omega

/-- What owes nothing or is dropped may go. -/
theorem of_dropped {hs : List Held} (h : ∀ x ∈ hs, x.2.owes = true → x.1 ∈ d) : Accounts hs [] d [] :=
  ⟨fun x hx ho => .inr ⟨x.1, h x hx ho, rfl⟩, fun _ _ _ => by simp⟩

theorem queue : Accounts [(event, .handed)] [(event, .waits)] [] [] where
  owed := by
    intro x hx ho
    rw [List.mem_singleton.1 hx] at ho
    cases ho
  counted := by
    intro q hq p
    simp [hq.handed, hq.waits]

/-- A message joins a batch, or is about to be rejected. -/
theorem bind : Accounts [(event, .waits)] [(event, .bound)] [] [] where
  owed := by
    intro x hx _
    rw [List.mem_singleton.1 hx]
    exact .inl ⟨_, List.mem_singleton_self _, rfl, rfl⟩
  counted := by
    intro q hq p
    simp only [weigh_cons, weigh_nil, hq.waits, List.countP_nil]
    cases q .bound <;> simp

theorem run (h : e = [] ∨ e = [event]) : Accounts [(event, .waits)] [(event, .ran)] [] e where
  owed := by
    intro x hx _
    rw [List.mem_singleton.1 hx]
    exact .inl ⟨_, List.mem_singleton_self _, rfl, rfl⟩
  counted := by
    intro q hq p
    simp only [weigh_cons, weigh_nil, hq.waits, hq.ran]
    rcases h with rfl | rfl
    · simp
    · simp [List.countP_cons]

theorem stage (h : e = [] ∨ e = [event]) : Accounts [(event, .staging)] [] [] e where
  owed := by
    intro x hx ho
    rw [List.mem_singleton.1 hx] at ho
    cases ho
  counted := by
    intro q hq p
    simp only [weigh_cons, weigh_nil, hq.staging]
    rcases h with rfl | rfl
    · simp
    · simp [List.countP_cons]

end Accounts

/-! ## Holders -/

/-- A collected batch. -/
def boundAll (batch : List TurnInbound) : List Held := batch.map fun item => (item.inbound.event, .bound)

@[simp] theorem boundAll_nil : boundAll [] = [] := rfl

@[simp] theorem boundAll_cons (item : TurnInbound) (batch : List TurnInbound) :
    boundAll (item :: batch) = (item.inbound.event, .bound) :: boundAll batch := rfl

@[simp] theorem boundAll_append (batch batch' : List TurnInbound) :
    boundAll (batch ++ batch') = boundAll batch ++ boundAll batch' := List.map_append

/-- The store has answered `Ok`. -/
def isSettled : Option (Except StoreError OpReply) → Bool
  | some (.ok _) => true
  | _ => false

/-- The message of a request, until its answer came. -/
def unlessSettled (settled : Bool) (h : Held) : List Held := if settled then [] else [h]

/-- What a task holds at its await. The messages of a turn that was begun are claimed. -/
def ActorPc.holds (settled : Bool) : ActorPc → List Held
  | .preparing _ batch item (.reject _ _) => boundAll (batch.getD []) ++ unlessSettled settled (item.event, .bound)
  | .preparing _ batch item .complete =>
    boundAll (batch.getD []) ++ [(item.event, if settled then .staging else .waits)]
  | .controlPolicy control | .controlSettings control _ => [(control.inbound.event, .waits)]
  | .controlRejecting control _ _ => unlessSettled settled (control.inbound.event, .bound)
  | .executing control | .replyPause control _ => [(control.inbound.event, .ran)]
  | .replying control _ => unlessSettled settled (control.inbound.event, .ran)
  | .screening _ _ item _ _ rest kept => unlessSettled settled (item.inbound.event, .bound) ++ boundAll rest ++ boundAll kept
  | .rejectingAll _ item _ rest => unlessSettled settled (item.inbound.event, .bound) ++ boundAll rest
  | .claiming _ batch _ _ _ => if settled then [] else boundAll batch
  | .debouncing _ batch | .readAdoption _ batch | .readMapping _ batch _ | .permitCheck _ batch _
  | .permitWait _ batch _ | .readThread _ batch _ | .workspace _ batch _ | .route _ batch | .waitClient _ batch
  | .ensureThread _ batch _ | .settling batch _ | .subscribing _ batch _ _ _ => boundAll batch
  | _ => []

def DeferredScopeWork.held : DeferredScopeWork → Held
  | .prepared item => (item.inbound.event, .bound)
  | .control c => (c.inbound.event, .waits)

/-- What waits outside the await: the mailbox, and what the round before left. -/
def Actor.rest (a : Actor) : List Held :=
  a.mailbox.map (fun command => (command.item.event, .waits)) ++ a.deferred.toList.map DeferredScopeWork.held

def Actor.holds (a : Actor) : List Held := a.rest ++ a.pc.holds (isSettled a.answer)

/-- The awaits at which a batch is collected. -/
def ActorPc.collects : ActorPc → Bool
  | .waiting _ | .debouncing _ _ | .preparing _ _ _ _ => true
  | _ => false

theorem ActorPc.of_batch {pc : ActorPc} {c : Option Copies} {batch : List TurnInbound} (h : pc.batch? = some (c, batch)) :
    (∀ settled, pc.holds settled = boundAll batch) ∧ pc ≠ .ended ∧ pc.collects = false := by
  cases pc <;> cases h <;> exact ⟨fun _ => rfl, nofun, rfl⟩

theorem ActorPc.holds_of_turn {pc : ActorPc} {t : TurnTask} (h : pc.turn? = some t) (settled : Bool) :
    pc.holds settled = [] := by
  cases pc <;> cases h <;> rfl

/-- Nothing is left over while a batch is collected, and nothing in an actor that ended. -/
structure Actor.WF (a : Actor) : Prop where
  collects : a.pc.collects = true → a.deferred = none
  ended : a.pc = .ended → a.deferred = none ∧ a.mailbox = []

/-- The event that an entry put into effect. -/
def LogEntry.effect : LogEntry → Option InboundEvent
  | .executed item _ | .staged item => some item.event
  | .decision _ _ _ | .started _ _ => none

def effects (log : List LogEntry) : List InboundEvent := log.filterMap LogEntry.effect

@[simp] theorem effects_nil : effects [] = [] := rfl

@[simp] theorem effects_append (log log' : List LogEntry) : effects (log ++ log') = effects log ++ effects log' :=
  List.filterMap_append

@[simp] theorem effects_decision (item : ActorInbound) (policy : AccessPolicy) (version : ℕ) :
    effects [.decision item policy version] = [] := rfl

/-- A step of an actor of this scope accounts for `b`. -/
structure Outcome.Keeps (o : Outcome) (scope : ScopeKey) (b : List Held) : Prop where
  scope : o.actor.scope = scope
  wf : o.actor.WF
  accounts : Accounts b o.actor.holds (o.dropped.map (·.event)) (effects o.log)

theorem Outcome.Keeps.perm {scope : ScopeKey} {b b' : List Held} {o : Outcome} (h : o.Keeps scope b) (hb : b.Perm b') :
    o.Keeps scope b' := ⟨h.scope, h.wf, h.accounts.perm hb (.refl _)⟩

/-! ## One step of an actor -/

namespace Actor

variable {x : Ctx} {a : Actor} {b : List Held} {log : List LogEntry} {c : Copies} {batch : List TurnInbound}

/-- The task goes on with what it holds. -/
theorem goto_keeps {pc : ActorPc} (h : Accounts b (pc.holds false) [] (effects log)) (hne : pc ≠ .ended)
    (hd : pc.collects = true → a.deferred = none) : (a.goto x pc log).Keeps a.scope (a.rest ++ b) :=
  ⟨rfl, ⟨hd, fun h => absurd h hne⟩, (Accounts.refl a.rest).append h⟩

theorem stay_keeps (h : a.WF) : (a.stay x).Keeps a.scope a.holds := ⟨rfl, h, .refl _⟩

variable {state : ScopeState} {dropped : List ActorInbound} {h : Held} {kind : ScopeFailureKind}
  {reason : InboundRejectionKind}

theorem again_keeps (hlog : effects log = []) (hb : ∀ h ∈ b, h.2.owes = true → h.1 ∈ dropped.map (·.event)) :
    (a.again x state log dropped).Keeps a.scope (a.rest ++ b) := by
  refine ⟨rfl, ⟨nofun, nofun⟩, ?_⟩
  show Accounts _ (a.rest ++ []) (dropped.map (·.event)) (effects log)
  rw [hlog]
  exact (Accounts.refl a.rest).append (.of_dropped hb)

/-- A task that ends drops what waits outside its await. -/
theorem rest_dropped : ∀ h ∈ a.rest, h.1 ∈ (a.deferred.toList.map (·.item) ++ a.mailbox.map (·.item)).map (·.event) := by
  intro h hh
  simp only [List.map_append, List.mem_append, List.map_map, List.mem_map, Function.comp]
  rcases List.mem_append.1 hh with hh | hh
  · obtain ⟨command, hc, rfl⟩ := List.mem_map.1 hh
    exact .inr ⟨command, hc, rfl⟩
  · obtain ⟨work, hw, rfl⟩ := List.mem_map.1 hh
    refine .inl ⟨work, hw, ?_⟩
    cases work <;> rfl

theorem stop_keeps (hlog : effects log = []) (hb : ∀ h ∈ b, h.2.owes = true → h.1 ∈ dropped.map (·.event)) :
    (a.stop x dropped log).Keeps a.scope (a.rest ++ b) := by
  refine ⟨rfl, ⟨nofun, fun _ => ⟨rfl, rfl⟩⟩, ?_⟩
  show Accounts _ [] _ (effects log)
  rw [hlog]
  refine .of_dropped fun h hh ho => ?_
  rw [stop, List.append_assoc, List.map_append]
  rcases List.mem_append.1 hh with hh | hh
  · exact List.mem_append_right _ (rest_dropped h hh)
  · exact List.mem_append_left _ (hb h hh ho)

theorem leaveBatch_keeps (hlog : effects log = []) (hb : ∀ h ∈ b, h.2.owes = true → h.1 ∈ dropped.map (·.event)) :
    (a.leaveBatch x state batch dropped log).Keeps a.scope (a.rest ++ b) := by
  unfold leaveBatch
  dsimp only
  split
  · exact stop_keeps hlog hb
  · exact again_keeps hlog hb

/-- A batch that is over. -/
theorem finish_keeps (hlog : effects log = []) :
    (a.leaveBatch x state batch [] log).Keeps a.scope (a.rest ++ []) :=
  leaveBatch_keeps hlog (by simp)

theorem mem_boundAll (hh : h ∈ boundAll batch) : h.1 ∈ (batch.map (·.inbound)).map (·.event) := by
  obtain ⟨item, hitem, rfl⟩ := List.mem_map.1 hh
  exact List.mem_map.2 ⟨item.inbound, List.mem_map.2 ⟨item, hitem, rfl⟩, rfl⟩

theorem failBatch_keeps (hlog : effects log = []) :
    (a.failBatch x kind batch log).Keeps a.scope (a.rest ++ boundAll batch) :=
  leaveBatch_keeps hlog fun _ hh _ => mem_boundAll hh

theorem rejectAll_keeps :
    (a.rejectAll x reason batch).Keeps a.scope (a.rest ++ boundAll batch) := by
  unfold rejectAll
  split
  · exact finish_keeps rfl
  · split
    · exact failBatch_keeps rfl
    · exact goto_keeps (.refl _) nofun nofun

theorem startBatch_keeps : (a.startBatch x c batch).Keeps a.scope (a.rest ++ boundAll batch) := by
  obtain ⟨hsub, hcover⟩ := deduplicateBatch_spec batch
  refine goto_keeps ⟨fun h hh _ => .inl ?_, fun q _ p => ?_⟩ nofun nofun
  · obtain ⟨item, hitem, rfl⟩ := List.mem_map.1 hh
    obtain ⟨copy, hcopy, hid⟩ := hcover item hitem
    exact ⟨_, List.mem_map.2 ⟨copy, hcopy, rfl⟩, rfl, hid⟩
  · exact weigh_le (hsub.map _)

theorem collect_keeps (hd : a.deferred = none) : (a.collect x c batch).Keeps a.scope (a.rest ++ boundAll batch) := by
  unfold collect
  split
  · exact startBatch_keeps
  · exact goto_keeps (.refl _) nofun fun _ => hd

theorem openBatch_keeps {item : TurnInbound} (hd : a.deferred = none) :
    (a.openBatch x c item).Keeps a.scope (a.rest ++ [(item.inbound.event, .bound)]) := by
  unfold openBatch
  dsimp only
  split
  · exact startBatch_keeps
  · exact collect_keeps hd

theorem joinBatch_keeps {item : TurnInbound} (hd : a.deferred = none) :
    (a.joinBatch x c batch item).Keeps a.scope (a.rest ++ (boundAll batch ++ [(item.inbound.event, .bound)])) := by
  unfold joinBatch
  split
  · refine startBatch_keeps.perm ?_
    simp only [rest, hd, Option.toList, List.map_nil, List.append_nil, List.map_cons, DeferredScopeWork.held,
      List.append_assoc]
    exact List.perm_append_comm.append_left _
  · have h : (a.collect x c (batch ++ [item])).Keeps a.scope (a.rest ++ boundAll (batch ++ [item])) := collect_keeps hd
    rw [boundAll_append] at h
    exact h

variable {collected : Option (List TurnInbound)} {item : ActorInbound} {turn : TurnInbound} {scope : ScopeKey}
  {o : Outcome} {r : Except StoreError OpReply}

theorem prepared_keeps (hd : a.deferred = none) : (a.prepared x c collected turn).Keeps a.scope
    (a.rest ++ (boundAll (collected.getD []) ++ [(turn.inbound.event, .bound)])) := by
  unfold prepared
  split
  · exact openBatch_keeps hd
  · exact joinBatch_keeps hd

theorem settled_keeps (hd : a.deferred = none) :
    (a.settled x c collected).Keeps a.scope (a.rest ++ boundAll (collected.getD [])) := by
  unfold settled
  split
  · exact again_keeps rfl (by simp)
  · exact collect_keeps hd

theorem Outcome.Keeps.drop (ho : o.Keeps scope b) (hnone : o.dropped = []) (event : Held) (he : event.1 = item.event) :
    { o with dropped := [item] }.Keeps scope (b ++ [event]) := by
  have hacc := ho.accounts
  rw [hnone] at hacc
  refine ⟨ho.scope, ho.wf, ?_⟩
  have hd : Accounts [event] [] [item.event] [] := by
    refine .of_dropped fun y hy _ => ?_
    rw [List.mem_singleton.1 hy, he]
    exact List.mem_singleton_self _
  simpa [holds] using hacc.append hd

theorem prepareFailed_keeps (hitem : h.1 = item.event) :
    (a.prepareFailed x c collected item kind).Keeps a.scope (a.rest ++ (boundAll (collected.getD []) ++ [h])) := by
  unfold prepareFailed
  split
  · refine again_keeps rfl fun y hy _ => ?_
    have hyh : y = h := by simpa using hy
    rw [hyh, hitem]
    exact List.mem_singleton_self _
  · rw [← List.append_assoc]
    exact Outcome.Keeps.drop startBatch_keeps rfl h hitem

/-- A prefix of the log that puts nothing into effect. -/
theorem logged_keeps (ho : o.Keeps scope b) (hlog : effects log = []) :
    (o.logged log).Keeps scope b := by
  refine ⟨ho.scope, ho.wf, ?_⟩
  rw [Outcome.logged, effects_append, hlog]
  exact ho.accounts

theorem prepareMedia_keeps (hd : a.deferred = none) : (a.prepareMedia x c collected item).Keeps a.scope
    (a.rest ++ (boundAll (collected.getD []) ++ [(item.event, .waits)])) := by
  have hlog : effects (if isStale x.env.clock item.event c.settings.messageMaxAge then []
      else [LogEntry.decision item c.policy c.policyVersion]) = [] := by
    split <;> rfl
  unfold prepareMedia
  dsimp only
  split
  · refine goto_keeps ?_ nofun fun _ => hd
    rw [hlog]
    exact .refl _
  · split
    · exact logged_keeps (prepareFailed_keeps rfl) hlog
    · refine goto_keeps ?_ nofun fun _ => hd
      rw [hlog]
      exact (Accounts.refl _).append .bind

theorem prepareInbound_keeps (hd : a.deferred = none) : (a.prepareInbound x c collected item).Keeps a.scope
    (a.rest ++ (boundAll (collected.getD []) ++ [(item.event, .waits)])) := by
  unfold prepareInbound
  split
  · exact prepareMedia_keeps hd
  · have hres : (a.reserve x item).1.inbound = item := reserve_inbound
    generalize a.reserve x item = reserved at hres ⊢
    obtain ⟨turn, pending⟩ := reserved
    have h : ({ a with pendingMedia := pending }.prepared x c collected turn).Keeps a.scope
        (a.rest ++ (boundAll (collected.getD []) ++ [(turn.inbound.event, Stage.bound)])) := prepared_keeps hd
    rw [hres] at h
    refine ⟨h.scope, h.wf, ?_⟩
    exact ((Accounts.refl _).append ((Accounts.refl _).append .bind)).trans h.accounts

theorem finishPreparing_keeps {op : SettleOp} (hd : a.deferred = none) : (a.finishPreparing x c collected item op).Keeps
    a.scope (a.rest ++ (ActorPc.preparing c collected item op).holds true) := by
  have hsettled : ∀ a' : Actor, a'.scope = a.scope → a'.rest = a.rest → a'.deferred = none →
      (a'.settled x c collected).Keeps a.scope (a.rest ++ boundAll (collected.getD [])) := by
    intro a' hscope hrest hd'
    rw [← hscope, ← hrest]
    exact settled_keeps hd'
  unfold finishPreparing
  split
  · simpa [ActorPc.holds, unlessSettled] using hsettled a rfl rfl hd
  · rw [ActorPc.holds, if_pos rfl, ← List.append_assoc]
    split
    · have h := hsettled { a with pendingMedia := a.pendingMedia.stage x.env.instant item.event } rfl rfl hd
      refine ⟨h.scope, h.wf, ?_⟩
      exact ((Accounts.stage (.inr rfl)).append h.accounts).perm List.perm_append_comm (.refl _)
    · have h := hsettled a rfl rfl hd
      refine ⟨h.scope, h.wf, ?_⟩
      exact ((Accounts.stage (.inl rfl)).append h.accounts).perm List.perm_append_comm (.refl _)

theorem screenLog_effects : effects (screenLog x c turn) = [] := by
  unfold screenLog
  split <;> rfl

/-- By the recursion of the loop: what is screened moves from the front to the kept ones. -/
theorem screen_keeps {adopted : Bool} : ∀ {todo kept : List TurnInbound},
    (a.screen x c adopted todo kept).Keeps a.scope (a.rest ++ (boundAll todo ++ boundAll kept))
  | [], kept => by
    unfold screen
    split
    · next hempty =>
      rw [List.isEmpty_iff.1 hempty]
      exact finish_keeps rfl
    · exact goto_keeps (.refl _) nofun nofun
  | turn :: todo, kept => by
    unfold screen
    split
    · refine logged_keeps (screen_keeps.perm (List.Perm.append_left _ ?_)) screenLog_effects
      rw [boundAll_append, ← List.append_assoc]
      exact List.perm_append_comm
    · split
      · have h : (a.failBatch x .projection (turn :: todo ++ kept) (screenLog x c turn)).Keeps a.scope
            (a.rest ++ boundAll (turn :: todo ++ kept)) := failBatch_keeps screenLog_effects
        rw [boundAll_append] at h
        exact h
      · refine goto_keeps ?_ nofun nofun
        rw [screenLog_effects]
        exact .refl _

theorem claimed_keeps {adopted : Bool} {turn : NewTurnRow} {epoch : ℕ} :
    (a.claimed x c batch adopted epoch r).Keeps a.scope
      (a.rest ++ (ActorPc.claiming c batch adopted turn epoch).holds (isSettled (some r))) := by
  unfold claimed
  split
  · exact goto_keeps (.refl _) nofun nofun
  · exact finish_keeps rfl
  · exact failBatch_keeps rfl

theorem resolved_keeps {t : TurnTask} {resolution : TurnResolution} {waits : Bool} :
    (a.resolved x t resolution waits).Keeps a.scope (a.rest ++ []) := by
  unfold resolved
  split
  · exact finish_keeps rfl
  · split
    · exact goto_keeps (.refl _) nofun nofun
    · split
      · exact finish_keeps rfl
      · exact goto_keeps (.refl _) nofun nofun

variable {control : ActorControl}

theorem dropControl_keeps (hlog : effects log = []) (hc : h.1 = control.inbound.event) :
    (a.again x state log [control.inbound]).Keeps a.scope (a.rest ++ [h]) := by
  refine again_keeps hlog fun y hy _ => ?_
  rw [List.mem_singleton.1 hy, hc]
  exact List.mem_singleton_self _

theorem replied_keeps {row : NewOutboxRow} :
    (a.replied x control row r).Keeps a.scope (a.rest ++ (ActorPc.replying control row).holds (isSettled (some r))) := by
  unfold replied
  split
  · exact again_keeps rfl (by simp [ActorPc.holds, isSettled, unlessSettled])
  · exact goto_keeps (.refl _) nofun nofun
  · exact dropControl_keeps rfl rfl

theorem reply_keeps : (a.reply x control).Keeps a.scope (a.rest ++ [(control.inbound.event, .ran)]) := by
  unfold reply
  split
  · exact dropControl_keeps rfl rfl
  · exact goto_keeps (.refl _) nofun nofun

theorem rejectControl_keeps (hlog : effects log = []) :
    (a.rejectControl x control reason log).Keeps a.scope (a.rest ++ [(control.inbound.event, .waits)]) := by
  unfold rejectControl
  split
  · exact dropControl_keeps hlog rfl
  · refine goto_keeps ?_ nofun nofun
    rw [hlog]
    exact .bind

theorem executeControl_keeps {command : BridgeCommand} :
    (a.executeControl x control command).Keeps a.scope (a.rest ++ [(control.inbound.event, .waits)]) := by
  refine ⟨rfl, ⟨nofun, nofun⟩, ?_⟩
  exact (Accounts.refl a.rest).append (.run (.inr rfl))

theorem processControl_keeps :
    (a.processControl x control c).Keeps a.scope (a.rest ++ [(control.inbound.event, .waits)]) := by
  unfold processControl
  split
  · exact rejectControl_keeps rfl
  · dsimp only
    split
    · exact rejectControl_keeps rfl
    · split
      · have h : (a.reply x control).Keeps a.scope (a.rest ++ [(control.inbound.event, .ran)]) := reply_keeps
        refine logged_keeps ⟨h.scope, h.wf, ?_⟩ rfl
        exact ((Accounts.refl _).append (.run (.inl rfl))).trans h.accounts
      · exact logged_keeps executeControl_keeps rfl

theorem rest_mailbox {command : ScopeCommand} {mailbox : List ScopeCommand} (h : a.mailbox = command :: mailbox) :
    a.rest = (command.item.event, .waits) :: { a with mailbox := mailbox }.rest := by
  simp [rest, h]

theorem receive_keeps (hwf : a.WF) (hd : a.deferred = none) (hpc : a.pc.holds (isSettled a.answer) = boundAll (collected.getD [])) :
    (a.receive x c collected).Keeps a.scope a.holds := by
  have hperm : ∀ {command : ScopeCommand} {mailbox : List ScopeCommand}, a.mailbox = command :: mailbox →
      ({ a with mailbox := mailbox }.rest ++ (boundAll (collected.getD []) ++ [(command.item.event, Stage.waits)])).Perm
        a.holds := by
    intro command mailbox h
    rw [holds, hpc, rest_mailbox h, ← List.append_assoc, List.cons_append]
    exact List.perm_append_singleton _ _
  unfold receive
  split
  · exact stay_keeps hwf
  · next item mailbox heq =>
    have h : ({ a with mailbox := mailbox }.prepareInbound x c collected item).Keeps a.scope
        ({ a with mailbox := mailbox }.rest ++ (boundAll (collected.getD []) ++ [(item.event, Stage.waits)])) :=
      prepareInbound_keeps hd
    exact h.perm (hperm heq)
  · next control mailbox heq =>
    split
    · have h : ({ a with mailbox := mailbox }.goto x (.controlPolicy control)).Keeps a.scope
          ({ a with mailbox := mailbox }.rest ++ [(control.inbound.event, Stage.waits)]) :=
        goto_keeps (.refl _) nofun nofun
      exact h.perm (hperm heq)
    · next batch =>
      have h : ({ a with mailbox := mailbox, deferred := some (.control control) }.startBatch x c batch).Keeps a.scope
          ({ a with mailbox := mailbox, deferred := some (.control control) }.rest ++ boundAll batch) := startBatch_keeps
      refine h.perm (.trans ?_ (hperm heq))
      simp only [rest, hd, Option.toList, List.map_nil, List.append_nil, List.map_cons, DeferredScopeWork.held,
        List.append_assoc]
      exact List.perm_append_comm.append_left _

theorem dispatch_keeps : (a.dispatch x c).Keeps a.scope (a.rest ++ []) := by
  unfold dispatch
  split
  · next hd => exact goto_keeps (.refl _) nofun fun _ => hd
  · next turn hd =>
    have h : ({ a with deferred := none }.openBatch x c turn).Keeps a.scope
        ({ a with deferred := none }.rest ++ [(turn.inbound.event, Stage.bound)]) := openBatch_keeps rfl
    simpa [rest, hd, DeferredScopeWork.held] using h
  · next control hd =>
    have h : ({ a with deferred := none }.goto x (.controlPolicy control)).Keeps a.scope
        ({ a with deferred := none }.rest ++ [(control.inbound.event, Stage.waits)]) := goto_keeps (.refl _) nofun nofun
    simpa [rest, hd, DeferredScopeWork.held] using h

/-! ### Awaits -/

section

variable (hwf : a.WF)

include hwf

theorem onWaiting_keeps (heq : a.pc = .waiting c) : (a.onWaiting x c).Keeps a.scope a.holds := by
  have hd : a.deferred = none := hwf.collects (by rw [heq]; rfl)
  have hh : a.holds = a.rest ++ [] := by rw [holds, heq]; rfl
  unfold onWaiting
  split
  · rw [hh]; exact stop_keeps rfl (by simp)
  · rw [hh]; exact again_keeps rfl (by simp)
  · exact receive_keeps hwf hd (by rw [heq]; rfl)
  · exact stay_keeps hwf

theorem onDebouncing_keeps (heq : a.pc = .debouncing c batch) : (a.onDebouncing x c batch).Keeps a.scope a.holds := by
  have hd : a.deferred = none := hwf.collects (by rw [heq]; rfl)
  have hh : a.holds = a.rest ++ boundAll batch := by rw [holds, heq]; rfl
  unfold onDebouncing
  split
  · rw [hh]; exact stop_keeps rfl fun _ hm _ => mem_boundAll hm
  · rw [hh]; exact startBatch_keeps
  · exact receive_keeps hwf hd (by rw [heq]; rfl)
  · exact stay_keeps hwf

theorem awaited_keeps : (a.awaited x).Keeps a.scope a.holds := by
  have held : ∀ {hs : List Held}, a.pc.holds (isSettled a.answer) = hs → a.holds = a.rest ++ hs := by
    intro hs h
    rw [holds, h]
  have hto := a.awaited_to x
  generalize a.awaited x = o at hto ⊢
  cases hto with
  | stays => exact stay_keeps hwf
  | readsPolicy hpc | readsForCommand hpc | replies hpc | starts hpc | marks hpc | resolves hpc | releases hpc =>
    rw [held (by rw [hpc])]
    exact goto_keeps (.refl _) nofun nofun
  | dispatches hpc =>
    rw [held (by rw [hpc])]
    exact dispatch_keeps
  | waits hpc => exact onWaiting_keeps hwf hpc
  | collects hpc => exact onDebouncing_keeps hwf hpc
  | processes hpc =>
    rw [held (by rw [hpc])]
    exact processControl_keeps
  | executed _ hpc =>
    rw [held (by rw [hpc])]
    exact reply_keeps
  | drops hpc =>
    rw [held (by rw [hpc])]
    exact dropControl_keeps rfl rfl
  | goes _ hb hb' =>
    obtain ⟨hholds, hended, hcollects⟩ := ActorPc.of_batch hb'
    rw [held ((ActorPc.of_batch hb).1 _)]
    exact goto_keeps (hholds false ▸ .refl _) hended fun h => by simp [hcollects] at h
  | settles hb | claims hb =>
    rw [held ((ActorPc.of_batch hb).1 _)]
    exact goto_keeps (.refl _) nofun nofun
  | fails hb =>
    rw [held ((ActorPc.of_batch hb).1 _)]
    exact failBatch_keeps rfl
  | rejects _ hb =>
    rw [held ((ActorPc.of_batch hb).1 _)]
    exact rejectAll_keeps
  | @screens c batch adopted hpc =>
    have hh : a.pc.holds (isSettled a.answer) = boundAll batch := by rw [hpc]; rfl
    rw [held hh]
    have h : (a.screen x c adopted batch []).Keeps a.scope (a.rest ++ (boundAll batch ++ boundAll [])) := screen_keeps
    simpa using h
  | finalizes _ hpc =>
    have hh : a.pc.holds (isSettled a.answer) = [] := by rcases hpc with hpc | hpc | hpc <;> rw [hpc] <;> rfl
    rw [held hh]
    exact goto_keeps (.refl _) nofun nofun
  | leaves ht =>
    rw [held (ActorPc.holds_of_turn ht _)]
    exact finish_keeps rfl

theorem answered_keeps {r : Except StoreError OpReply} (hr : a.answer = some r) : (a.answered x r).Keeps a.scope a.holds := by
  have hholds : a.holds = a.rest ++ a.pc.holds r.isOk := by
    rw [holds, hr]
    cases r <;> rfl
  rw [hholds]
  unfold answered
  split
  · next heq =>
    have hd : a.deferred = none := hwf.collects (by rw [heq]; rfl)
    rw [heq]
    split
    · next hok => rw [hok]; exact finishPreparing_keeps hd
    · next op hok =>
      rw [Bool.not_eq_true] at hok
      rw [hok]
      cases op with
      | reject | complete => exact prepareFailed_keeps rfl
  · next heq =>
    rw [heq]
    split
    · next hok => rw [hok]; exact again_keeps rfl (by simp [ActorPc.holds, unlessSettled])
    · next hok =>
      rw [Bool.not_eq_true] at hok
      rw [hok]
      exact dropControl_keeps rfl rfl
  · next heq =>
    rw [heq]
    cases r with
    | ok reply => exact replied_keeps
    | error e => exact replied_keeps
  · next item reason notice rest kept heq =>
    rw [heq]
    split
    · next hok => rw [hok]; exact screen_keeps
    · next hok =>
      have h : (a.failBatch x .store (item :: rest ++ kept)).Keeps a.scope (a.rest ++ boundAll (item :: rest ++ kept)) :=
        failBatch_keeps rfl
      rw [Bool.not_eq_true] at hok
      rw [boundAll_append] at h
      rw [hok]
      exact h
  · next heq =>
    rw [heq]
    split
    · next hok => rw [hok]; exact rejectAll_keeps
    · next hok =>
      rw [Bool.not_eq_true] at hok
      rw [hok]
      exact failBatch_keeps rfl
  · next heq =>
    rw [heq]
    cases r with
    | ok reply => exact claimed_keeps
    | error e => exact claimed_keeps
  · next heq =>
    rw [heq]
    split
    · exact goto_keeps (.refl _) nofun nofun
    · exact goto_keeps (.refl _) nofun nofun
  · next heq =>
    rw [heq]
    split
    · exact resolved_keeps
    · exact finish_keeps rfl
  · rw [← hholds]
    exact stay_keeps hwf

/-- **A step of an actor accounts for what it held.** -/
theorem run_keeps {tenant : TenantNamespace} : (a.run tenant x).Keeps a.scope a.holds := by
  unfold run
  split
  · next hr => exact answered_keeps hwf hr
  · exact stay_keeps hwf
  · split
    · exact stay_keeps hwf
    · exact awaited_keeps hwf

end

end Actor

end LarkCodexBridge.Runtime
