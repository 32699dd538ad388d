import Mathlib
import LarkCodexBridge.Runtime.Custody
import LarkCodexBridge.Runtime.RouterSteps
import LarkCodexBridge.Store.InboundAnswers

/-!
# Who holds a message in the bridge

The copies that the tasks of a bridge hold, from the handler calls to the actors (`Bridge.holds`), and what the steps do
with them. A step that asks nothing of the store moves copies (`Bridge.Moves`): `quiet_moves` covers the handlers, the
driver, the router and the actors. A request of the router or an actor that is answered settles the copies it is about
(`Bridge.Asks`).
-/

namespace LarkCodexBridge.Runtime

open Limits Lark Store Outbox SqlTable StepSystem

/-! ## Holders -/

def waiting (events : List InboundEvent) : List Held := events.map (·, .waits)

@[simp] theorem waiting_nil : waiting [] = [] := rfl

@[simp] theorem waiting_cons (event : InboundEvent) (events : List InboundEvent) :
    waiting (event :: events) = (event, .waits) :: waiting events := rfl

@[simp] theorem waiting_append (events events' : List InboundEvent) :
    waiting (events ++ events') = waiting events ++ waiting events' := List.map_append

/-- The copy that an answered call is about to queue. -/
def Handler.holds (h : Handler) : List Held := (h.answer.bind Bridge.handedOut).toList.map (·, .handed)

def DriverPc.holds : DriverPc → List Held
  | .backoff event => [(event, .waits)]
  | .idle | .waiting => []

/-- The message that the router works on. One that it could not settle is routed again, so an effect may come. -/
def RouterPc.holds (settled : Bool) : RouterPc → List Held
  | .completing _ item | .rejecting _ item _ _ => unlessSettled settled (item.event, .waits)
  | .readThread _ _ item | .evicting _ item _ => [(item.event, .waits)]
  | .loopTop | .readSettings _ | .waiting _ => []

/-- Where the message comes from that the router works on. -/
def RouterPc.src : RouterPc → RouteSource
  | .completing src _ | .rejecting src _ _ _ | .readThread _ src _ | .evicting src _ _ => src
  | .loopTop | .readSettings _ | .waiting _ => .retry

theorem RouterPc.holds_of_inHand {pc : RouterPc} {src : RouteSource} {item : ActorInbound}
    (h : pc.inHand = some (src, item)) :
    pc.src = src ∧ ∀ settled, pc.holds settled = if pc.asks && settled then [] else [(item.event, .waits)] := by
  cases pc <;> cases h <;> refine ⟨rfl, fun settled => ?_⟩ <;> cases settled <;> rfl

/-- The events of a run that ask nothing of the store. -/
def Event.isQuiet : Event → Bool
  | .deliver _ | .handled _ _ | .abandon _ | .drive _ | .router _ | .actor _ _ | .supervise _ => true
  | .register _ _ _ | .routerStore _ _ | .actorStore _ _ _ | .sweep _ _ _ _ | .restart _ _ _ _ => false

namespace Bridge

/-- The copies on their way to the router, and those that it tries again. -/
def onTheWay (st : Bridge) : List Held :=
  st.handlers.flatMap Handler.holds ++ (waiting st.queue ++ st.driver.holds ++ waiting st.channel) ++
    waiting (st.retries.map (·.event))

def actorsHold (st : Bridge) : List Held := st.actors.flatMap Actor.holds

/-- Everything but what the router works on. -/
def rest (st : Bridge) : List Held := st.onTheWay ++ st.actorsHold

def holds (st : Bridge) : List Held := st.rest ++ st.router.holds (isSettled st.routerAnswer)

/-- One actor for a scope, each of them well formed. -/
structure Shape (actors : List Actor) : Prop where
  scopes : (actors.map (·.scope.toString)).Nodup
  actors : ∀ a ∈ actors, a.WF

/-- The driver waits while its message is queued, or with the router. -/
def Driven (driver : DriverPc) (queue : List InboundEvent) : RouteSource → Prop
  | .queue => driver = .waiting ∧ queue = []
  | .retry => queue = [] ∨ driver = .waiting ∧ ∃ event, queue = [event]

theorem Driven.retry {driver : DriverPc} {queue : List InboundEvent} {src : RouteSource} (h : Driven driver queue src) :
    Driven driver queue .retry := by
  cases src with
  | queue => exact .inl h.2
  | retry => exact h

/-- No actor has the scope for which the router waits for an eviction. -/
def NoActor (actors : List Actor) : RouterPc → Prop
  | .evicting _ item _ => ∀ a ∈ actors, a.scope.toString ≠ item.event.scope.toString
  | _ => True

structure WF (st : Bridge) : Prop where
  shape : Shape st.actors
  driven : Driven st.driver st.queue st.router.src
  evicting : NoActor st.actors st.router

theorem WF.unserved {st : Bridge} (h : st.WF) (src : RouteSource) (item : ActorInbound) (victim : String)
    (hr : st.router = .evicting src item victim) : st.Unserved item := by
  have hev := h.evicting
  rw [hr] at hev
  exact hev

/-- The store stays, and the new state accounts for `b`. -/
structure Passes (st : Bridge) (b : List Held) (st' : Bridge) : Prop where
  store : st'.store = st.store
  acked : st'.acked = st.acked
  wf : st'.WF
  accounts : ∃ dropped log, st'.dropped = st.dropped ++ dropped ∧ st'.log = st.log ++ log ∧
    Accounts b st'.holds (dropped.map (·.event)) (effects log)

variable {st st' : Bridge} {b b' : List Held}

theorem Passes.perm (h : st.Passes b st') (hb : b.Perm b') : st.Passes b' st' := by
  obtain ⟨dropped, log, hd, hl, hacc⟩ := h.accounts
  exact ⟨h.store, h.acked, h.wf, dropped, log, hd, hl, hacc.perm hb (.refl _)⟩

/-- Only what a step keeps of the state before it counts. -/
theorem Passes.of_eq {st₁ : Bridge} (h : st₁.Passes b st') (hs : st₁.store = st.store) (ha : st₁.acked = st.acked)
    (hd : st₁.dropped = st.dropped) (hl : st₁.log = st.log) : st.Passes b st' := by
  obtain ⟨dropped, log, hd', hl', hacc⟩ := h.accounts
  exact ⟨h.store.trans hs, h.acked.trans ha, h.wf, dropped, log, hd ▸ hd', hl ▸ hl', hacc⟩

theorem Passes.refl (h : st.WF) : st.Passes st.holds st :=
  ⟨rfl, rfl, h, [], [], (List.append_nil _).symm, (List.append_nil _).symm, .refl _⟩

/-- An entry of the log that puts nothing into effect. -/
theorem Passes.logged {log : List LogEntry} (h : { st with log := st.log ++ log }.Passes b st')
    (hlog : effects log = []) : st.Passes b st' := by
  obtain ⟨dropped, log', hd, hl, hacc⟩ := h.accounts
  refine ⟨h.store, h.acked, h.wf, dropped, log ++ log', hd, by rw [hl, List.append_assoc], ?_⟩
  rw [effects_append, hlog]
  exact hacc

variable {tenant : TenantNamespace} {fromStr : String → Option String} {st : Bridge} {env : RouterEnv} {src : RouteSource}
  {item : ActorInbound}

/-! ## Actors -/

variable {scope : String} {a a' : Actor} {pc : RouterPc}

section

variable (h : Shape st.actors)
include h

/-- The actor of a scope is one of the list, and the only one that a change of it changes. -/
theorem setActor_split (ha : a ∈ st.actors) (hs : a.scope.toString = scope) :
    ∃ l₁ l₂, st.actors = l₁ ++ a :: l₂ ∧ ∀ a', (st.setActor scope a').actors = l₁ ++ a' :: l₂ := by
  obtain ⟨l₁, l₂, hl⟩ := List.append_of_mem ha
  refine ⟨l₁, l₂, hl, fun a' => ?_⟩
  have hnodup := h.scopes
  rw [hl, List.map_append, List.map_cons, List.nodup_append, List.nodup_cons] at hnodup
  obtain ⟨-, ⟨hnot, -⟩, hdisj⟩ := hnodup
  have same : ∀ l : List Actor, (∀ b ∈ l, b.scope.toString ≠ scope) →
      l.map (fun b => if b.scope.toString = scope then a' else b) = l := by
    intro l hne
    have hid : ∀ b ∈ l, (if b.scope.toString = scope then a' else b) = id b := fun b hb => if_neg (hne b hb)
    rw [List.map_congr_left hid, List.map_id]
  show st.actors.map _ = _
  rw [hl, List.map_append, List.map_cons, if_pos hs, same l₁ ?_, same l₂ ?_]
  · intro b hb hbs
    exact hnot (List.mem_map.2 ⟨b, hb, hbs.trans hs.symm⟩)
  · intro b hb hbs
    exact hdisj _ (List.mem_map.2 ⟨b, hb, hbs.trans hs.symm⟩) _ List.mem_cons_self rfl

theorem setActor_shape (ha : a ∈ st.actors) (hs : a.scope.toString = scope)
    (hscope : a'.scope = a.scope) (hwf : a'.WF) : Shape (st.setActor scope a').actors := by
  obtain ⟨l₁, l₂, hl, hset⟩ := setActor_split h ha hs
  refine ⟨?_, fun b hb => ?_⟩
  · have hnodup := h.scopes
    rw [hl] at hnodup
    rw [hset a']
    simpa [hscope] using hnodup
  · rw [hset a'] at hb
    rcases List.mem_append.1 hb with hb | hb
    · exact h.actors b (by rw [hl]; exact List.mem_append_left _ hb)
    · rcases List.mem_cons.1 hb with rfl | hb
      · exact hwf
      · exact h.actors b (by rw [hl]; exact List.mem_append_right _ (List.mem_cons_of_mem _ hb))

theorem setActor_scopes (ha : a ∈ st.actors) (hs : a.scope.toString = scope)
    (hscope : a'.scope = a.scope) : ∀ b' ∈ (st.setActor scope a').actors, ∃ b ∈ st.actors, b.scope = b'.scope := by
  obtain ⟨l₁, l₂, hl, hset⟩ := setActor_split h ha hs
  intro b hb
  rw [hset a'] at hb
  rw [hl]
  rcases List.mem_append.1 hb with hb | hb
  · exact ⟨b, List.mem_append_left _ hb, rfl⟩
  · rcases List.mem_cons.1 hb with rfl | hb
    · exact ⟨a, by simp, hscope.symm⟩
    · exact ⟨b, List.mem_append_right _ (List.mem_cons_of_mem _ hb), rfl⟩

theorem setActor_holds (ha : a ∈ st.actors) (hs : a.scope.toString = scope) :
    ∃ others, (a.holds ++ others).Perm st.actorsHold ∧
      ∀ a', (a'.holds ++ others).Perm (st.setActor scope a').actorsHold := by
  obtain ⟨l₁, l₂, hl, hset⟩ := setActor_split h ha hs
  have front : ∀ b : Actor, (b.holds ++ (l₁.flatMap Actor.holds ++ l₂.flatMap Actor.holds)).Perm
      ((l₁ ++ b :: l₂).flatMap Actor.holds) := by
    intro b
    rw [List.flatMap_append, List.flatMap_cons, ← List.append_assoc, ← List.append_assoc]
    exact List.perm_append_comm.append_right _
  refine ⟨l₁.flatMap Actor.holds ++ l₂.flatMap Actor.holds, ?_, fun a' => ?_⟩
  · rw [actorsHold, hl]
    exact front a
  · rw [actorsHold, hset a']
    exact front a'

/-! ## The router -/

theorem routed_passes (hdriven : Driven st.driver st.queue src) (hb : Accounts b st.rest [] []) :
    st.Passes b (st.routed src) := by
  cases src with
  | queue =>
    obtain ⟨hdriver, hqueue⟩ := hdriven
    have hrest : (st.routed .queue).rest = st.rest := by simp [routed, rest, onTheWay, actorsHold, hdriver, DriverPc.holds]
    refine ⟨rfl, rfl, ⟨h, .inl hqueue, trivial⟩, [], [], by simp [routed], by simp [routed], ?_⟩
    show Accounts _ ((st.routed .queue).rest ++ []) _ _
    rw [hrest, List.append_nil]
    exact hb
  | retry =>
    refine ⟨rfl, rfl, ⟨h, hdriven, trivial⟩, [], [], by simp [routed], by simp [routed], ?_⟩
    show Accounts _ (st.rest ++ []) _ _
    rw [List.append_nil]
    exact hb

/-- A new actor for a scope without one. -/
theorem spawn_shape (hnone : st.Unserved item) :
    Shape (st.actors ++ [Actor.spawn item.event.scope st.live.inner.settings]) := by
  refine ⟨?_, fun a ha => ?_⟩
  · rw [List.map_append, List.nodup_append]
    refine ⟨h.scopes, List.nodup_singleton _, fun scope hscope scope' hscope' => ?_⟩
    obtain ⟨a, ha, rfl⟩ := List.mem_map.1 hscope
    rw [List.mem_singleton.1 hscope']
    exact hnone a ha
  · rcases List.mem_append.1 ha with ha | ha
    · exact h.actors a ha
    · rw [List.mem_singleton.1 ha]
      exact ⟨nofun, nofun⟩

/-- The actors without the one that ended, which held nothing. -/
theorem remove_holds (ha : st.findActor scope = some a) (hpc : a.pc = .ended) :
    (st.actors.filter (·.scope.toString ≠ scope)).flatMap Actor.holds = st.actorsHold := by
  obtain ⟨hmem, hs⟩ := findActor_some ha
  obtain ⟨hdeferred, hmailbox⟩ := (h.actors a hmem).ended hpc
  have hnothing : a.holds = [] := by simp [Actor.holds, Actor.rest, hdeferred, hmailbox, hpc, ActorPc.holds]
  obtain ⟨l₁, l₂, hl, -⟩ := setActor_split h hmem hs
  have hne : ∀ b ∈ l₁ ++ l₂, b.scope.toString ≠ scope := by
    intro b hb hbs
    have hnodup := h.scopes
    rw [hl, List.perm_middle.map _ |>.nodup_iff, List.map_cons, List.nodup_cons] at hnodup
    exact hnodup.1 (List.mem_map.2 ⟨b, hb, hbs.trans hs.symm⟩)
  have hfilter : st.actors.filter (·.scope.toString ≠ scope) = l₁ ++ l₂ := by
    rw [hl, List.filter_append, List.filter_cons_of_neg (by simpa using hs), ← List.filter_append,
      List.filter_eq_self.2 fun b hb => by simpa using hne b hb]
  rw [hfilter, actorsHold, hl, List.flatMap_append, List.flatMap_append, List.flatMap_cons, hnothing, List.nil_append]

end

/-- **Whatever becomes of the message in hand is accounted for.** -/
theorem Handles.passes {copies : Option Copies} (h : Handles True copies src item st st') : Shape st.actors →
    Driven st.driver st.queue src → st.Passes (st.rest ++ [(item.event, .waits)]) st' := by
  induction h with
  | lost st =>
    intro h hdriven
    refine ⟨rfl, rfl, ⟨h, hdriven.retry, trivial⟩, [item], [], rfl, (List.append_nil _).symm, ?_⟩
    refine (Accounts.refl st.rest).append (.of_dropped fun x hx _ => ?_)
    simpa using congrArg Prod.fst (List.mem_singleton.1 hx)
  | later st =>
    intro h hdriven
    refine Passes.of_eq (routed_passes h hdriven ((Accounts.refl _).perm (.refl _) ?_)) rfl rfl rfl rfl
    simp only [rest, onTheWay, actorsHold, List.map_append, waiting_append, List.map_cons, List.map_nil, waiting_cons,
      waiting_nil, List.append_assoc]
    refine .append_left _ (.append_left _ (.append_left _ (.append_left _ (.append_left _ ?_))))
    exact List.perm_append_comm
  | @works st pc hin hnone =>
    intro h hdriven
    obtain ⟨hsrc, hholds⟩ := RouterPc.holds_of_inHand hin
    have hno : NoActor st.actors pc := by
      cases pc with
      | evicting src item victim => cases hin; exact hnone victim rfl
      | _ => trivial
    refine ⟨rfl, rfl, ⟨h, hsrc ▸ hdriven, hno⟩, [], [], by simp, by simp, ?_⟩
    show Accounts _ (st.rest ++ pc.holds false) _ _
    rw [hholds, Bool.and_false, if_neg Bool.false_ne_true]
    exact .refl _
  | @takes st a command ha hs hpc hitem =>
    intro h hdriven
    obtain ⟨others, hbefore, hafter⟩ := setActor_holds h ha hs
    have hwf : Actor.WF { a with mailbox := a.mailbox ++ [command] } := ⟨(h.actors a ha).collects, fun he => absurd he hpc⟩
    refine Passes.of_eq (routed_passes (setActor_shape h ha hs rfl hwf) hdriven ((Accounts.refl _).perm (.refl _) ?_))
      rfl rfl rfl rfl
    show (st.onTheWay ++ st.actorsHold ++ [(item.event, Stage.waits)]).Perm (st.onTheWay ++ _)
    rw [List.append_assoc]
    refine .append_left _ (.trans (.trans (hbefore.symm.append_right _) ?_) (hafter _))
    simp only [Actor.holds, Actor.rest, List.map_append, List.map_cons, List.map_nil, hitem, List.append_assoc]
    refine .append_left _ (.trans ?_ List.perm_append_comm)
    simp only [List.append_assoc]
    exact .refl _
  | decides _ _ ih =>
    intro h hdriven
    exact (ih h hdriven).logged (effects_decision _ _ _)
  | @spawns st st' hnone _ ih =>
    intro h hdriven
    have hrest : rest { st with actors := st.actors ++ [Actor.spawn item.event.scope st.live.inner.settings] } = st.rest := by
      simp [rest, onTheWay, actorsHold, Actor.spawn, Actor.holds, Actor.rest, ActorPc.holds]
    exact (hrest ▸ ih (spawn_shape h (hnone trivial)) hdriven).of_eq rfl rfl rfl rfl
  | @removes st st' a victim ha hpc hnone _ ih =>
    intro h hdriven
    have hsub : (st.actors.filter (·.scope.toString ≠ victim)).Sublist st.actors := List.filter_sublist
    have hshape : Shape (st.actors.filter (·.scope.toString ≠ victim)) :=
      ⟨(hsub.map _).nodup h.scopes, fun b hb => h.actors b (hsub.subset hb)⟩
    refine ((ih hshape hdriven).perm (.append_right _ (.append_left st.onTheWay (.of_eq ?_)))).of_eq rfl rfl rfl rfl
    exact remove_holds h ha hpc
  | @cancels st st' a ha hnone _ ih =>
    intro h hdriven
    obtain ⟨others, hbefore, hafter⟩ := setActor_holds h ha rfl
    have hwf : Actor.WF { a with cancelled := true, pendingMedia := a.pendingMedia.clear } :=
      ⟨(h.actors a ha).collects, (h.actors a ha).ended⟩
    refine ((ih (setActor_shape h ha rfl rfl hwf) hdriven).perm (.append_right _ ?_)).of_eq rfl rfl rfl rfl
    exact .append_left st.onTheWay ((hafter _).symm.trans hbefore)

/-- **A step of the router accounts for what the bridge held.** -/
theorem routerStep_passes (h : st.WF) : st.Passes st.holds (st.routerStep fromStr env) := by
  have idle : ∀ {pc : RouterPc}, st.router.inHand = none → pc.inHand = none → st.Passes st.holds { st with router := pc, routerAnswer := none } := by
    intro pc hnil hpc
    have hholds : ∀ {pc : RouterPc} {settled : Bool}, pc.inHand = none → pc.holds settled = [] ∧ pc.src = .retry ∧ NoActor st.actors pc := by
      intro pc settled hpc
      cases pc <;> cases hpc <;> exact ⟨rfl, rfl, trivial⟩
    obtain ⟨hnothing, hsrc, hno⟩ := @hholds _ false hpc
    refine ⟨rfl, rfl, ⟨h.shape, hsrc ▸ h.driven.retry, hno⟩, [], [], (List.append_nil _).symm, (List.append_nil _).symm, ?_⟩
    show Accounts _ (st.rest ++ pc.holds false) _ _
    rw [holds, (hholds hnil).1, hnothing]
    exact .refl _
  have hto : RouterTo True env st (st.routerStep fromStr env) := routerStep_to fun _ => h.unserved
  generalize st.routerStep fromStr env = st' at hto
  cases hto with
  | readsPolicy hr | readsSettings hr | wakes hr => exact idle (by rw [hr]; rfl) rfl
  | idles | waits => exact .refl h
  | @message c event queue _ hr _ hq hh =>
    have hdriven : Driven st.driver queue .queue := by
      rcases h.driven.retry with hnil | ⟨hdriver, e, hsingle⟩
      · rw [hq] at hnil
        cases hnil
      · rw [hq] at hsingle
        cases hsingle
        exact ⟨hdriver, rfl⟩
    refine ((hh.passes h.shape hdriven).perm ?_).of_eq rfl rfl rfl rfl
    simp only [holds, hr, RouterPc.holds, rest, onTheWay, actorsHold, hq, waiting_cons, List.append_assoc, List.cons_append, List.append_nil]
    refine .append_left _ (.trans ?_ (List.perm_append_singleton _ _))
    simp only [List.append_assoc]
    exact .refl _
  | @retry c item retries _ hr _ hq hh =>
    refine ((hh.passes h.shape h.driven.retry).perm ?_).of_eq rfl rfl rfl rfl
    simp only [holds, hr, RouterPc.holds, rest, onTheWay, actorsHold, hq, List.map_cons, waiting_cons, List.append_assoc, List.cons_append, List.append_nil]
    refine .append_left _ (.append_left _ (.append_left _ (.append_left _ (.trans ?_ (List.perm_append_singleton _ _)))))
    simp only [List.append_assoc]
    exact .refl _
  | settles hin hasks hanswer =>
    obtain ⟨hsrc, hholds⟩ := RouterPc.holds_of_inHand hin
    refine routed_passes h.shape (hsrc ▸ h.driven) ?_
    rw [holds, hholds, hasks, hanswer]
    exact (Accounts.refl _).perm (.of_eq (List.append_nil _).symm) (.refl _)
  | fails hin hanswer hh =>
    obtain ⟨hsrc, hholds⟩ := RouterPc.holds_of_inHand hin
    rw [holds, hholds, hanswer, show isSettled (some (.error _)) = false from rfl, Bool.and_false,
      if_neg Bool.false_ne_true]
    exact hh.passes h.shape (hsrc ▸ h.driven)
  | resumes hin hasks hh =>
    obtain ⟨hsrc, hholds⟩ := RouterPc.holds_of_inHand hin
    rw [holds, hholds, hasks, Bool.false_and, if_neg Bool.false_ne_true]
    exact hh.passes h.shape (hsrc ▸ h.driven)

/-! ## Steps without the store -/

/-- A step that leaves the store as it is and accounts for what was held; what it acknowledges is held. -/
structure Moves (tenant : TenantNamespace) (st st' : Bridge) : Prop where
  store : st'.store = st.store
  wf : st'.WF
  acked : ∀ k ∈ st'.acked, k ∈ st.acked ∨ ∃ h ∈ st'.holds, h.2.owes = true ∧ (InboundKey.mk tenant h.1.eventId).key = k
  accounts : ∃ dropped log, st'.dropped = st.dropped ++ dropped ∧ st'.log = st.log ++ log ∧
    Accounts st.holds st'.holds (dropped.map (·.event)) (effects log)

theorem Passes.moves (h : st.Passes st.holds st') : st.Moves tenant st' :=
  ⟨h.store, h.wf, fun _ hk => .inl (h.acked ▸ hk), h.accounts⟩

theorem actorStep_moves {env : Env} (h : st.WF) : st.Moves tenant (st.actorStep tenant scope env) := by
  unfold actorStep
  split
  · exact (Passes.refl h).moves
  · next a ha =>
    obtain ⟨hmem, hs⟩ := findActor_some ha
    have hk : (a.run tenant ⟨st.live, st.supervisor, env⟩).Keeps a.scope a.holds := Actor.run_keeps (h.shape.actors a hmem)
    obtain ⟨others, hbefore, hafter⟩ := setActor_holds h.shape hmem hs
    generalize a.run tenant ⟨st.live, st.supervisor, env⟩ = o at hk
    refine ⟨rfl, ⟨setActor_shape h.shape hmem hs hk.scope hk.wf, h.driven, ?_⟩, fun k hk => .inl hk, o.dropped, o.log, rfl,
      rfl, ?_⟩
    · have hev := h.evicting
      show NoActor _ st.router
      cases hr : st.router with
      | evicting src item victim =>
        rw [hr] at hev
        intro b hb
        obtain ⟨b', hb', hscope⟩ := setActor_scopes h.shape hmem hs hk.scope b hb
        rw [← hscope]
        exact hev b' hb'
      | _ => trivial
    · have hacc := ((Accounts.refl st.onTheWay).append (hk.accounts.append (.refl others))).append
        (.refl (st.router.holds (isSettled st.routerAnswer)))
      simp only [List.append_nil, List.nil_append] at hacc
      refine hacc.perm ?_ ?_
      · exact .append_right _ (.append_left _ hbefore)
      · exact .append_right _ (.append_left _ (hafter o.actor))

/-- A step of the intake: the copies on their way change places. -/
theorem intake_moves (h : st.WF) (hstore : st'.store = st.store) (hactors : st'.actors = st.actors)
    (hrouter : st'.router = st.router) (hanswer : st'.routerAnswer = st.routerAnswer)
    (hdropped : st'.dropped = st.dropped) (hlog : st'.log = st.log)
    (hdriven : Driven st'.driver st'.queue st'.router.src)
    (hacked : ∀ k ∈ st'.acked, k ∈ st.acked ∨ ∃ x ∈ st'.onTheWay, x.2.owes = true ∧
      (InboundKey.mk tenant x.1.eventId).key = k) (hacc : Accounts st.onTheWay st'.onTheWay [] []) :
    st.Moves tenant st' := by
  have hholds : st'.holds = st'.onTheWay ++ (st.actorsHold ++ st.router.holds (isSettled st.routerAnswer)) := by
    rw [holds, rest, actorsHold, hactors, hrouter, hanswer, List.append_assoc]
    rfl
  refine ⟨hstore, ⟨hactors ▸ h.shape, hdriven, hactors ▸ hrouter ▸ h.evicting⟩, fun k hk => ?_, [], [],
    by rw [hdropped, List.append_nil], by rw [hlog, List.append_nil], ?_⟩
  · refine (hacked k hk).imp_right fun ⟨x, hx, ho⟩ => ⟨x, ?_, ho⟩
    rw [hholds]
    exact List.mem_append_left _ hx
  · rw [hholds, holds, rest, List.append_assoc]
    exact hacc.append (.refl _)

variable {event : InboundEvent} {fits : Bool}

/-- The driver hands the message at the head of the channel to the router, or keeps it. -/
theorem send_moves {channel : List InboundEvent} (h : st.WF) (hdriver : st.driver ≠ .waiting)
    (hch : st.driver.holds ++ waiting st.channel = (event, Stage.waits) :: waiting channel) :
    st.Moves tenant ({ st with channel := channel }.send event fits) := by
  have hqueue : st.queue = [] := by
    rcases h.driven.retry with hq | ⟨hd, -⟩
    · exact hq
    · exact absurd hd hdriver
  have hretry : st.router.src = .retry := by
    cases hs : st.router.src with
    | retry => rfl
    | queue =>
      have hd := h.driven
      rw [hs] at hd
      exact absurd hd.1 hdriver
  have hway : st.onTheWay = st.handlers.flatMap Handler.holds ++ ((event, Stage.waits) :: waiting channel) ++
      waiting (st.retries.map (·.event)) := by
    rw [onTheWay, hqueue, waiting_nil, List.nil_append, hch]
  unfold send
  split
  · refine intake_moves h rfl rfl rfl rfl rfl rfl ?_ (fun k hk => .inl hk) ?_
    · show Driven .waiting (st.queue ++ [event]) st.router.src
      rw [hretry]
      exact .inr ⟨rfl, event, by simp [hqueue]⟩
    · rw [hway]
      refine (Accounts.refl _).perm (.refl _) (.of_eq ?_)
      simp [onTheWay, hqueue, DriverPc.holds]
  · refine intake_moves h rfl rfl rfl rfl rfl rfl ?_ (fun k hk => .inl hk) ?_
    · show Driven (.backoff event) st.queue st.router.src
      rw [hretry]
      exact .inl hqueue
    · rw [hway]
      refine (Accounts.refl _).perm (.refl _) (.of_eq ?_)
      simp [onTheWay, hqueue, DriverPc.holds]

theorem drive_moves (h : st.WF) : st.Moves tenant (st.drive fits) := by
  unfold drive
  split
  · next hd =>
    split
    · exact (Passes.refl h).moves
    · next hch => exact send_moves h (by rw [hd]; nofun) (by rw [hd, hch]; rfl)
  · next event hd =>
    have hst : st.send event fits = { st with channel := st.channel }.send event fits := rfl
    rw [hst]
    exact send_moves h (by rw [hd]; nofun) (by rw [hd]; rfl)
  · exact (Passes.refl h).moves

variable {i : ℕ} {e : Event}

/-- A handler call in front of the others. -/
theorem onTheWay_split {handler : Handler} (hi : st.handlers[i]? = some handler) :
    (handler.holds ++ { st with handlers := st.handlers.eraseIdx i }.onTheWay).Perm st.onTheWay := by
  obtain ⟨hlt, rfl⟩ := List.getElem?_eq_some_iff.1 hi
  have h := (List.getElem_cons_eraseIdx_perm hlt).flatMap_right Handler.holds
  rw [List.flatMap_cons] at h
  simp only [onTheWay, ← List.append_assoc]
  exact ((((h.append_right _).append_right _).append_right _).append_right _)

/-- A handler call that changes in front of the others. -/
theorem onTheWay_set (handler : Handler) (hi : i < st.handlers.length) :
    (handler.holds ++ { st with handlers := st.handlers.eraseIdx i }.onTheWay).Perm
      { st with handlers := st.handlers.set i handler }.onTheWay := by
  have h := (List.set_perm_cons_eraseIdx hi handler).symm.flatMap_right Handler.holds
  rw [List.flatMap_cons] at h
  simp only [onTheWay, ← List.append_assoc]
  exact ((((h.append_right _).append_right _).append_right _).append_right _)

theorem onTheWay_channel (st : Bridge) (event : InboundEvent) :
    ((event, Stage.waits) :: st.onTheWay).Perm { st with channel := st.channel ++ [event] }.onTheWay := by
  simp only [onTheWay, waiting_append, waiting_cons, waiting_nil, ← List.append_assoc]
  refine .trans (.of_eq (List.cons_append).symm) (.append_right _ ?_)
  exact (List.perm_append_singleton _ _).symm

theorem handled_moves {accepted : Bool} (h : st.WF) : st.Moves tenant (st.handled tenant i accepted) := by
  unfold handled
  split
  · next delivered r abandoned hi =>
    have hsplit := onTheWay_split hi
    dsimp only
    split
    · next event hout =>
      have hholds : Handler.holds ⟨delivered, some r, abandoned⟩ = [(event, Stage.handed)] := by
        simp [Handler.holds, hout]
      rw [hholds] at hsplit
      split
      · refine intake_moves h rfl rfl rfl rfl rfl rfl h.driven (fun k hk => ?_) ?_
        · rcases List.mem_cons.1 hk with rfl | hk
          · refine .inr ⟨(event, .waits), ?_, rfl, rfl⟩
            exact (onTheWay_channel { st with handlers := st.handlers.eraseIdx i } event).mem_iff.1 List.mem_cons_self
          · exact .inl hk
        · exact (Accounts.queue.append (.refl _)).perm hsplit (onTheWay_channel _ event)
      · refine intake_moves h rfl rfl rfl rfl rfl rfl h.driven (fun k hk => .inl hk) ?_
        refine ((Accounts.of_dropped (d := []) ?_).append (.refl _)).perm hsplit (.refl _)
        intro x hx ho
        rw [List.mem_singleton.1 hx] at ho
        cases ho
    · next hout =>
      have hholds : Handler.holds ⟨delivered, some r, abandoned⟩ = [] := by simp [Handler.holds, hout]
      rw [hholds] at hsplit
      refine intake_moves h rfl rfl rfl rfl rfl rfl h.driven (fun k hk => .inl hk) ?_
      exact (Accounts.refl _).perm hsplit (.refl _)
  · exact (Passes.refl h).moves

theorem abandon_moves (h : st.WF) : st.Moves tenant (st.abandon i) := by
  unfold abandon
  split
  · next event abandoned hi =>
    have hsplit := onTheWay_split hi
    have hset := onTheWay_set ⟨event, none, true⟩ (List.getElem?_eq_some_iff.1 hi).1
    exact intake_moves h rfl rfl rfl rfl rfl rfl h.driven (fun k hk => .inl hk) ((Accounts.refl _).perm hsplit hset)
  · next r abandoned hi =>
    refine intake_moves h rfl rfl rfl rfl rfl rfl h.driven (fun k hk => .inl hk) ?_
    refine ((Accounts.of_dropped (d := []) ?_).append (.refl _)).perm (onTheWay_split hi) (.refl _)
    intro x hx ho
    obtain ⟨event, -, rfl⟩ := List.mem_map.1 hx
    cases ho
  · exact (Passes.refl h).moves

theorem deliver_moves (h : st.WF) :
    st.Moves tenant { st with handlers := st.handlers ++ [⟨event, none, false⟩] } := by
  refine intake_moves h rfl rfl rfl rfl rfl rfl h.driven (fun k hk => .inl hk) ?_
  refine (Accounts.refl _).perm (.refl _) (.of_eq ?_)
  simp [onTheWay, Handler.holds]

/-- **A step without the store accounts for what the bridge held.** -/
theorem quiet_moves {C : Codec} {I : InboundCodec} (h : st.WF) (he : e.isQuiet = true) :
    st.Moves tenant (st.stepRunning C I tenant fromStr e) := by
  cases e with
  | deliver event => exact deliver_moves h
  | handled i accepted => exact handled_moves h
  | abandon i => exact abandon_moves h
  | drive fits => exact drive_moves h
  | router env => exact (routerStep_passes h).moves
  | actor scope env => exact actorStep_moves h
  | supervise access =>
    exact intake_moves h rfl rfl rfl rfl rfl rfl h.driven (fun k hk => .inl hk) (.refl _)
  | register | routerStore | actorStore | sweep | restart => cases he

/-! ## Answers of the store -/

/-- Every copy but a command that has run. -/
def copies (s : Stage) : Bool := s ≠ .ran

theorem counting_copies : Counting copies := ⟨rfl, rfl, rfl, rfl⟩

def hasKey (tenant : TenantNamespace) (k : String × String) (event : InboundEvent) : Bool :=
  (InboundKey.mk tenant event.eventId).key = k

/-- What an answer `Ok` to the request `op` does to what was held for it. -/
structure Settles (tenant : TenantNamespace) (op : InboundOp) (before after : List Held) : Prop where
  owed : ∀ h ∈ before, h.2.owes = true → (∃ h' ∈ after, h'.2.owes = true ∧ h'.1.eventId = h.1.eventId) ∨
    (InboundKey.mk tenant h.1.eventId).key ∈ op.settles
  counted : ∀ q, Counting q → ∀ p, weigh q p after ≤ weigh q p before
  ends : ∀ k ∈ op.ends, weigh copies (hasKey tenant k) after + 1 ≤ weigh copies (hasKey tenant k) before

variable {op : InboundOp} {stage : Stage} {batch : List TurnInbound}

/-- The request is about one message, which goes. -/
theorem Settles.one (hsettles : (InboundKey.mk tenant event.eventId).key ∈ op.settles)
    (hends : ∀ k ∈ op.ends, k = (InboundKey.mk tenant event.eventId).key ∧ stage ≠ .ran) (hs : List Held) :
    Settles tenant op ((event, stage) :: hs) hs where
  owed := by
    intro x hx ho
    rcases List.mem_cons.1 hx with rfl | hx
    · exact .inr hsettles
    · exact .inl ⟨x, hx, ho, rfl⟩
  counted := by
    intro q _ p
    rw [weigh_cons]
    exact Nat.le_add_right _ _
  ends := by
    intro k hk
    obtain ⟨rfl, hstage⟩ := hends k hk
    have hc : copies stage = true := by simpa [copies] using hstage
    rw [weigh_cons, hc]
    simp [hasKey]

theorem weigh_boundAll {k : String × String} (hk : k ∈ batch.map fun item => (item.inbound.key tenant).key) :
    1 ≤ weigh copies (hasKey tenant k) (boundAll batch) := by
  obtain ⟨item, hitem, rfl⟩ := List.mem_map.1 hk
  refine List.countP_pos_iff.2 ⟨_, List.mem_map.2 ⟨item, hitem, rfl⟩, ?_⟩
  simp [copies, hasKey, ActorInbound.key]

theorem Settles.perm {a : List Held} (h : Settles tenant op b a) (hb : b.Perm b') : Settles tenant op b' a where
  owed := fun x hx => h.owed x (hb.mem_iff.2 hx)
  counted := fun q hq p => weigh_perm hb ▸ h.counted q hq p
  ends := fun k hk => weigh_perm hb ▸ h.ends k hk

theorem Settles.perm_after {a a' : List Held} (h : Settles tenant op b a) (ha : a.Perm a') :
    Settles tenant op b a' where
  owed := by
    intro x hx ho
    refine (h.owed x hx ho).imp_left ?_
    exact fun ⟨y, hy, hyo⟩ => ⟨y, ha.mem_iff.1 hy, hyo⟩
  counted := fun q hq p => weigh_perm ha ▸ h.counted q hq p
  ends := fun k hk => weigh_perm ha ▸ h.ends k hk

theorem Settles.append {a : List Held} (h : Settles tenant op b a) (hs : List Held) :
    Settles tenant op (hs ++ b) (hs ++ a) where
  owed := by
    intro x hx ho
    rcases List.mem_append.1 hx with hx | hx
    · exact .inl ⟨x, List.mem_append_left _ hx, ho, rfl⟩
    · refine (h.owed x hx ho).imp_left ?_
      exact fun ⟨y, hy, hyo⟩ => ⟨y, List.mem_append_right _ hy, hyo⟩
  counted := by
    intro q hq p
    rw [weigh_append, weigh_append]
    exact Nat.add_le_add_left (h.counted q hq p) _
  ends := by
    intro k hk
    have hends := h.ends k hk
    rw [weigh_append, weigh_append]
    omega

/-- Media whose row is completed are to be staged. -/
theorem Settles.staging (hsettles : (InboundKey.mk tenant event.eventId).key ∈ op.settles) (hends : op.ends = []) :
    Settles tenant op [(event, .waits)] [(event, .staging)] where
  owed := by
    intro x hx _
    rw [List.mem_singleton.1 hx]
    exact .inr hsettles
  counted := by
    intro q hq p
    simp [hq.waits, hq.staging]
  ends := by simp [hends]

theorem Settles.claim {turn : NewTurnRow} : Settles tenant
    (.beginTurnAndClaimInbound turn (batch.map fun item => (item.inbound.key tenant, some item.inbound.event)))
      (boundAll batch) [] where
  owed := by
    intro x hx _
    obtain ⟨item, hitem, rfl⟩ := List.mem_map.1 hx
    refine .inr (List.mem_map.2 ⟨_, List.mem_map.2 ⟨item, hitem, rfl⟩, rfl⟩)
  counted := by simp
  ends := by
    intro k hk
    refine (Nat.zero_add 1).symm ▸ weigh_boundAll ?_
    simpa [InboundOp.ends, Function.comp_def] using hk

/-- A request about turns only. -/
theorem Settles.nothing (hends : op.ends = []) : Settles tenant op [] [] := ⟨by simp, by simp, by simp [hends]⟩

theorem Settles.complete (hends : op.ends = []) (hsettles : (InboundKey.mk tenant event.eventId).key ∈ op.settles) :
    Settles tenant op [(event, stage)] [] := by
  refine .one hsettles (fun k hk => ?_) []
  rw [hends] at hk
  cases hk

theorem Settles.reject {item : ActorInbound} {notice : NewOutboxRow} (stage : Stage) (hstage : stage ≠ .ran)
    (hs : List Held) :
    Settles tenant (item.rejectOp tenant reason notice) ((item.event, stage) :: hs) hs := by
  refine .one (List.mem_singleton_self _) (fun k hk => ⟨?_, hstage⟩) hs
  exact List.mem_singleton.1 hk

/-- **What the request of an actor settles**, one case for each await of the store. -/
theorem actorPc_settles {pc : ActorPc} (hop : pc.op tenant = some op) : Settles tenant op (pc.holds false) (pc.holds true) := by
  unfold ActorPc.op at hop
  split at hop
  · cases hop
    exact (Settles.reject .bound nofun []).append _
  · cases hop
    exact (Settles.staging (List.mem_singleton_self _) rfl).append _
  · cases hop
    exact .reject .bound nofun []
  · cases hop
    exact .complete rfl (List.mem_singleton_self _)
  · cases hop
    exact .reject .bound nofun _
  · cases hop
    exact .reject .bound nofun _
  · cases hop
    exact .claim
  · cases hop
    exact .nothing rfl
  · cases hop
    exact .nothing rfl
  · cases hop

theorem routerPc_settles (hop : pc.op tenant = some op) :
    Settles tenant op (pc.holds false) (pc.holds true) := by
  unfold RouterPc.op at hop
  split at hop
  · cases hop
    exact .complete rfl (List.mem_singleton_self _)
  · cases hop
    exact .reject .waits nofun []
  · cases hop

theorem actorPc_keepsRows {pc : ActorPc} (hop : pc.op tenant = some op) : op.keepsRows = true := by
  unfold ActorPc.op at hop
  split at hop <;> cases hop <;> rfl

theorem routerPc_keepsRows (hop : pc.op tenant = some op) : op.keepsRows = true := by
  unfold RouterPc.op at hop
  split at hop <;> cases hop <;> rfl

/-- The store ran the request `op` and answered `r`. -/
structure Asks (C : Codec) (I : InboundCodec) (tenant : TenantNamespace) (st : Bridge) (fate : Fate) (now : ℤ)
    (op : InboundOp) (st' : Bridge) : Prop where
  store : st'.store = (st.store.callOp C I fate now op).2
  wf : st'.WF
  acked : st'.acked = st.acked
  dropped : st'.dropped = st.dropped
  log : st'.log = st.log
  keepsRows : op.keepsRows = true
  settled : (st.store.callOp C I fate now op).1.isOk = true → Settles tenant op st.holds st'.holds
  unsettled : (st.store.callOp C I fate now op).1.isOk = false → st'.holds.Perm st.holds

variable {C : Codec} {I : InboundCodec} {fate : Fate} {now : ℤ}

theorem isSettled_some (r : Except StoreError OpReply) : isSettled (some r) = r.isOk := by
  cases r <;> rfl

theorem routerStore_asks (h : st.WF) : st.routerStore C I tenant fate now = st ∨
    ∃ op, st.Asks C I tenant fate now op (st.routerStore C I tenant fate now) := by
  unfold routerStore
  split
  · next op hop hanswer =>
    refine .inr ⟨op, rfl, ⟨h.shape, h.driven, h.evicting⟩, rfl, rfl, rfl, routerPc_keepsRows hop, fun hok => ?_,
      fun herr => ?_⟩
    · have hs := (routerPc_settles hop).append st.rest
      rw [holds, hanswer]
      show Settles tenant op _ (st.rest ++ st.router.holds (isSettled (some _)))
      rw [isSettled_some, hok]
      exact hs
    · show (st.rest ++ st.router.holds (isSettled (some _))).Perm _
      rw [isSettled_some, herr, holds, hanswer]
      rfl
  · exact .inl rfl

theorem actorStore_asks (h : st.WF) : st.actorStore C I tenant scope fate now = st ∨
    ∃ op, st.Asks C I tenant fate now op (st.actorStore C I tenant scope fate now) := by
  unfold actorStore
  split
  · exact .inl rfl
  · next a ha =>
    split
    · next op hop hanswer =>
      obtain ⟨hmem, hs⟩ := findActor_some ha
      obtain ⟨others, hbefore, hafter⟩ := setActor_holds h.shape hmem hs
      generalize hcall : st.store.callOp C I fate now op = answer
      obtain ⟨r, store⟩ := answer
      let a' : Actor := { a with answer := some r }
      have hwf : a'.WF := ⟨(h.shape.actors a hmem).collects, (h.shape.actors a hmem).ended⟩
      have hevicting : NoActor (st.setActor scope a').actors st.router := by
        have hev := h.evicting
        cases hr : st.router with
        | evicting src item victim =>
          rw [hr] at hev
          intro b hb
          obtain ⟨b', hb', hscope⟩ := setActor_scopes h.shape hmem hs (show a'.scope = a.scope from rfl) b hb
          rw [← hscope]
          exact hev b' hb'
        | _ => trivial
      -- the request of the actor moved to the end
      have hlast : ∀ (hs hold : List Held), (a.rest ++ hs ++ others).Perm hold →
          (st.onTheWay ++ (a.rest ++ others) ++ st.router.holds (isSettled st.routerAnswer) ++ hs).Perm
            (st.onTheWay ++ hold ++ st.router.holds (isSettled st.routerAnswer)) := by
        intro hs hold hperm
        refine .trans ?_ ((hperm.append_left _).append_right _)
        simp only [List.append_assoc]
        refine .append_left _ (.append_left _ ?_)
        rw [← List.append_assoc]
        exact List.perm_append_comm
      have hbefore' := hlast (a.pc.holds false) st.actorsHold (by
        have := hbefore
        rw [Actor.holds, hanswer] at this
        exact this)
      have hafter' := hlast (a.pc.holds (isSettled (some r))) (st.setActor scope a').actorsHold (hafter a')
      refine .inr ⟨op, congrArg Prod.snd hcall.symm, ⟨setActor_shape h.shape hmem hs rfl hwf, h.driven, hevicting⟩, rfl, rfl,
        rfl, actorPc_keepsRows hop, fun hok => ?_, fun herr => ?_⟩
      · rw [hcall] at hok
        rw [isSettled_some, hok] at hafter'
        exact (((actorPc_settles hop).append _).perm hbefore').perm_after hafter'
      · rw [hcall] at herr
        rw [isSettled_some, herr] at hafter'
        exact hafter'.symm.trans hbefore'
    · exact .inl rfl

/-! ## Steps -/

/-- **What a step can do.** -/
inductive Step (C : Codec) (I : InboundCodec) (tenant : TenantNamespace) (st : Bridge) : Event → Bridge → Prop where
  /-- A step without the store, or none. -/
  | moves {e : Event} {st' : Bridge} (h : st.Moves tenant st') : Step C I tenant st e st'
  | register (i : ℕ) (fate : Fate) (now : ℤ) :
    Step C I tenant st (.register i fate now) (st.register C I tenant i fate now)
  /-- A request of the router or an actor. -/
  | asks {e : Event} {st' : Bridge} (fate : Fate) (now : ℤ) (op : InboundOp) (h : st.Asks C I tenant fate now op st') :
    Step C I tenant st e st'
  | sweep (fate : Fate) (now olderThanMs : ℤ) (maxRows : ℕ) :
    Step C I tenant st (.sweep fate now olderThanMs maxRows)
      { st with store := (st.store.callOp C I fate now (.sweepInbound olderThanMs maxRows)).2 }
  | restart (inner : LiveInner) (fate : Fate) (now : ℤ) (accepted : Bool) :
    Step C I tenant st (.restart inner fate now accepted) (st.restart C I tenant inner fate now accepted)

theorem Step.of_asks (h : st.WF) (ha : st' = st ∨ ∃ op, st.Asks C I tenant fate now op st') :
    Step C I tenant st e st' := by
  rcases ha with rfl | ⟨op, ha⟩
  · exact .moves (Passes.refl h).moves
  · exact .asks fate now op ha

theorem step_cases (h : st.WF) (e : Event) : Step C I tenant st e (st.step C I tenant fromStr e) := by
  have idle : Step C I tenant st e st := .moves (Passes.refl h).moves
  unfold step
  cases e with
  | restart inner fate now accepted => exact .restart inner fate now accepted
  | register i fate now =>
    dsimp only
    split
    · exact .register i fate now
    · exact idle
  | routerStore fate now =>
    dsimp only
    split
    · exact .of_asks h (routerStore_asks h)
    · exact idle
  | actorStore scope fate now =>
    dsimp only
    split
    · exact .of_asks h (actorStore_asks h)
    · exact idle
  | sweep fate now olderThanMs maxRows =>
    dsimp only
    split
    · exact .sweep fate now olderThanMs maxRows
    · exact idle
  | deliver | handled | abandon | drive | router | actor | supervise =>
    dsimp only
    split
    · exact .moves (quiet_moves h rfl)
    · exact idle

end Bridge

end LarkCodexBridge.Runtime
