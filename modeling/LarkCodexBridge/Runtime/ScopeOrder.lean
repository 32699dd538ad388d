import LarkCodexBridge.Runtime.Received

/-!
# The order in which a scope accepts its messages

A run of the bridge with the positions at which the driver took the messages from the inbound channel. The driver has
one message at a time; one whose rejection could not be stored leaves it for the retry lane, from where it is routed
again while later messages go on.

* `Outcome`: what a step of the router can do with the message it has in hand;
* `Lined.step`: the positions that wait are later than those accepted in the same scope, as long as nothing is accepted
  past an earlier message of its scope in the lane;
* `accepted_in_order`, `retry_lane_reorders`.
-/

namespace LarkCodexBridge.Runtime

open Limits Lark Store Outbox SqlTable StepSystem

namespace Bridge

/-- The commands in the mailbox of a scope. -/
def mailbox (st : Bridge) (scope : ScopeKey) : List ScopeCommand := ((st.findActor scope.toString).map (·.mailbox)).getD []

/-- The message that the router has in hand during a step. -/
def inHand (st : Bridge) (env : RouterEnv) : Option (RouteSource × ActorInbound) :=
  match st.router, env.wake with
  | .waiting _, .message => st.queue.head?.map fun event => (.queue, ⟨event, st.live.version⟩)
  | .waiting _, .retry => st.retries.head?.map (.retry, ·)
  | .waiting _, .other => none
  | pc, _ => pc.inHand

/-- The bridge once the router has that message. -/
def picked (st : Bridge) (env : RouterEnv) : Bridge :=
  match st.router, env.wake with
  | .waiting _, .message => { st with queue := st.queue.tail }
  | .waiting _, .retry => { st with retries := st.retries.tail }
  | _, _ => st

/-- The driver once its message is routed. -/
def driverAfter (src : RouteSource) (driver : DriverPc) : DriverPc :=
  match src with
  | .queue => .idle
  | .retry => driver

/-- What a step of the router can do with the message in hand. -/
inductive Outcome (st : Bridge) (src : RouteSource) (item : ActorInbound) (st' : Bridge) : Prop
  | stopped (running : st'.running = false)
  | left (queue : st'.queue = st.queue) (retries : st'.retries = st.retries) (router : st'.router.inHand = none)
      (driver : st'.driver = driverAfter src st.driver)
  | aside (queue : st'.queue = st.queue) (retries : st'.retries = st.retries ++ [item]) (router : st'.router.inHand = none)
      (driver : st'.driver = driverAfter src st.driver) (mailbox : st'.mailbox item.event.scope = st.mailbox item.event.scope)
  | works (queue : st'.queue = st.queue) (retries : st'.retries = st.retries) (router : st'.router.inHand = some (src, item))
      (driver : st'.driver = st.driver) (mailbox : st'.mailbox item.event.scope = st.mailbox item.event.scope)

variable {tenant : TenantNamespace} {fromStr : String → Option String} {st st' : Bridge} {env : RouterEnv}
  {src : RouteSource} {item : ActorInbound} {scope : ScopeKey} {c : Copies} {i : ℕ} {fate : Fate} {now : ℤ}

/-! ## Outcomes -/

/-- Only what the outcome mentions of the state before counts. -/
theorem Outcome.of_eq {st₁ : Bridge} (h : Outcome st₁ src item st') (hq : st₁.queue = st.queue)
    (hr : st₁.retries = st.retries) (hd : st₁.driver = st.driver)
    (hm : st₁.mailbox item.event.scope = st.mailbox item.event.scope) : Outcome st src item st' := by
  cases h with
  | stopped running => exact .stopped running
  | left queue retries router driver => exact .left (queue.trans hq) (retries.trans hr) router (hd ▸ driver)
  | aside queue retries router driver mailbox =>
    exact .aside (queue.trans hq) (hr ▸ retries) router (hd ▸ driver) (mailbox.trans hm)
  | works queue retries router driver mailbox =>
    exact .works (queue.trans hq) (retries.trans hr) router (driver.trans hd) (mailbox.trans hm)

theorem routed_outcome : Outcome st src item (st.routed src) := by
  cases src with
  | queue => exact .left rfl rfl rfl rfl
  | retry => exact .left rfl rfl rfl rfl

theorem mailbox_of_none (h : ∀ a ∈ st.actors, a.scope.toString ≠ scope.toString) :
    st.mailbox scope = [] := by
  unfold mailbox findActor
  rw [List.find?_eq_none.2 fun a ha => by simpa using h a ha]
  rfl

theorem mailbox_spawn {settings : RouterSettings} (h : ∀ a ∈ st.actors, a.scope.toString ≠ scope.toString) :
    { st with actors := st.actors ++ [Actor.spawn scope settings] }.mailbox scope = [] := by
  unfold mailbox findActor
  rw [List.find?_append, List.find?_eq_none.2 fun a ha => by simpa using h a ha]
  simp [Actor.spawn]

/-- Whatever becomes of the message in hand. -/
theorem Handles.outcome {copies : Option Copies} (h : Handles True copies src item st st') : Outcome st src item st' := by
  induction h with
  | lost st =>
    cases src with
    | queue => exact .stopped rfl
    | retry => exact .left rfl rfl rfl rfl
  | later st =>
    cases src with
    | queue | retry => exact .aside rfl rfl rfl rfl rfl
  | works hin => exact .works rfl rfl hin rfl rfl
  | takes =>
    cases src with
    | queue => exact .left rfl rfl rfl rfl
    | retry => exact .left rfl rfl rfl rfl
  | decides _ _ ih => exact ih.of_eq rfl rfl rfl rfl
  | spawns hnone _ ih => exact ih.of_eq rfl rfl rfl ((mailbox_spawn (hnone trivial)).trans (mailbox_of_none (hnone trivial)).symm)
  | removes _ _ hnone _ ih =>
    refine ih.of_eq rfl rfl rfl (.trans (mailbox_of_none fun b hb => ?_) (mailbox_of_none (hnone trivial)).symm)
    exact hnone trivial b (List.mem_of_mem_filter hb)
  | @cancels st _ a ha hnone _ ih =>
    refine ih.of_eq rfl rfl rfl (.trans (mailbox_of_none fun b hb => ?_) (mailbox_of_none hnone).symm)
    obtain ⟨b', hb', rfl⟩ := List.mem_map.1 hb
    split
    · exact hnone a ha
    · exact hnone b' hb'

/-- A step of the router with nothing in hand. -/
structure Rests (st st' : Bridge) : Prop where
  queue : st'.queue = st.queue
  retries : st'.retries = st.retries
  driver : st'.driver = st.driver
  router : st'.router.inHand = none

/-- **What a step of the router can do.** -/
theorem routerStep_cases (h : st.WF) :
    (st.inHand env = none ∧ Rests st (st.routerStep fromStr env)) ∨
      ∃ src item, st.inHand env = some (src, item) ∧ Outcome (st.picked env) src item (st.routerStep fromStr env) := by
  have hto : RouterTo True env st (st.routerStep fromStr env) := routerStep_to fun _ => h.unserved
  generalize st.routerStep fromStr env = st' at hto
  -- a message that the router has in hand already
  have hand : ∀ {src item}, st.router.inHand = some (src, item) → Outcome st src item st' →
      ∃ src item, st.inHand env = some (src, item) ∧ Outcome (st.picked env) src item st' := by
    intro src item hin hout
    cases hr : st.router with
    | loopTop | readSettings | waiting =>
      rw [hr] at hin
      cases hin
    | completing | rejecting | readThread | evicting =>
      exact ⟨src, item, by simpa only [inHand, hr] using hin, by simpa only [picked, hr] using hout⟩
  cases hto with
  | readsPolicy hr | readsSettings hr => exact .inl ⟨by simp only [inHand, hr, RouterPc.inHand], rfl, rfl, rfl, rfl⟩
  | wakes hr hw => exact .inl ⟨by simp only [inHand, hr, hw], rfl, rfl, rfl, rfl⟩
  | idles hr hw =>
    have hin : st.router.inHand = none := by rw [hr]; rfl
    refine .inl ⟨?_, rfl, rfl, rfl, hin⟩
    rcases hw with ⟨hw, hq⟩ | ⟨hw, hq⟩ <;> simp [inHand, hr, hw, hq]
  | @message c event queue _ hr hw hq hh =>
    have hpicked : st.picked env = { st with queue := queue } := by simp only [picked, hr, hw, hq, List.tail_cons]
    exact .inr ⟨.queue, ⟨event, st.live.version⟩, by simp [inHand, hr, hw, hq], hpicked ▸ hh.outcome⟩
  | @retry c item retries _ hr hw hq hh =>
    have hpicked : st.picked env = { st with retries := retries } := by simp only [picked, hr, hw, hq, List.tail_cons]
    exact .inr ⟨.retry, item, by simp [inHand, hr, hw, hq], hpicked ▸ hh.outcome⟩
  | waits hin => exact .inr (hand hin (.works rfl rfl hin rfl rfl))
  | settles hin => exact .inr (hand hin routed_outcome)
  | fails hin _ hh | resumes hin _ hh => exact .inr (hand hin hh.outcome)

/-! ## Positions -/

/-- A bridge with the messages that its drivers took, and the positions in that list of the message that the router
works on, of those in the retry lane and of those that scope actors accepted. -/
structure Ordered where
  bridge : Bridge
  taken : List InboundEvent
  hand : ℕ
  lane : List ℕ
  accepted : List (ℕ × InboundEvent)

/-- The position of the message in hand during a step of the router, and the lane without it. -/
def Ordered.pickedAt (s : Ordered) (env : RouterEnv) : ℕ × List ℕ :=
  match s.bridge.router, env.wake with
  | .waiting _, .message => (s.taken.length - 1, s.lane)
  | .waiting _, .retry => (s.lane.headD 0, s.lane.tail)
  | _, _ => (s.hand, s.lane)

/-- The mailbox of the scope of the message has grown: `try_route` or `try_route_control` has succeeded. -/
def Accepts (st st' : Bridge) (item : ActorInbound) : Prop :=
  (st.mailbox item.event.scope).length < (st'.mailbox item.event.scope).length

instance (st st' : Bridge) (item : ActorInbound) : Decidable (Accepts st st' item) :=
  inferInstanceAs (Decidable (_ < _))

/-- What the driver takes from the inbound channel. -/
def takes (st : Bridge) : List InboundEvent :=
  if st.running ∧ st.driver = .idle then st.channel.take 1 else []

section Order

variable (C : Codec) (I : InboundCodec) (tenant : TenantNamespace) (fromStr : String → Option String)

/-- One event, with the positions. -/
def orderStep (s : Ordered) (e : Event) : Ordered :=
  let st' := s.bridge.step C I tenant fromStr e
  match e with
  | .restart _ _ _ _ => { s with bridge := st', lane := [] }
  | .drive _ => { s with bridge := st', taken := s.taken ++ s.bridge.takes }
  | .router env =>
    match s.bridge.inHand env with
    | none => { s with bridge := st' }
    | some (_, item) =>
      if s.bridge.running then
        let (n, lane) := s.pickedAt env
        { s with
          bridge := st'
          hand := n
          lane := if lane.length < st'.retries.length then lane ++ [n] else lane
          accepted := if Accepts s.bridge st' item then s.accepted ++ [(n, item.event)] else s.accepted }
      else { s with bridge := st' }
  | _ => { s with bridge := st' }

/-- Before the first start. -/
def orderedInitial (inner : LiveInner) : Ordered := ⟨initial inner, [], 0, [], []⟩

/-- Whenever a scope actor accepts a message, no message of the scope that was taken earlier is in the retry lane. -/
def Unovertaking (s : Ordered) (e : Event) : Prop :=
  match e with
  | .router env =>
    match s.bridge.inHand env with
    | none => True
    | some (_, item) =>
      s.bridge.running = true → Accepts s.bridge (s.bridge.step C I tenant fromStr e) item →
        ∀ m ∈ (s.pickedAt env).2, ∀ event ∈ s.taken[m]?, event.scope = item.event.scope → (s.pickedAt env).1 < m
  | _ => True

end Order

/-! ## The invariant -/

/-- Positions before this one belong to messages that the driver is done with. -/
def Ordered.bound (s : Ordered) : ℕ :=
  if s.bridge.driver = .idle then s.taken.length else s.taken.length - 1

/-- The position belongs to a message that may still be accepted. -/
def Ordered.Waits (s : Ordered) (m : ℕ) : Prop :=
  m ∈ s.lane ∨ (s.bridge.router.inHand ≠ none ∧ m = s.hand) ∨ (s.bridge.driver ≠ .idle ∧ m + 1 = s.taken.length)

/-- In a running bridge the positions belong to the messages, and those that wait are later than those accepted in the
same scope. -/
structure Lined (s : Ordered) : Prop where
  lane : List.Forall₂ (fun n (item : ActorInbound) => s.taken[n]? = some item.event) s.lane s.bridge.retries
  laneBound : ∀ n ∈ s.lane, n < s.bound
  hand : ∀ src item, s.bridge.router.inHand = some (src, item) → s.taken[s.hand]? = some item.event
  queued : ∀ item, s.bridge.router.inHand = some (.queue, item) → s.hand + 1 = s.taken.length
  retried : ∀ item, s.bridge.router.inHand = some (.retry, item) → s.hand < s.bound
  driven : ∀ event, s.bridge.driver = .backoff event ∨ event ∈ s.bridge.queue → s.taken.getLast? = some event
  order : ∀ x ∈ s.accepted, ∀ m, s.Waits m → ∀ event, s.taken[m]? = some event → event.scope = x.2.scope → x.1 < m

/-- The accepted messages are where their positions say, and in their order within each scope. -/
structure InOrder (s : Ordered) : Prop where
  taken : ∀ x ∈ s.accepted, s.taken[x.1]? = some x.2
  order : s.accepted.Pairwise fun x y => x.2.scope = y.2.scope → x.1 < y.1

structure Sorted (tenant : TenantNamespace) (s : Ordered) : Prop where
  kept : s.bridge.Kept tenant
  inOrder : InOrder s
  lined : s.bridge.running = true → Lined s

/-! ## Router steps -/

section Router

variable {s : Ordered}

theorem Ordered.bound_idle (h : s.bridge.driver = .idle) : s.bound = s.taken.length := if_pos h

theorem Ordered.bound_busy (h : s.bridge.driver ≠ .idle) : s.bound = s.taken.length - 1 := if_neg h

theorem Ordered.bound_le (s : Ordered) : s.bound ≤ s.taken.length := by
  unfold Ordered.bound
  split
  · exact le_rfl
  · exact Nat.sub_le _ _

/-- The message in hand is where its position says, and the rest of the lane is as before. -/
structure Picked (s : Ordered) (env : RouterEnv) (src : RouteSource) (item : ActorInbound) : Prop where
  lane : List.Forall₂ (fun n (item : ActorInbound) => s.taken[n]? = some item.event) (s.pickedAt env).2
    (s.bridge.picked env).retries
  sublist : ∀ m ∈ (s.pickedAt env).2, m ∈ s.lane
  taken : s.taken[(s.pickedAt env).1]? = some item.event
  waits : s.Waits (s.pickedAt env).1
  queued : src = .queue → s.bridge.driver ≠ .idle ∧ (s.pickedAt env).1 + 1 = s.taken.length
  retried : src = .retry → (s.pickedAt env).1 < s.bound
  queue : ∀ event ∈ (s.bridge.picked env).queue, event ∈ s.bridge.queue ∧ src = .retry

theorem picked_of_hand {pc : RouterPc} (h : Lined s) (hwf : s.bridge.WF) (hr : s.bridge.router = pc)
    (hpc : pc.inHand = some (src, item)) (hat : s.pickedAt env = (s.hand, s.lane)) (hp : s.bridge.picked env = s.bridge) :
    Picked s env src item := by
  have hin : s.bridge.router.inHand = some (src, item) := by rw [hr, hpc]
  have hsrc : s.bridge.router.src = src := by
    rw [hr]
    cases pc <;> simp [RouterPc.inHand] at hpc <;> exact hpc.1
  have hd := hwf.driven
  rw [hsrc] at hd
  refine ⟨by rw [hat, hp]; exact h.lane, fun m hm => by rw [hat] at hm; exact hm, by rw [hat]; exact h.hand src item hin,
    by rw [hat]; exact .inr (.inl ⟨by rw [hin]; exact nofun, rfl⟩), fun hq => ?_, fun hq => ?_, fun event hev => ?_⟩
  · subst hq
    rw [hat]
    exact ⟨by rw [hd.1]; exact nofun, h.queued item hin⟩
  · subst hq
    rw [hat]
    exact h.retried item hin
  · rw [hp] at hev
    refine ⟨hev, ?_⟩
    cases src with
    | retry => rfl
    | queue => rw [hd.2] at hev; cases hev

theorem picked_cases (h : Lined s) (hwf : s.bridge.WF) (hin : s.bridge.inHand env = some (src, item)) :
    Picked s env src item := by
  have hd := hwf.driven
  unfold inHand at hin
  cases hr : s.bridge.router with
  | loopTop => rw [hr] at hin; cases hin
  | readSettings policy => rw [hr] at hin; cases hin
  | waiting c =>
    rw [hr] at hin hd
    cases hw : env.wake with
    | other => rw [hw] at hin; cases hin
    | message =>
      rw [hw] at hin
      have hat : s.pickedAt env = (s.taken.length - 1, s.lane) := by simp only [Ordered.pickedAt, hr, hw]
      have hp : s.bridge.picked env = { s.bridge with queue := s.bridge.queue.tail } := by simp only [picked, hr, hw]
      cases hq : s.bridge.queue with
      | nil => rw [hq] at hin; cases hin
      | cons event queue =>
        rw [hq] at hin
        cases hin
        rcases hd with hd | ⟨hdriver, event', hd⟩
        · rw [hq] at hd; cases hd
        · rw [hq] at hd
          cases hd
          have hlast := h.driven event (.inr (by rw [hq]; exact List.mem_cons_self))
          have hlen : 0 < s.taken.length := by
            cases ht : s.taken with
            | nil => rw [ht] at hlast; cases hlast
            | cons e es => simp
          have hbusy : s.bridge.driver ≠ .idle := by rw [hdriver]; exact nofun
          rw [List.getLast?_eq_getElem?] at hlast
          refine ⟨by rw [hat, hp]; exact h.lane, fun m hm => by rw [hat] at hm; exact hm, by rw [hat]; exact hlast,
            .inr (.inr ⟨hbusy, ?_⟩), fun _ => ⟨hbusy, ?_⟩, nofun, fun event hev => ?_⟩
          · rw [hat]; dsimp only; omega
          · rw [hat]; dsimp only; omega
          · rw [hp, hq] at hev; cases hev
    | retry =>
      rw [hw] at hin
      have hat : s.pickedAt env = (s.lane.headD 0, s.lane.tail) := by simp only [Ordered.pickedAt, hr, hw]
      have hp : s.bridge.picked env = { s.bridge with retries := s.bridge.retries.tail } := by simp only [picked, hr, hw]
      have hlane := h.lane
      cases hq : s.bridge.retries with
      | nil => rw [hq] at hin; cases hin
      | cons retry retries =>
        rw [hq] at hin hlane
        cases hin
        cases hl : s.lane with
        | nil => rw [hl] at hlane; cases hlane
        | cons n lane =>
          rw [hl] at hlane hat
          obtain ⟨hn, hlane⟩ := List.forall₂_cons.1 hlane
          refine ⟨by rw [hat, hp, hq]; exact hlane, fun m hm => ?_, by rw [hat]; exact hn, .inl ?_, nofun, fun _ => ?_,
            fun event hev => ?_⟩
          · rw [hat] at hm
            rw [hl]
            exact List.mem_cons_of_mem _ hm
          · rw [hat, hl]
            exact List.mem_cons_self
          · rw [hat]
            exact h.laneBound n (by rw [hl]; exact List.mem_cons_self)
          · rw [hp] at hev
            exact ⟨hev, rfl⟩
  | completing src' item' | rejecting src' item' reason notice | readThread c src' item' | evicting src' item' victim =>
    rw [hr] at hin
    exact picked_of_hand h hwf hr (by simpa using hin) (by unfold Ordered.pickedAt; rw [hr]) (by unfold picked; rw [hr])

theorem picked_mailbox (scope : ScopeKey) : (st.picked env).mailbox scope = st.mailbox scope := by
  unfold picked
  split <;> rfl

theorem picked_driver : (st.picked env).driver = st.driver := by
  unfold picked
  split <;> rfl

/-- The state after a step of the router with a message in hand. -/
def Ordered.routed (s : Ordered) (st' : Bridge) (env : RouterEnv) (item : ActorInbound) : Ordered :=
  { s with
    bridge := st'
    hand := (s.pickedAt env).1
    lane := if (s.pickedAt env).2.length < st'.retries.length then (s.pickedAt env).2 ++ [(s.pickedAt env).1]
      else (s.pickedAt env).2
    accepted := if Accepts s.bridge st' item then s.accepted ++ [((s.pickedAt env).1, item.event)] else s.accepted }

/-- Nothing is accepted past an earlier message of its scope in the lane. -/
def NotPast (s : Ordered) (st' : Bridge) (env : RouterEnv) (item : ActorInbound) : Prop :=
  Accepts s.bridge st' item → ∀ m ∈ (s.pickedAt env).2, ∀ event, s.taken[m]? = some event →
    event.scope = item.event.scope → (s.pickedAt env).1 < m

/-- What may still be accepted after the step. -/
theorem routed_order (h : Lined s) (hpast : NotPast s st' env item)
    (hwaits : ∀ m, (s.routed st' env item).Waits m → s.Waits m)
    (hfree : Accepts s.bridge st' item → ∀ m, (s.routed st' env item).Waits m →
      m ∈ (s.pickedAt env).2 ∨ (s.pickedAt env).1 < m) :
    ∀ x ∈ (s.routed st' env item).accepted, ∀ m, (s.routed st' env item).Waits m → ∀ event, s.taken[m]? = some event →
      event.scope = x.2.scope → x.1 < m := by
  intro x hx m hm event hev hscope
  unfold Ordered.routed at hx
  dsimp only at hx
  split at hx
  · next hacc =>
    rcases List.mem_append.1 hx with hx | hx
    · exact h.order x hx m (hwaits m hm) event hev hscope
    · cases List.mem_singleton.1 hx
      rcases hfree hacc m hm with hl | hlt
      · exact hpast hacc m hl event hev hscope
      · exact hlt
  · exact h.order x hx m (hwaits m hm) event hev hscope

theorem not_accepts (hm : st'.mailbox item.event.scope = (s.bridge.picked env).mailbox item.event.scope) :
    ¬Accepts s.bridge st' item := by
  unfold Accepts
  rw [hm, picked_mailbox]
  exact Nat.lt_irrefl _

theorem driverAfter_busy {driver : DriverPc} (h : driverAfter src driver ≠ .idle) : src = .retry ∧ driver ≠ .idle := by
  cases src with
  | queue => exact absurd rfl h
  | retry => exact ⟨rfl, h⟩

theorem Lined.router (h : Lined s) (hp : Picked s env src item) (hrun : st'.running = true)
    (hout : Outcome (s.bridge.picked env) src item st') (hpast : NotPast s st' env item) :
    Lined (s.routed st' env item) := by
  have hlen := hp.lane.length_eq
  have hbound : ∀ m ∈ (s.pickedAt env).2, m < s.bound := fun m hm => h.laneBound m (hp.sublist m hm)
  have hlt : (s.pickedAt env).1 < s.taken.length := (List.getElem?_eq_some_iff.1 hp.taken).1
  have hle := s.bound_le
  have hqueue : ∀ st₁ : Bridge, st₁.queue = (s.bridge.picked env).queue → st₁.driver = driverAfter src s.bridge.driver →
      ∀ event, st₁.driver = .backoff event ∨ event ∈ st₁.queue → s.taken.getLast? = some event := by
    intro st₁ hq hd event hev
    refine h.driven event (hev.imp (fun hb => ?_) fun hm => ?_)
    · rw [hd] at hb
      have hbusy : driverAfter src s.bridge.driver ≠ .idle := by rw [hb]; exact nofun
      obtain ⟨rfl, -⟩ := driverAfter_busy hbusy
      exact hb
    · rw [hq] at hm
      exact (hp.queue event hm).1
  have hboundAfter : ∀ s' : Ordered, s'.taken = s.taken → s'.bridge.driver = driverAfter src s.bridge.driver →
      s.bound ≤ s'.bound ∧ (src = .queue → s'.bound = s.taken.length) := by
    intro s' ht hd
    cases src with
    | queue => rw [s'.bound_idle hd, ht]; exact ⟨hle, fun _ => rfl⟩
    | retry =>
      refine ⟨le_of_eq ?_, nofun⟩
      unfold Ordered.bound
      rw [hd, ht]
      rfl
  cases hout with
  | stopped hstop => rw [hrun] at hstop; cases hstop
  | left queue retries router driver =>
    rw [picked_driver] at driver
    have hlane : (s.routed st' env item).lane = (s.pickedAt env).2 := by
      unfold Ordered.routed
      rw [if_neg (by rw [retries, hlen]; exact Nat.lt_irrefl _)]
    have hb := hboundAfter (s.routed st' env item) rfl driver
    have hcases : ∀ m, (s.routed st' env item).Waits m →
        m ∈ (s.pickedAt env).2 ∨ src = .retry ∧ s.bridge.driver ≠ .idle ∧ m + 1 = s.taken.length := by
      rintro m (hm | ⟨hm, -⟩ | ⟨hd, hm⟩)
      · exact .inl (hlane ▸ hm)
      · exact absurd router hm
      · have hd : driverAfter src s.bridge.driver ≠ .idle := driver ▸ hd
        exact .inr ⟨(driverAfter_busy hd).1, (driverAfter_busy hd).2, hm⟩
    refine ⟨by rw [hlane]; exact retries ▸ hp.lane, fun m hm => ?_, fun src' item' hin => ?_, fun item' hin => ?_,
      fun item' hin => ?_, hqueue st' queue driver, routed_order h hpast (fun m hm => ?_) fun _ m hm => ?_⟩
    · rw [hlane] at hm
      exact Nat.lt_of_lt_of_le (hbound m hm) hb.1
    · exact absurd (router.symm.trans hin) nofun
    · exact absurd (router.symm.trans hin) nofun
    · exact absurd (router.symm.trans hin) nofun
    · rcases hcases m hm with hm | ⟨-, hd, hm⟩
      · exact .inl (hp.sublist m hm)
      · exact .inr (.inr ⟨hd, hm⟩)
    · rcases hcases m hm with hm | ⟨hsrc, hd, hm⟩
      · exact .inl hm
      · have := hp.retried hsrc
        rw [s.bound_busy hd] at this
        exact .inr (by omega)
  | aside queue retries router driver mailbox =>
    rw [picked_driver] at driver
    have hlane : (s.routed st' env item).lane = (s.pickedAt env).2 ++ [(s.pickedAt env).1] := by
      unfold Ordered.routed
      rw [if_pos (by rw [retries, List.length_append, hlen]; exact Nat.lt_succ_self _)]
    have hb := hboundAfter (s.routed st' env item) rfl driver
    refine ⟨?_, fun m hm => ?_, fun src' item' hin => ?_, fun item' hin => ?_, fun item' hin => ?_,
      hqueue st' queue driver, routed_order h hpast (fun m hm => ?_) fun hacc => absurd hacc (not_accepts mailbox)⟩
    · rw [hlane]
      show List.Forall₂ _ _ st'.retries
      rw [retries]
      exact List.rel_append hp.lane (.cons hp.taken .nil)
    · rw [hlane] at hm
      rcases List.mem_append.1 hm with hm | hm
      · exact Nat.lt_of_lt_of_le (hbound m hm) hb.1
      · rw [List.mem_singleton.1 hm]
        cases src with
        | queue => rw [hb.2 rfl]; exact hlt
        | retry => exact Nat.lt_of_lt_of_le (hp.retried rfl) hb.1
    · exact absurd (router.symm.trans hin) nofun
    · exact absurd (router.symm.trans hin) nofun
    · exact absurd (router.symm.trans hin) nofun
    · rcases hm with hm | ⟨hm, -⟩ | ⟨hd, hm⟩
      · rw [hlane] at hm
        rcases List.mem_append.1 hm with hm | hm
        · exact .inl (hp.sublist m hm)
        · rw [List.mem_singleton.1 hm]
          exact hp.waits
      · exact absurd router hm
      · have hd : driverAfter src s.bridge.driver ≠ .idle := driver ▸ hd
        exact .inr (.inr ⟨(driverAfter_busy hd).2, hm⟩)
  | works queue retries router driver mailbox =>
    rw [picked_driver] at driver
    have hlane : (s.routed st' env item).lane = (s.pickedAt env).2 := by
      unfold Ordered.routed
      rw [if_neg (by rw [retries, hlen]; exact Nat.lt_irrefl _)]
    have hb : (s.routed st' env item).bound = s.bound := by
      unfold Ordered.bound
      show (if st'.driver = .idle then s.taken.length else s.taken.length - 1) = _
      rw [driver]
    refine ⟨by rw [hlane]; exact retries ▸ hp.lane, fun m hm => ?_, fun src' item' hin => ?_, fun item' hin => ?_,
      fun item' hin => ?_, fun event hev => h.driven event (hev.imp (fun hd => driver ▸ hd) fun hm => ?_),
      routed_order h hpast (fun m hm => ?_) fun hacc => absurd hacc (not_accepts mailbox)⟩
    · rw [hlane] at hm
      rw [hb]
      exact hbound m hm
    · cases router.symm.trans hin
      exact hp.taken
    · cases router.symm.trans hin
      exact (hp.queued rfl).2
    · cases router.symm.trans hin
      rw [hb]
      exact hp.retried rfl
    · exact (hp.queue event (queue ▸ hm)).1
    · rcases hm with hm | ⟨-, rfl⟩ | ⟨hd, hm⟩
      · rw [hlane] at hm
        exact .inl (hp.sublist m hm)
      · exact hp.waits
      · exact .inr (.inr ⟨fun hi => hd (driver.trans hi), hm⟩)

theorem InOrder.router (hi : InOrder s) (h : Lined s) (hp : Picked s env src item) :
    InOrder (s.routed st' env item) := by
  unfold Ordered.routed
  refine ⟨fun x hx => ?_, ?_⟩
  · dsimp only at hx
    split at hx
    · rcases List.mem_append.1 hx with hx | hx
      · exact hi.taken x hx
      · cases List.mem_singleton.1 hx
        exact hp.taken
    · exact hi.taken x hx
  · dsimp only
    split
    · refine List.pairwise_append.2 ⟨hi.order, List.pairwise_singleton _ _, fun x hx y hy hscope => ?_⟩
      cases List.mem_singleton.1 hy
      exact h.order x hx _ hp.waits item.event hp.taken hscope.symm
    · exact hi.order

end Router

/-! ## Other steps -/

/-- Nothing between the inbound channel and the actors moves. -/
structure Same (st st' : Bridge) : Prop where
  router : st'.router = st.router
  driver : st'.driver = st.driver
  queue : st'.queue = st.queue
  retries : st'.retries = st.retries
  running : st'.running = st.running

theorem Same.refl (st : Bridge) : Same st st := ⟨rfl, rfl, rfl, rfl, rfl⟩

theorem register_same {C : Codec} {I : InboundCodec} :
    Same st (st.register C I tenant i fate now) := by
  unfold register
  split
  · exact ⟨rfl, rfl, rfl, rfl, rfl⟩
  · exact .refl st

theorem handled_same {accepted : Bool} : Same st (st.handled tenant i accepted) := by
  unfold handled
  split
  · dsimp only
    split
    · split
      · exact ⟨rfl, rfl, rfl, rfl, rfl⟩
      · exact ⟨rfl, rfl, rfl, rfl, rfl⟩
    · exact ⟨rfl, rfl, rfl, rfl, rfl⟩
  · exact .refl st

theorem abandon_same : Same st (st.abandon i) := by
  unfold abandon
  split
  · exact ⟨rfl, rfl, rfl, rfl, rfl⟩
  · exact ⟨rfl, rfl, rfl, rfl, rfl⟩
  · exact .refl st

theorem routerStore_same {C : Codec} {I : InboundCodec} :
    Same st (st.routerStore C I tenant fate now) := by
  unfold routerStore
  split
  · exact ⟨rfl, rfl, rfl, rfl, rfl⟩
  · exact .refl st

theorem actorStore_same {C : Codec} {I : InboundCodec} {scope : String} :
    Same st (st.actorStore C I tenant scope fate now) := by
  unfold actorStore
  split
  · exact .refl st
  · split
    · exact ⟨rfl, rfl, rfl, rfl, rfl⟩
    · exact .refl st

theorem actorStep_same {scope : String} {env : Env} : Same st (st.actorStep tenant scope env) := by
  unfold actorStep
  split
  · exact .refl st
  · exact ⟨rfl, rfl, rfl, rfl, rfl⟩

theorem Same.lined {s : Ordered} (h : Lined s) (hs : Same s.bridge st') : Lined { s with bridge := st' } := by
  have hbound : ({ s with bridge := st' } : Ordered).bound = s.bound := by
    unfold Ordered.bound
    dsimp only
    rw [hs.driver]
  refine ⟨hs.retries ▸ h.lane, fun n hn => hbound ▸ h.laneBound n hn, fun src item hin => h.hand src item (hs.router ▸ hin),
    fun item hin => h.queued item (hs.router ▸ hin), fun item hin => hbound ▸ h.retried item (hs.router ▸ hin),
    fun event hev => h.driven event (hs.driver ▸ hs.queue ▸ hev), fun x hx m hm => h.order x hx m ?_⟩
  rcases hm with hm | ⟨hin, hm⟩ | ⟨hd, hm⟩
  · exact .inl hm
  · exact .inr (.inl ⟨hs.router ▸ hin, hm⟩)
  · exact .inr (.inr ⟨hs.driver ▸ hd, hm⟩)

/-- The driver hands its message to the router, or keeps it for a later try. -/
theorem send_cases (st : Bridge) (event : InboundEvent) (fits : Bool) :
    (st.send event fits).router = st.router ∧ (st.send event fits).retries = st.retries ∧
      (st.send event fits).driver ≠ .idle ∧
      ∀ event', (st.send event fits).driver = .backoff event' ∨ event' ∈ (st.send event fits).queue →
        event' = event ∨ event' ∈ st.queue := by
  unfold send
  split
  · refine ⟨rfl, rfl, nofun, fun event' h => ?_⟩
    rcases h with h | h
    · cases h
    · exact (List.mem_append.1 h).symm.imp_left List.mem_singleton.1
  · refine ⟨rfl, rfl, nofun, fun event' h => ?_⟩
    rcases h with h | h
    · cases h; exact .inl rfl
    · exact .inr h

/-- The driver goes on: a message that it takes comes after all others. -/
theorem Lined.drive {s : Ordered} {fits : Bool} (h : Lined s) (hi : InOrder s) (hwf : s.bridge.WF)
    (hrun : s.bridge.running = true) :
    Lined { s with bridge := s.bridge.drive fits, taken := s.taken ++ s.bridge.takes } := by
  unfold Bridge.drive
  cases hd : s.bridge.driver with
  | waiting =>
    have htakes : s.bridge.takes = [] := if_neg fun hc => by rw [hd] at hc; cases hc.2
    rw [htakes, List.append_nil]
    exact h
  | backoff event =>
    have htakes : s.bridge.takes = [] := if_neg fun hc => by rw [hd] at hc; cases hc.2
    rw [htakes, List.append_nil]
    obtain ⟨hrouter, hretries, hbusy, hqueue⟩ := send_cases s.bridge event fits
    have hbusy₀ : s.bridge.driver ≠ .idle := by rw [hd]; exact nofun
    have hbound : ({ s with bridge := s.bridge.send event fits } : Ordered).bound = s.bound :=
      (Ordered.bound_busy hbusy).trans (Ordered.bound_busy hbusy₀).symm
    refine ⟨hretries ▸ h.lane, fun n hn => hbound ▸ h.laneBound n hn, fun src item hin => h.hand src item (hrouter ▸ hin),
      fun item hin => h.queued item (hrouter ▸ hin), fun item hin => hbound ▸ h.retried item (hrouter ▸ hin),
      fun event' hev => ?_, fun x hx m hm => h.order x hx m ?_⟩
    · rcases hqueue event' hev with rfl | hq
      · exact h.driven _ (.inl hd)
      · exact h.driven _ (.inr hq)
    · rcases hm with hm | ⟨hin, hm⟩ | ⟨-, hm⟩
      · exact .inl hm
      · exact .inr (.inl ⟨hrouter ▸ hin, hm⟩)
      · exact .inr (.inr ⟨hbusy₀, hm⟩)
  | idle =>
    cases hc : s.bridge.channel with
    | nil =>
      have htakes : s.bridge.takes = [] := by
        unfold takes
        rw [hc]
        split <;> rfl
      rw [htakes, List.append_nil]
      exact h
    | cons event channel =>
      have htakes : s.bridge.takes = [event] := by
        unfold takes
        rw [if_pos ⟨hrun, hd⟩, hc]
        rfl
      rw [htakes]
      -- An idle driver has nothing with the router and nothing queued.
      have hdriven : s.bridge.router.src = .retry ∧ s.bridge.queue = [] := by
        have := hwf.driven
        cases hsrc : s.bridge.router.src with
        | queue =>
          rw [hsrc] at this
          exact absurd (hd.symm.trans this.1) nofun
        | retry =>
          rw [hsrc] at this
          exact ⟨rfl, this.resolve_right fun hw => by rw [hd] at hw; cases hw.1⟩
      have hfree : ∀ item, s.bridge.router.inHand ≠ some (.queue, item) := by
        intro item hin
        have hsrc := hdriven.1
        cases hr : s.bridge.router <;> rw [hr] at hin hsrc <;> simp [RouterPc.inHand] at hin <;>
          simp [RouterPc.src, hin.1] at hsrc
      obtain ⟨hrouter, hretries, hbusy, hqueue⟩ := send_cases { s.bridge with channel := channel } event fits
      have hold : s.bound = s.taken.length := s.bound_idle hd
      let s' : Ordered :=
        { s with bridge := { s.bridge with channel := channel }.send event fits, taken := s.taken ++ [event] }
      have hnew : s'.bound = s.taken.length := by
        refine (Ordered.bound_busy hbusy).trans ?_
        simp [s']
      have hold' : ∀ {n : ℕ} {e : InboundEvent}, s.taken[n]? = some e → (s.taken ++ [event])[n]? = some e := by
        intro n e he
        rw [List.getElem?_append_left (List.getElem?_eq_some_iff.1 he).1]
        exact he
      show Lined s'
      refine ⟨?_, fun n hn => ?_, fun src item hin => hold' (h.hand src item (hrouter ▸ hin)),
        fun item hin => absurd (hrouter ▸ hin) (hfree item), fun item hin => ?_, fun event' hev => ?_,
        fun x hx m hm e he hscope => ?_⟩
      · show List.Forall₂ _ _ ({ s.bridge with channel := channel }.send event fits).retries
        rw [hretries]
        exact h.lane.imp fun _ _ he => hold' he
      · rw [hnew, ← hold]
        exact h.laneBound n hn
      · rw [hnew, ← hold]
        exact h.retried item (hrouter ▸ hin)
      · rcases hqueue event' hev with rfl | hq
        · simp [s']
        · have hq : event' ∈ s.bridge.queue := hq
          rw [hdriven.2] at hq
          cases hq
      · by_cases hlt : m < s.taken.length
        · refine h.order x hx m ?_ e ?_ hscope
          · rcases hm with hm | ⟨hin, hm⟩ | ⟨-, hm⟩
            · exact .inl hm
            · exact .inr (.inl ⟨hrouter ▸ hin, hm⟩)
            · simp [s'] at hm
              omega
          · rw [show s'.taken = s.taken ++ [event] from rfl, List.getElem?_append_left hlt] at he
            exact he
        · have := (List.getElem?_eq_some_iff.1 (hi.taken x hx)).1
          omega

/-! ## Runs -/

section Runs

variable {C : Codec} {I : InboundCodec} {s : Ordered}

/-- A start begins with nothing on its way but the channel. -/
theorem restart_clears (inner : LiveInner) (fate : Fate) (now : ℤ) (accepted : Bool) :
    (st.restart C I tenant inner fate now accepted).retries = [] ∧
    (st.restart C I tenant inner fate now accepted).router = .loopTop ∧
    (st.restart C I tenant inner fate now accepted).driver = .idle ∧
    (st.restart C I tenant inner fate now accepted).queue = [] := by
  unfold restart
  dsimp only
  split
  · split
    · exact ⟨rfl, rfl, rfl, rfl⟩
    · exact ⟨rfl, rfl, rfl, rfl⟩
  · exact ⟨rfl, rfl, rfl, rfl⟩

/-- A step that moves nothing between the channel and the actors. -/
theorem Sorted.same (h : Sorted tenant s) (hk : st'.Kept tenant) (hs : Same s.bridge st') :
    Sorted tenant { s with bridge := st' } :=
  ⟨hk, ⟨h.inOrder.taken, h.inOrder.order⟩, fun hrun => hs.lined (h.lined (hs.running ▸ hrun))⟩

/-- **What one event keeps.** -/
theorem Sorted.step {e : Event} (h : Sorted tenant s) (hc : Unovertaking C I tenant fromStr s e) :
    Sorted tenant (orderStep C I tenant fromStr s e) := by
  have hk : (s.bridge.step C I tenant fromStr e).Kept tenant := step_kept e h.kept
  have hsame : (∀ {st' : Bridge}, s.bridge.stepRunning C I tenant fromStr e = st' → Same s.bridge st') →
      Same s.bridge (if s.bridge.running then s.bridge.stepRunning C I tenant fromStr e else s.bridge) := by
    intro hst
    split
    · exact hst rfl
    · exact .refl _
  cases e with
  | restart inner fate now accepted =>
    have hfresh : (s.bridge.restart C I tenant inner fate now accepted).retries = [] ∧
        (s.bridge.restart C I tenant inner fate now accepted).router = .loopTop ∧
        (s.bridge.restart C I tenant inner fate now accepted).driver = .idle ∧
        (s.bridge.restart C I tenant inner fate now accepted).queue = [] := restart_clears inner fate now accepted
    obtain ⟨hretries, hrouter, hdriver, hqueue⟩ := hfresh
    refine ⟨hk, ⟨h.inOrder.taken, h.inOrder.order⟩, fun _ => ?_⟩
    refine ⟨?_, nofun, fun src item hin => ?_, fun item hin => ?_, fun item hin => ?_, fun event hev => ?_,
      fun x hx m hm => ?_⟩
    · show List.Forall₂ _ [] (s.bridge.restart C I tenant inner fate now accepted).retries
      rw [hretries]
      exact .nil
    · exact absurd ((congrArg RouterPc.inHand hrouter).symm.trans hin) nofun
    · exact absurd ((congrArg RouterPc.inHand hrouter).symm.trans hin) nofun
    · exact absurd ((congrArg RouterPc.inHand hrouter).symm.trans hin) nofun
    · rcases hev with hev | hev
      · exact absurd (hdriver.symm.trans hev) nofun
      · exact absurd (hqueue ▸ hev) List.not_mem_nil
    · rcases hm with hm | ⟨hin, -⟩ | ⟨hd, -⟩
      · cases hm
      · exact absurd (congrArg RouterPc.inHand hrouter) hin
      · exact absurd hdriver hd
  | drive fits =>
    refine ⟨hk, ⟨fun x hx => ?_, h.inOrder.order⟩, fun hrun => ?_⟩
    · have hx := h.inOrder.taken x hx
      show (s.taken ++ s.bridge.takes)[x.1]? = _
      rw [List.getElem?_append_left (List.getElem?_eq_some_iff.1 hx).1]
      exact hx
    · have hstep : s.bridge.step C I tenant fromStr (.drive fits) =
          if s.bridge.running then s.bridge.drive fits else s.bridge := rfl
      have hrun : (s.bridge.step C I tenant fromStr (.drive fits)).running = true := hrun
      rw [hstep] at hrun
      split at hrun
      · next hr =>
        have hdrive : Lined { s with bridge := s.bridge.drive fits, taken := s.taken ++ s.bridge.takes } :=
          (h.lined hr).drive h.inOrder h.kept.wf hr
        show Lined { s with bridge := s.bridge.step C I tenant fromStr (.drive fits), taken := s.taken ++ s.bridge.takes }
        rw [hstep, if_pos hr]
        exact hdrive
      · next hr => exact absurd hrun hr
  | router env =>
    have hstep : s.bridge.step C I tenant fromStr (.router env) =
        if s.bridge.running then s.bridge.routerStep fromStr env else s.bridge := rfl
    unfold Unovertaking at hc
    unfold orderStep
    dsimp only at hc ⊢
    cases hrun : s.bridge.running with
    | false =>
      have hst : s.bridge.step C I tenant fromStr (.router env) = s.bridge := by rw [hstep, hrun]; rfl
      rw [hst]
      split
      · exact h
      · rw [if_neg (by simp)]
        exact h
    | true =>
      have hst : s.bridge.step C I tenant fromStr (.router env) = s.bridge.routerStep fromStr env := by rw [hstep, hrun]; rfl
      have hlined := h.lined hrun
      have hcases : (s.bridge.inHand env = none ∧ Rests s.bridge (s.bridge.routerStep fromStr env)) ∨
          ∃ src item, s.bridge.inHand env = some (src, item) ∧
            Outcome (s.bridge.picked env) src item (s.bridge.routerStep fromStr env) := routerStep_cases h.kept.wf
      rcases hcases with ⟨hnone, hrest⟩ | ⟨src, item, hin, hout⟩
      · rw [hnone]
        refine ⟨hk, ⟨h.inOrder.taken, h.inOrder.order⟩, fun _ => ?_⟩
        rw [hst]
        have hbound : ({ s with bridge := s.bridge.routerStep fromStr env } : Ordered).bound = s.bound := by
          unfold Ordered.bound
          dsimp only
          rw [hrest.driver]
        refine ⟨hrest.retries ▸ hlined.lane, fun n hn => hbound ▸ hlined.laneBound n hn,
          fun src item hin => absurd (hrest.router.symm.trans hin) nofun,
          fun item hin => absurd (hrest.router.symm.trans hin) nofun,
          fun item hin => absurd (hrest.router.symm.trans hin) nofun,
          fun event hev => hlined.driven event (hrest.driver ▸ hrest.queue ▸ hev), fun x hx m hm => hlined.order x hx m ?_⟩
        rcases hm with hm | ⟨hin, -⟩ | ⟨hd, hm⟩
        · exact .inl hm
        · exact absurd hrest.router hin
        · exact .inr (.inr ⟨hrest.driver ▸ hd, hm⟩)
      · have hp := picked_cases hlined h.kept.wf hin
        rw [hin] at hc ⊢
        rw [hst] at hc hk ⊢
        exact ⟨hk, h.inOrder.router hlined hp, fun hrun' => hlined.router hp hrun' hout (hc hrun)⟩
  | deliver event | supervise access | sweep fate now olderThanMs maxRows =>
    exact h.same hk (hsame fun heq => heq ▸ ⟨rfl, rfl, rfl, rfl, rfl⟩)
  | register i fate now => exact h.same hk (hsame fun heq => heq ▸ register_same)
  | handled i accepted => exact h.same hk (hsame fun heq => heq ▸ handled_same)
  | abandon i => exact h.same hk (hsame fun heq => heq ▸ abandon_same)
  | routerStore fate now => exact h.same hk (hsame fun heq => heq ▸ routerStore_same)
  | actorStore scope fate now => exact h.same hk (hsame fun heq => heq ▸ actorStore_same)
  | actor scope env => exact h.same hk (hsame fun heq => heq ▸ actorStep_same)

/-- **Messages of one scope are accepted in order**, in every run that accepts none past an earlier one in the retry
lane. -/
theorem accepted_in_order (C : Codec) (I : InboundCodec) (tenant : TenantNamespace) (fromStr : String → Option String)
    (inner : LiveInner) (es : List Event)
    (h : Along (orderStep C I tenant fromStr) (Unovertaking C I tenant fromStr) (orderedInitial inner) es) :
    InOrder (exec (orderStep C I tenant fromStr) (orderedInitial inner) es) := by
  have h₀ : Sorted tenant (orderedInitial inner) := by
    refine ⟨⟨initial_wf inner, fun k hk => ?_⟩, ⟨fun x hx => absurd hx List.not_mem_nil, .nil⟩, fun hrun => ?_⟩
    · cases hk.2
    · exact absurd hrun Bool.false_ne_true
  have hsorted : Sorted tenant (exec (orderStep C I tenant fromStr) (orderedInitial inner) es) :=
    exec_invariant (fun s e hs hc => hs.step hc) h₀ h
  exact hsorted.inOrder

end Runs

/-! ### A message that is overtaken -/

instance (C : Codec) (I : InboundCodec) (tenant : TenantNamespace) (fromStr : String → Option String) (s : Ordered)
    (e : Event) : Decidable (Unovertaking C I tenant fromStr s e) := by
  unfold Unovertaking
  split
  · split
    · infer_instance
    · infer_instance
  · infer_instance

def firstMessage : InboundEvent := directMessage "evt_1" "om_1" "oc_1" "ou_1" "first"
def secondMessage : InboundEvent := directMessage "evt_2" "om_2" "oc_1" "ou_1" "second"

def twoPayloads : InboundCodec :=
  codecOf [(.ofEvent (persistableEvent firstMessage), directPayload "evt_1" "om_1" "oc_1" "ou_1" "first"),
    (.ofEvent (persistableEvent secondMessage), directPayload "evt_2" "om_2" "oc_1" "ou_1" "second")]
    (by decide)

/-- The positions after a run of the sample. -/
def orderedAfter (es : List Event) : Ordered :=
  exec (orderStep noOutbox twoPayloads sampleTenant fun _ => none) (orderedInitial sampleInner) es

/-- The router goes on to its next `select` and takes what wakes it. -/
def routerSelects (env : RouterEnv) : List Event := [routerTakes .other, routerTakes .other, .router env]

/-- The router takes a message of the queue or of the retry lane, and the mailbox has room for it. -/
def routes (wake : RouterWake) : List Event := routerSelects ⟨wake, none, true, true, none, some false⟩

/-- Two messages of one chat, both accepted. -/
def orderedRun : List Event :=
  startEvent :: intake firstMessage 1001 ++ routes .message ++ intake secondMessage 1002 ++ routes .message

set_option maxRecDepth 20000 in
theorem accepted_in_order_orderedRun :
    (orderedAfter orderedRun).accepted.map (·.1) = [0, 1] ∧ InOrder (orderedAfter orderedRun) := by
  have h : Along (orderStep noOutbox twoPayloads sampleTenant fun _ => none)
      (Unovertaking noOutbox twoPayloads sampleTenant fun _ => none) (orderedInitial sampleInner) orderedRun := by
    decide
  exact ⟨by decide, accepted_in_order noOutbox twoPayloads sampleTenant (fun _ => none) sampleInner orderedRun h⟩

/-- The mailbox has no room for the first message and the store refuses its rejection; there is room again when the second
one comes, and then the first one is tried again. -/
def overtakenRun : List Event :=
  startEvent :: intake firstMessage 1001 ++
    routerSelects ⟨.message, some ⟨"k", "im:oc_1", "text", "{}", 0⟩, false, true, none, some false⟩ ++
    [.routerStore (.reject .queueFull false) 1002, routerTakes .other] ++
    intake secondMessage 1003 ++ routes .message ++ routes .retry

set_option maxRecDepth 20000 in
/-- **The retry lane changes the order**: the second message is accepted before the first. -/
theorem retry_lane_reorders : ¬InOrder (orderedAfter overtakenRun) := by
  intro h
  have hacc : (orderedAfter overtakenRun).accepted = [(1, secondMessage), (0, firstMessage)] := by decide
  have horder := h.order
  rw [hacc] at horder
  have : 1 < 0 := List.rel_of_pairwise_cons horder List.mem_cons_self rfl
  omega

end Bridge

end LarkCodexBridge.Runtime
