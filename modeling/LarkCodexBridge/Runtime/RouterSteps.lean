import LarkCodexBridge.Runtime.System

/-!
# What a step of the router can do

The router takes a message from its queue or from the retry lane, or goes on with the one it has in hand. `Handles` are the
things that can become of that message, and `RouterTo` those that a whole step can do, so that a property of the router is
proved by cases, whichever functions lead there.
-/

namespace LarkCodexBridge.Runtime

open Limits Lark Store

/-- The message that the router works on, and where it comes from. -/
def RouterPc.inHand : RouterPc → Option (RouteSource × ActorInbound)
  | .completing src item | .rejecting src item _ _ | .readThread _ src item | .evicting src item _ => some (src, item)
  | .loopTop | .readSettings _ | .waiting _ => none

/-- It waits for the store. -/
def RouterPc.asks : RouterPc → Bool
  | .completing _ _ | .rejecting _ _ _ _ => true
  | _ => false

namespace Bridge

/-- No actor has the scope of the message. -/
def Unserved (st : Bridge) (item : ActorInbound) : Prop := ∀ a ∈ st.actors, a.scope.toString ≠ item.event.scope.toString

/-- What can become of the message in hand. The copies are those that it is decided with, and `lone` says that an actor is
evicted only for a scope without one. -/
inductive Handles (lone : Prop) (copies : Option Copies) (src : RouteSource) (item : ActorInbound) : Bridge → Bridge → Prop
  | lost (st : Bridge) : Handles lone copies src item st (st.lost item src)
  | later (st : Bridge) : Handles lone copies src item st ({ st with retries := st.retries ++ [item] }.routed src)
  /-- The router waits for something with the message. -/
  | works {st : Bridge} {pc : RouterPc} (hin : pc.inHand = some (src, item))
      (hnone : ∀ victim, pc = .evicting src item victim → st.Unserved item) :
      Handles lone copies src item st { st with router := pc, routerAnswer := none }
  /-- The mailbox of an actor takes it. -/
  | takes {st : Bridge} {a : Actor} {command : ScopeCommand} (ha : a ∈ st.actors)
      (hs : a.scope.toString = item.event.scope.toString) (hpc : a.pc ≠ .ended) (hitem : command.item = item) :
      Handles lone copies src item st
        ((st.setActor item.event.scope.toString { a with mailbox := a.mailbox ++ [command] }).routed src)
  | decides {st st' : Bridge} {c : Copies} (hc : c ∈ copies)
      (h : Handles lone copies src item { st with log := st.log ++ [.decision item c.policy c.policyVersion] } st') :
      Handles lone copies src item st st'
  | spawns {st st' : Bridge} (hnone : lone → st.Unserved item)
      (h : Handles lone copies src item
        { st with actors := st.actors ++ [Actor.spawn item.event.scope st.live.inner.settings] } st') :
      Handles lone copies src item st st'
  /-- The actor that ended is taken away. -/
  | removes {st st' : Bridge} {a : Actor} {victim : String} (ha : st.findActor victim = some a) (hpc : a.pc = .ended)
      (hnone : lone → st.Unserved item)
      (h : Handles lone copies src item { st with actors := st.actors.filter (·.scope.toString ≠ victim) } st') :
      Handles lone copies src item st st'
  | cancels {st st' : Bridge} {a : Actor} (ha : a ∈ st.actors) (hnone : st.Unserved item)
      (h : Handles lone copies src item
        (st.setActor a.scope.toString { a with cancelled := true, pendingMedia := a.pendingMedia.clear }) st') :
      Handles lone copies src item st st'

/-- What a step of the router can do. -/
inductive RouterTo (lone : Prop) (env : RouterEnv) (st : Bridge) : Bridge → Prop
  | readsPolicy (hr : st.router = .loopTop) :
    RouterTo lone env st { st with router := .readSettings st.live.readPolicy, routerAnswer := none }
  | readsSettings {policy : PolicyCopy} (hr : st.router = .readSettings policy) :
    RouterTo lone env st { st with router := .waiting (st.live.readSettings policy), routerAnswer := none }
  | wakes {c : Copies} (hr : st.router = .waiting c) (hw : env.wake = .other) :
    RouterTo lone env st { st with router := .loopTop, routerAnswer := none }
  /-- There is nothing to take. -/
  | idles {c : Copies} (hr : st.router = .waiting c)
      (hw : env.wake = .message ∧ st.queue = [] ∨ env.wake = .retry ∧ st.retries = []) : RouterTo lone env st st
  | message {c : Copies} {event : InboundEvent} {queue : List InboundEvent} {st' : Bridge} (hr : st.router = .waiting c)
      (hw : env.wake = .message) (hq : st.queue = event :: queue)
      (h : Handles lone (some c) .queue ⟨event, st.live.version⟩ { st with queue := queue } st') : RouterTo lone env st st'
  | retry {c : Copies} {item : ActorInbound} {retries : List ActorInbound} {st' : Bridge} (hr : st.router = .waiting c)
      (hw : env.wake = .retry) (hq : st.retries = item :: retries)
      (h : Handles lone (some c) .retry item { st with retries := retries } st') : RouterTo lone env st st'
  /-- What the router waits for is not there yet. -/
  | waits {src : RouteSource} {item : ActorInbound} (hin : st.router.inHand = some (src, item)) : RouterTo lone env st st
  /-- The store completed or rejected the message. -/
  | settles {src : RouteSource} {item : ActorInbound} {reply : OpReply} (hin : st.router.inHand = some (src, item))
      (hasks : st.router.asks = true) (hanswer : st.routerAnswer = some (.ok reply)) : RouterTo lone env st (st.routed src)
  /-- The store failed to. -/
  | fails {src : RouteSource} {item : ActorInbound} {e : StoreError} {st' : Bridge}
      (hin : st.router.inHand = some (src, item)) (hanswer : st.routerAnswer = some (.error e))
      (h : Handles lone none src item st st') : RouterTo lone env st st'
  /-- The thread is read, or the actor is gone. -/
  | resumes {src : RouteSource} {item : ActorInbound} {st' : Bridge} (hin : st.router.inHand = some (src, item))
      (hasks : st.router.asks = false) (h : Handles lone none src item st st') : RouterTo lone env st st'

variable {fromStr : String → Option String} {st : Bridge} {env : RouterEnv} {lone : Prop} {copies : Option Copies}
  {c : Copies} {src : RouteSource} {item : ActorInbound} {a : Actor}

theorem retryLater_handles : Handles lone copies src item st (st.retryLater env src item) := by
  unfold retryLater
  split
  · next hfull =>
    obtain ⟨rfl, -⟩ := hfull
    exact .lost st
  · exact .later st

theorem rejectWithNotice_handles {reason : InboundRejectionKind} :
    Handles lone copies src item st (st.rejectWithNotice env src item reason) := by
  unfold rejectWithNotice
  split
  · exact retryLater_handles
  · exact .works rfl nofun

theorem tryRoute_handles (ha : a ∈ st.actors) (hs : a.scope.toString = item.event.scope.toString) :
    Handles lone copies src item st (st.tryRoute fromStr env src item a) := by
  unfold tryRoute
  split
  · exact .lost st
  · next hpc =>
    split
    · exact rejectWithNotice_handles
    · exact .takes ha hs hpc (by split <;> rfl)

theorem spawnAndRoute_handles (hnone : lone → st.Unserved item) :
    Handles lone copies src item st (st.spawnAndRoute fromStr env src item) :=
  .spawns hnone (tryRoute_handles (List.mem_append_right _ (List.mem_singleton_self _)) rfl)

theorem enterScope_handles : Handles lone copies src item st (st.enterScope fromStr env c src item) := by
  unfold enterScope
  split
  · next a ha =>
    obtain ⟨hmem, hs⟩ := findActor_some ha
    exact tryRoute_handles hmem hs
  · next hfind =>
    have hnone : st.Unserved item := findActor_none hfind
    split
    · exact spawnAndRoute_handles fun _ => hnone
    · split
      · exact rejectWithNotice_handles
      · next a ha =>
        refine .cancels (victim?_mem ha) hnone (.works rfl fun _ _ b hb => ?_)
        obtain ⟨b', hb', rfl⟩ := List.mem_map.1 hb
        split
        · exact hnone a (victim?_mem ha)
        · exact hnone b' hb'

theorem routeOne_handles : Handles lone (some c) src item st (st.routeOne fromStr env c src item) := by
  unfold routeOne
  split
  · exact .works rfl nofun
  · refine .decides rfl ?_
    dsimp only
    split
    · exact rejectWithNotice_handles
    · split
      · exact .works rfl nofun
      · exact enterScope_handles

theorem routerAnswered_to (hin : st.router.inHand = some (src, item)) (hasks : st.router.asks = true) :
    RouterTo lone env st (st.routerAnswered env src item) := by
  unfold routerAnswered
  split
  · exact .waits hin
  · next hanswer => exact .settles hin hasks hanswer
  · next hanswer => exact .fails hin hanswer retryLater_handles

theorem threadRead_handles : Handles lone copies src item st (st.threadRead fromStr env c src item) := by
  unfold threadRead
  split
  · exact retryLater_handles
  · exact enterScope_handles
  · exact rejectWithNotice_handles

/-- **Every step of the router is one of these.** -/
theorem routerStep_to (hnone : lone → ∀ src item victim, st.router = .evicting src item victim → st.Unserved item) :
    RouterTo lone env st (st.routerStep fromStr env) := by
  unfold routerStep
  cases hr : st.router with
  | loopTop => exact .readsPolicy hr
  | readSettings policy => exact .readsSettings hr
  | waiting c =>
    show RouterTo lone env st (st.wake fromStr env c)
    unfold wake
    cases hw : env.wake with
    | message =>
      cases hq : st.queue with
      | nil => exact .idles hr (.inl ⟨hw, hq⟩)
      | cons event queue => exact .message hr hw hq routeOne_handles
    | retry =>
      cases hq : st.retries with
      | nil => exact .idles hr (.inr ⟨hw, hq⟩)
      | cons item retries => exact .retry hr hw hq routeOne_handles
    | other => exact .wakes hr hw
  | completing src item | rejecting src item =>
    exact routerAnswered_to (congrArg RouterPc.inHand hr) (congrArg RouterPc.asks hr)
  | readThread c src item =>
    exact .resumes (congrArg RouterPc.inHand hr) (congrArg RouterPc.asks hr) threadRead_handles
  | evicting src item victim =>
    have hnone := fun h => hnone h src item victim hr
    have hin := congrArg RouterPc.inHand hr
    have hasks := congrArg RouterPc.asks hr
    show RouterTo lone env st (st.evicted fromStr env src item victim)
    unfold evicted
    split
    · next a ha =>
      split
      · next hpc =>
        refine .resumes hin hasks (.removes ha hpc hnone (spawnAndRoute_handles fun h b hb => ?_))
        exact hnone h b (List.mem_of_mem_filter hb)
      · exact .waits hin
    · exact .resumes hin hasks (spawnAndRoute_handles hnone)

end Bridge

end LarkCodexBridge.Runtime
