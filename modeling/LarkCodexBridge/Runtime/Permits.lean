import LarkCodexBridge.Runtime.Phases
import LarkCodexBridge.Runtime.Received

/-!
# Permits of active turns

The scope actors share a semaphore of `active_turn_permits`. `process_batch` takes a permit once it knows where the batch
goes and holds it until it returns. So a turn that is resolved keeps its permit while its attachments are released, and, if
its result is unknown, until the epoch it was started in is over.

* `Permits`: the bridge with the semaphore;
* `Inv.step`: who holds a permit is with a batch, and an actor with a turn to resolve has its row open;
* `permits_held_by_live_turns`: the permits are held by live turns exactly in the runs in which no confirmed resolution
  leaves anything to settle;
* `permit_outlasts_turn`: a turn with an unknown result keeps another scope from starting its own.
-/

namespace LarkCodexBridge.Runtime

open Limits Lark Store Outbox SqlTable StepSystem

/-! ## The semaphore -/

/-- The bridge with the size of the semaphore and the scopes whose actors have one of its permits. -/
structure Permits where
  bridge : Bridge
  capacity : ℕ
  held : List String

inductive PermitEvent where
  /-- The semaphore has a permit for the actor of a scope, which waits for it. -/
  | grant (scope : String)
  | bridge (e : Event)

def ActorPc.waitsForPermit : ActorPc → Bool
  | .permitWait .. => true
  | _ => false

namespace Permits

variable (C : Codec) (I : InboundCodec) (tenant : TenantNamespace) (fromStr : String → Option String)

/-- Before the first start. -/
def initial (inner : LiveInner) : Permits := ⟨.initial inner, 0, []⟩

/-- An actor goes on with a permit only if it was granted one. -/
def lacksPermit (p : Permits) : Event → Bool
  | .actor scope env =>
    env.answer = .permit && decide (scope ∉ p.held) && (p.bridge.findActor scope).any (·.pc.waitsForPermit)
  | _ => false

/-- The permit is kept as long as the actor is with its batch. -/
def keeps (actors : List Actor) (scope : String) : Bool :=
  actors.any fun a => decide (a.scope.toString = scope) && a.pc.keepsPermit

def grant (p : Permits) (scope : String) : Permits :=
  if (p.bridge.findActor scope).any (·.pc.waitsForPermit) ∧ scope ∉ p.held ∧ p.held.length < p.capacity then
    { p with held := p.held ++ [scope] }
  else p

/-- The bridge takes a step; a start makes a new semaphore. -/
def advance (p : Permits) (e : Event) : Permits :=
  let bridge := p.bridge.step C I tenant fromStr e
  let capacity := match e with
    | .restart inner _ _ _ => inner.settings.activeTurnPermits
    | _ => p.capacity
  ⟨bridge, capacity, p.held.filter (keeps bridge.actors)⟩

/-- One event. -/
def step (p : Permits) : PermitEvent → Permits
  | .grant scope => p.grant scope
  | .bridge e => if p.lacksPermit e then p else p.advance C I tenant fromStr e

/-- The bridge and its semaphore after a run. -/
def after (inner : LiveInner) (es : List PermitEvent) : Permits := exec (step C I tenant fromStr) (initial inner) es

end Permits

/-! ## Live turns -/

/-- The turn of the batch is not begun, or begun and not resolved. The actor whose resolution was just answered has not
read the answer. -/
def Actor.live (db : Db) (a : Actor) : Bool :=
  match a.pc, a.answer with
  | .resolving .., some _ => true
  | pc, _ =>
    match pc.turn? with
    | none => true
    | some t => db.turns.rows.any fun r => decide (r.id = t.turnRowId) && r.val.unresolved

namespace Permits

variable {C : Codec} {I : InboundCodec} {tenant : TenantNamespace} {fromStr : String → Option String} {p : Permits}
  {st st' : Bridge}

/-- The actors that have a permit for a batch whose turn is live. -/
def liveHolders (p : Permits) : List Actor :=
  p.bridge.actors.filter fun a => decide (a.scope.toString ∈ p.held) && a.live p.bridge.store.db

/-- The permits are held by live turns. -/
structure HeldByLive (p : Permits) : Prop where
  count : p.held.length = p.liveHolders.length
  /-- A resolved turn has none while it waits for anything else. -/
  settled : ∀ a ∈ p.bridge.actors, a.pc.settles = true → a.scope.toString ∉ p.held
  /-- As long as there are fewer live turns than permits, another scope gets one. -/
  available : ∀ a ∈ p.bridge.actors, a.pc.waitsForPermit = true → p.liveHolders.length < p.capacity →
    a.scope.toString ∈ (p.grant a.scope.toString).held

/-- The step does not go on from the confirmed resolution of a turn that leaves something to settle. -/
def LeavesNothing (p : Permits) : PermitEvent → Prop
  | .bridge (.actor scope _) => p.bridge.running = true → ∀ a, p.bridge.findActor scope = some a → a.leavesWork = false
  | _ => True

/-! ## The actors of a step -/

/-- The actors are those of before, at the same await, or new ones. -/
def FromActors (st st' : Bridge) : Prop :=
  ∀ b ∈ st'.actors, b.pc = .loopTop ∨ ∃ a ∈ st.actors, a.scope = b.scope ∧ a.pc = b.pc ∧ a.answer = b.answer

theorem FromActors.of_actors (h : st'.actors = st.actors) : FromActors st st' := by
  intro b hb
  rw [h] at hb
  exact .inr ⟨b, hb, rfl, rfl, rfl⟩

theorem FromActors.of_nil (h : st'.actors = []) : FromActors st st' := by
  intro b hb
  rw [h] at hb
  cases hb

theorem FromActors.trans {st₁ : Bridge} (h : FromActors st st₁) (h' : FromActors st₁ st') : FromActors st st' := by
  intro b hb
  rcases h' b hb with hpc | ⟨b₁, hb₁, hscope₁, hpc₁, hanswer₁⟩
  · exact .inl hpc
  · rcases h b₁ hb₁ with hpc | ⟨a, ha, hscope, hpc, hanswer⟩
    · exact .inl (hpc₁ ▸ hpc)
    · exact .inr ⟨a, ha, hscope.trans hscope₁, hpc.trans hpc₁, hanswer.trans hanswer₁⟩

variable {scope : String} {a b a' : Actor}

theorem mem_setActor (hb : b ∈ (st.setActor scope a).actors) :
    b = a ∨ b ∈ st.actors ∧ b.scope.toString ≠ scope := by
  obtain ⟨b', hb', rfl⟩ := List.mem_map.1 hb
  split
  · exact .inl rfl
  · next hs => exact .inr ⟨hb', hs⟩

theorem FromActors.setActor (ha : a ∈ st.actors) (hscope : a.scope = a'.scope) (hpc : a.pc = a'.pc)
    (hanswer : a.answer = a'.answer) : FromActors st (st.setActor scope a') := by
  intro b hb
  rcases mem_setActor hb with rfl | ⟨hb, -⟩
  · exact .inr ⟨a, ha, hscope, hpc, hanswer⟩
  · exact .inr ⟨b, hb, rfl, rfl, rfl⟩

variable {env : RouterEnv} {src : RouteSource} {item : ActorInbound} {copies : Option Copies}

theorem routed_actors : (st.routed src).actors = st.actors := by
  unfold Bridge.routed
  split <;> rfl

theorem FromActors.handles (h : Bridge.Handles False copies src item st st') : FromActors st st' := by
  induction h with
  | lost | works => exact .of_actors rfl
  | later => exact .of_actors routed_actors
  | takes ha =>
    refine .trans (.setActor ha ?_ ?_ ?_) (.of_actors routed_actors) <;> rfl
  | decides _ _ ih => exact ih
  | spawns _ _ ih =>
    refine .trans (fun b hb => ?_) ih
    rcases List.mem_append.1 hb with hb | hb
    · exact .inr ⟨b, hb, rfl, rfl, rfl⟩
    · obtain rfl := List.mem_singleton.1 hb
      exact .inl rfl
  | removes _ _ _ _ ih => exact .trans (fun b hb => .inr ⟨b, List.mem_of_mem_filter hb, rfl, rfl, rfl⟩) ih
  | cancels ha _ _ ih =>
    refine .trans (.setActor ha ?_ ?_ ?_) ih <;> rfl

/-- The router starts actors and ends none that is with a batch. -/
theorem routerStep_from : FromActors st (st.routerStep fromStr env) := by
  have hto : Bridge.RouterTo False env st (st.routerStep fromStr env) := Bridge.routerStep_to nofun
  generalize st.routerStep fromStr env = st' at hto ⊢
  cases hto with
  | readsPolicy | readsSettings | wakes | idles | waits => exact .of_actors rfl
  | message _ _ _ h | retry _ _ _ h =>
    intro b hb
    exact FromActors.handles h b hb
  | settles => exact .of_actors routed_actors
  | fails _ _ h | resumes _ _ h => exact .handles h

/-! ## The invariant -/

/-- The turns that the actors are to resolve have open rows, each of its own. -/
structure Owned (st : Bridge) : Prop where
  opened : ∀ a ∈ st.actors, ∀ id, a.opens = some id → Unresolved st.store.db id
  own : ∀ a ∈ st.actors, ∀ b ∈ st.actors, ∀ id, a.opens = some id → b.opens = some id →
    a.scope.toString = b.scope.toString

structure Inv (p : Permits) : Prop where
  wf : p.bridge.WF
  nodup : p.held.Nodup
  bound : p.held.length ≤ p.capacity
  /-- Who holds a permit is with a batch. -/
  holders : ∀ scope ∈ p.held, keeps p.bridge.actors scope = true
  /-- Who is with a batch that needs a permit holds one. -/
  granted : ∀ a ∈ p.bridge.actors, a.pc.needsPermit = true → a.scope.toString ∈ p.held
  owned : Owned p.bridge

theorem keeps_iff {actors : List Actor} :
    keeps actors scope = true ↔ ∃ a ∈ actors, a.scope.toString = scope ∧ a.pc.keepsPermit = true := by
  simp [keeps]

theorem opens_congr (hpc : a.pc = b.pc) (hanswer : a.answer = b.answer) : a.opens = b.opens := by
  unfold Actor.opens
  rw [hpc, hanswer]

theorem opens_loopTop (h : a.pc = .loopTop) : a.opens = none := by
  refine Actor.opens_of_outside ?_
  rw [h]
  rfl

/-- A step in which no actor goes on, and no turn is resolved. -/
structure Carries (st st' : Bridge) : Prop where
  actors : FromActors st st'
  turns : ∀ id, Unresolved st.store.db id → Unresolved st'.store.db id

theorem Owned.carry (h : Owned st) (hc : Carries st st') : Owned st' := by
  -- an actor that has opened a turn is one of before
  have before : ∀ b ∈ st'.actors, ∀ id, b.opens = some id →
      ∃ a ∈ st.actors, a.scope = b.scope ∧ a.opens = some id := by
    intro b hb id hid
    rcases hc.actors b hb with hpc | ⟨a, ha, hscope, hpc, hanswer⟩
    · rw [opens_loopTop hpc] at hid
      cases hid
    · exact ⟨a, ha, hscope, (opens_congr hpc hanswer).trans hid⟩
  constructor
  · intro b hb id hid
    obtain ⟨a, ha, -, hopens⟩ := before b hb id hid
    exact hc.turns id (h.opened a ha id hopens)
  · intro b hb b' hb' id hid hid'
    obtain ⟨a, ha, hscope, hopens⟩ := before b hb id hid
    obtain ⟨a', ha', hscope', hopens'⟩ := before b' hb' id hid'
    rw [← hscope, ← hscope']
    exact h.own a ha a' ha' id hopens hopens'

/-- An actor goes on: it opens no turn but the one it has begun. -/
theorem Owned.setActor (h : Owned st) (ha : a ∈ st.actors) (hscope : a'.scope = a.scope)
    (hopens : ∀ id, a'.opens = some id → a.opens = some id) :
    Owned (st.setActor scope a') := by
  have before : ∀ b ∈ (st.setActor scope a').actors, ∀ id, b.opens = some id →
      ∃ a ∈ st.actors, a.scope.toString = b.scope.toString ∧ a.opens = some id := by
    intro b hb id hid
    rcases mem_setActor hb with rfl | ⟨hb, -⟩
    · exact ⟨a, ha, by rw [hscope], hopens id hid⟩
    · exact ⟨b, hb, rfl, hid⟩
  constructor
  · intro b hb id hid
    obtain ⟨a, ha, -, hopens⟩ := before b hb id hid
    exact h.opened a ha id hopens
  · intro b hb b' hb' id hid hid'
    obtain ⟨a, ha, hscope, hopens⟩ := before b hb id hid
    obtain ⟨a', ha', hscope', hopens'⟩ := before b' hb' id hid'
    rw [← hscope, ← hscope']
    exact h.own a ha a' ha' id hopens hopens'

variable {op : InboundOp} {id : ℕ}

/-- The request of an actor resolves no turn but its own. -/
theorem spares_of_op (hop : a.pc.op tenant = some op) (hanswer : a.answer = none) (hne : a.opens ≠ some id) :
    spares id op := by
  cases hpc : a.pc with
  | preparing c batch item settle =>
    rw [hpc] at hop
    cases settle with
    | reject | complete =>
      cases hop
      trivial
  | controlRejecting | replying | screening | rejectingAll | claiming =>
    rw [hpc] at hop
    cases hop
    trivial
  | markRunning t codexTurnId =>
    rw [hpc] at hop
    cases hop
    rfl
  | resolving t resolution waits =>
    rw [hpc] at hop
    cases hop
    intro heq
    exact hne (by simp only [Actor.opens, hpc, hanswer, heq])
  | _ =>
    rw [hpc] at hop
    cases hop

theorem opens_of_answer {r : Except StoreError OpReply} (hop : a.pc.op tenant = some op)
    (h : { a with answer := some r }.opens = some id) :
    a.opens = some id ∧ spares id op ∨ ∃ claimed skipped, r = .ok (.begun (.started id claimed skipped)) := by
  cases hpc : a.pc with
  | claiming c batch adopted turn epoch =>
    simp only [Actor.opens, hpc] at h
    cases r with
    | error e => cases h
    | ok reply =>
      cases reply with
      | begun outcome =>
        cases outcome with
        | started id' claimed skipped =>
          cases h
          exact .inr ⟨claimed, skipped, rfl⟩
        | noReceived skipped => cases h
      | registered | recovered | done => cases h
  | markRunning t codexTurnId =>
    rw [hpc] at hop
    cases hop
    simp only [Actor.opens, hpc] at h
    exact .inl ⟨by simp only [Actor.opens, hpc, h], rfl⟩
  | assembling | starting | running | finalizing =>
    rw [hpc] at hop
    cases hop
  | _ =>
    simp only [Actor.opens, hpc] at h
    cases h

variable {fate : Fate} {now : ℤ} {inner : LiveInner} {accepted : Bool}

theorem actorStore_owned (h : Owned st) :
    Owned (st.actorStore C I tenant scope fate now) := by
  unfold Bridge.actorStore
  split
  · exact h
  next a ha =>
  obtain ⟨hmem, hs⟩ := Bridge.findActor_some ha
  split
  · next op hop hanswer =>
    generalize hcall : st.store.callOp C I fate now op = reply
    obtain ⟨r, store⟩ := reply
    have hdb : (st.store.callOp C I fate now op).2 = store := congrArg Prod.snd hcall
    dsimp only
    -- the rows of the other actors stay open
    have others : ∀ b ∈ st.actors, b.scope.toString ≠ scope → ∀ id, b.opens = some id → Unresolved store.db id := by
      intro b hb hne id hid
      rw [← hdb]
      refine callOp_unresolved (h.opened b hb id hid) (spares_of_op hop hanswer fun hown => hne ?_)
      rw [← hs]
      exact h.own b hb a hmem id hid hown
    have mine : ∀ id, { a with answer := some r }.opens = some id →
        Unresolved store.db id ∧ ∀ b ∈ st.actors, b.scope.toString ≠ scope → b.opens ≠ some id := by
      intro id hid
      rcases opens_of_answer hop hid with ⟨hown, hspares⟩ | ⟨claimed, skipped, rfl⟩
      · refine ⟨?_, fun b hb hne hid' => hne ?_⟩
        · rw [← hdb]
          exact callOp_unresolved (h.opened a hmem id hown) hspares
        · rw [← hs]
          exact h.own b hb a hmem id hid' hown
      · obtain ⟨hopen, hnew⟩ := callOp_begun (congrArg Prod.fst hcall)
        rw [hdb] at hopen
        exact ⟨hopen, fun b hb _ hid' => hnew (h.opened b hb id hid')⟩
    constructor
    · intro b hb id hid
      rcases mem_setActor hb with rfl | ⟨hb, hne⟩
      · exact (mine id hid).1
      · exact others b hb hne id hid
    · intro b hb b' hb' id hid hid'
      rcases mem_setActor hb with rfl | ⟨hb, hne⟩ <;> rcases mem_setActor hb' with rfl | ⟨hb', hne'⟩
      · rfl
      · exact absurd hid' ((mine id hid).2 b' hb' hne')
      · exact absurd hid ((mine id hid').2 b hb hne)
      · exact h.own b hb b' hb' id hid hid'
  · exact h

/-! ## Steps of the bridge -/

theorem Carries.of_eq (hactors : st'.actors = st.actors) (hstore : st'.store = st.store) : Carries st st' :=
  ⟨.of_actors hactors, fun id h => by rwa [hstore]⟩

theorem Carries.refl (st : Bridge) : Carries st st := .of_eq rfl rfl

/-- The store runs a request that is not about turns. -/
theorem Carries.of_call (hactors : st'.actors = st.actors) (hstore : st'.store = (st.store.callOp C I fate now op).2)
    (hop : ∀ id, spares id op) : Carries st st' := by
  refine ⟨.of_actors hactors, fun id h => ?_⟩
  rw [hstore]
  exact callOp_unresolved h (hop id)

theorem routerOp_spares {pc : RouterPc} (hop : pc.op tenant = some op) (id : ℕ) : spares id op := by
  unfold RouterPc.op at hop
  split at hop
  · cases hop
    trivial
  · cases hop
    trivial
  · cases hop

/-- The step is one of an actor, or the answer to its request. -/
def movesActor : Event → Bool
  | .actor _ _ | .actorStore _ _ _ => true
  | _ => false

theorem restart_actors :
    (st.restart C I tenant inner fate now accepted).actors = [] := by
  unfold Bridge.restart
  dsimp only
  split
  · split <;> rfl
  · rfl

/-- A start leaves the turns as they are. -/
theorem restart_carries :
    Carries st (st.restart C I tenant inner fate now accepted) := by
  have hopen : ∀ id, Unresolved st.store.db id →
      Unresolved ({ st.store with alive := true }.callOp C I fate now (.recoverReceived tenant)).2.db id := by
    intro id h
    exact callOp_unresolved (w := { st.store with alive := true }) h trivial
  refine ⟨.of_nil restart_actors, ?_⟩
  unfold Bridge.restart
  dsimp only
  split
  · next heq =>
    rw [heq] at hopen
    split
    · exact hopen
    · exact hopen
  · next heq =>
    rw [heq] at hopen
    exact hopen

variable {e : Event}

theorem stepRunning_carries (hwf : st.WF) (he : movesActor e = false) :
    Carries st (st.stepRunning C I tenant fromStr e) := by
  cases e with
  | deliver event => exact .of_eq rfl rfl
  | register i fate now =>
    show Carries st (st.register C I tenant i fate now)
    unfold Bridge.register
    split
    · exact .of_call rfl rfl fun _ => trivial
    · exact .refl st
  | handled i accepted =>
    show Carries st (st.handled tenant i accepted)
    unfold Bridge.handled
    split
    · dsimp only
      split
      · split <;> exact .of_eq rfl rfl
      · exact .of_eq rfl rfl
    · exact .refl st
  | abandon i =>
    show Carries st (st.abandon i)
    unfold Bridge.abandon
    split <;> exact .of_eq rfl rfl
  | drive fits =>
    show Carries st (st.drive fits)
    unfold Bridge.drive Bridge.send
    split
    · split
      · exact .refl st
      · split <;> exact .of_eq rfl rfl
    · split <;> exact .of_eq rfl rfl
    · exact .refl st
  | routerStore fate now =>
    show Carries st (st.routerStore C I tenant fate now)
    unfold Bridge.routerStore
    split
    · next op hop _ => exact .of_call rfl rfl (routerOp_spares hop)
    · exact .refl st
  | router env =>
    refine ⟨routerStep_from, fun id h => ?_⟩
    have hstore : (st.routerStep fromStr env).store = st.store := (Bridge.routerStep_passes hwf).store
    show Unresolved (st.routerStep fromStr env).store.db id
    rwa [hstore]
  | supervise access => exact .of_eq rfl rfl
  | sweep fate now olderThanMs maxRows => exact .of_call rfl rfl fun _ => trivial
  | restart => exact restart_carries
  | actor | actorStore => cases he

theorem step_wf (h : st.WF) (e : Event) : (st.step C I tenant fromStr e).WF := by
  have hstep : Bridge.Step C I tenant st e (st.step C I tenant fromStr e) := Bridge.step_cases h e
  generalize st.step C I tenant fromStr e = st' at hstep
  cases hstep with
  | moves hm => exact hm.wf
  | register i fate now =>
    unfold Bridge.register
    split
    · exact ⟨h.shape, h.driven, h.evicting⟩
    · exact h
  | asks fate now op ha => exact ha.wf
  | sweep => exact ⟨h.shape, h.driven, h.evicting⟩
  | restart inner fate now accepted =>
    have hkept : (st.restart C I tenant inner fate now accepted).Kept tenant := Bridge.restart_kept
    exact hkept.wf

theorem actorStep_owned {env : Env} (hwf : st.WF) (h : Owned st) :
    Owned (st.actorStep tenant scope env) := by
  unfold Bridge.actorStep
  split
  · exact h
  · next a ha =>
    obtain ⟨hmem, -⟩ := Bridge.findActor_some ha
    have hscope : (a.run tenant ⟨st.live, st.supervisor, env⟩).actor.scope = a.scope :=
      (Actor.run_keeps (hwf.shape.actors a hmem)).scope
    have hphase : a.Phase ⟨st.live, st.supervisor, env⟩ (a.run tenant ⟨st.live, st.supervisor, env⟩).actor :=
      Actor.run_phase
    have hset : Owned (st.setActor scope _) := h.setActor hmem hscope hphase.opens
    exact ⟨hset.opened, hset.own⟩

/-- A stopped bridge only starts. -/
theorem step_cases (e : Event) : Carries st (st.step C I tenant fromStr e) ∨
    st.running = true ∧ st.step C I tenant fromStr e = st.stepRunning C I tenant fromStr e := by
  cases e with
  | restart inner fate now accepted => exact .inl restart_carries
  | _ =>
    by_cases hrunning : st.running = true
    · exact .inr ⟨hrunning, if_pos hrunning⟩
    · exact .inl (.of_eq (congrArg _ (if_neg hrunning)) (congrArg _ (if_neg hrunning)))

/-- No actor goes on in this step, or one of a running bridge does. -/
theorem step_carries (hwf : st.WF) : Carries st (st.step C I tenant fromStr e) ∨
    st.running = true ∧ ((∃ scope env, e = .actor scope env ∧ st.step C I tenant fromStr e = st.actorStep tenant scope env) ∨
      ∃ scope fate now, st.step C I tenant fromStr e = st.actorStore C I tenant scope fate now) := by
  have hcases : Carries st (st.step C I tenant fromStr e) ∨
      st.running = true ∧ st.step C I tenant fromStr e = st.stepRunning C I tenant fromStr e := step_cases e
  rcases hcases with hc | ⟨hrunning, heq⟩
  · exact .inl hc
  rw [heq]
  cases e with
  | actor scope env => exact .inr ⟨hrunning, .inl ⟨scope, env, rfl, rfl⟩⟩
  | actorStore scope fate now => exact .inr ⟨hrunning, .inr ⟨scope, fate, now, rfl⟩⟩
  | _ => exact .inl (stepRunning_carries hwf rfl)

theorem step_owned (hwf : st.WF) (h : Owned st) : Owned (st.step C I tenant fromStr e) := by
  have hcases : Carries st (st.step C I tenant fromStr e) ∨ _ := step_carries hwf
  rcases hcases with hc | ⟨-, ⟨scope, env, -, heq⟩ | ⟨scope, fate, now, heq⟩⟩
  · exact h.carry hc
  · rw [heq]
    exact actorStep_owned hwf h
  · rw [heq]
    exact actorStore_owned h

/-! ## Who is with a batch -/

/-- The new actors' awaits: each is reached from that of the actor before. -/
theorem step_phase (hwf : st.WF) (hb : b ∈ (st.step C I tenant fromStr e).actors) :
    b.pc = .loopTop ∨ (∃ a ∈ st.actors, a.scope = b.scope ∧ a.pc = b.pc) ∨
      ∃ scope env a, e = .actor scope env ∧ st.running = true ∧ st.findActor scope = some a ∧ a.scope = b.scope ∧
        a.Phase ⟨st.live, st.supervisor, env⟩ b := by
  have hcases : Carries st (st.step C I tenant fromStr e) ∨ _ := step_carries hwf
  rcases hcases with hc | ⟨hrunning, ⟨scope, env, rfl, heq⟩ | ⟨scope, fate, now, heq⟩⟩
  · rcases hc.actors b hb with hpc | ⟨a, ha, hscope, hpc, -⟩
    · exact .inl hpc
    · exact .inr (.inl ⟨a, ha, hscope, hpc⟩)
  · rw [heq] at hb
    unfold Bridge.actorStep at hb
    split at hb
    · exact .inr (.inl ⟨b, hb, rfl, rfl⟩)
    · next a ha =>
      rcases mem_setActor hb with rfl | ⟨hb, -⟩
      · exact .inr (.inr ⟨scope, env, a, rfl, hrunning, ha,
          (Actor.run_keeps (hwf.shape.actors a (Bridge.findActor_some ha).1)).scope.symm, Actor.run_phase⟩)
      · exact .inr (.inl ⟨b, hb, rfl, rfl⟩)
  · rw [heq] at hb
    unfold Bridge.actorStore at hb
    split at hb
    · exact .inr (.inl ⟨b, hb, rfl, rfl⟩)
    · next a ha =>
      split at hb
      · rcases mem_setActor hb with rfl | ⟨hb, -⟩
        · exact .inr (.inl ⟨a, (Bridge.findActor_some ha).1, rfl, rfl⟩)
        · exact .inr (.inl ⟨b, hb, rfl, rfl⟩)
      · exact .inr (.inl ⟨b, hb, rfl, rfl⟩)

theorem findActor_iff (hwf : st.WF) :
    st.findActor scope = some a ↔ a ∈ st.actors ∧ a.scope.toString = scope := by
  constructor
  · exact Bridge.findActor_some
  · rintro ⟨ha, hs⟩
    cases hfind : st.findActor scope with
    | none => exact absurd hs (Bridge.findActor_none hfind a ha)
    | some b =>
      obtain ⟨hb, hbs⟩ := Bridge.findActor_some hfind
      exact congrArg some (List.inj_on_of_nodup_map hwf.shape.scopes hb ha (hbs.trans hs.symm))

/-! ## Runs -/

theorem Inv.of_nil (hwf : p.bridge.WF) (hheld : p.held = []) (hactors : p.bridge.actors = []) : p.Inv := by
  refine ⟨hwf, by rw [hheld]; exact List.nodup_nil, by rw [hheld]; exact Nat.zero_le _, fun s hs => ?_, fun a ha => ?_,
    fun a ha => ?_, fun a ha => ?_⟩
  · rw [hheld] at hs
    cases hs
  all_goals
    rw [hactors] at ha
    cases ha

theorem Inv.grant (h : p.Inv) : (p.grant scope).Inv := by
  unfold Permits.grant
  split
  · next hg =>
    obtain ⟨hwaits, hnew, hroom⟩ := hg
    refine ⟨h.wf, ?_, ?_, ?_, fun a ha hn => List.mem_append_left _ (h.granted a ha hn), h.owned⟩
    · exact List.nodup_append.2 ⟨h.nodup, List.nodup_singleton _, fun s hs t ht hst =>
        hnew (List.mem_singleton.1 ht ▸ hst ▸ hs)⟩
    · dsimp only
      rw [List.length_append, List.length_singleton]
      omega
    · intro s hs
      rcases List.mem_append.1 hs with hs | hs
      · exact h.holders s hs
      · obtain rfl := List.mem_singleton.1 hs
        obtain ⟨a, ha, hw⟩ := (Option.any_eq_true _ _).1 hwaits
        obtain ⟨hmem, hscope⟩ := Bridge.findActor_some ha
        refine keeps_iff.2 ⟨a, hmem, hscope, ?_⟩
        cases hpc : a.pc with
        | permitWait => rfl
        | _ =>
          rw [hpc] at hw
          cases hw
  · exact h

theorem Inv.advance (h : p.Inv) (hl : p.lacksPermit e = false) : (p.advance C I tenant fromStr e).Inv := by
  refine ⟨step_wf h.wf e, h.nodup.filter _, ?_, fun s hs => (List.mem_filter.1 hs).2, fun b hb hn => ?_,
    step_owned h.wf h.owned⟩
  · have hle : (p.held.filter (keeps (p.bridge.step C I tenant fromStr e).actors)).length ≤ p.held.length :=
      List.length_filter_le _ _
    cases e with
    | restart inner fate now accepted =>
      -- a new semaphore has all its permits
      have hnone : p.held.filter (keeps (p.bridge.restart C I tenant inner fate now accepted).actors) = [] := by
        rw [restart_actors]
        simp [keeps]
      exact (congrArg List.length hnone).trans_le (Nat.zero_le _)
    | _ => exact hle.trans h.bound
  · refine List.mem_filter.2 ⟨?_, keeps_iff.2 ⟨b, hb, rfl, ActorPc.keepsPermit_of_needs hn⟩⟩
    rcases step_phase h.wf hb with hpc | ⟨a, ha, hscope, hpc⟩ | ⟨scope, env, a, rfl, -, ha, hscope, hphase⟩
    · rw [hpc] at hn
      cases hn
    · rw [← hscope]
      exact h.granted a ha (hpc ▸ hn)
    · obtain ⟨hmem, hs⟩ := Bridge.findActor_some ha
      rw [← hscope]
      rcases hphase.permit hn with hneeds | ⟨⟨c, batch, adopted, hpc⟩, hanswer⟩
      · exact h.granted a hmem hneeds
      · -- the permit was granted, or the actor would not go on
        by_contra hnot
        rw [hs] at hnot
        simp only [lacksPermit, ha, Option.any_some, hpc, ActorPc.waitsForPermit, hnot, not_false_eq_true, decide_true,
          Bool.and_true, decide_eq_false_iff_not] at hl
        exact hl hanswer

theorem Inv.step (h : p.Inv) (e : PermitEvent) : (p.step C I tenant fromStr e).Inv := by
  cases e with
  | grant scope => exact h.grant
  | bridge e =>
    unfold Permits.step
    dsimp only
    split
    · exact h
    · next hl => exact h.advance (Bool.eq_false_iff.2 hl)

theorem initial_inv (inner : LiveInner) : (initial inner).Inv := .of_nil (Bridge.initial_wf inner) rfl rfl

theorem after_inv (inner : LiveInner) (es : List PermitEvent) : (after C I tenant fromStr inner es).Inv :=
  exec_invariant' (I := Inv) (fun _ e h => h.step e) (initial_inv inner)

/-! ## Live holders -/

/-- No turn that is resolved is still to be settled. -/
def Calm (p : Permits) : Prop := ∀ a ∈ p.bridge.actors, a.pc.settles = false

theorem Calm.step {e : PermitEvent} (h : p.Calm) (hwf : p.bridge.WF) (hleaves : p.LeavesNothing e) :
    (p.step C I tenant fromStr e).Calm := by
  cases e with
  | grant scope =>
    intro a ha
    refine h a ?_
    change a ∈ (p.grant scope).bridge.actors at ha
    unfold Permits.grant at ha
    split at ha <;> exact ha
  | bridge e =>
    unfold Permits.step
    dsimp only
    split
    · exact h
    intro b hb
    rcases step_phase hwf hb with hpc | ⟨a, ha, -, hpc⟩ | ⟨scope, env, a, rfl, hrunning, ha, -, hphase⟩
    · rw [hpc]
      rfl
    · rw [← hpc]
      exact h a ha
    · refine Bool.eq_false_iff.2 fun hs => ?_
      rcases hphase.settles hs with hs | hs
      · rw [h a (Bridge.findActor_some ha).1] at hs
        cases hs
      · rw [hleaves hrunning a ha] at hs
        cases hs

/-- The actors that have a permit are as many as the permits taken. -/
theorem Inv.held_length (h : p.Inv) :
    p.held.length = (p.bridge.actors.filter fun a => decide (a.scope.toString ∈ p.held)).length := by
  have hperm : p.held.Perm
      ((p.bridge.actors.filter fun a => decide (a.scope.toString ∈ p.held)).map (·.scope.toString)) := by
    refine (List.perm_ext_iff_of_nodup h.nodup ?_).2 fun s => ?_
    · exact h.wf.shape.scopes.sublist (List.filter_sublist.map _)
    · constructor
      · intro hs
        obtain ⟨a, ha, rfl, -⟩ := keeps_iff.1 (h.holders s hs)
        exact List.mem_map_of_mem (List.mem_filter.2 ⟨ha, decide_eq_true hs⟩)
      · intro hs
        obtain ⟨a, ha, rfl⟩ := List.mem_map.1 hs
        exact of_decide_eq_true (List.mem_filter.1 ha).2
  exact hperm.length_eq.trans (List.length_map _)

/-- An actor whose turn leaves nothing to settle has a live turn, or none. -/
theorem Owned.live (h : Owned st) (ha : a ∈ st.actors) (hs : a.pc.settles = false) :
    a.live st.store.db = true := by
  have hopen : ∀ t : TurnTask, a.opens = some t.turnRowId →
      (st.store.db.turns.rows.any fun r => decide (r.id = t.turnRowId) && r.val.unresolved) = true := by
    intro t hopens
    obtain ⟨r, hr, hid, hopen⟩ := h.opened a ha _ hopens
    exact List.any_eq_true.2 ⟨r, hr, by simp [hid, hopen]⟩
  unfold Actor.live
  cases hpc : a.pc with
  | assembling t | starting t | running t | markRunning t codexTurnId | finalizing t resolution waits =>
    exact hopen t (by simp only [Actor.opens, hpc])
  | resolving t resolution waits =>
    cases hanswer : a.answer with
    | some r => rfl
    | none => exact hopen t (by simp only [Actor.opens, hpc, hanswer])
  | epochEnd | releasing =>
    rw [hpc] at hs
    cases hs
  | _ => rfl

theorem Inv.heldByLive (h : p.Inv) (hcalm : p.Calm) : p.HeldByLive := by
  have hcount : p.held.length = p.liveHolders.length := by
    rw [h.held_length, liveHolders]
    refine congrArg List.length (List.filter_congr fun a ha => ?_)
    rw [h.owned.live ha (hcalm a ha), Bool.and_true]
  refine ⟨hcount, fun a ha hs => ?_, fun a ha hw hlt => ?_⟩
  · rw [hcalm a ha] at hs
    cases hs
  · rw [← hcount] at hlt
    unfold Permits.grant
    split
    · exact List.mem_append_right _ (List.mem_singleton_self _)
    · next hno =>
      by_contra hnot
      refine hno ⟨?_, hnot, hlt⟩
      rw [(findActor_iff h.wf).2 ⟨ha, rfl⟩]
      exact hw

/-- The actor that goes on from such a resolution keeps its permit. -/
theorem HeldByLive.leavesNothing {e : PermitEvent} (h : p.Inv) (hlive : (p.step C I tenant fromStr e).HeldByLive) :
    p.LeavesNothing e := by
  cases e with
  | grant scope => trivial
  | bridge e =>
    cases e with
    | actor scope env =>
      intro hrunning a ha
      refine Bool.eq_false_iff.2 fun hwork => ?_
      obtain ⟨hmem, hs⟩ := Bridge.findActor_some ha
      have hinv : (p.step C I tenant fromStr (.bridge (.actor scope env))).Inv := h.step _
      let o := a.run tenant ⟨p.bridge.live, p.bridge.supervisor, env⟩
      have hsettles : o.actor.pc.settles = true := Actor.run_of_leavesWork hwork
      -- the actor is the one of its scope after the step
      have hstep : o.actor ∈ (p.step C I tenant fromStr (.bridge (.actor scope env))).bridge.actors := by
        have hwaits : a.pc.waitsForPermit = false := by
          cases hpc : a.pc with
          | permitWait c batch adopted =>
            rw [Actor.leavesWork, hpc] at hwork
            cases hwork
          | _ => rfl
        have hlacks : p.lacksPermit (.actor scope env) = false := by simp [lacksPermit, ha, hwaits]
        have hactors : o.actor ∈ (p.bridge.actorStep tenant scope env).actors := by
          unfold Bridge.actorStep
          rw [ha]
          exact List.mem_map.2 ⟨a, hmem, if_pos hs⟩
        unfold Permits.step
        dsimp only
        rw [hlacks, if_neg Bool.false_ne_true]
        unfold Permits.advance Bridge.step
        dsimp only
        rwa [if_pos hrunning]
      exact hlive.settled _ hstep hsettles (hinv.granted _ hstep (ActorPc.needs_of_settles hsettles))
    | _ => trivial

/-- **Permits are held by live turns** in every state of a run exactly if no step of the run goes on from the confirmed
resolution of a turn that leaves something to settle. -/
theorem permits_held_by_live_turns (inner : LiveInner) (es : List PermitEvent) :
    (∀ fs, fs <+: es → (after C I tenant fromStr inner fs).HeldByLive) ↔
      Along (step C I tenant fromStr) LeavesNothing (initial inner) es := by
  constructor
  · induction es using List.reverseRecOn with
    | nil => exact fun _ => trivial
    | append_singleton es e ih =>
      intro h
      refine along_append.2 ⟨ih fun fs hfs => h fs (hfs.trans (List.prefix_append _ _)), ?_, trivial⟩
      have hlast := h (es ++ [e]) (List.prefix_refl _)
      rw [after, exec_append] at hlast
      exact HeldByLive.leavesNothing (after_inv inner es) hlast
  · rintro h fs ⟨gs, rfl⟩
    have hcalm : (after C I tenant fromStr inner fs).Inv ∧ (after C I tenant fromStr inner fs).Calm := by
      refine exec_invariant (I := fun p : Permits => p.Inv ∧ p.Calm)
        (fun p e ⟨hinv, hcalm⟩ hleaves => ⟨hinv.step e, hcalm.step hinv.wf hleaves⟩) ⟨initial_inv inner, ?_⟩ (along_append.1 h).1
      intro a ha
      cases ha
    exact hcalm.1.heldByLive hcalm.2

/-! ### One permit -/

/-- The sample configuration with one permit. -/
def onePermit : LiveInner :=
  let config := { sampleConfig with activeTurnPermits := 1 }
  { sampleInner with config := some config, settings := .fromConfig config }

def secondMessage : InboundEvent := directMessage "evt_2" "om_2" "oc_2" "ou_1" "hello"

def twoMessages : InboundCodec :=
  codecOf
    [(.ofEvent (persistableEvent Bridge.helloMessage), directPayload "evt_1" "om_1" "oc_1" "ou_1" "hello"),
     (.ofEvent (persistableEvent secondMessage), directPayload "evt_2" "om_2" "oc_2" "ou_1" "hello")]
    (by decide)

/-- The bridge and its semaphore after a run of the sample. -/
def twoAfter (es : List PermitEvent) : Permits := after noOutbox twoMessages sampleTenant (fun _ => none) onePermit es

/-- Two messages reach the actors of their scopes. -/
def twoRouted : List Event :=
  .restart onePermit .execute 1000 true :: intake Bridge.helloMessage 1001 ++
    [.supervise ⟨1, true, false⟩, routerTakes .other, routerTakes .other, routerTakes .message] ++
    intake secondMessage 1002 ++ [routerTakes .other, routerTakes .other, routerTakes .message]

/-- An actor waits for its permit. -/
def untilPermit (scope : String) : List Event :=
  [.next, .next, .message, .timer, .adoption (some none), .mapping (some none), .next].map (actorTakes scope ·)

/-- The turn of the first scope has started, but the store fails to record that it runs. -/
def unrecordedTurn : List Event :=
  [.permit, .mapping (some none), .workspace (.ok false), .next, .thread (.ok "thread-1"), .subscribed (.ok "client-1")].map
      (actorTakes "im:oc_1" ·) ++
    [.actorStore "im:oc_1" .execute 2000, actorTakes "im:oc_1" .next, actorTakes "im:oc_1" (.assembled true),
      actorTakes "im:oc_1" (.start (.started "turn-1" true)), .actorStore "im:oc_1" (.reject .queueFull false) 2001,
      actorTakes "im:oc_1" .next]

/-- So the turn is resolved as uncertain, while its epoch goes on. -/
def resolvedTurn : List Event :=
  [actorTakes "im:oc_1" (.finalized none), .actorStore "im:oc_1" .execute 2002, actorTakes "im:oc_1" .next]

def outlastingRun : List PermitEvent :=
  (twoRouted ++ untilPermit "im:oc_1").map .bridge ++ [.grant "im:oc_1"] ++
    (unrecordedTurn ++ resolvedTurn ++ untilPermit "im:oc_2").map .bridge

set_option maxRecDepth 20000 in
/-- **A permit outlasts its turn**: the turn of the first scope is resolved, no turn is live, and the second scope waits for
a permit that it does not get. -/
theorem permit_outlasts_turn :
    (twoAfter outlastingRun).held = ["im:oc_1"] ∧ (twoAfter outlastingRun).capacity = 1 ∧
      (twoAfter outlastingRun).liveHolders = [] ∧
      (twoAfter outlastingRun).bridge.store.db.turns.rows.map (fun r => (r.id, r.val.state)) = [(1, .uncertain)] ∧
      (twoAfter outlastingRun).bridge.actors.map (fun a => (a.pc.settles, a.pc.waitsForPermit)) =
        [(true, false), (false, true)] ∧
      ((twoAfter outlastingRun).grant "im:oc_2").held = ["im:oc_1"] ∧ ¬(twoAfter outlastingRun).HeldByLive := by
  have hheld : (twoAfter outlastingRun).held = ["im:oc_1"] := by decide
  have hlive : (twoAfter outlastingRun).liveHolders = [] := by decide
  refine ⟨hheld, by decide, hlive, by decide, by decide, by decide, fun h => ?_⟩
  have hcount := h.count
  rw [hheld, hlive] at hcount
  cases hcount

end Permits

end LarkCodexBridge.Runtime
