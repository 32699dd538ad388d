import LarkCodexBridge.Runtime.ActorSteps
import LarkCodexBridge.Runtime.LiveTurns
import LarkCodexBridge.Runtime.System
import LarkCodexBridge.Store.InboundAnswers

/-!
# The phases of a batch

A batch waits for its permit, then it is screened and routed, then its turn is begun, and at last the turn is resolved and
what it left behind is settled.

* `ActorPc.keepsPermit`: the awaits that a permit outlasts;
* `Actor.opens`: the turn whose row the actor is still to resolve;
* `run_phase`: one step of an actor enters the phases only with a permit, and opens no turn but the one it has begun;
* `callOp_unresolved`: a turn stays open through every request but its own resolution.
-/

namespace LarkCodexBridge.Runtime

open Limits Lark Store Outbox SqlTable

/-! ## Phases -/

/-- The turn is resolved, and what it left behind is settled. -/
def ActorPc.settles : ActorPc → Bool
  | .epochEnd _ | .releasing _ => true
  | _ => false

/-- The awaits that a permit outlasts: it is granted while the task waits for it, and a batch can be rejected with it. -/
def ActorPc.keepsPermit : ActorPc → Bool
  | .permitWait .. | .rejectingAll .. => true
  | pc => pc.needsPermit

/-- The turn whose row the actor is still to resolve: one that was just begun, or one that it works on. -/
def Actor.opens (a : Actor) : Option ℕ :=
  match a.pc, a.answer with
  | .claiming .., some (.ok (.begun (.started id _ _))) => some id
  | .assembling t, _ | .starting t, _ | .markRunning t _, _ | .running t, _ | .finalizing t _ _, _ => some t.turnRowId
  | .resolving t _ _, none => some t.turnRowId
  | _, _ => none

theorem ActorPc.keepsPermit_of_needs {pc : ActorPc} (h : pc.needsPermit = true) : pc.keepsPermit = true := by
  unfold keepsPermit
  split
  · rfl
  · rfl
  · exact h

theorem ActorPc.needs_of_turn {pc : ActorPc} {t : TurnTask} (h : pc.turn? = some t) : pc.needsPermit = true := by
  unfold needsPermit
  split
  any_goals rfl
  rw [h]
  rfl

theorem ActorPc.turn_of_batch {pc : ActorPc} {c : Option Copies} {batch : List TurnInbound} (h : pc.batch? = some (c, batch)) :
    pc.turn? = none := by
  cases pc <;> cases h <;> rfl

theorem ActorPc.needs_of_settles {pc : ActorPc} (h : pc.settles = true) : pc.needsPermit = true := by
  cases pc with
  | epochEnd | releasing => rfl
  | _ => cases h

theorem Actor.opens_of_outside {a : Actor} (h : a.pc.needsPermit = false) : a.opens = none := by
  cases hpc : a.pc with
  | screening | readThread | workspace | route | waitClient | ensureThread | settling | subscribing | claiming | assembling
  | starting | markRunning | running | finalizing | resolving | epochEnd | releasing =>
    rw [hpc] at h
    cases h
  | _ => simp only [opens, hpc]

/-! ## Steps of an actor -/

/-- The task is not with a batch that needs a permit. -/
def Outcome.Outside (o : Outcome) : Prop := o.actor.pc.needsPermit = false

namespace Actor

variable {x : Ctx} {a : Actor} {c : Copies} {batch : List TurnInbound} {collected : Option (List TurnInbound)}
  {item : ActorInbound} {log : List LogEntry} {tenant : TenantNamespace} {control : ActorControl}

theorem leaveBatch_outside {state : ScopeState} {dropped : List ActorInbound} :
    (a.leaveBatch x state batch dropped log).Outside := by
  unfold leaveBatch
  dsimp only
  split <;> rfl

theorem rejectAll_outside {reason : InboundRejectionKind} : (a.rejectAll x reason batch).Outside := by
  unfold rejectAll
  split
  · exact leaveBatch_outside
  · split
    · exact leaveBatch_outside
    · rfl

theorem collect_outside : (a.collect x c batch).Outside := by
  unfold collect
  split <;> rfl

theorem openBatch_outside {first : TurnInbound} : (a.openBatch x c first).Outside := by
  unfold openBatch
  dsimp only
  split
  · rfl
  · exact collect_outside

theorem prepared_outside {turn : TurnInbound} : (a.prepared x c collected turn).Outside := by
  unfold prepared
  split
  · exact openBatch_outside
  · unfold joinBatch
    split
    · rfl
    · exact collect_outside

theorem settled_outside : (a.settled x c collected).Outside := by
  unfold settled
  split
  · rfl
  · exact collect_outside

theorem prepareFailed_outside {kind : ScopeFailureKind} : (a.prepareFailed x c collected item kind).Outside := by
  unfold prepareFailed
  split <;> rfl

theorem prepareInbound_outside : (a.prepareInbound x c collected item).Outside := by
  unfold prepareInbound
  split
  · unfold prepareMedia
    dsimp only
    split
    · rfl
    · split
      · exact prepareFailed_outside
      · rfl
  · exact prepared_outside

theorem finishPreparing_outside {op : SettleOp} : (a.finishPreparing x c collected item op).Outside := by
  cases op with
  | reject reason notice => exact settled_outside
  | complete =>
    unfold finishPreparing
    dsimp only
    split
    · exact settled_outside (a := { a with pendingMedia := a.pendingMedia.stage x.env.instant item.event })
    · exact settled_outside

theorem reply_outside : (a.reply x control).Outside := by
  unfold reply
  split <;> rfl

theorem processControl_outside : (a.processControl x control c).Outside := by
  unfold processControl
  split
  · unfold rejectControl
    split <;> rfl
  · dsimp only
    split
    · unfold rejectControl
      split <;> rfl
    · split
      · exact reply_outside (a := a)
      · rfl

theorem dispatch_outside : (a.dispatch x c).Outside := by
  unfold dispatch
  split
  · rfl
  · exact openBatch_outside
  · rfl

/-- The store confirmed the resolution of a turn that leaves something to settle: attachments to release, perhaps once its
epoch is over. -/
def leavesWork (a : Actor) : Bool :=
  match a.pc, a.answer with
  | .resolving t resolution waits, some (.ok _) => !t.adopted && (waits || resolution ≠ .uncertain)
  | _, _ => false

/-- What a step does to the phase of the batch. -/
structure Phase (a : Actor) (x : Ctx) (a' : Actor) : Prop where
  /-- A permit is waited for. -/
  permit : a'.pc.needsPermit = true →
    a.pc.needsPermit = true ∨ (∃ c batch adopted, a.pc = .permitWait c batch adopted) ∧ x.env.answer = .permit
  opens : ∀ id, a'.opens = some id → a.opens = some id
  settles : a'.pc.settles = true → a.pc.settles = true ∨ a.leavesWork = true

theorem Phase.stay : a.Phase x a := ⟨.inl, fun _ h => h, .inl⟩

theorem Phase.outside {o : Outcome} (h : o.Outside) : a.Phase x o.actor := by
  have hneeds : o.actor.pc.needsPermit ≠ true := by
    rw [show o.actor.pc.needsPermit = false from h]
    nofun
  refine ⟨fun hn => absurd hn hneeds, fun id hid => ?_, fun hs => absurd (ActorPc.needs_of_settles hs) hneeds⟩
  rw [opens_of_outside h] at hid
  cases hid

variable {pc : ActorPc} {a₁ : Actor} {t t' : TurnTask}

/-- The batch goes on with its permit, and has no turn yet. -/
theorem Phase.inside (h : a.pc.needsPermit = true ∨
    (∃ c batch adopted, a.pc = .permitWait c batch adopted) ∧ x.env.answer = .permit) (hturn : pc.turn? = none) :
    a.Phase x (a₁.goto x pc log).actor := by
  refine ⟨fun _ => h, fun id hid => ?_, fun hs => ?_⟩
  · unfold Actor.opens at hid
    cases pc with
    | assembling | starting | markRunning | running | finalizing | resolving => cases hturn
    | _ => cases hid
  · cases pc with
    | epochEnd | releasing => cases hturn
    | _ => cases hs

theorem Phase.turn (hopens : a.opens = some t.turnRowId) (hneeds : a.pc.needsPermit = true) (hturn : pc.turn? = some t')
    (hid : t'.turnRowId = t.turnRowId) (hs : pc.settles = false) :
    a.Phase x (a₁.goto x pc log).actor := by
  refine ⟨fun _ => .inl hneeds, fun id h => ?_, fun h => ?_⟩
  · rw [hopens, ← hid]
    unfold Actor.opens at h
    cases pc with
    | assembling | starting | markRunning | running | finalizing | resolving =>
      obtain rfl := Option.some.inj hturn
      exact h
    | _ => cases h
  · rw [show (a₁.goto x pc log).actor.pc.settles = pc.settles from rfl, hs] at h
    cases h

theorem receive_phase : a.Phase x (a.receive x c collected).actor := by
  unfold receive
  split
  · exact .stay
  · exact .outside prepareInbound_outside
  · split <;> exact .outside rfl

/-- What is settled after the turn holds on to the permit. -/
theorem Phase.settling (hneeds : a.pc.needsPermit = true) (hs : pc.settles = true)
    (h : a.pc.settles = true ∨ a.leavesWork = true) : a.Phase x (a.goto x pc log).actor := by
  refine ⟨fun _ => .inl hneeds, fun id hid => ?_, fun _ => h⟩
  unfold Actor.opens at hid
  cases pc with
  | epochEnd | releasing => cases hid
  | _ => cases hs

theorem screen_phase {adopted : Bool} (h : a.pc.needsPermit = true ∨
    (∃ c batch adopted, a.pc = .permitWait c batch adopted) ∧ x.env.answer = .permit) :
    ∀ todo kept : List TurnInbound, a.Phase x (a₁.screen x c adopted todo kept).actor
  | [], kept => by
    unfold screen
    split
    · exact .outside leaveBatch_outside
    · exact .inside h rfl
  | turn :: todo, kept => by
    unfold screen
    split
    · exact screen_phase h todo (kept ++ [turn])
    · split
      · exact .outside leaveBatch_outside
      · exact .inside h rfl

theorem resolved_phase {resolution : TurnResolution} {waits : Bool} {reply : OpReply}
    (hpc : a.pc = .resolving t resolution waits) (hr : a.answer = some (.ok reply)) :
    a.Phase x (a.resolved x t resolution waits).actor := by
  have hneeds : a.pc.needsPermit = true := by
    rw [hpc]
    rfl
  unfold resolved
  split
  · exact .outside leaveBatch_outside
  next hadopted =>
  have hwork : a.leavesWork = (waits || decide (resolution ≠ .uncertain)) := by simp [leavesWork, hpc, hr, hadopted]
  split
  · next hwaits => exact .settling hneeds rfl (.inr (by simp [hwork, hwaits]))
  · split
    · exact .outside leaveBatch_outside
    · next hres => exact .settling hneeds rfl (.inr (by simp [hwork, hres]))

theorem answered_phase {r : Except StoreError OpReply} (hr : a.answer = some r) : a.Phase x (a.answered x r).actor := by
  unfold answered
  cases hpc : a.pc with
  | preparing c collected item op =>
    dsimp only
    split
    · exact .outside finishPreparing_outside
    · exact .outside prepareFailed_outside
  | controlRejecting control reason notice =>
    dsimp only
    split <;> exact .outside rfl
  | replying control row =>
    dsimp only
    unfold replied
    split <;> exact .outside rfl
  | screening c adopted item reason notice rest kept =>
    dsimp only
    split
    · exact screen_phase (.inl (by rw [hpc]; rfl)) rest kept
    · exact .outside leaveBatch_outside
  | rejectingAll reason item notice rest =>
    dsimp only
    split
    · exact .outside rejectAll_outside
    · exact .outside leaveBatch_outside
  | claiming c batch adopted turn epoch =>
    dsimp only
    unfold claimed
    split
    · next id claimed skipped =>
      exact .turn (t := ⟨c, batch, claimedSources batch claimed, id, adopted, epoch⟩) (by simp only [opens, hpc, hr])
        (by rw [hpc]; rfl) rfl rfl rfl
    · exact .outside leaveBatch_outside
    · exact .outside leaveBatch_outside
  | markRunning t codexTurnId =>
    dsimp only
    have hopens : a.opens = some t.turnRowId := by simp only [opens, hpc]
    have hneeds : a.pc.needsPermit = true := by
      rw [hpc]
      rfl
    split
    · exact .turn hopens hneeds rfl rfl rfl
    · exact .turn hopens hneeds rfl rfl rfl
  | resolving t resolution waits =>
    dsimp only
    split
    · next hok =>
      cases r with
      | ok reply => exact resolved_phase hpc hr
      | error e => cases hok
    · exact .outside leaveBatch_outside
  | _ => exact .stay

theorem turn_phase (hpc : a.pc.turn? = some t) (hopens : a.opens = some t.turnRowId) (hturn : pc.turn? = some t')
    (hid : t'.turnRowId = t.turnRowId) (hs : pc.settles = false) :
    a.Phase x (a₁.goto x pc log).actor :=
  .turn hopens (ActorPc.needs_of_turn hpc) hturn hid hs

theorem awaited_phase : a.Phase x (a.awaited x).actor := by
  have hto := a.awaited_to x
  generalize a.awaited x = o at hto ⊢
  cases hto with
  | stays => exact .stay
  | readsPolicy | readsForCommand | replies | drops => exact .outside rfl
  | dispatches => exact .outside dispatch_outside
  | processes => exact .outside processControl_outside
  | executed => exact .outside reply_outside
  | waits =>
    unfold onWaiting
    split
    · exact .outside rfl
    · exact .outside rfl
    · exact receive_phase
    · exact .stay
  | collects =>
    unfold onDebouncing
    split
    · exact .outside rfl
    · exact .outside rfl
    · exact receive_phase
    · exact .stay
  | @goes c batch pc' state hb hb' hne hp =>
    cases hneeds : pc'.needsPermit with
    | false => exact .outside hneeds
    | true => exact .inside (.inl (hp hneeds)) (ActorPc.turn_of_batch hb')
  | settles hb hp | claims hb hp => exact .inside (.inl hp) rfl
  | fails | leaves => exact .outside leaveBatch_outside
  | rejects => exact .outside rejectAll_outside
  | screens hpc hanswer => exact screen_phase (.inr ⟨⟨_, _, _, hpc⟩, hanswer⟩) _ []
  | @starts t hpc | @marks t _ hpc | @resolves t _ _ hpc =>
    have ht : a.pc.turn? = some t := by rw [hpc]; rfl
    exact turn_phase ht (by simp only [opens, hpc]) rfl rfl rfl
  | finalizes _ hpc hid =>
    rcases hpc with hpc | hpc | hpc <;> exact turn_phase (by rw [hpc]; rfl) (by simp only [opens, hpc]) rfl hid rfl
  | releases hpc => exact .settling (by rw [hpc]; rfl) rfl (.inl (by rw [hpc]; rfl))

/-- **One step of an actor**, with one case for each await. -/
theorem run_phase : a.Phase x (a.run tenant x).actor := by
  unfold run
  split
  · next hr => exact answered_phase hr
  · exact .stay
  · split
    · exact .stay
    · exact awaited_phase

/-- The actor goes on to what is left to settle. -/
theorem run_of_leavesWork (h : a.leavesWork = true) : (a.run tenant x).actor.pc.settles = true := by
  unfold leavesWork at h
  split at h
  · next t resolution waits reply hpc hanswer =>
    rw [Bool.and_eq_true, Bool.not_eq_true', Bool.or_eq_true, decide_eq_true_eq] at h
    obtain ⟨hadopted, hwork⟩ := h
    have hrun : a.run tenant x = a.resolved x t resolution waits := by
      unfold run answered
      rw [hpc, hanswer]
      rfl
    rw [hrun, resolved, if_neg (by rw [hadopted]; nofun)]
    split
    · rfl
    · next hwaits =>
      rw [if_neg (hwork.resolve_left hwaits)]
      rfl
  · cases h

end Actor

/-! ## Turns in the store -/

/-- The turn is begun and not resolved. -/
def Unresolved (db : Db) (id : ℕ) : Prop := ∃ r ∈ db.turns.rows, r.id = id ∧ r.val.unresolved = true

/-- The request does not resolve the turn `id`, and sets no state but that of a running turn. -/
def spares (id : ℕ) : InboundOp → Prop
  | .resolveTurnAndFinishInboundBatch id' _ _ => id' ≠ id
  | .setTurnState _ state _ => state = .running
  | _ => True

variable {C : Codec} {I : InboundCodec} {db db' : Db} {now : ℤ} {fate : Fate} {id : ℕ} {op : InboundOp}
  {reply : OpReply} {w : Writer Db}

theorem Unresolved.setRunning {turnId : ℕ} {codexTurnId : Option String} {u : Unit} {turns : TurnTable} (h : Unresolved db id)
    (hset : setTurnState now turnId .running codexTurnId db.turns = .ok (u, turns)) :
    Unresolved { db with turns := turns } id := by
  obtain ⟨r, hr, hid, hopen⟩ := h
  obtain ⟨-, -, -, -, rfl⟩ := setTurnState_ok hset
  refine ⟨r.update (·.id == turnId) (TurnRow.setState now .running codexTurnId), ?_, by simpa using hid, ?_⟩
  · exact List.mem_map_of_mem hr
  unfold Row.update
  split
  · simp [TurnRow.unresolved, TurnRow.setState]
  · exact hopen

/-- **A turn stays open** through every request but its own resolution. -/
theorem run_unresolved (h : Unresolved db id) (hop : spares id op) (hrun : op.run C I now db = .ok (reply, db')) :
    Unresolved db' id := by
  have hstep := run_turns hrun
  suffices ∀ t, TurnsStep now db op t → Unresolved { db' with turns := t } id from this _ hstep
  intro t hstep
  cases hstep with
  | same => exact h
  | insert =>
    obtain ⟨r, hr, hid⟩ := h
    exact ⟨r, List.mem_append_left _ hr, hid⟩
  | setState hset =>
    obtain rfl : _ = TurnState.running := hop
    exact h.setRunning hset
  | resolve hr =>
    obtain ⟨q, hq, hid, hopen⟩ := h
    refine ⟨q, mem_resolveTurn.2 ⟨q, hq, ?_⟩, hid, hopen⟩
    rw [if_neg]
    rw [hid]
    exact (show _ ≠ id from hop).symm

theorem callOp_unresolved (h : Unresolved w.db id) (hop : spares id op) :
    Unresolved (w.callOp C I fate now op).2.db id := by
  rcases call_db w op.check fate (op.run C I now) with heq | ⟨_, -, hrun⟩
  · rw [Writer.callOp, heq]
    exact h
  · exact run_unresolved h hop hrun

theorem callOp_begun {claimed : List ClaimedInbound} {skipped : List SkippedInbound}
    (h : (w.callOp C I fate now op).1 = .ok (.begun (.started id claimed skipped))) :
    Unresolved (w.callOp C I fate now op).2.db id ∧ ¬Unresolved w.db id := by
  obtain ⟨hrun, -⟩ := callOp_ok h
  unfold InboundOp.run at hrun
  cases op with
  | beginTurnAndClaimInbound turn events =>
    obtain ⟨o, hrun, heq⟩ := answer_ok hrun
    cases heq
    obtain ⟨_, _, -, ⟨-, hnone, -⟩ | ⟨-, hstarted, _, hk, _, -, -, -, hdb⟩⟩ := beginTurn_cases hrun
    · cases hnone
    cases hstarted
    rw [hdb]
    refine ⟨⟨_, List.mem_append_right _ (List.mem_singleton_self _), rfl, rfl⟩, ?_⟩
    rintro ⟨r, hr, hid, -⟩
    exact absurd hid (Nat.ne_of_lt (Table.id_lt_nextId hr))
  | _ =>
    obtain ⟨_, -, heq⟩ := answer_ok hrun
    cases heq

end LarkCodexBridge.Runtime
