import LarkCodexBridge.Runtime.Adoptions
import LarkCodexBridge.Runtime.LiveTurns
import LarkCodexBridge.Store.InboundIntegrity

/-!
# Which turns are live

Recovery counts a turn while it is starting or running, or while it is uncertain and not resolved. Adoption refuses a scope with
a turn that is starting, running or uncertain, resolved or not. So they differ on the turns that were resolved as uncertain, and
on no others.

* `resolutions`: the resolutions that the calls of a run commit;
* `FollowsResolutions`: a turn is in the state of its last resolution, and one without a resolution is not uncertain without its flag;
* `live_definitions_agree`: both agree on a turn exactly where its last resolution is not the uncertain one.
-/

namespace LarkCodexBridge.Runtime

open Limits SqlTable Store Outbox Lark StepSystem

/-- `state IN ('starting', 'running', 'uncertain')`. -/
def blocksAdoption (r : TurnRow) : Bool := r.state = .starting ∨ r.state = .running ∨ r.state = .uncertain

/-- The turn and its resolution where a call commits one. -/
def resolves (w : Writer Db) : StoreEvent → Option (ℕ × TurnResolution)
  | .call fate now (.resolveTurnAndFinishInboundBatch id turn inbound) =>
    if fate.runs = true ∧ w.alive = true ∧ resolveCheck turn inbound = .ok () ∧
        (resolveTurnAndFinishInboundBatch now id turn w.db).isOk = true then some (id, turn)
    else none
  | _ => none

/-- The resolutions of a run, the last one first. -/
def resolutions (C : Codec) (I : InboundCodec) : Writer Db → List StoreEvent → List (ℕ × TurnResolution)
  | _, [] => []
  | w, e :: es => resolutions C I (storeStep C I w e) es ++ (resolves w e).toList

/-- The last resolution of a turn. -/
def resolutionAfter (C : Codec) (I : InboundCodec) (es : List StoreEvent) (id : ℕ) : Option TurnResolution :=
  (resolutions C I emptyStore es).lookup id

variable {C : Codec} {I : InboundCodec} {t t' : TurnTable} {db db' : Db} {now : ℤ} {seen : List (ℕ × TurnResolution)}

/-! ## Turns and their resolutions -/

/-- **Turns are in the state of their last resolution.** -/
structure FollowsResolutions (t : TurnTable) (seen : List (ℕ × TurnResolution)) : Prop where
  unresolved : ∀ r ∈ t.rows, seen.lookup r.id = none → r.val.state = .uncertain → r.val.uncertain = true
  resolved : ∀ r ∈ t.rows, ∀ turn, seen.lookup r.id = some turn →
    r.val.state = turn.target.1 ∧ r.val.uncertain = false ∧ 0 < r.val.inboundCount
  known : ∀ id turn, seen.lookup id = some turn → ∃ r ∈ t.rows, r.id = id

theorem FollowsResolutions.empty : FollowsResolutions .empty [] :=
  ⟨by simp [Table.empty], by simp, by simp⟩

theorem FollowsResolutions.insert {row : NewTurnRow} {n : ℕ} (h : FollowsResolutions t seen) (hk) :
    FollowsResolutions (t.insert (row.columns now n) hk) seen where
  unresolved := by
    intro r hr hnone hstate
    rcases Table.mem_insert.1 hr with hr | rfl
    · exact h.unresolved r hr hnone hstate
    · cases hstate
  resolved := by
    intro r hr turn hsome
    rcases Table.mem_insert.1 hr with hr | rfl
    · exact h.resolved r hr turn hsome
    · obtain ⟨r, hr, hid⟩ := h.known _ _ hsome
      exact absurd hid (Nat.ne_of_lt (Table.id_lt_nextId hr))
  known := fun id turn hsome => by
    obtain ⟨r, hr, hid⟩ := h.known id turn hsome
    exact ⟨r, Table.mem_insert.2 (.inl hr), hid⟩

variable {id : ℕ}

theorem FollowsResolutions.setTurnState {state : TurnState} {codexTurnId : Option String} {u : Unit}
    (h : FollowsResolutions t seen) (hset : setTurnState now id state codexTurnId t = .ok (u, t')) :
    FollowsResolutions t' seen := by
  obtain ⟨q, hq, rfl, hcount, rfl⟩ := setTurnState_ok hset
  have hunresolved : seen.lookup q.id = none := by
    cases hsome : seen.lookup q.id with
    | none => rfl
    | some turn =>
      obtain ⟨hstate, -, hpos⟩ := h.resolved q hq turn hsome
      rw [(hcount hpos).1] at hstate
      cases turn <;> cases hstate
  have hother : ∀ r ∈ t.rows, ∀ turn, seen.lookup r.id = some turn → (r.id == q.id) = false := by
    intro r _ turn hsome
    refine beq_eq_false_iff_ne.2 fun hid => ?_
    rw [hid, hunresolved] at hsome
    cases hsome
  refine ⟨fun r' hr' hnone hstate => ?_, fun r' hr' turn hsome => ?_, fun id turn hsome => ?_⟩
  · obtain ⟨r, hr, rfl⟩ := Table.mem_updateWhere.1 hr'
    rw [Row.update_id] at hnone
    unfold Row.update at hstate ⊢
    split at hstate
    · next hself =>
      rw [if_pos hself]
      exact decide_eq_true hstate
    · next hself =>
      rw [if_neg hself]
      exact h.unresolved r hr hnone hstate
  · obtain ⟨r, hr, rfl⟩ := Table.mem_updateWhere.1 hr'
    rw [Row.update_id] at hsome
    rw [Row.update_of_neg (hother r hr turn hsome)]
    exact h.resolved r hr turn hsome
  · obtain ⟨r, hr, hid⟩ := h.known id turn hsome
    exact ⟨_, List.mem_map_of_mem hr, (Row.update_id ..).trans hid⟩

variable {turn : TurnResolution} {o : ResolveTurnOutcome} {r : Row TurnRow}

theorem lookup_cons_ne {id' : ℕ} (h : id' ≠ id) :
    ((id, turn) :: seen).lookup id' = seen.lookup id' := by
  rw [List.lookup_cons, beq_eq_false_iff_ne.2 h]

theorem lookup_cons_self (id : ℕ) (turn : TurnResolution) : ((id, turn) :: seen).lookup id = some turn := by
  rw [List.lookup_cons, beq_self_eq_true]

theorem FollowsResolutions.resolve (h : FollowsResolutions db.turns seen)
    (hresolve : resolveTurnAndFinishInboundBatch now id turn db = .ok (o, db')) :
    FollowsResolutions db'.turns ((id, turn) :: seen) := by
  obtain ⟨q, hq, rfl, hpos, ⟨heq, hstate, hflag⟩ | heq⟩ := resolve_cases hresolve
  · rw [heq]
    refine ⟨fun r hr hnone => ?_, fun r hr turn' hsome => ?_, fun id turn' hsome => ?_⟩
    · by_cases hid : r.id = q.id
      · rw [hid, lookup_cons_self] at hnone
        cases hnone
      · rw [lookup_cons_ne hid] at hnone
        exact h.unresolved r hr hnone
    · by_cases hid : r.id = q.id
      · cases Table.eq_of_id hr hq hid
        rw [lookup_cons_self] at hsome
        cases hsome
        exact ⟨hstate, hflag, hpos⟩
      · rw [lookup_cons_ne hid] at hsome
        exact h.resolved r hr turn' hsome
    · by_cases hid : id = q.id
      · exact ⟨q, hq, hid.symm⟩
      · rw [lookup_cons_ne hid] at hsome
        exact h.known id turn' hsome
  · rw [heq]
    refine ⟨fun r' hr' hnone => ?_, fun r' hr' turn' hsome => ?_, fun id turn' hsome => ?_⟩
    · obtain ⟨r, hr, rfl⟩ := List.mem_map.1 hr'
      rw [Row.update_id] at hnone
      by_cases hid : r.id = q.id
      · rw [hid, lookup_cons_self] at hnone
        cases hnone
      · rw [Row.update_of_neg (by simpa using hid)]
        rw [lookup_cons_ne hid] at hnone
        exact h.unresolved r hr hnone
    · obtain ⟨r, hr, rfl⟩ := List.mem_map.1 hr'
      rw [Row.update_id] at hsome
      by_cases hid : r.id = q.id
      · cases Table.eq_of_id hr hq hid
        rw [lookup_cons_self] at hsome
        cases hsome
        rw [Row.update_of_pos (by simp)]
        exact ⟨rfl, rfl, hpos⟩
      · rw [Row.update_of_neg (by simpa using hid)]
        rw [lookup_cons_ne hid] at hsome
        exact h.resolved r hr turn' hsome
    · by_cases hid : id = q.id
      · exact ⟨_, List.mem_map_of_mem hq, (Row.update_id ..).trans hid.symm⟩
      · rw [lookup_cons_ne hid] at hsome
        obtain ⟨r, hr, hrid⟩ := h.known id turn' hsome
        exact ⟨_, List.mem_map_of_mem hr, (Row.update_id ..).trans hrid⟩

/-! ## Runs -/

/-- **Every other operation.** -/
theorem FollowsResolutions.step {op : InboundOp} (h : FollowsResolutions db.turns seen) (hrun : TurnsStep now db op t)
    (hop : ∀ id turn inbound, op ≠ .resolveTurnAndFinishInboundBatch id turn inbound) : FollowsResolutions t seen := by
  cases hrun with
  | same => exact h
  | insert => exact h.insert _
  | setState hset => exact h.setTurnState hset
  | resolve => exact absurd rfl (hop _ _ _)

/-- **One step.** -/
theorem step_history (w : Writer Db) (e : StoreEvent) (h : FollowsResolutions w.db.turns seen) :
    FollowsResolutions (storeStep C I w e).db.turns ((resolves w e).toList ++ seen) := by
  cases e with
  | restart => exact h
  | call fate now op =>
    by_cases hop : ∃ id turn inbound, op = .resolveTurnAndFinishInboundBatch id turn inbound
    · obtain ⟨id, turn, inbound, rfl⟩ := hop
      dsimp only [resolves]
      split
      · next htaken =>
        obtain ⟨hruns, halive, hcheck, hok⟩ := htaken
        cases hjob : resolveTurnAndFinishInboundBatch now id turn w.db with
        | error err => rw [hjob] at hok; cases hok
        | ok result =>
          obtain ⟨o, db'⟩ := result
          have hcheck' : (InboundOp.resolveTurnAndFinishInboundBatch id turn inbound).check = .ok () := hcheck
          have hrun : (InboundOp.resolveTurnAndFinishInboundBatch id turn inbound).run C I now w.db = .ok (.done, db') := by
            rw [InboundOp.run, Job.answer, hjob]
            rfl
          rw [storeStep, Writer.callOp, call_takes_job halive hcheck' hruns hrun]
          exact h.resolve hjob
      · next htaken =>
        rcases call_takes w (InboundOp.resolveTurnAndFinishInboundBatch id turn inbound).check fate
          ((InboundOp.resolveTurnAndFinishInboundBatch id turn inbound).run C I now) with hdb | ⟨⟨_, hcheck, hjob⟩, halive, hfate⟩
        · rw [storeStep, Writer.callOp, hdb]
          exact h
        · rw [InboundOp.run] at hjob
          obtain ⟨o, hjob, -⟩ := answer_ok hjob
          exact absurd ⟨Fate.runs_iff.2 hfate, halive, hcheck, by rw [hjob]; rfl⟩ htaken
    · have hnone : resolves w (.call fate now op) = none := by
        unfold resolves
        split
        · next heq =>
          cases heq
          exact absurd ⟨_, _, _, rfl⟩ hop
        · rfl
      rw [hnone]
      rcases call_db w op.check fate (op.run C I now) with hdb | ⟨_, -, hrun⟩
      · rw [storeStep, Writer.callOp, hdb]
        exact h
      · exact h.step (run_turns hrun) fun id turn inbound heq => hop ⟨id, turn, inbound, heq⟩

/-- **A run.** -/
theorem exec_history : ∀ (es : List StoreEvent) {w : Writer Db} {seen : List (ℕ × TurnResolution)},
    FollowsResolutions w.db.turns seen →
    FollowsResolutions (exec (storeStep C I) w es).db.turns (resolutions C I w es ++ seen)
  | [], _, _, h => h
  | e :: es, w, seen, h => by
    rw [resolutions, List.append_assoc]
    exact exec_history es (step_history w e h)

theorem storeAfter_history (es : List StoreEvent) :
    FollowsResolutions (storeAfter C I es).db.turns (resolutions C I emptyStore es) := by
  have hrun := exec_history (C := C) (I := I) es (w := emptyStore) FollowsResolutions.empty
  rwa [List.append_nil] at hrun

/-! ## Both definitions -/

/-- Without a resolution, or with a certain one, both count the turn alike. -/
theorem FollowsResolutions.agree_iff (h : FollowsResolutions t seen) (hr : r ∈ t.rows) :
    (blocksAdoption r.val = true ↔ r.val.live = true) ↔ seen.lookup r.id ≠ some .uncertain := by
  have hdiffer : (blocksAdoption r.val = true ↔ r.val.live = true) ↔ ¬(r.val.state = .uncertain ∧ r.val.uncertain = false) := by
    unfold blocksAdoption TurnRow.live
    cases r.val.state <;> cases r.val.uncertain <;> simp
  rw [hdiffer, not_iff_not]
  constructor
  · rintro ⟨hstate, hflag⟩
    cases hlast : seen.lookup r.id with
    | none =>
      rw [h.unresolved r hr hlast hstate] at hflag
      cases hflag
    | some turn =>
      have htarget := (h.resolved r hr turn hlast).1.symm.trans hstate
      cases turn <;> cases htarget
      rfl
  · intro hlast
    obtain ⟨hstate, hflag, -⟩ := h.resolved r hr _ hlast
    exact ⟨hstate, hflag⟩

theorem FollowsResolutions.resolved_blocks (h : FollowsResolutions t seen) (hr : r ∈ t.rows)
    (hlast : seen.lookup r.id = some turn) :
    r.val.live = false ∧ (blocksAdoption r.val = true ↔ turn = .uncertain) := by
  obtain ⟨hstate, hflag, -⟩ := h.resolved r hr turn hlast
  unfold TurnRow.live blocksAdoption
  rw [hstate, hflag]
  cases turn <;> decide

theorem requireNoLiveTurn_error {s : Adoptions.AdoptionDb} {scopeKey context : String} :
    Adoptions.requireNoLiveTurn s scopeKey context = .error (.invalidTransition context) ↔
      ∃ r ∈ s.session.db.turns.rows, r.val.scopeKey = scopeKey ∧ blocksAdoption r.val = true := by
  have hany : s.hasLiveTurn scopeKey = true ↔
      ∃ r ∈ s.session.db.turns.rows, r.val.scopeKey = scopeKey ∧ blocksAdoption r.val = true := by
    simp [Adoptions.AdoptionDb.hasLiveTurn, blocksAdoption]
  unfold Adoptions.requireNoLiveTurn Adoptions.check
  rw [← hany]
  split <;> simp_all

/-- **The definitions of a live turn** agree on a turn of a run exactly where it was not last resolved as uncertain: adoption
refuses the scope of the turn for it, and recovery counts it. -/
theorem live_definitions_agree (C : Codec) (I : InboundCodec) (es : List StoreEvent) :
    (∀ r ∈ (storeAfter C I es).db.turns.rows,
      ((blocksAdoption r.val = true ↔ r.val.live = true) ↔ resolutionAfter C I es r.id ≠ some .uncertain) ∧
      ∀ turn, resolutionAfter C I es r.id = some turn →
        r.val.live = false ∧ (blocksAdoption r.val = true ↔ turn = .uncertain)) ∧
    ∀ s : Adoptions.AdoptionDb, s.session.db = (storeAfter C I es).db → ∀ scopeKey context,
      (Adoptions.requireNoLiveTurn s scopeKey context = .error (.invalidTransition context) ↔
        ∃ r ∈ (storeAfter C I es).db.turns.rows, r.val.scopeKey = scopeKey ∧ blocksAdoption r.val = true) ∧
      (recoveryUsage none (storeAfter C I es).db.turns).1 = (storeAfter C I es).db.turns.rows.countP (·.val.live) := by
  have h := storeAfter_history (C := C) (I := I) es
  refine ⟨fun r hr => ⟨h.agree_iff hr, fun turn hlast => h.resolved_blocks hr hlast⟩, fun s hs scopeKey context => ⟨?_, ?_⟩⟩
  · rw [← hs]
    exact requireNoLiveTurn_error
  · simp [recoveryUsage, List.countP_eq_length_filter]

set_option maxRecDepth 20000 in
/-- A turn that was resolved as uncertain keeps blocking. -/
theorem uncertainRun_blocks : ¬ ∀ es, ∀ r ∈ (storeAfter noOutbox helloCodec es).db.turns.rows,
    blocksAdoption r.val = true ↔ r.val.live = true := by
  intro h
  have hrow : ∃ r ∈ (storeAfter noOutbox helloCodec (messageRun.take 5)).db.turns.rows,
      blocksAdoption r.val = true ∧ r.val.live = false := by decide
  obtain ⟨r, hr, hblocks, hlive⟩ := hrow
  rw [(h _ r hr).1 hblocks] at hlive
  cases hlive

end LarkCodexBridge.Runtime
