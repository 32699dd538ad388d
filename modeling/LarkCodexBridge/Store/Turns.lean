import LarkCodexBridge.Lib.SqlTable
import LarkCodexBridge.Store.Writer

/-!
# Turns

The `turns` table: one row for every Codex turn, recorded before `turn/start` is sent. A turn created together with a
claim of inbound rows carries their number in `inboundCount`, and only its start is left to `setTurnState`.
-/

namespace LarkCodexBridge.Store

open Limits SqlTable

/-- Lifecycle of a turn. -/
inductive TurnState where
  | starting | running | completed | failed | interrupted | uncertain
  deriving DecidableEq

/-- The columns of a turn row other than its id. -/
structure TurnRow where
  scopeKey : String
  clientMessageId : String
  codexThreadId : Option String
  codexTurnId : Option String
  state : TurnState
  /-- Whether the outcome of `turn/start` is still unknown. -/
  uncertain : Bool
  createdMs : ℤ
  updatedMs : ℤ
  inboundCount : ℕ
  deriving DecidableEq

/-- What a caller gives to record a turn. -/
structure NewTurnRow where
  scopeKey : String
  clientMessageId : String
  codexThreadId : Option String
  state : TurnState
  deriving DecidableEq

abbrev TurnTable := Table TurnRow TurnRow.clientMessageId

def optionBytes (value : Option String) : ℕ := (value.map (·.utf8ByteSize)).getD 0

/-- `state IN ('starting', 'running') OR (state = 'uncertain' AND uncertain = 1)`. -/
def TurnRow.live (r : TurnRow) : Bool :=
  r.state = .starting ∨ r.state = .running ∨ r.state = .uncertain ∧ r.uncertain = true

def TurnRow.bytes (r : TurnRow) : ℕ :=
  r.scopeKey.utf8ByteSize + r.clientMessageId.utf8ByteSize + optionBytes r.codexThreadId + optionBytes r.codexTurnId

def turnBytes (scopeKey clientMessageId : String) (codexThreadId codexTurnId : Option String) : ℕ :=
  scopeKey.utf8ByteSize + clientMessageId.utf8ByteSize + optionBytes codexThreadId + optionBytes codexTurnId

/-- `recovery_usage`: live turns and their bytes, without the row `exclude`. -/
def recoveryUsage (exclude : Option ℕ) (t : TurnTable) : ℕ × ℕ :=
  let live := t.rows.filter fun r => r.val.live && decide (some r.id ≠ exclude)
  (live.length, (live.map (·.val.bytes)).sum)

def ensureRecoveryCapacity (usage : ℕ × ℕ) (additionalBytes : ℕ) (context : String) : Except StoreError Unit :=
  if usage.1 ≥ storeRecoveryTurnMaxRows ∨ usage.2 + additionalBytes > storeRecoveryTurnMaxBytes then
    .error (.capacityExceeded context)
  else .ok ()

def legalTurnTransition : TurnState → TurnState → Bool
  | .starting, target => target = .running ∨ target = .failed ∨ target = .interrupted ∨ target = .uncertain
  | .running, target => target = .completed ∨ target = .failed ∨ target = .interrupted ∨ target = .uncertain
  | .uncertain, target => target = .completed ∨ target = .failed ∨ target = .interrupted
  | .completed, _ | .failed, _ | .interrupted, _ => false

/-- A freshly recorded turn. -/
def NewTurnRow.columns (row : NewTurnRow) (now : ℤ) (inboundCount : ℕ) : TurnRow where
  scopeKey := row.scopeKey
  clientMessageId := row.clientMessageId
  codexThreadId := row.codexThreadId
  codexTurnId := none
  state := .starting
  uncertain := false
  createdMs := now
  updatedMs := now
  inboundCount := inboundCount

/-- The insertion of a turn: its row id and the table with it. -/
def insertTurn (now : ℤ) (row : NewTurnRow) (inboundCount : ℕ) (context : String) : Job TurnTable ℕ := fun t =>
  match t.insertOrIgnore (row.columns now inboundCount) with
  | some t' => .ok (t.nextId, t')
  | none => .error (.sqlite context none)

/-- `record_turn` after its check of the requested state. -/
def recordTurn (now : ℤ) (row : NewTurnRow) : Job TurnTable ℕ := fun t => do
  ensureRecoveryCapacity (recoveryUsage none t)
    (turnBytes row.scopeKey row.clientMessageId row.codexThreadId none) "recording a live turn"
  insertTurn now row 0 "recording a turn" t

/-- `record_turn` refuses any other first state before it calls the store. -/
def recordTurnCheck (row : NewTurnRow) : Except StoreError Unit :=
  if row.state ≠ .starting then .error (.invalidTransition "creating a turn outside the starting state") else .ok ()

/-- The columns of a turn after `set_turn_state`. -/
def TurnRow.setState (now : ℤ) (state : TurnState) (codexTurnId : Option String) (r : TurnRow) : TurnRow :=
  { r with
    state := state
    uncertain := state = .uncertain
    updatedMs := now
    codexTurnId := codexTurnId.or r.codexTurnId }

/-- The capacity check of a transition that leaves the turn live. -/
def ensureTransitionCapacity (id : ℕ) (r : TurnRow) (state : TurnState) (codexTurnId : Option String) (t : TurnTable) :
    Except StoreError Unit :=
  if state = .running ∨ state = .uncertain then
    ensureRecoveryCapacity (recoveryUsage (some id) t)
      (turnBytes r.scopeKey r.clientMessageId r.codexThreadId (codexTurnId.or r.codexTurnId)) "transitioning a live turn"
  else .ok ()

def setTurnState (now : ℤ) (id : ℕ) (state : TurnState) (codexTurnId : Option String) : Job TurnTable Unit := fun t =>
  match t.get? id with
  | none => .error (.notFound "transitioning an unknown turn")
  | some r =>
    if !legalTurnTransition r.val.state state then .error (.invalidTransition "transitioning a turn")
    else if r.val.inboundCount > 0 ∧ ¬(r.val.state = .starting ∧ state = .running) then
      .error (.invalidTransition "terminalizing an inbound turn outside the combined API")
    else do
      ensureTransitionCapacity id r.val state codexTurnId t
      .ok ((), t.updateWhere (·.id == id) (TurnRow.setState now state codexTurnId))

/-! ## What the jobs do -/

variable {now : ℤ} {id : ℕ} {t t' : TurnTable}

theorem insertTurn_ok {row : NewTurnRow} {n : ℕ} {context : String} (h : insertTurn now row n context t = .ok (id, t')) :
    id = t.nextId ∧ ∃ hk, t' = t.insert (row.columns now n) hk := by
  unfold insertTurn at h
  split at h
  · next hi =>
    cases h
    exact ⟨rfl, Table.insertOrIgnore_eq_some hi⟩
  · cases h

theorem recordTurn_ok {row : NewTurnRow} (h : recordTurn now row t = .ok (id, t')) :
    id = t.nextId ∧ ∃ hk, t' = t.insert (row.columns now 0) hk :=
  insertTurn_ok (seq_eq_ok.1 h).2

/-- A transition rewrites one row; a turn with inbound rows only starts running. -/
theorem setTurnState_ok {state : TurnState} {codexTurnId : Option String} {u : Unit}
    (h : setTurnState now id state codexTurnId t = .ok (u, t')) :
    ∃ r ∈ t.rows, r.id = id ∧ (0 < r.val.inboundCount → r.val.state = .starting ∧ state = .running) ∧
      t' = t.updateWhere (·.id == id) (TurnRow.setState now state codexTurnId) := by
  unfold setTurnState at h
  split at h
  · cases h
  · next r hr =>
    obtain ⟨hr, hid⟩ := Table.get?_eq_some.1 hr
    split at h
    · cases h
    · split at h
      · cases h
      · next hn =>
        cases (seq_eq_ok.1 h).2
        refine ⟨r, hr, hid, fun hpos => ?_, rfl⟩
        by_contra hc
        exact hn ⟨hpos, hc⟩

end LarkCodexBridge.Store
