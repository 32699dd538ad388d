import Mathlib
import LarkCodexBridge.Codex.Protocol

/-!
# The mailbox of one subscriber

The events of a thread and the bounded queue a subscriber reads them from. Two admission policies share the queue and its
byte budget: an authoritative event is taken or refused (`pushTerminal`), any other event is taken, joined with the delta
at the back, or dropped (`pushLossy`).

* `Exact`: the counters and the bytes of a mailbox are those of its queue;
* `Coalesces kept shown`: `shown` is `kept` with deltas of one stream joined, each with the ones just before it;
* `pushLossy_cases`: what `pushLossy` can do.

JSON weights are parameters (`Weights`). All sums stay below the byte budget, so nothing saturates.
-/

namespace LarkCodexBridge.Codex

open Limits

/-! ## Events -/

abbrev ThreadId := String
abbrev TurnId := String

inductive TurnStatus where
  | completed | interrupted | failed | inProgress
  | unknown (value : String)

/-- An item of a turn; `body` is the item as JSON. -/
structure ThreadItem where
  id : Option String
  body : Value

abbrev TurnError := Value

/-- A turn; `rest` is what the router passes on without reading it. -/
structure Turn where
  id : String
  items : List ThreadItem
  status : TurnStatus
  error : Option TurnError
  rest : Value

structure TurnOutcome where
  threadId : ThreadId
  turnId : TurnId
  status : TurnStatus
  error : Option TurnError
  completedItems : List ThreadItem
  tokenUsage : Option Value

inductive SubscriptionInvalidation where
  | lagged | protocolDrift
  deriving DecidableEq

/-- How a connection ended; `other` stands for the exits of the transport that the client only passes on. -/
inductive TransportExit where
  | cancelled | protocolViolation | taskFailed
  | other (report : String)

inductive AppServerEvent where
  | threadStarted (threadId : ThreadId)
  | turnStarted (turn : Turn)
  | itemStarted (turnId : TurnId) (item : ThreadItem)
  | agentMessageDelta (turnId : TurnId) (itemId delta : String)
  | commandOutputDelta (turnId : TurnId) (itemId delta : String)
  | itemCompleted (turnId : TurnId) (item : ThreadItem)
  | tokenUsageUpdated (turnId : TurnId) (usage : Value)
  | turnCompleted (outcome : TurnOutcome)
  | error (turnId : TurnId) (error : TurnError) (willRetry : Bool)
  | subscriptionInvalidated (threadId : ThreadId) (reason : SubscriptionInvalidation)
  | unknown (method : String)
  | connectionClosed (exit : TransportExit)

/-- The events that are never dropped in silence. -/
def AppServerEvent.authoritative : AppServerEvent → Bool
  | .threadStarted _ | .turnStarted _ | .itemCompleted .. | .turnCompleted _ | .error .. => true
  | _ => false

def AppServerEvent.ends : AppServerEvent → Bool
  | .subscriptionInvalidated .. | .connectionClosed _ => true
  | _ => false

/-- `typed_memory_weight` of the typed values, under a maximum. -/
structure Weights where
  turn : Turn → ℕ → ℕ
  item : ThreadItem → ℕ → ℕ
  error : TurnError → ℕ → ℕ

variable (W : Weights) {first next joined : AppServerEvent}

def outcomeMemoryWeight (outcome : TurnOutcome) : ℕ :=
  let status : ℕ := match outcome.status with
    | .unknown value => value.utf8ByteSize + 32
    | _ => 24
  let weight := 256 + outcome.threadId.utf8ByteSize + outcome.turnId.utf8ByteSize + status
  let weight := match outcome.error with
    | some error => weight + W.error error threadProjectionByteBudget
    | none => weight
  outcome.completedItems.foldl (fun total item => total + W.item item threadProjectionByteBudget) weight

def eventMemoryWeight : AppServerEvent → ℕ
  | .agentMessageDelta turnId itemId delta | .commandOutputDelta turnId itemId delta =>
    128 + turnId.utf8ByteSize + itemId.utf8ByteSize + delta.utf8ByteSize
  | .unknown method => 128 + method.utf8ByteSize
  | .threadStarted threadId => 128 + threadId.utf8ByteSize
  | .turnStarted turn => 128 + W.turn turn threadMailboxByteBudget
  | .itemStarted turnId item | .itemCompleted turnId item =>
    128 + turnId.utf8ByteSize + W.item item threadMailboxByteBudget
  | .tokenUsageUpdated turnId _ => 128 + turnId.utf8ByteSize
  | .turnCompleted outcome => outcomeMemoryWeight W outcome
  | .error turnId error _ => 128 + turnId.utf8ByteSize + W.error error threadMailboxByteBudget
  | .subscriptionInvalidated .. | .connectionClosed _ => 128

/-! ## Deltas -/

def deltaStream : AppServerEvent → Option (TurnId × String × Bool)
  | .agentMessageDelta turnId itemId _ => some (turnId, itemId, false)
  | .commandOutputDelta turnId itemId _ => some (turnId, itemId, true)
  | _ => none

def deltaTextLen : AppServerEvent → ℕ
  | .agentMessageDelta _ _ delta | .commandOutputDelta _ _ delta => delta.utf8ByteSize
  | _ => 0

def mergeDelta (maximum : ℕ) : AppServerEvent → AppServerEvent → Option AppServerEvent
  | .agentMessageDelta turnId itemId delta, .agentMessageDelta _ _ incoming =>
    if delta.utf8ByteSize + incoming.utf8ByteSize > maximum then none
    else some (.agentMessageDelta turnId itemId (delta ++ incoming))
  | .commandOutputDelta turnId itemId delta, .commandOutputDelta _ _ incoming =>
    if delta.utf8ByteSize + incoming.utf8ByteSize > maximum then none
    else some (.commandOutputDelta turnId itemId (delta ++ incoming))
  | _, _ => none

/-! ## Mailboxes -/

structure QueuedEvent where
  byteLen : ℕ
  terminal : Bool
  event : AppServerEvent

structure Mailbox where
  events : List QueuedEvent
  terminalCount : ℕ
  regularCount : ℕ
  queuedBytes : ℕ
  closed : Bool

namespace Mailbox

def new : Mailbox := ⟨[], 0, 0, 0, false⟩

def queued (m : Mailbox) : List AppServerEvent := m.events.map (·.event)

/-- What a poll of `recv` gives. -/
inductive Received where
  | event (event : AppServerEvent)
  | waits
  /-- `None`. -/
  | ended

/-- One poll of `recv`. -/
def recv (m : Mailbox) : Received × Mailbox :=
  match m.events with
  | queued :: rest =>
    let m := { m with events := rest, queuedBytes := m.queuedBytes - queued.byteLen }
    (.event queued.event,
      if queued.terminal then { m with terminalCount := m.terminalCount - 1 }
      else { m with regularCount := m.regularCount - 1 })
  | [] => (if m.closed then .ended else .waits, m)

/-- `push_terminal`; the value says whether the event was taken. -/
def pushTerminal (m : Mailbox) (event : AppServerEvent) : Mailbox × Bool :=
  if m.closed ∨ m.terminalCount ≥ threadTerminalCapacity then (m, false)
  else
    let byteLen := eventMemoryWeight W event
    if m.queuedBytes + byteLen > threadMailboxByteBudget then (m, false)
    else
      ({ m with
        queuedBytes := m.queuedBytes + byteLen
        terminalCount := m.terminalCount + 1
        events := m.events ++ [⟨byteLen, true, event⟩] }, true)

/-- The weight of the back of the queue with a delta joined to it. -/
def mergedWeight (m : Mailbox) (event : AppServerEvent) : Option ℕ :=
  m.events.getLast?.bind fun queued =>
    if queued.terminal ∨ deltaStream queued.event ≠ deltaStream event then none
    else some (queued.byteLen + deltaTextLen event)

/-- The delta is joined to the back of the queue. -/
def mergeBack (m : Mailbox) (event : AppServerEvent) (merged : ℕ) : Mailbox :=
  match m.events.getLast? with
  | none => m
  | some queued =>
    if merged ≤ threadDeltaByteLimit ∧ m.queuedBytes - queued.byteLen + merged ≤ threadMailboxByteBudget then
      match mergeDelta threadDeltaByteLimit queued.event event with
      | some joined =>
        { m with
          events := m.events.dropLast ++ [⟨eventMemoryWeight W joined, false, joined⟩]
          queuedBytes := m.queuedBytes - queued.byteLen + eventMemoryWeight W joined }
      | none => m
    else m

/-- An event that is not authoritative goes to the back of the queue, if it fits. -/
def pushRegular (m : Mailbox) (event : AppServerEvent) : Mailbox :=
  let byteLen := eventMemoryWeight W event
  if m.regularCount ≥ threadEventCapacity ∨ m.queuedBytes + byteLen > threadMailboxByteBudget then m
  else
    { m with
      queuedBytes := m.queuedBytes + byteLen
      regularCount := m.regularCount + 1
      events := m.events ++ [⟨byteLen, false, event⟩] }

def pushLossy (m : Mailbox) (event : AppServerEvent) : Mailbox :=
  if m.closed then m
  else if (deltaStream event).isSome then
    if eventMemoryWeight W event > threadDeltaByteLimit then m
    else
      match m.mergedWeight event with
      | some merged => m.mergeBack W event merged
      | none => m.pushRegular W event
  else m.pushRegular W event

/-- `close` and `close_after_drain`. -/
def close (m : Mailbox) : Mailbox := { m with closed := true }

def invalidate (threadId : ThreadId) (reason : SubscriptionInvalidation) : Mailbox :=
  let event := AppServerEvent.subscriptionInvalidated threadId reason
  let byteLen := eventMemoryWeight W event
  ⟨[⟨byteLen, true, event⟩], 1, 0, byteLen, true⟩

end Mailbox

/-! ## Joined deltas -/

/-- `joined` is the delta `first` with the text of `next` behind it; both are deltas of one stream. -/
inductive Joins : AppServerEvent → AppServerEvent → AppServerEvent → Prop where
  | agentMessage (turnId : TurnId) (itemId delta incoming : String) :
    Joins (.agentMessageDelta turnId itemId delta) (.agentMessageDelta turnId itemId incoming)
      (.agentMessageDelta turnId itemId (delta ++ incoming))
  | commandOutput (turnId : TurnId) (itemId delta incoming : String) :
    Joins (.commandOutputDelta turnId itemId delta) (.commandOutputDelta turnId itemId incoming)
      (.commandOutputDelta turnId itemId (delta ++ incoming))

theorem mergeDelta_joins {maximum : ℕ} (hs : deltaStream first = deltaStream next)
    (hm : mergeDelta maximum first next = some joined) : Joins first next joined := by
  cases first <;> cases next <;> simp only [mergeDelta, reduceCtorEq] at hm
  all_goals
    simp only [deltaStream, Option.some.injEq, Prod.mk.injEq] at hs
    obtain ⟨rfl, rfl, -⟩ := hs
    split at hm
    · cases hm
    · cases hm
      constructor

theorem Joins.weight (h : Joins first next joined) :
    eventMemoryWeight W joined = eventMemoryWeight W first + deltaTextLen next := by
  cases h <;> simp only [eventMemoryWeight, deltaTextLen, String.utf8ByteSize_append] <;> omega

/-- `shown` is `kept` with deltas of one stream joined, each with the ones just before it. -/
inductive Coalesces : List AppServerEvent → List AppServerEvent → Prop where
  | nil : Coalesces [] []
  | keep {kept shown : List AppServerEvent} (event : AppServerEvent) (h : Coalesces kept shown) :
    Coalesces (kept ++ [event]) (shown ++ [event])
  | join {kept shown : List AppServerEvent} {first next joined : AppServerEvent} (h : Coalesces kept (shown ++ [first]))
    (hj : Joins first next joined) : Coalesces (kept ++ [next]) (shown ++ [joined])

variable {shown : List AppServerEvent}

theorem Coalesces.mem_ends {kept : List AppServerEvent} (h : Coalesces kept shown)
    (hk : ∀ event ∈ kept, event.ends = false) : ∀ event ∈ shown, event.ends = false := by
  induction h with
  | nil => exact hk
  | keep event h ih =>
    intro e he
    rcases List.mem_append.1 he with he | he
    · exact ih (fun e he => hk e (List.mem_append_left _ he)) e he
    · exact hk e (List.mem_append_right _ he)
  | join h hj ih =>
    intro e he
    rcases List.mem_append.1 he with he | he
    · exact ih (fun e he => hk e (List.mem_append_left _ he)) e (List.mem_append_left _ he)
    · rw [List.mem_singleton.1 he]
      cases hj <;> rfl

/-- What the reader of a mailbox is shown of the events `dispatched` to it: all authoritative events and some of the
others, in order, with neighbouring deltas of one stream joined. -/
def Follows (dispatched shown : List AppServerEvent) : Prop :=
  ∃ kept : List AppServerEvent, kept.Sublist dispatched ∧
    kept.filter (·.authoritative) = dispatched.filter (·.authoritative) ∧ Coalesces kept shown

theorem Follows.nil : Follows [] [] := ⟨[], .slnil, rfl, .nil⟩

variable {dispatched : List AppServerEvent}

theorem Follows.mem_ends (h : Follows dispatched shown) (hd : ∀ event ∈ dispatched, event.ends = false) :
    ∀ event ∈ shown, event.ends = false := by
  obtain ⟨kept, hsub, -, hc⟩ := h
  exact hc.mem_ends fun event he => hd event (hsub.subset he)

theorem Follows.keep (event : AppServerEvent) (h : Follows dispatched shown) :
    Follows (dispatched ++ [event]) (shown ++ [event]) := by
  obtain ⟨kept, hsub, hauth, hc⟩ := h
  refine ⟨kept ++ [event], hsub.append (List.Sublist.refl _), ?_, hc.keep event⟩
  rw [List.filter_append, List.filter_append, hauth]

theorem Follows.drop {event : AppServerEvent} (he : event.authoritative = false) (h : Follows dispatched shown) :
    Follows (dispatched ++ [event]) shown := by
  obtain ⟨kept, hsub, hauth, hc⟩ := h
  refine ⟨kept, hsub.trans (List.sublist_append_left _ _), ?_, hc⟩
  simpa [List.filter_append, he] using hauth

theorem Follows.join (h : Follows dispatched (shown ++ [first])) (hj : Joins first next joined) :
    Follows (dispatched ++ [next]) (shown ++ [joined]) := by
  obtain ⟨kept, hsub, hauth, hc⟩ := h
  refine ⟨kept ++ [next], hsub.append (List.Sublist.refl _), ?_, hc.join hj⟩
  rw [List.filter_append, List.filter_append, hauth]

namespace Mailbox

/-! ## What the operations do -/

/-- The event is put behind the others. -/
def append (m : Mailbox) (event : AppServerEvent) : Mailbox :=
  { m with
    queuedBytes := m.queuedBytes + eventMemoryWeight W event
    regularCount := m.regularCount + 1
    events := m.events ++ [⟨eventMemoryWeight W event, false, event⟩] }

theorem pushRegular_cases (m : Mailbox) (event : AppServerEvent) :
    m.pushRegular W event = m ∨
      (m.regularCount < threadEventCapacity ∧ m.queuedBytes + eventMemoryWeight W event ≤ threadMailboxByteBudget ∧
        m.pushRegular W event = m.append W event) := by
  unfold pushRegular
  by_cases h : m.regularCount ≥ threadEventCapacity ∨
      m.queuedBytes + eventMemoryWeight W event > threadMailboxByteBudget
  · exact Or.inl (if_pos h)
  · refine Or.inr ⟨by omega, by omega, ?_⟩
    exact if_neg h

/-- **A lossy push** drops the event, appends it, or joins it with the delta at the back. -/
theorem pushLossy_cases (m : Mailbox) (event : AppServerEvent) :
    m.pushLossy W event = m ∨
      (m.closed = false ∧ m.regularCount < threadEventCapacity ∧
        m.queuedBytes + eventMemoryWeight W event ≤ threadMailboxByteBudget ∧ m.pushLossy W event = m.append W event) ∨
      ∃ front queued joined, m.closed = false ∧ m.events = front ++ [queued] ∧ queued.terminal = false ∧
        Joins queued.event event joined ∧
        m.queuedBytes - queued.byteLen + (queued.byteLen + deltaTextLen event) ≤ threadMailboxByteBudget ∧
        m.pushLossy W event = { m with
          events := front ++ [⟨eventMemoryWeight W joined, false, joined⟩]
          queuedBytes := m.queuedBytes - queued.byteLen + eventMemoryWeight W joined } := by
  have regular (hc : m.closed = false) (hp : m.pushLossy W event = m.pushRegular W event) :
      m.pushLossy W event = m ∨ (m.closed = false ∧ m.regularCount < threadEventCapacity ∧
        m.queuedBytes + eventMemoryWeight W event ≤ threadMailboxByteBudget ∧
        m.pushLossy W event = m.append W event) := by
    rcases m.pushRegular_cases W event with h | ⟨hr, hb, h⟩
    · exact Or.inl (hp.trans h)
    · exact Or.inr ⟨hc, hr, hb, hp.trans h⟩
  by_cases hopen : m.closed = true
  · exact Or.inl (by simp [pushLossy, hopen])
  · have hc : m.closed = false := by simpa using hopen
    by_cases hd : (deltaStream event).isSome
    · by_cases hw : eventMemoryWeight W event > threadDeltaByteLimit
      · exact Or.inl (by simp [pushLossy, hc, hd, hw])
      · cases hm : m.mergedWeight event with
        | none =>
          rcases regular hc (by simp [pushLossy, hc, hd, hw, hm]) with h | h
          · exact Or.inl h
          · exact Or.inr (Or.inl h)
        | some merged =>
          have hp : m.pushLossy W event = m.mergeBack W event merged := by simp [pushLossy, hc, hd, hw, hm]
          obtain ⟨queued, hlast, hq⟩ := Option.bind_eq_some_iff.1 hm
          split at hq
          · cases hq
          · next hs =>
            cases hq
            obtain ⟨front, hfront⟩ := List.getLast?_eq_some_iff.1 hlast
            simp only [not_or, Decidable.not_not] at hs
            rw [hp]
            unfold mergeBack
            rw [hlast]
            dsimp only
            split
            · next hfit =>
              split
              · next joined hjoin =>
                refine Or.inr (Or.inr ⟨front, queued, joined, hc, hfront, by simpa using hs.1,
                  mergeDelta_joins hs.2 hjoin, hfit.2, ?_⟩)
                rw [hfront, List.dropLast_concat]
              · exact Or.inl rfl
            · exact Or.inl rfl
    · rcases regular hc (by simp [pushLossy, hc, hd]) with h | h
      · exact Or.inl h
      · exact Or.inr (Or.inl h)

/-- **An authoritative push** takes the event or leaves the mailbox as it is. -/
theorem pushTerminal_cases (m : Mailbox) (event : AppServerEvent) :
    m.pushTerminal W event = (m, false) ∨
      (m.closed = false ∧ m.terminalCount < threadTerminalCapacity ∧
        m.queuedBytes + eventMemoryWeight W event ≤ threadMailboxByteBudget ∧
        m.pushTerminal W event = ({ m with
          queuedBytes := m.queuedBytes + eventMemoryWeight W event
          terminalCount := m.terminalCount + 1
          events := m.events ++ [⟨eventMemoryWeight W event, true, event⟩] }, true)) := by
  unfold pushTerminal
  split
  · exact Or.inl rfl
  · next h =>
    dsimp only
    split
    · exact Or.inl rfl
    · simp only [not_or] at h
      exact Or.inr ⟨by simpa using h.1, by omega, by omega, rfl⟩

/-! ## Exact counters -/

/-- The counters and the bytes are those of the queue, and within their bounds. -/
structure Exact (m : Mailbox) : Prop where
  weights : ∀ q ∈ m.events, q.byteLen = eventMemoryWeight W q.event
  bytes : m.queuedBytes = (m.events.map (·.byteLen)).sum
  terminals : m.terminalCount = m.events.countP (·.terminal)
  regulars : m.regularCount = m.events.countP (!·.terminal)
  byteBudget : m.queuedBytes ≤ threadMailboxByteBudget
  terminalCapacity : m.terminalCount ≤ threadTerminalCapacity
  regularCapacity : m.regularCount ≤ threadEventCapacity

variable {W} {m m' : Mailbox} {event : AppServerEvent} {received : List AppServerEvent}

theorem exact_new : new.Exact W :=
  ⟨by simp [new], rfl, rfl, rfl, Nat.zero_le _, Nat.zero_le _, Nat.zero_le _⟩

theorem Exact.recv (h : m.Exact W) : m.recv.2.Exact W := by
  obtain ⟨hw, hb, ht, hr, hbb, htc, hrc⟩ := h
  cases he : m.events with
  | nil =>
    have : m.recv.2 = m := by simp [Mailbox.recv, he]
    rw [this]
    exact ⟨hw, hb, ht, hr, hbb, htc, hrc⟩
  | cons queued rest =>
    rw [he] at hw hb ht hr
    simp only [List.map_cons, List.sum_cons, List.countP_cons] at hb ht hr
    have hw' : ∀ q ∈ rest, q.byteLen = eventMemoryWeight W q.event := fun q hq => hw q (List.mem_cons_of_mem _ hq)
    cases hq : queued.terminal <;> simp only [hq] at ht hr <;>
      simp only [Mailbox.recv, he, hq, Bool.false_eq_true, if_true, if_false]
    · exact ⟨hw', by dsimp only; omega, ht, by simp at hr; dsimp only; omega, by dsimp only; omega, htc, by dsimp only; omega⟩
    · exact ⟨hw', by dsimp only; omega, by simp at ht; dsimp only; omega, hr, by dsimp only; omega, by dsimp only; omega, hrc⟩

theorem Exact.pushTerminal (h : m.Exact W) (event : AppServerEvent) : (m.pushTerminal W event).1.Exact W := by
  rcases m.pushTerminal_cases W event with he | ⟨-, ht, hb, he⟩
  · rw [he]; exact h
  · rw [he]
    refine ⟨?_, ?_, ?_, ?_, hb, ht, h.regularCapacity⟩
    · intro q hq
      rcases List.mem_append.1 hq with hq | hq
      · exact h.weights q hq
      · rw [List.mem_singleton.1 hq]
    · simp [h.bytes]
    · simp [h.terminals]
    · simp [h.regulars]

theorem Exact.pushLossy (h : m.Exact W) (event : AppServerEvent) : (m.pushLossy W event).Exact W := by
  rcases m.pushLossy_cases W event with he | ⟨-, hr, hb, he⟩ | ⟨front, queued, joined, -, hev, hq, hj, hb, he⟩
  · rw [he]; exact h
  · rw [he]
    refine ⟨?_, ?_, ?_, ?_, hb, h.terminalCapacity, hr⟩
    · intro q hq
      rcases List.mem_append.1 hq with hq | hq
      · exact h.weights q hq
      · rw [List.mem_singleton.1 hq]
    · simp [append, h.bytes]
    · simp [append, h.terminals]
    · simp [append, h.regulars]
  · have hw := h.weights queued (by rw [hev]; simp)
    have hbytes := h.bytes
    have hterm := h.terminals
    have hreg := h.regulars
    rw [hev] at hbytes hterm hreg
    simp only [List.map_append, List.map_cons, List.map_nil, List.sum_append, List.sum_cons, List.sum_nil,
      List.countP_append, List.countP_cons, List.countP_nil, hq] at hbytes hterm hreg
    rw [he]
    refine ⟨?_, ?_, ?_, ?_, ?_, h.terminalCapacity, h.regularCapacity⟩
    · intro q hq'
      rcases List.mem_append.1 hq' with hq' | hq'
      · exact h.weights q (by rw [hev]; exact List.mem_append_left _ hq')
      · rw [List.mem_singleton.1 hq']
    · simp only [List.map_append, List.map_cons, List.map_nil, List.sum_append, List.sum_cons, List.sum_nil]
      omega
    · simpa using hterm
    · simpa using hreg
    · rw [hj.weight W, ← hw]; exact hb

theorem Exact.close (h : m.Exact W) : m.close.Exact W :=
  ⟨h.weights, h.bytes, h.terminals, h.regulars, h.byteBudget, h.terminalCapacity, h.regularCapacity⟩

theorem exact_invalidate (threadId : ThreadId) (reason : SubscriptionInvalidation) :
    (invalidate W threadId reason).Exact W := by
  refine ⟨by simp [invalidate], by simp [invalidate], by simp [invalidate], by simp [invalidate], ?_, ?_, ?_⟩
  all_goals simp only [invalidate, eventMemoryWeight]; decide

/-! ## What the reader sees -/

theorem pushLossy_closed (m : Mailbox) (event : AppServerEvent) :
    (m.pushLossy W event).closed = m.closed := by
  rcases m.pushLossy_cases W event with h | ⟨-, -, -, h⟩ | ⟨_, _, _, -, -, -, -, -, h⟩ <;> rw [h]
  rfl

theorem recv_event (h : m.recv = (.event event, m')) :
    m.queued = event :: m'.queued ∧ m'.closed = m.closed := by
  unfold Mailbox.recv at h
  split at h
  · next queued rest he =>
    simp only [Prod.mk.injEq, Received.event.injEq] at h
    obtain ⟨rfl, rfl⟩ := h
    unfold Mailbox.queued
    rw [he]
    split <;> exact ⟨rfl, rfl⟩
  · split at h <;> cases h

theorem recv_ended : m.recv.1 = .ended ↔ m.closed = true ∧ m.events = [] := by
  unfold Mailbox.recv
  split
  · next he => simp [he]
  · next he =>
    cases hc : m.closed <;> simp [he]

theorem follows_pushLossy {dispatched : List AppServerEvent} (he : event.authoritative = false)
    (h : Follows dispatched (received ++ m.queued)) :
    Follows (dispatched ++ [event]) (received ++ (m.pushLossy W event).queued) := by
  rcases m.pushLossy_cases W event with hp | ⟨-, -, -, hp⟩ | ⟨front, queued, joined, -, hev, -, hj, -, hp⟩
  · rw [hp]; exact h.drop he
  · rw [hp]
    have := h.keep event
    simpa [Mailbox.queued, append] using this
  · rw [hp]
    have hq : received ++ m.queued = (received ++ front.map (·.event)) ++ [queued.event] := by
      simp [Mailbox.queued, hev]
    rw [hq] at h
    have := h.join hj
    simpa [Mailbox.queued] using this

/-- So does an authoritative push that the mailbox takes. -/
theorem follows_pushTerminal {dispatched : List AppServerEvent} (hp : m.pushTerminal W event = (m', true))
    (h : Follows dispatched (received ++ m.queued)) :
    Follows (dispatched ++ [event]) (received ++ m'.queued) := by
  rcases m.pushTerminal_cases W event with he | ⟨-, -, -, he⟩
  · rw [he] at hp; cases hp
  · rw [he] at hp
    cases hp
    simpa [Mailbox.queued] using h.keep event

end Mailbox

end LarkCodexBridge.Codex
