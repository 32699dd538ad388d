import Mathlib

/-!
# The priority write queue of the sidecar

Two FIFO lanes in front of one stream: a control frame goes first, and after eight of them a normal frame that waits.
`enqueue` refuses a frame that does not fit, `enqueueWithBackpressure` lets one frame wait for room.

* `held`: all frames the queue was given, written or not; no operation loses one (`perm_*`);
* `Lanes`: in each lane, the order of the frames is the order in which they were given.

The frames carry their lane. A stream that fails ends the session, so the queue has no state for it.
-/

namespace LarkCodexBridge.Sidecar

/-- `CONTROL_BURST`. -/
def controlBurstLimit : ℕ := 8

inductive Priority where
  | control | normal
  deriving DecidableEq

structure QueueConfig where
  maxFrameBytes : ℕ
  maxFrames : ℕ
  maxBytes : ℕ

/-- The codes of `SidecarError` that end a session, and the one a caller recovers from. -/
inductive ErrorCode where
  | writeQueueFull | frameTooLarge | writeFailed | invalidRpc | invalidParams | invalidCorrelation
  | correlationReuse | lateResponse | unknownCorrelation | adapterContract | unsupportedMethod | requestTimeout
  deriving DecidableEq

/-- A frame that the queue can take: its lane, and its bytes with the newline. -/
class Queued (α : Type*) where
  lane : α → Priority
  bytes : α → ℕ

variable {α : Type*} [Queued α]

/-- `waiter` is the frame of `capacityWaiters`, which holds one at most. -/
structure WriteQueue (α : Type*) where
  control : List α
  normal : List α
  queuedFrames : ℕ
  queuedBytes : ℕ
  controlBurst : ℕ
  inFlight : Option α
  waiter : Option α
  /-- The frames given to the stream. -/
  written : List α

namespace WriteQueue

variable (config : QueueConfig)

def empty : WriteQueue α := ⟨[], [], 0, 0, 0, none, none, []⟩

def hasCapacity (q : WriteQueue α) (bytes : ℕ) : Bool :=
  !(q.queuedFrames ≥ config.maxFrames || q.queuedBytes + bytes > config.maxBytes)

def next (q : WriteQueue α) : Option (α × WriteQueue α) :=
  match q.control, q.normal with
  | a :: rest, normal =>
    if q.controlBurst < controlBurstLimit ∨ normal = [] then
      some (a, { q with control := rest, controlBurst := q.controlBurst + 1 })
    else
      match normal with
      | b :: rest' => some (b, { q with normal := rest', controlBurst := 0 })
      | [] => none
  | [], b :: rest => some (b, { q with normal := rest, controlBurst := 0 })
  | [], [] => none

def drain (q : WriteQueue α) : WriteQueue α :=
  if q.inFlight.isSome then q
  else
    match q.next with
    | some (a, q) => { q with inFlight := some a, written := q.written ++ [a] }
    | none => q

/-- `#admit` without its drain. -/
def admitFrame (q : WriteQueue α) (a : α) : WriteQueue α :=
  let q := match Queued.lane a with
    | .control => { q with control := q.control ++ [a] }
    | .normal => { q with normal := q.normal ++ [a] }
  { q with queuedFrames := q.queuedFrames + 1, queuedBytes := q.queuedBytes + Queued.bytes a }

/-- `encodeFrame`: the newline does not count. -/
def encodes (a : α) : Bool := Queued.bytes a ≤ config.maxFrameBytes + 1

def enqueue (q : WriteQueue α) (a : α) : Except ErrorCode (WriteQueue α) :=
  if !encodes config a then .error .frameTooLarge
  else if !q.hasCapacity config (Queued.bytes a) then .error .writeQueueFull
  else .ok (q.admitFrame a).drain

/-- `#promoteCapacityWaiters`. -/
def promote (q : WriteQueue α) : WriteQueue α :=
  match q.waiter with
  | some a =>
    if q.hasCapacity config (Queued.bytes a) then ({ q with waiter := none }.admitFrame a).drain else q
  | none => q

def enqueueWithBackpressure (q : WriteQueue α) (a : α) : Except ErrorCode (WriteQueue α) :=
  if !encodes config a then .error .frameTooLarge
  else if Queued.bytes a > config.maxBytes then .error .writeQueueFull
  else if q.waiter.isNone ∧ q.hasCapacity config (Queued.bytes a) then .ok (q.admitFrame a).drain
  else if q.waiter.isSome then .error .writeQueueFull
  else .ok ({ q with waiter := some a }.promote config)

/-- The frame in flight is done with: the head of `#settleItem`. -/
def settle (q : WriteQueue α) (a : α) : WriteQueue α :=
  { q with inFlight := none, queuedFrames := q.queuedFrames - 1, queuedBytes := q.queuedBytes - Queued.bytes a }

/-- The stream has written the frame in flight. -/
def complete (q : WriteQueue α) : WriteQueue α :=
  match q.inFlight with
  | none => q
  | some a => ((q.settle a).promote config).drain

/-! ## What the queue was given -/

/-- All frames the queue was given. -/
def held (q : WriteQueue α) : List α := q.written ++ (q.control ++ (q.normal ++ q.waiter.toList))

/-- Every frame waits in the lane it carries. -/
structure InLanes (q : WriteQueue α) : Prop where
  control : ∀ a ∈ q.control, Queued.lane a = .control
  normal : ∀ a ∈ q.normal, Queued.lane a = .normal

/-- The frames of a lane in the order in which they leave it: written, in the lane, waiting. -/
def laneOrder (q : WriteQueue α) (lane : Priority) : List α :=
  q.written.filter (Queued.lane · = lane) ++ ((match lane with
    | .control => q.control
    | .normal => q.normal) ++ q.waiter.toList.filter (Queued.lane · = lane))

omit [Queued α] in
theorem next_eq_some {q q' : WriteQueue α} {a : α} (h : q.next = some (a, q')) :
    (∃ rest burst, q.control = a :: rest ∧ q' = { q with control := rest, controlBurst := burst }) ∨
      ∃ rest, q.normal = a :: rest ∧ q' = { q with normal := rest, controlBurst := 0 } := by
  unfold next at h
  split at h
  · next b rest hc =>
    split at h
    · cases h; exact Or.inl ⟨rest, _, hc, rfl⟩
    · split at h
      · next hn => cases h; exact Or.inr ⟨_, hn, rfl⟩
      · cases h
  · next hn => cases h; exact Or.inr ⟨_, hn, rfl⟩
  · cases h

omit [Queued α] in
/-- **What `#drain` does**: nothing, or it writes the head of a lane. -/
theorem drain_cases (q : WriteQueue α) :
    q.drain = q ∨ (∃ a rest burst, q.control = a :: rest ∧ q.drain = { q with
        control := rest, controlBurst := burst, inFlight := some a, written := q.written ++ [a] }) ∨
      ∃ a rest, q.normal = a :: rest ∧ q.drain = { q with
        normal := rest, controlBurst := 0, inFlight := some a, written := q.written ++ [a] } := by
  unfold drain
  split
  · exact Or.inl rfl
  · cases hn : q.next with
    | none => exact Or.inl rfl
    | some r =>
      obtain ⟨a, q'⟩ := r
      rcases next_eq_some hn with ⟨rest, burst, hc, rfl⟩ | ⟨rest, hc, rfl⟩
      · exact Or.inr (Or.inl ⟨a, rest, burst, hc, rfl⟩)
      · exact Or.inr (Or.inr ⟨a, rest, hc, rfl⟩)

omit [Queued α] in
theorem drain_waiter (q : WriteQueue α) : q.drain.waiter = q.waiter := by
  rcases q.drain_cases with h | ⟨a, rest, burst, -, h⟩ | ⟨a, rest, -, h⟩ <;> rw [h]

omit [Queued α] in
/-- Nothing is lost on the way from a lane to the stream. -/
theorem perm_drain (q : WriteQueue α) : q.drain.held.Perm q.held := by
  rcases q.drain_cases with h | ⟨a, rest, burst, hc, h⟩ | ⟨a, rest, hc, h⟩
  · rw [h]
  · rw [h]
    simp [held, hc]
  · rw [h]
    simp only [held, hc, List.append_assoc, List.cons_append]
    have hm : (q.control ++ a :: (rest ++ q.waiter.toList)).Perm (a :: (q.control ++ (rest ++ q.waiter.toList))) :=
      List.perm_middle
    exact hm.symm.append_left _

theorem perm_admitFrame (q : WriteQueue α) (a : α) : (q.admitFrame a).held.Perm (a :: q.held) := by
  unfold admitFrame
  cases Queued.lane a <;> simp only [held]
  · have h : q.written ++ (q.control ++ [a] ++ (q.normal ++ q.waiter.toList)) =
        (q.written ++ q.control) ++ a :: (q.normal ++ q.waiter.toList) := by simp
    rw [h, ← List.append_assoc q.written]
    exact List.perm_middle
  · have h : q.written ++ (q.control ++ (q.normal ++ [a] ++ q.waiter.toList)) =
        (q.written ++ (q.control ++ q.normal)) ++ a :: q.waiter.toList := by simp
    have h' : q.written ++ (q.control ++ (q.normal ++ q.waiter.toList)) =
        (q.written ++ (q.control ++ q.normal)) ++ q.waiter.toList := by simp
    rw [h, h']
    exact List.perm_middle

theorem perm_promote (q : WriteQueue α) : (q.promote config).held.Perm q.held := by
  unfold promote
  split
  · next a hw =>
    split
    · refine (perm_drain _).trans ((perm_admitFrame _ a).trans ?_)
      simp only [held, hw, Option.toList_none, Option.toList_some, List.append_nil]
      calc
        (a :: (q.written ++ (q.control ++ q.normal))).Perm (q.written ++ (q.control ++ q.normal) ++ [a]) :=
          (List.perm_append_singleton a _).symm
        _ = q.written ++ (q.control ++ (q.normal ++ [a])) := by simp
    · exact List.Perm.refl _
  · exact List.Perm.refl _

theorem perm_enqueue {q q' : WriteQueue α} {a : α} (h : q.enqueue config a = .ok q') : q'.held.Perm (a :: q.held) := by
  unfold enqueue at h
  split at h
  · cases h
  · split at h
    · cases h
    · cases h
      exact (perm_drain _).trans (perm_admitFrame q a)

/-- `enqueueWithBackpressure` takes the frame, or fails; no other frame waits then. -/
theorem perm_enqueueWithBackpressure {q q' : WriteQueue α} {a : α} (h : q.enqueueWithBackpressure config a = .ok q') :
    q.waiter = none ∧ q'.held.Perm (a :: q.held) := by
  unfold enqueueWithBackpressure at h
  split at h
  · cases h
  · split at h
    · cases h
    · split at h
      · next hn =>
        cases h
        exact ⟨by simpa using hn.1, (perm_drain _).trans (perm_admitFrame q a)⟩
      · split at h
        · cases h
        · next hn =>
          cases h
          have hnone : q.waiter = none := by simpa using hn
          refine ⟨hnone, (perm_promote config _).trans ?_⟩
          simp only [held, hnone, Option.toList_none, Option.toList_some, List.append_nil]
          rw [← List.append_assoc, ← List.append_assoc]
          simpa using List.perm_append_singleton a (q.written ++ (q.control ++ q.normal))

theorem perm_complete (q : WriteQueue α) : (q.complete config).held.Perm q.held := by
  unfold complete
  split
  · exact List.Perm.refl _
  · exact (perm_drain _).trans (perm_promote config _)

/-! ## The order of a lane -/

theorem inLanes_empty : (empty : WriteQueue α).InLanes := ⟨by simp [empty], by simp [empty]⟩

theorem InLanes.drain {q : WriteQueue α} (h : q.InLanes) : q.drain.InLanes := by
  rcases q.drain_cases with hd | ⟨a, rest, burst, hc, hd⟩ | ⟨a, rest, hc, hd⟩ <;> rw [hd]
  · exact h
  · exact ⟨fun b hb => h.control b (hc ▸ List.mem_cons_of_mem _ hb), h.normal⟩
  · exact ⟨h.control, fun b hb => h.normal b (hc ▸ List.mem_cons_of_mem _ hb)⟩

theorem InLanes.admitFrame {q : WriteQueue α} (h : q.InLanes) (a : α) : (q.admitFrame a).InLanes := by
  unfold WriteQueue.admitFrame
  cases hl : Queued.lane a
  · refine ⟨fun b hb => ?_, h.normal⟩
    rcases List.mem_append.1 hb with hb | hb
    · exact h.control b hb
    · rw [List.mem_singleton.1 hb, hl]
  · refine ⟨h.control, fun b hb => ?_⟩
    rcases List.mem_append.1 hb with hb | hb
    · exact h.normal b hb
    · rw [List.mem_singleton.1 hb, hl]

theorem InLanes.promote {q : WriteQueue α} (h : q.InLanes) : (q.promote config).InLanes := by
  unfold WriteQueue.promote
  split
  · split
    · exact (InLanes.admitFrame (q := { q with waiter := none }) ⟨h.control, h.normal⟩ _).drain
    · exact h
  · exact h

theorem InLanes.enqueue {q q' : WriteQueue α} {a : α} (h : q.InLanes) (he : q.enqueue config a = .ok q') :
    q'.InLanes := by
  unfold WriteQueue.enqueue at he
  split at he
  · cases he
  · split at he
    · cases he
    · cases he; exact (h.admitFrame a).drain

theorem InLanes.enqueueWithBackpressure {q q' : WriteQueue α} {a : α} (h : q.InLanes)
    (he : q.enqueueWithBackpressure config a = .ok q') : q'.InLanes := by
  unfold WriteQueue.enqueueWithBackpressure at he
  split at he
  · cases he
  · split at he
    · cases he
    · split at he
      · cases he; exact (h.admitFrame a).drain
      · split at he
        · cases he
        · cases he
          exact InLanes.promote config (q := { q with waiter := some a }) ⟨h.control, h.normal⟩

theorem InLanes.complete {q : WriteQueue α} (h : q.InLanes) : (q.complete config).InLanes := by
  unfold WriteQueue.complete
  split
  · exact h
  · next a _ =>
    have hs : (q.settle a).InLanes := ⟨h.control, h.normal⟩
    exact (hs.promote config).drain

theorem laneOrder_drain {q : WriteQueue α} (h : q.InLanes) (lane : Priority) : q.drain.laneOrder lane = q.laneOrder lane := by
  rcases q.drain_cases with hd | ⟨a, rest, burst, hc, hd⟩ | ⟨a, rest, hc, hd⟩
  · rw [hd]
  · have ha : Queued.lane a = .control := h.control a (by rw [hc]; simp)
    rw [hd]
    cases lane <;> simp [laneOrder, ha, hc]
  · have ha : Queued.lane a = .normal := h.normal a (by rw [hc]; simp)
    rw [hd]
    cases lane <;> simp [laneOrder, ha, hc]

theorem laneOrder_admitFrame {q : WriteQueue α} (hw : q.waiter = none) (a : α) (lane : Priority) :
    (q.admitFrame a).laneOrder lane = q.laneOrder lane ++ [a].filter (Queued.lane · = lane) := by
  unfold admitFrame
  cases ha : Queued.lane a <;> cases lane <;> simp [laneOrder, hw, ha]

/-- A frame of the sidecar itself may pass the one that waits. -/
theorem laneOrder_admitFrame_filter {q : WriteQueue α} {a : α} {p : α → Bool} (ha : p a = false) (lane : Priority) :
    ((q.admitFrame a).laneOrder lane).filter p = (q.laneOrder lane).filter p := by
  unfold admitFrame
  cases hl : Queued.lane a <;> cases lane <;> simp [laneOrder, ha, List.filter_append]

theorem laneOrder_promote {q : WriteQueue α} (h : q.InLanes) (lane : Priority) :
    (q.promote config).laneOrder lane = q.laneOrder lane := by
  unfold promote
  split
  · next a hw =>
    split
    · have hn : InLanes { q with waiter := none } := ⟨h.control, h.normal⟩
      rw [laneOrder_drain (hn.admitFrame a), laneOrder_admitFrame rfl]
      cases lane <;> simp [laneOrder, hw]
    · rfl
  · rfl

theorem laneOrder_enqueue {q q' : WriteQueue α} {a : α} {p : α → Bool} (h : q.InLanes) (ha : p a = false)
    (he : q.enqueue config a = .ok q') (lane : Priority) :
    (q'.laneOrder lane).filter p = (q.laneOrder lane).filter p := by
  unfold enqueue at he
  split at he
  · cases he
  · split at he
    · cases he
    · cases he
      rw [laneOrder_drain (h.admitFrame a), laneOrder_admitFrame_filter ha]

theorem laneOrder_enqueueWithBackpressure {q q' : WriteQueue α} {a : α} (h : q.InLanes)
    (he : q.enqueueWithBackpressure config a = .ok q') (lane : Priority) :
    q'.laneOrder lane = q.laneOrder lane ++ [a].filter (Queued.lane · = lane) := by
  have hw := (perm_enqueueWithBackpressure config he).1
  unfold enqueueWithBackpressure at he
  split at he
  · cases he
  · split at he
    · cases he
    · split at he
      · cases he
        rw [laneOrder_drain (h.admitFrame a), laneOrder_admitFrame hw]
      · split at he
        · cases he
        · cases he
          rw [laneOrder_promote config (q := { q with waiter := some a }) ⟨h.control, h.normal⟩]
          cases lane <;> simp [laneOrder, hw]

theorem laneOrder_complete {q : WriteQueue α} (h : q.InLanes) (lane : Priority) :
    (q.complete config).laneOrder lane = q.laneOrder lane := by
  unfold complete
  split
  · rfl
  · next a _ =>
    have hs : (q.settle a).InLanes := ⟨h.control, h.normal⟩
    rw [laneOrder_drain (hs.promote config), laneOrder_promote config hs]
    rfl

/-! ## What is written stays written -/

omit [Queued α] in
theorem written_drain (q : WriteQueue α) : q.written <+: q.drain.written := by
  rcases q.drain_cases with h | ⟨a, rest, burst, -, h⟩ | ⟨a, rest, -, h⟩ <;> rw [h] <;> simp

theorem written_admitFrame (q : WriteQueue α) (a : α) : (q.admitFrame a).written = q.written := by
  unfold admitFrame
  cases Queued.lane a <;> rfl

theorem written_promote (q : WriteQueue α) : q.written <+: (q.promote config).written := by
  unfold promote
  split
  · next a hw =>
    split
    · have h := written_drain ({ q with waiter := none }.admitFrame a)
      rwa [written_admitFrame] at h
    · exact List.prefix_rfl
  · exact List.prefix_rfl

theorem written_enqueue {q q' : WriteQueue α} {a : α} (h : q.enqueue config a = .ok q') : q.written <+: q'.written := by
  unfold enqueue at h
  split at h
  · cases h
  · split at h
    · cases h
    · cases h
      have h := written_drain (q.admitFrame a)
      rwa [written_admitFrame] at h

theorem written_enqueueWithBackpressure {q q' : WriteQueue α} {a : α} (h : q.enqueueWithBackpressure config a = .ok q') :
    q.written <+: q'.written := by
  unfold enqueueWithBackpressure at h
  split at h
  · cases h
  · split at h
    · cases h
    · split at h
      · cases h
        have h := written_drain (q.admitFrame a)
        rwa [written_admitFrame] at h
      · split at h
        · cases h
        · cases h
          exact written_promote config { q with waiter := some a }

theorem written_complete (q : WriteQueue α) : q.written <+: (q.complete config).written := by
  unfold complete
  split
  · exact List.prefix_rfl
  · next a _ => exact (written_promote config (q.settle a)).trans (written_drain _)

/-! ## A frame waits only for another -/

/-- The counts are those of the frames in the queue. -/
structure Counted (q : WriteQueue α) : Prop where
  frames : q.queuedFrames = q.control.length + q.normal.length + q.inFlight.toList.length
  bytes : q.queuedBytes = (q.control.map Queued.bytes).sum + (q.normal.map Queued.bytes).sum +
    (q.inFlight.toList.map Queued.bytes).sum

/-- The frame that waits for room cannot have it yet. -/
def Crowded (q : WriteQueue α) : Prop :=
  ∀ a, q.waiter = some a → Queued.bytes a ≤ config.maxBytes ∧ q.hasCapacity config (Queued.bytes a) = false

/-- With nothing in flight, the lanes are empty. -/
structure Busy (q : WriteQueue α) : Prop where
  counted : q.Counted
  crowded : q.Crowded config
  busy : q.inFlight = none → q.control = [] ∧ q.normal = []

theorem busy_empty : (empty : WriteQueue α).Busy config :=
  ⟨⟨rfl, rfl⟩, fun _ h => (nomatch h), fun _ => ⟨rfl, rfl⟩⟩

omit [Queued α] in
theorem next_eq_none {q : WriteQueue α} (h : q.next = none) : q.control = [] ∧ q.normal = [] := by
  unfold next at h
  split at h
  · split at h
    · cases h
    · next hn =>
      split at h
      · cases h
      · exact absurd (Or.inr (by assumption)) hn
  · cases h
  · next hc hn => exact ⟨hc, hn⟩

/-- Writing leaves the counts, and nothing behind when it stops. -/
theorem Counted.drain {q : WriteQueue α} (h : q.Counted) :
    q.drain.Counted ∧ q.drain.queuedFrames = q.queuedFrames ∧ q.drain.queuedBytes = q.queuedBytes ∧
      (q.drain.inFlight = none → q.drain.control = [] ∧ q.drain.normal = []) := by
  unfold WriteQueue.drain
  split
  · next hi => exact ⟨h, rfl, rfl, fun hn => by simp [hn] at hi⟩
  · next hi =>
    have hnone : q.inFlight = none := by simpa using hi
    obtain ⟨hframes, hbytes⟩ := h
    rw [hnone] at hframes hbytes
    cases hn : q.next with
    | none => exact ⟨⟨by rw [hnone]; exact hframes, by rw [hnone]; exact hbytes⟩, rfl, rfl, fun _ => next_eq_none hn⟩
    | some r =>
      obtain ⟨a, q'⟩ := r
      rcases next_eq_some hn with ⟨rest, burst, hc, rfl⟩ | ⟨rest, hc, rfl⟩
      · rw [hc] at hframes hbytes
        refine ⟨⟨?_, ?_⟩, rfl, rfl, fun hn => nomatch hn⟩ <;> simp at hframes hbytes ⊢ <;> omega
      · rw [hc] at hframes hbytes
        refine ⟨⟨?_, ?_⟩, rfl, rfl, fun hn => nomatch hn⟩ <;> simp at hframes hbytes ⊢ <;> omega

theorem Counted.admitFrame {q : WriteQueue α} (h : q.Counted) (a : α) : (q.admitFrame a).Counted := by
  obtain ⟨hframes, hbytes⟩ := h
  unfold WriteQueue.admitFrame
  cases Queued.lane a <;> constructor <;> simp <;> omega

theorem crowded_of_le {q q' : WriteQueue α} (h : q.Crowded config) (hw : q'.waiter = q.waiter)
    (hf : q.queuedFrames ≤ q'.queuedFrames) (hb : q.queuedBytes ≤ q'.queuedBytes) : q'.Crowded config := by
  intro a ha
  obtain ⟨hmax, hno⟩ := h a (hw ▸ ha)
  refine ⟨hmax, ?_⟩
  simp only [hasCapacity, Bool.not_eq_false', Bool.or_eq_true, decide_eq_true_eq] at hno ⊢
  omega

theorem Busy.admit {q : WriteQueue α} (hc : q.Counted) (hw : q.Crowded config) (a : α) :
    (q.admitFrame a).drain.Busy config := by
  obtain ⟨hcounted, hframes, hbytes, hbusy⟩ := (hc.admitFrame a).drain
  have hadmit : (q.admitFrame a).waiter = q.waiter ∧ (q.admitFrame a).queuedFrames = q.queuedFrames + 1 ∧
      (q.admitFrame a).queuedBytes = q.queuedBytes + Queued.bytes a := by
    unfold admitFrame
    cases Queued.lane a <;> exact ⟨rfl, rfl, rfl⟩
  exact ⟨hcounted, crowded_of_le config hw ((drain_waiter _).trans hadmit.1) (by omega) (by omega), hbusy⟩

/-- Promotion ends with a waiting frame that has no room. -/
theorem promote_counted {q : WriteQueue α} (h : q.Counted) (hmax : ∀ a, q.waiter = some a → Queued.bytes a ≤ config.maxBytes) :
    (q.promote config).Counted ∧ (q.promote config).Crowded config := by
  unfold promote
  split
  · next a hw =>
    split
    · have hb : (({ q with waiter := none } : WriteQueue α).admitFrame a).drain.Busy config :=
        Busy.admit config (q := { q with waiter := none }) ⟨h.frames, h.bytes⟩ (fun _ hn => (nomatch hn)) a
      exact ⟨hb.counted, hb.crowded⟩
    · next hno =>
      refine ⟨h, fun b hb => ⟨hmax b hb, ?_⟩⟩
      rw [hw] at hb
      cases hb
      simpa using hno
  · next hw => exact ⟨h, fun b hb => by rw [hw] at hb; cases hb⟩

theorem Busy.enqueue {q q' : WriteQueue α} {a : α} (h : q.Busy config) (he : q.enqueue config a = .ok q') :
    q'.Busy config := by
  unfold WriteQueue.enqueue at he
  split at he
  · cases he
  · split at he
    · cases he
    · cases he
      exact Busy.admit config h.counted h.crowded a

theorem Busy.complete {q : WriteQueue α} (h : q.Busy config) : (q.complete config).Busy config := by
  unfold WriteQueue.complete
  split
  · exact h
  · next a ha =>
    obtain ⟨hframes, hbytes⟩ := h.counted
    rw [ha] at hframes hbytes
    have hs : (q.settle a).Counted := by
      constructor <;> simp [settle] at hframes hbytes ⊢ <;> omega
    obtain ⟨hc, hw⟩ := promote_counted config hs fun b hb => (h.crowded b hb).1
    obtain ⟨hcounted, hf, hb, hbusy⟩ := hc.drain
    exact ⟨hcounted, crowded_of_le config hw (drain_waiter _) hf.ge hb.ge, hbusy⟩

theorem Busy.enqueueWithBackpressure {q q' : WriteQueue α} {a : α} (h : q.Busy config)
    (he : q.enqueueWithBackpressure config a = .ok q') : q'.Busy config := by
  unfold WriteQueue.enqueueWithBackpressure at he
  split at he
  · cases he
  · split at he
    · cases he
    · next hmax =>
      split at he
      · cases he
        exact Busy.admit config h.counted h.crowded a
      · next hno =>
        split at he
        · cases he
        · next hw =>
          cases he
          have hnone : q.waiter = none := by simpa using hw
          have hfull : q.hasCapacity config (Queued.bytes a) = false := by simpa [hnone] using hno
          have hsame : ({ q with waiter := some a } : WriteQueue α).promote config = { q with waiter := some a } := by
            simp only [promote]
            exact if_neg (by simpa [hasCapacity] using hfull)
          rw [hsame]
          refine ⟨⟨h.counted.frames, h.counted.bytes⟩, fun b hb => ?_, h.busy⟩
          cases hb
          exact ⟨by omega, hfull⟩

/-- **All that was given to an idle queue is written.** -/
theorem Busy.held_eq_written {q : WriteQueue α} (h : q.Busy config) (hmax : 0 < config.maxFrames)
    (hidle : q.inFlight = none) : q.held = q.written := by
  obtain ⟨hc, hn⟩ := h.busy hidle
  have hframes := h.counted.frames
  have hbytes := h.counted.bytes
  simp [hc, hn, hidle] at hframes hbytes
  have hw : q.waiter = none := by
    cases hw : q.waiter with
    | none => rfl
    | some a =>
      obtain ⟨hle, hno⟩ := h.crowded a hw
      simp only [hasCapacity, hframes, hbytes, Bool.not_eq_false', Bool.or_eq_true, decide_eq_true_eq] at hno
      omega
  simp [held, hc, hn, hw]

end WriteQueue

end LarkCodexBridge.Sidecar
