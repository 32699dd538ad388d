import LarkCodexBridge.Channel.Events

/-!
# Runs of the channel events

* `Session.Inv`: events seen, in work and answered; `Session.Passes`: what one function of the session does to them;
* `Unique`: each id is in at most one place between the two tables;
* `Link.Inv`: the invariant of runs;
* `events_answered`: the run theorem.

Everything about places is a count: an id that moves on is counted in the next list instead of the last.
-/

namespace LarkCodexBridge.Channel.Events

open StepSystem Supervise

/-! ## Counts -/

def NodeFrame.event? : NodeFrame → Option ℕ
  | .event id _ => some id
  | _ => none

def RustFrame.ack? : RustFrame → Option ℕ
  | .eventAck id _ => some id
  | _ => none

/-- One for the id itself. -/
def one (id : Option ℕ) (id' : ℕ) : ℕ := if id = some id' then 1 else 0

theorem one_none (id : ℕ) : one none id = 0 := rfl

theorem count_snoc (l : List ℕ) (a b : ℕ) : (l ++ [a]).count b = l.count b + one (some a) b := by
  rw [List.count_append, List.count_singleton]
  simp [one]

theorem count_erase (l : List ℕ) {a : ℕ} (b : ℕ) (h : a ∈ l) : l.count b = (l.erase a).count b + one (some a) b := by
  unfold one
  split
  next hab =>
    cases hab
    have := List.count_pos_iff.mpr h
    rw [List.count_erase_self]
    omega
  next hab =>
    rw [List.count_erase_of_ne (fun heq => hab (by rw [heq]))]
    rfl

theorem count_cons (l : List ℕ) (a b : ℕ) : (a :: l).count b = l.count b + one (some a) b := by
  rw [List.count_cons]
  simp [one]

/-- The ids of a list of frames. -/
def events (l : List NodeFrame) (id : ℕ) : ℕ := (l.filterMap NodeFrame.event?).count id

def acks (l : List RustFrame) (id : ℕ) : ℕ := (l.filterMap RustFrame.ack?).count id

theorem events_snoc (l : List NodeFrame) (f : NodeFrame) (id : ℕ) :
    events (l ++ [f]) id = events l id + one f.event? id := by
  unfold events
  rw [List.filterMap_append, List.count_append]
  cases h : f.event? <;> simp [h, one, List.count_singleton]

theorem events_cons (l : List NodeFrame) (f : NodeFrame) (id : ℕ) :
    events (f :: l) id = events l id + one f.event? id := by
  unfold events
  cases h : f.event? <;> simp [h, one, List.count_cons]

theorem acks_snoc (l : List RustFrame) (f : RustFrame) (id : ℕ) : acks (l ++ [f]) id = acks l id + one f.ack? id := by
  unfold acks
  rw [List.filterMap_append, List.count_append]
  cases h : f.ack? <;> simp [h, one, List.count_singleton]

theorem acks_cons (l : List RustFrame) (f : RustFrame) (id : ℕ) : acks (f :: l) id = acks l id + one f.ack? id := by
  unfold acks
  cases h : f.ack? <;> simp [h, one, List.count_cons]

/-! ## The session -/

/-- The phases before the shutdown. -/
def SessionPhase.live : SessionPhase → Bool
  | .hello | .configuring | .connecting | .running => true
  | .draining | .closing | .over => false

def RustFrame.Sound (c : NodeSidecarConfig) : RustFrame → Prop
  | .configure maxFrameBytes .. => maxFrameBytes = c.maxFrameBytes
  | .eventAck _ (.error code) => code.length ≠ 0 ∧ code.length ≤ 64
  | .eventAck _ (.ok _) | .shutdown | .error _ => True

namespace Session

/-- Events seen, in work and answered. -/
structure Inv (s : Session) : Prop where
  answers : ∀ id, s.acked.count id + s.queue.count id + s.handlers.count id ≤ s.seen.count id
  active : s.worker = true → ∀ id, s.activeIds.count id = s.queue.count id + s.handlers.count id
  balance : s.worker = true → s.phase.live = true →
    ∀ id, s.seen.count id ≤ s.acked.count id + s.queue.count id + s.handlers.count id

/-- The worker runs as long as the session. -/
def Working (s : Session) : Prop := s.worker = true ∨ s.phase = .over

/-- The places of an id in the session and its pipe to Node. -/
def held (s : Session) (id : ℕ) : ℕ := s.queue.count id + s.handlers.count id + acks s.writes id + acks s.stdin id

variable (enc : Encoding) (c : NodeSidecarConfig)

/-- The frames on their way to Node. -/
def Frames (s : Session) : Prop := ∀ f ∈ s.writes ++ s.stdin, f.Sound c ∧ enc.rust f ≤ c.maxFrameBytes

/-- What a function of the session does, when it is given the event `id` and refuses an answer only if `refused`. -/
structure Passes (id : Option ℕ) (refused : Prop) (s s' : Session) : Prop where
  held : ∀ id', s'.held id' ≤ s.held id' + one id id'
  seen : ∀ id', s'.seen.count id' ≤ s.seen.count id' + one id id'
  inv : s.Inv → s'.Inv
  frames : s.Frames enc c → s'.Frames enc c
  works : ¬ refused → s.Working → s'.Working

variable {enc c} {s s' : Session} {frame : NodeFrame} {p : SessionPhase} {id : ℕ} {result : AckResult}
  {payload : String}

theorem Passes.refl (id : Option ℕ) : Passes enc c id False s s :=
  ⟨fun _ => Nat.le_add_right .., fun _ => Nat.le_add_right .., fun h => h, fun h => h, fun _ h => h⟩

theorem Passes.toPhase {id : Option ℕ} (hlive : p.live = true → s.phase.live = true)
    (hover : s.phase = .over → p = .over) : Passes enc c id False s { s with phase := p } where
  held _ := Nat.le_add_right ..
  seen _ := Nat.le_add_right ..
  inv h := ⟨h.answers, h.active, fun hw hp => h.balance hw (hlive hp)⟩
  frames h := h
  works _ h := h.imp_right hover

theorem Passes.trans {id : Option ℕ} {t : Session} (h : Passes enc c id False s t) (h' : Passes enc c none False t s') :
    Passes enc c id False s s' where
  held id' := by
    have h₁ := h.held id'
    have h₂ := h'.held id'
    rw [one_none] at h₂
    omega
  seen id' := by
    have h₁ := h.seen id'
    have h₂ := h'.seen id'
    rw [one_none] at h₂
    omega
  inv hi := h'.inv (h.inv hi)
  frames hf := h'.frames (h.frames hf)
  works hr hw := h'.works hr (h.works hr hw)

theorem enqueue_eq_some {frame : RustFrame} (h : s.enqueue enc c frame = some s') :
    s' = { s with writes := s.writes ++ [frame] } ∧ enc.rust frame ≤ c.maxFrameBytes := by
  unfold enqueue at h
  split at h
  · cases h
  next hsize =>
  split at h
  · cases h
  · exact ⟨(Option.some.inj h).symm, Nat.le_of_not_lt hsize⟩

theorem frames_snoc {frame : RustFrame} {s' : Session} (h : s.Frames enc c) (hs : frame.Sound c)
    (hb : enc.rust frame ≤ c.maxFrameBytes) (hw : s'.writes = s.writes ++ [frame]) (hi : s'.stdin = s.stdin) :
    s'.Frames enc c := by
  intro f hf
  rw [hw, hi, List.append_assoc, List.mem_append, List.mem_append, List.mem_singleton] at hf
  rcases hf with hf | rfl | hf
  · exact h f (List.mem_append_left _ hf)
  · exact ⟨hs, hb⟩
  · exact h f (List.mem_append_right _ hf)

/-- A frame that answers no event is queued. -/
theorem enqueue_passes {frame : RustFrame} (h : s.enqueue enc c frame = some s') (hs : frame.Sound c)
    (ha : frame.ack? = none) : Passes enc c none False s s' := by
  obtain ⟨rfl, hb⟩ := enqueue_eq_some h
  refine ⟨fun id => ?_, fun _ => Nat.le_add_right .., fun h => ⟨h.answers, h.active, h.balance⟩,
    fun h => frames_snoc h hs hb rfl rfl, fun _ h => h⟩
  simp only [held, acks_snoc, ha]
  omega

theorem abortTasks_passes (id : Option ℕ) : Passes enc c id False s s.abortTasks where
  held id' := by
    simp only [held, abortTasks, acks, List.filterMap_nil, List.count_nil]
    omega
  seen _ := Nat.le_add_right ..
  inv h := ⟨fun id => by have := h.answers id; simp only [abortTasks, List.count_nil]; omega, nofun, nofun⟩
  frames h f hf := h f (List.mem_append_right _ (by simpa [abortTasks] using hf))
  works _ _ := Or.inr rfl

theorem sendAck_eq_some (h : s.sendAck enc c id result = some s') :
    s' = { s with writes := s.writes ++ [.eventAck id result], acked := s.acked ++ [id] } ∧
      enc.rust (.eventAck id result) ≤ c.maxFrameBytes := by
  unfold sendAck at h
  obtain ⟨t, ht, rfl⟩ := Option.map_eq_some_iff.mp h
  obtain ⟨rfl, hb⟩ := enqueue_eq_some ht
  exact ⟨rfl, hb⟩

/-- The event that was just read is answered. -/
theorem see_sendAck_passes (h : (s.see (.event id payload)).sendAck enc c id result = some s')
    (hs : (RustFrame.eventAck id result).Sound c) :
    Passes enc c (some id) False s s' := by
  obtain ⟨rfl, hb⟩ := sendAck_eq_some h
  refine ⟨fun id' => ?_, fun id' => ?_, fun h => ⟨fun id' => ?_, h.active, fun hw hp id' => ?_⟩,
    fun h => frames_snoc h hs hb rfl rfl, fun _ h => h⟩
  · simp only [held, see, acks_snoc, RustFrame.ack?]
    omega
  · simp only [see, count_snoc]
    omega
  · have := h.answers id'
    simp only [see, count_snoc]
    omega
  · have := h.balance hw hp id'
    simp only [see, count_snoc]
    omega

/-- A frame is read and the session ends, or is about to. -/
theorem see_passes (hp : p.live = false) (hover : s.phase = .over → p = .over) :
    Passes enc c frame.event? False s { s.see frame with phase := p } := by
  cases frame with
  | event id payload =>
    refine ⟨fun _ => Nat.le_add_right .., fun id' => ?_, fun h => ⟨fun id' => ?_, h.active, fun _ hl => ?_⟩, fun h => h,
      fun _ h => h.imp_right hover⟩
    · simp only [see, count_snoc, NodeFrame.event?]
      omega
    · have := h.answers id'
      simp only [see, count_snoc]
      omega
    · rw [hp] at hl
      cases hl
  | _ => exact Passes.toPhase (fun hl => by rw [hp] at hl; cases hl) hover

theorem see_abortTasks_passes : Passes enc c frame.event? False s (s.see frame).abortTasks where
  held id := by
    simp only [held, abortTasks, acks, List.filterMap_nil, List.count_nil]
    cases frame <;> simp only [see] <;> omega
  seen id := by
    cases frame with
    | event id' payload => exact Nat.le_of_eq (count_snoc ..)
    | _ => exact Nat.le_add_right ..
  inv h := by
    refine ⟨fun id => ?_, nofun, nofun⟩
    have := h.answers id
    cases frame <;> simp only [abortTasks, see, List.count_nil, count_snoc] <;> omega
  frames h f hf := by
    refine h f (List.mem_append_right _ ?_)
    cases frame <;> simpa [abortTasks, see] using hf
  works _ _ := Or.inr rfl

/-- The event that was just read is answered, or put into the queue of the worker. -/
theorem handleEvent_passes (h : (s.see (.event id payload)).handleEvent enc c id payload = some s') :
    Passes enc c (some id) False s s' := by
  unfold handleEvent at h
  split at h
  · exact see_sendAck_passes h ⟨by decide, by decide⟩
  split at h
  · cases h
  split at h
  · exact see_sendAck_passes h ⟨by decide, by decide⟩
  split at h
  · exact see_sendAck_passes h ⟨by decide, by decide⟩
  · cases h
    refine ⟨fun id' => ?_, fun id' => ?_, fun h => ⟨fun id' => ?_, fun hw id' => ?_, fun hw hp id' => ?_⟩, fun h => h,
      fun _ h => h⟩
    · simp only [held, see, count_snoc]
      omega
    · simp only [see, count_snoc]
      omega
    · have := h.answers id'
      simp only [see, count_snoc]
      omega
    · have := h.active hw id'
      simp only [see, count_snoc]
      omega
    · have := h.balance hw hp id'
      simp only [see, count_snoc]
      omega

theorem handleLine_passes {effect : FrameEffect} (h : (s.see frame).handleLine enc c frame = some (s', effect)) :
    Passes enc c frame.event? False s s' ∧ s'.phase = s.phase := by
  cases frame with
  | state frame =>
    obtain ⟨r, -, hr⟩ := Option.map_eq_some_iff.mp h
    cases hr
    exact ⟨Passes.refl _, rfl⟩
  | event id payload =>
    obtain ⟨t, ht, hr⟩ := Option.map_eq_some_iff.mp h
    cases hr
    refine ⟨handleEvent_passes ht, ?_⟩
    have hack : ∀ {result}, (s.see (.event id payload)).sendAck enc c id result = some s' → s'.phase = s.phase :=
      fun h => by rw [(sendAck_eq_some h).1]; rfl
    unfold handleEvent at ht
    repeat' split at ht
    all_goals first | exact hack ht | (cases ht; try rfl)
  | response => cases h
  | hello =>
    obtain ⟨t, ht, hr⟩ := Option.map_eq_some_iff.mp h
    cases hr
    refine ⟨enqueue_passes ht trivial rfl, ?_⟩
    rw [(enqueue_eq_some ht).1]
    rfl

theorem bootstrapLine_passes {connected : Session → Session}
    (hconnected : ∀ t, t.phase = s.phase → Passes enc c none False t (connected t)) :
    Passes enc c frame.event? False s ((s.see frame).bootstrapLine enc c frame connected) := by
  unfold bootstrapLine
  cases h : (s.see frame).handleLine enc c frame with
  | none => exact see_abortTasks_passes
  | some r =>
    obtain ⟨t, effect⟩ := r
    obtain ⟨hp, hphase⟩ := handleLine_passes h
    cases effect with
    | failed fatal | stopped => exact hp.trans (abortTasks_passes _)
    | connected => exact hp.trans (hconnected t hphase)
    | continues => exact hp
    | disconnected => exact hp

theorem line_passes : Passes enc c frame.event? False s (s.line enc c frame) := by
  unfold line
  cases hphase : s.phase with
  | hello =>
    cases frame with
    | hello =>
      dsimp only
      cases h : { s with phase := .configuring }.enqueue enc c
        (.configure c.maxFrameBytes c.eventCapacity (c.handlerTimeoutMs + Limits.channelSidecarAckGrace)) with
      | none => exact abortTasks_passes _
      | some t =>
        have hto : Passes enc c none False s { s with phase := .configuring } :=
          Passes.toPhase (fun _ => by rw [hphase]; rfl) fun ho => by rw [hphase] at ho; cases ho
        exact hto.trans (enqueue_passes h rfl rfl)
    | _ => exact abortTasks_passes _
  | configuring =>
    cases frame with
    | response => exact Passes.toPhase (fun _ => by rw [hphase]; rfl) fun ho => by rw [hphase] at ho; cases ho
    | _ => exact bootstrapLine_passes fun t _ => Passes.refl _
  | connecting =>
    refine bootstrapLine_passes fun t ht => Passes.toPhase (fun _ => ?_) fun ho => ?_
    · rw [ht, hphase]
      rfl
    · rw [ht, hphase] at ho
      cases ho
  | running =>
    dsimp only
    have hclose : ∀ t : Session, t.phase = s.phase → Passes enc c none False t { t with phase := .closing } := by
      intro t ht
      refine Passes.toPhase nofun fun ho => ?_
      rw [ht, hphase] at ho
      cases ho
    cases h : (s.see frame).handleLine enc c frame with
    | none => exact see_passes rfl fun ho => by rw [hphase] at ho; cases ho
    | some r =>
      obtain ⟨t, effect⟩ := r
      obtain ⟨hp, ht⟩ := handleLine_passes h
      cases effect with
      | failed fatal => exact hp.trans (hclose t ht)
      | stopped => exact hp.trans (hclose t ht)
      | connected => exact hp
      | continues => exact hp
      | disconnected => exact hp
  | draining =>
    cases frame with
    | event id payload =>
      dsimp only
      cases h : (s.see (.event id payload)).sendAck enc c id (.error "shutting_down") with
      | none =>
        have hsee : s.see (.event id payload) = { s.see (.event id payload) with phase := .draining } := by
          simp [see, hphase]
        rw [Option.getD_none, hsee]
        exact see_passes rfl fun ho => by rw [hphase] at ho; cases ho
      | some t => exact see_sendAck_passes h ⟨by decide, by decide⟩
    | response => exact Passes.toPhase nofun fun ho => by rw [hphase] at ho; cases ho
    | _ => exact Passes.refl _
  | closing => exact Passes.refl _
  | «over» => exact Passes.refl _

theorem lineError_passes (id : Option ℕ) : Passes enc c id False s s.lineError := by
  unfold lineError
  cases hphase : s.phase with
  | hello | configuring | connecting => exact abortTasks_passes _
  | running | draining => exact Passes.toPhase nofun fun ho => by rw [hphase] at ho; cases ho
  | closing => exact Passes.refl _
  | «over» => exact Passes.refl _

theorem take_passes : Passes enc c none False s (s.take c) := by
  unfold take
  cases hq : s.queue with
  | nil => exact Passes.refl _
  | cons id rest =>
    dsimp only
    split
    · have hmove : ∀ id', rest.count id' + (s.handlers ++ [id]).count id' = s.queue.count id' + s.handlers.count id' := by
        intro id'
        rw [hq, count_cons, count_snoc]
        omega
      refine ⟨fun id' => ?_, fun _ => Nat.le_add_right .., fun h => ⟨fun id' => ?_, fun hw id' => ?_, fun hw hp id' => ?_⟩,
        fun h => h, fun _ h => h⟩ <;> have := hmove id'
      · simp only [held]
        omega
      · have := h.answers id'
        dsimp only
        omega
      · have := h.active hw id'
        dsimp only
        omega
      · have := h.balance hw hp id'
        dsimp only
        omega
    · exact Passes.refl _

theorem completed_passes (id : ℕ) (result : HandlerResult) :
    Passes enc c none (id ∈ s.handlers ∧
      ({ s with handlers := s.handlers.erase id }.sendAck enc c id result.ack).isNone) s (s.completed enc c id result) := by
  have hweaken : ∀ {r : Prop} {t : Session}, Passes enc c none False s t → Passes enc c none r s t := fun h =>
    ⟨h.held, h.seen, h.inv, h.frames, fun _ => h.works not_false⟩
  unfold completed
  split
  next hin =>
    have herase := fun id' => count_erase s.handlers id' hin
    cases h : { s with handlers := s.handlers.erase id }.sendAck enc c id result.ack with
    | none =>
      refine ⟨fun id' => ?_, fun _ => Nat.le_add_right .., fun h => ⟨fun id' => ?_, nofun, nofun⟩, fun h => h,
        fun hr _ => absurd ⟨hin, rfl⟩ hr⟩
      · simp only [held, List.count_nil]
        omega
      · have := h.answers id'
        simp only [List.count_nil]
        omega
    | some t =>
      obtain ⟨rfl, hb⟩ := sendAck_eq_some h
      have hsound : (RustFrame.eventAck id result.ack).Sound c := by cases result <;> trivial
      refine hweaken ⟨fun id' => ?_, fun _ => Nat.le_add_right .., fun h => ⟨fun id' => ?_, fun hw id' => ?_,
        fun hw hp id' => ?_⟩, fun h => frames_snoc h hsound hb rfl rfl, fun _ h => h⟩ <;> have he := herase id'
      · simp only [held, acks_snoc, RustFrame.ack?]
        omega
      · have := h.answers id'
        simp only [count_snoc]
        omega
      · have hcount := h.active hw
        have hmem : id ∈ s.activeIds := by
          have := hcount id
          have := List.count_pos_iff.mpr hin
          exact List.count_pos_iff.mp (by omega)
        have := hcount id'
        have := count_erase s.activeIds id' hmem
        dsimp only
        omega
      · have := h.balance hw hp id'
        simp only [count_snoc]
        omega
  · exact hweaken (Passes.refl _)

theorem write_passes : Passes enc c none False s s.write := by
  unfold write
  cases hw : s.writes with
  | nil => exact Passes.refl _
  | cons frame rest =>
    dsimp only
    split
    · refine ⟨fun id => ?_, fun _ => Nat.le_add_right .., fun h => ⟨h.answers, h.active, h.balance⟩, fun h f hf => ?_,
        fun _ h => h⟩
      · simp only [held, hw, acks_snoc, acks_cons]
        omega
      · refine h f ?_
        rw [hw]
        simp only [List.mem_append, List.mem_cons, List.not_mem_nil, or_false] at hf ⊢
        tauto
    · exact Passes.refl _

theorem writerFails_passes : Passes enc c none False s { s with writes := [], writer := false } where
  held id := by
    simp only [held, acks, List.filterMap_nil, List.count_nil]
    omega
  seen _ := Nat.le_add_right ..
  inv h := ⟨h.answers, h.active, h.balance⟩
  frames h f hf := h f (List.mem_append_right _ (by simpa using hf))
  works _ h := h

theorem shutdown_passes : Passes enc c none False s (s.shutdown enc c) := by
  unfold shutdown
  split
  next hphase =>
    have hto : ∀ p : SessionPhase, p.live = false → Passes enc c none False s { s with phase := p } := by
      intro p hp
      refine Passes.toPhase (fun hl => ?_) fun ho => ?_
      · rw [hp] at hl
        cases hl
      · rw [hphase] at ho
        cases ho
    cases h : { s with phase := .draining }.enqueue enc c .shutdown with
    | none => exact hto .closing rfl
    | some t => exact (hto .draining rfl).trans (enqueue_passes h trivial rfl)
  · exact Passes.refl _

end Session

/-! ## The process -/

namespace Node

variable {enc : Encoding} {n n' : Node}

/-- The places of an event frame before Rust reads it. -/
def sent (n : Node) (id : ℕ) : ℕ := events n.outbound id + events n.stdout id

theorem pumpOutbound_eq (n : Node) : ∃ outbound writing stdout,
    n.pumpOutbound = { n with outbound, writing, stdout } ∧
      ∀ id, events outbound id + events stdout id = n.sent id := by
  unfold pumpOutbound
  split
  · exact ⟨_, _, _, rfl, fun _ => rfl⟩
  · cases ho : n.outbound with
    | nil => exact ⟨n.outbound, n.writing, n.stdout, rfl, fun _ => rfl⟩
    | cons frame rest =>
      refine ⟨_, _, _, rfl, fun id => ?_⟩
      simp only [sent, ho, events_cons, events_snoc]
      omega

theorem writeFrame_eq_some {frame : NodeFrame} (h : n.writeFrame enc frame = some n') : ∃ outbound writing stdout,
    n' = { n with outbound, writing, stdout } ∧
      ∀ id, events outbound id + events stdout id = n.sent id + one frame.event? id := by
  unfold writeFrame at h
  split at h
  · cases h
  split at h
  · cases h
  · obtain ⟨outbound, writing, stdout, hp, hs⟩ := pumpOutbound_eq { n with outbound := n.outbound ++ [frame] }
    refine ⟨outbound, writing, stdout, (Option.some.inj h).symm.trans hp, fun id => (hs id).trans ?_⟩
    simp only [sent, events_snoc]
    omega

/-- What a callback leaves as it is, or moves forward. -/
structure Moves (n n' : Node) : Prop where
  sent : ∀ id, n'.sent id = n.sent id
  pending : n'.pending = n.pending
  timedOut : n'.timedOut = n.timedOut
  inputChain : n'.inputChain = n.inputChain
  maxFrameBytes : n'.maxFrameBytes = n.maxFrameBytes
  configured : n'.configured = n.configured
  shuttingDown : n'.shuttingDown = n.shuttingDown
  exited : n'.exited = none → n.exited = none
  made : n.made ≤ n'.made
  sequence : n.sequence = n.made → n'.made < maxSafeInteger → n'.sequence = n'.made

theorem Moves.refl (n : Node) : Moves n n :=
  ⟨fun _ => rfl, rfl, rfl, rfl, rfl, rfl, rfl, fun h => h, Nat.le_refl _, fun h _ => h⟩

theorem Moves.trans {m : Node} (h : Moves n m) (h' : Moves m n') : Moves n n' where
  sent id := (h'.sent id).trans (h.sent id)
  pending := h'.pending.trans h.pending
  timedOut := h'.timedOut.trans h.timedOut
  inputChain := h'.inputChain.trans h.inputChain
  maxFrameBytes := h'.maxFrameBytes.trans h.maxFrameBytes
  configured := h'.configured.trans h.configured
  shuttingDown := h'.shuttingDown.trans h.shuttingDown
  exited he := h.exited (h'.exited he)
  made := Nat.le_trans h.made h'.made
  sequence hs hm := h'.sequence (h.sequence hs (Nat.lt_of_le_of_lt h'.made hm)) hm

theorem moves_nextId (n : Node) : Moves n n.nextId where
  sent _ := rfl
  pending := rfl
  timedOut := rfl
  inputChain := rfl
  maxFrameBytes := rfl
  configured := rfl
  shuttingDown := rfl
  exited he := he
  made := Nat.le_succ _
  sequence hs hm := by
    simp only [nextId] at hm ⊢
    rw [hs]
    exact Nat.mod_eq_of_lt hm

theorem moves_exit (n : Node) (code : ℕ) : Moves n (n.exit code) :=
  ⟨fun _ => rfl, rfl, rfl, rfl, rfl, rfl, rfl, nofun, Nat.le_refl _, fun h _ => h⟩

theorem moves_writeFrame {frame : NodeFrame} (h : n.writeFrame enc frame = some n') (hf : frame.event? = none) :
    Moves n n' := by
  obtain ⟨outbound, writing, stdout, rfl, hs⟩ := writeFrame_eq_some h
  refine ⟨fun id => ?_, rfl, rfl, rfl, rfl, rfl, rfl, fun he => he, Nat.le_refl _, fun h _ => h⟩
  have := hs id
  rwa [hf, one_none] at this

theorem moves_sendState (frame : StateFrame) : Moves n (n.sendState enc frame) := by
  unfold sendState
  split
  · exact Moves.refl n
  · cases h : n.nextId.writeFrame enc (.state frame) with
    | none => exact moves_nextId n
    | some m => exact (moves_nextId n).trans (moves_writeFrame h rfl)

theorem moves_pumpOutbound : Moves n n.pumpOutbound := by
  obtain ⟨outbound, writing, stdout, hp, hs⟩ := pumpOutbound_eq n
  rw [hp]
  exact ⟨hs, rfl, rfl, rfl, rfl, rfl, rfl, fun he => he, Nat.le_refl _, fun h _ => h⟩

end Node

/-! ## The invariant -/

namespace Link

/-- The places of an id between the two tables. -/
def tokens (s : Link) (id : ℕ) : ℕ := s.node.sent id + s.rust.held id + acks s.node.inputChain id

/-- Event frames of an id that Rust has seen or will read. -/
def forwarded (s : Link) (id : ℕ) : ℕ := s.rust.seen.count id + s.node.sent id

/-- Each id is in one place, and Node waits for it unless its timer has fired. -/
structure Unique (s : Link) : Prop where
  sequence : s.node.sequence = s.node.made
  once : ∀ id, s.tokens id ≤ 1
  seenOnce : ∀ id, s.forwarded id ≤ 1
  old : ∀ id, s.node.sequence < id →
    s.tokens id = 0 ∧ s.forwarded id = 0 ∧ id ∉ s.node.pending ∧ id ∉ s.node.timedOut
  waits : s.node.exited = none → s.node.shuttingDown = false →
    ∀ id, 0 < s.tokens id → id ∈ s.node.pending ∨ id ∈ s.node.timedOut
  late : ∀ id ∈ s.node.timedOut, id ∉ s.node.pending
  configured : ∀ id, 0 < s.tokens id → s.node.configured = true

/-- **The invariant of runs.** -/
structure Inv (enc : Encoding) (c : NodeSidecarConfig) (s : Link) : Prop where
  rust : s.rust.Inv
  frames : s.rust.Frames enc c
  chain : ∀ frame ∈ s.node.inputChain, frame.Sound c
  bytes : c.maxFrameBytes ≤ s.node.maxFrameBytes
  unique : s.node.made < maxSafeInteger → s.Unique

variable {enc : Encoding} {c : NodeSidecarConfig} {s : Link} {refused : Prop} {r : Session} {rest : List RustFrame}
  {input : Input}

/-- A callback that leaves the table of promises alone. -/
theorem Inv.moves (h : s.Inv enc c) {n : Node} (hm : s.node.Moves n) :
    Inv enc c { s with node := n } where
  rust := h.rust
  frames := h.frames
  chain := hm.inputChain ▸ h.chain
  bytes := hm.maxFrameBytes ▸ h.bytes
  unique hmade := by
    have hu := h.unique (Nat.lt_of_le_of_lt hm.made hmade)
    have hseq := hm.sequence hu.sequence hmade
    have htokens : ∀ id, tokens { s with node := n } id = s.tokens id := by
      intro id
      simp only [tokens, hm.sent, hm.inputChain]
    have hforwarded : ∀ id, forwarded { s with node := n } id = s.forwarded id := by
      intro id
      simp only [forwarded, hm.sent]
    refine ⟨hseq, fun id => ?_, fun id => ?_, fun id hid => ?_, fun hex hsh id => ?_, ?_, fun id => ?_⟩
    · rw [htokens]
      exact hu.once id
    · rw [hforwarded]
      exact hu.seenOnce id
    · rw [htokens, hforwarded, hm.pending, hm.timedOut]
      refine hu.old id (Nat.lt_of_le_of_lt ?_ hid)
      have := hm.made
      rw [hu.sequence, hseq]
      exact this
    · rw [htokens, hm.pending, hm.timedOut]
      exact hu.waits (hm.exited hex) (hm.shuttingDown ▸ hsh) id
    · rw [hm.pending, hm.timedOut]
      exact hu.late
    · rw [htokens, hm.configured]
      exact hu.configured id

theorem Inv.exit (h : s.Inv enc c) (code : ℕ) : Inv enc c { s with node := s.node.exit code } :=
  h.moves (Node.moves_exit _ code)

/-- A function of the session, with what it reads. -/
theorem Inv.passes (h : s.Inv enc c) {id : Option ℕ} (hp : s.rust.Passes enc c id refused r) {out : List NodeFrame}
    (hout : ∀ id', events out id' + one id id' = events s.node.stdout id') :
    Inv enc c { node := { s.node with stdout := out }, rust := r } where
  rust := hp.inv h.rust
  frames := hp.frames h.frames
  chain := h.chain
  bytes := h.bytes
  unique hmade := by
    have hu := h.unique hmade
    have htokens : ∀ id', tokens { node := { s.node with stdout := out }, rust := r } id' ≤ s.tokens id' := by
      intro id'
      have := hout id'
      have := hp.held id'
      simp only [tokens, Node.sent]
      omega
    have hforwarded : ∀ id', forwarded { node := { s.node with stdout := out }, rust := r } id' ≤ s.forwarded id' := by
      intro id'
      have := hout id'
      have := hp.seen id'
      simp only [forwarded, Node.sent]
      omega
    refine ⟨hu.sequence, fun id' => ?_, fun id' => ?_, fun id' hid => ?_, fun hex hsh id' hpos => ?_, hu.late,
      fun id' hpos => ?_⟩
    · exact Nat.le_trans (htokens id') (hu.once id')
    · exact Nat.le_trans (hforwarded id') (hu.seenOnce id')
    · obtain ⟨ht, hf, hrest⟩ := hu.old id' hid
      have h₁ := htokens id'
      have h₂ := hforwarded id'
      exact ⟨by omega, by omega, hrest⟩
    · exact hu.waits hex hsh id' (Nat.lt_of_lt_of_le hpos (htokens id'))
    · exact hu.configured id' (Nat.lt_of_lt_of_le hpos (htokens id'))

/-- A function of the session that reads nothing. -/
theorem Inv.passes_none (h : s.Inv enc c) (hp : s.rust.Passes enc c none refused r) :
    Inv enc c { s with rust := r } :=
  h.passes hp fun _ => rfl

theorem Inv.rustStep (h : s.Inv enc c) (input : Input) : Inv enc c (s.rustStep enc c input) := by
  unfold Link.rustStep
  cases input with
  | read =>
    dsimp only
    cases hout : s.node.stdout with
    | nil => exact h
    | cons frame rest =>
      dsimp only
      have hcount : ∀ id, events rest id + one frame.event? id = events s.node.stdout id := by
        intro id
        rw [hout, events_cons]
      split
      · exact h
      split
      · exact h.passes (Session.lineError_passes _) hcount
      · exact h.passes Session.line_passes hcount
  | take => exact h.passes_none Session.take_passes
  | completed id result => exact h.passes_none (Session.completed_passes id result)
  | write => exact h.passes_none Session.write_passes
  | writerFails =>
    dsimp only
    split
    · exact h.passes_none Session.writerFails_passes
    · exact h
  | shutdown => exact h.passes_none Session.shutdown_passes
  | ends => exact h.passes_none (Session.lineError_passes none)
  | abort =>
    dsimp only
    split
    · exact h.passes_none (Session.abortTasks_passes none)
    · exact h
  | _ => exact h

theorem Unique.next (h : s.Unique) (hmade : s.node.made + 1 < maxSafeInteger) :
    s.node.nextId.sequence = s.node.sequence + 1 ∧ s.tokens s.node.nextId.sequence = 0 ∧
      s.forwarded s.node.nextId.sequence = 0 ∧ s.node.nextId.sequence ∉ s.node.pending ∧
      s.node.nextId.sequence ∉ s.node.timedOut := by
  have hseq : s.node.nextId.sequence = s.node.sequence + 1 := by
    rw [Node.nextId, h.sequence]
    exact Nat.mod_eq_of_lt hmade
  exact ⟨hseq, h.old _ (by omega)⟩

section

variable (h : s.Inv enc c)
include h

/-- The event of the last id is written, and waited for. -/
theorem Inv.await (hconf : s.node.configured = true)
    (hnew : s.node.made < maxSafeInteger → s.tokens s.node.sequence = 0 ∧ s.forwarded s.node.sequence = 0 ∧
      s.node.sequence ∉ s.node.pending ∧ s.node.sequence ∉ s.node.timedOut)
    {outbound : List NodeFrame} {writing : Bool} {stdout : List NodeFrame}
    (hs : ∀ id, events outbound id + events stdout id = s.node.sent id + one (some s.node.sequence) id) :
    Inv enc c { s with node := { s.node with
      pending := s.node.pending.insert s.node.sequence, outbound, writing, stdout } } where
  rust := h.rust
  frames := h.frames
  chain := h.chain
  bytes := h.bytes
  unique hmade := by
    have hu := h.unique hmade
    obtain ⟨htok, hfor, hpend, hlate⟩ := hnew hmade
    have hone : ∀ id, id ≠ s.node.sequence → one (some s.node.sequence) id = 0 := fun id hne =>
      if_neg fun heq => hne (Option.some.inj heq).symm
    have hself : one (some s.node.sequence) s.node.sequence = 1 := if_pos rfl
    refine ⟨hu.sequence, fun id => ?_, fun id => ?_, fun id hid => ?_, fun hex hsh id hpos => ?_, fun id hid hin => ?_,
      fun _ _ => hconf⟩
    · have h₁ := hu.once id
      have h₂ := hs id
      simp only [tokens, Node.sent] at h₁ h₂ htok ⊢
      by_cases heq : id = s.node.sequence
      · subst heq
        omega
      · have := hone id heq
        omega
    · have h₁ := hu.seenOnce id
      have h₂ := hs id
      simp only [forwarded, Node.sent] at h₁ h₂ hfor ⊢
      by_cases heq : id = s.node.sequence
      · subst heq
        omega
      · have := hone id heq
        omega
    · have hne : id ≠ s.node.sequence := fun heq => Nat.lt_irrefl _ (heq ▸ hid)
      obtain ⟨h₁, h₃, h₄, h₅⟩ := hu.old id hid
      have h₂ := hs id
      have := hone id hne
      simp only [tokens, forwarded, Node.sent] at h₁ h₂ h₃ ⊢
      exact ⟨by omega, by omega, fun hin => (List.mem_insert_iff.mp hin).elim hne h₄, h₅⟩
    · by_cases heq : id = s.node.sequence
      · exact Or.inl (List.mem_insert_iff.mpr (Or.inl heq))
      · have h₂ := hs id
        have := hone id heq
        refine (hu.waits hex hsh id ?_).imp_left fun hin => List.mem_insert_iff.mpr (Or.inr hin)
        simp only [tokens, Node.sent] at h₂ hpos ⊢
        omega
    · rcases List.mem_insert_iff.mp hin with rfl | hin
      · exact hlate hid
      · exact hu.late id hid hin

theorem Inv.forwardEvent (hconf : s.node.configured = true) (payload : String) :
    Inv enc c { s with node := s.node.forwardEvent enc payload } := by
  unfold Node.forwardEvent
  split
  · exact h
  split
  · exact h
  have hnext : Inv enc c { s with node := s.node.nextId } := h.moves (Node.moves_nextId _)
  have hnew := fun hmade : s.node.nextId.made < maxSafeInteger =>
    ((h.unique (Nat.lt_of_succ_lt hmade)).next hmade).2
  dsimp only
  cases hw : { s.node.nextId with pending := s.node.nextId.pending.insert s.node.nextId.sequence }.writeFrame enc
      (.event s.node.nextId.sequence payload) with
  | none =>
    refine ⟨hnext.rust, hnext.frames, hnext.chain, hnext.bytes, fun hmade => ?_⟩
    have hsame : s.node.nextId.pending.filter (· ≠ s.node.nextId.sequence) = s.node.nextId.pending :=
      List.filter_eq_self.mpr fun id hid => decide_eq_true fun heq => (hnew hmade).2.2.1 (heq ▸ hid)
    dsimp only
    rw [hsame]
    exact hnext.unique hmade
  | some n =>
    obtain ⟨outbound, writing, stdout, rfl, hs⟩ := Node.writeFrame_eq_some hw
    exact hnext.await hconf hnew hs

/-- The timer of a promise fires. -/
theorem Inv.ackTimeout {id : ℕ} (hid : id ∈ s.node.pending) :
    Inv enc c { s with node := { s.node with
      pending := s.node.pending.filter (· ≠ id), timedOut := s.node.timedOut ++ [id] } } where
  rust := h.rust
  frames := h.frames
  chain := h.chain
  bytes := h.bytes
  unique hmade := by
    have hu := h.unique hmade
    refine ⟨hu.sequence, hu.once, hu.seenOnce, fun id' hid' => ?_, fun hex hsh id' hpos => ?_, fun id' hin => ?_,
      hu.configured⟩
    · obtain ⟨ht, hf, hp, hl⟩ := hu.old id' hid'
      refine ⟨ht, hf, fun hin => hp (List.mem_filter.mp hin).1, fun hin => ?_⟩
      rcases List.mem_append.mp hin with hin | hin
      · exact hl hin
      · rw [List.mem_singleton.mp hin] at hp
        exact hp hid
    · dsimp only
      rw [List.mem_filter, List.mem_append, List.mem_singleton, decide_eq_true_iff]
      by_cases heq : id' = id
      · exact Or.inr (Or.inr heq)
      · exact (hu.waits hex hsh id' hpos).imp (fun hp => ⟨hp, heq⟩) Or.inl
    · intro hp
      obtain ⟨hp, hne⟩ := List.mem_filter.mp hp
      rw [decide_eq_true_iff] at hne
      rcases List.mem_append.mp hin with hin | hin
      · exact hu.late id' hin hp
      · exact hne (List.mem_singleton.mp hin)

/-- Promises that no answer is on its way to are forgotten. -/
theorem Inv.forget {pending : List ℕ} (hsub : ∀ id ∈ pending, id ∈ s.node.pending)
    (hkeep : s.node.made < maxSafeInteger → s.node.exited = none → s.node.shuttingDown = false →
      ∀ id, 0 < s.tokens id → id ∈ s.node.pending → id ∈ pending) :
    Inv enc c { s with node := { s.node with pending } } where
  rust := h.rust
  frames := h.frames
  chain := h.chain
  bytes := h.bytes
  unique hmade := by
    have hu := h.unique hmade
    refine ⟨hu.sequence, hu.once, hu.seenOnce, fun id hid => ?_, fun hex hsh id hpos => ?_, fun id hin hp => ?_,
      hu.configured⟩
    · obtain ⟨ht, hf, hp, hl⟩ := hu.old id hid
      exact ⟨ht, hf, fun hin => hp (hsub id hin), hl⟩
    · exact (hu.waits hex hsh id hpos).imp_left (hkeep hmade hex hsh id hpos)
    · exact hu.late id hin (hsub id hp)

/-- The first frame of the chain leaves it. -/
theorem Inv.unchain {frame : RustFrame} (hc : s.node.inputChain = frame :: rest) :
    Inv enc c { s with node := { s.node with inputChain := rest } } ∧ frame.Sound c ∧
      ∀ id, s.tokens id = tokens { s with node := { s.node with inputChain := rest } } id + one frame.ack? id := by
  have htokens : ∀ id,
      s.tokens id = tokens { s with node := { s.node with inputChain := rest } } id + one frame.ack? id := by
    intro id
    simp only [tokens, hc, acks_cons, Node.sent]
    omega
  refine ⟨⟨h.rust, h.frames, fun f hf => h.chain f (hc ▸ List.mem_cons_of_mem _ hf), h.bytes, fun hmade => ?_⟩,
    h.chain frame (hc ▸ List.mem_cons_self), htokens⟩
  have hu := h.unique hmade
  refine ⟨hu.sequence, fun id => ?_, hu.seenOnce, fun id hid => ?_, fun hex hsh id hpos => ?_, hu.late, fun id hpos => ?_⟩
  · have := hu.once id
    rw [htokens] at this
    omega
  · obtain ⟨ht, hrest⟩ := hu.old id hid
    rw [htokens] at ht
    exact ⟨by omega, hrest⟩
  · refine hu.waits hex hsh id ?_
    rw [htokens]
    omega
  · refine hu.configured id ?_
    rw [htokens]
    omega

theorem Inv.configure {maxFrameBytes : ℕ} (hb : maxFrameBytes = c.maxFrameBytes)
    (maxInFlight ackTimeoutMs : ℕ) :
    Inv enc c { s with node := s.node.configure maxFrameBytes maxInFlight ackTimeoutMs } := by
  unfold Node.configure
  split
  · exact h.exit 2
  split
  · exact h.exit 2
  refine ⟨h.rust, h.frames, h.chain, Nat.le_of_eq hb.symm, fun hmade => ?_⟩
  have hu := h.unique hmade
  exact ⟨hu.sequence, hu.once, hu.seenOnce, hu.old, hu.waits, hu.late, fun _ _ => rfl⟩

theorem Inv.shutdown : Inv enc c { s with node := s.node.shutdown enc } := by
  have hstop : Inv enc c { s with node := { s.node with shuttingDown := true, pending := [] } } := by
    refine ⟨h.rust, h.frames, h.chain, h.bytes, fun hmade => ?_⟩
    have hu := h.unique hmade
    refine ⟨hu.sequence, hu.once, hu.seenOnce, fun id hid => ?_, nofun, fun _ _ => List.not_mem_nil, hu.configured⟩
    obtain ⟨ht, hf, -, hl⟩ := hu.old id hid
    exact ⟨ht, hf, List.not_mem_nil, hl⟩
  unfold Node.shutdown
  dsimp only
  cases hw : { s.node with shuttingDown := true, pending := [] }.writeFrame enc .response with
  | none => exact hstop.moves (Node.moves_sendState _)
  | some n => exact hstop.moves ((Node.moves_writeFrame hw rfl).trans (Node.moves_sendState _))

theorem Inv.started (frame : StateFrame) :
    Inv enc c { s with node := s.node.started enc frame } := by
  have hplain : ∀ n : Node, n.Moves { n with starting := false } ∧ n.Moves { n with protocolReady := true } := fun n =>
    ⟨⟨fun _ => rfl, rfl, rfl, rfl, rfl, rfl, rfl, fun he => he, Nat.le_refl _, fun h _ => h⟩,
      ⟨fun _ => rfl, rfl, rfl, rfl, rfl, rfl, rfl, fun he => he, Nat.le_refl _, fun h _ => h⟩⟩
  refine h.moves ((hplain _).1.trans ?_)
  unfold Node.started
  dsimp only
  cases hw : { s.node with starting := false }.writeFrame enc .response with
  | none => exact Node.moves_exit _ 2
  | some n => exact (Node.moves_writeFrame hw rfl).trans ((hplain n).2.trans (Node.moves_sendState _))

/-- The answer to an event that is waited for settles its promise. -/
theorem Inv.handle {frame : RustFrame} (hc : s.node.inputChain = frame :: rest) :
    Inv enc c { s with node := { s.node with inputChain := rest }.handleFrame enc frame } := by
  obtain ⟨hrest, hsound, htokens⟩ := h.unchain hc
  cases frame with
  | configure maxFrameBytes maxInFlight ackTimeoutMs => exact hrest.configure hsound maxInFlight ackTimeoutMs
  | eventAck id result =>
    have hsettle : Inv enc c { s with node := { s.node with
        inputChain := rest, pending := s.node.pending.filter (· ≠ id) } } := by
      refine hrest.forget (fun id' hin => (List.mem_filter.mp hin).1) fun hmade _ _ id' hpos hin => ?_
      refine List.mem_filter.mpr ⟨hin, decide_eq_true fun heq => ?_⟩
      have honce := (h.unique hmade).once id'
      rw [htokens id', heq, RustFrame.ack?, one, if_pos rfl, ← heq] at honce
      omega
    unfold Node.handleFrame Node.handleAck
    dsimp only
    repeat' split
    all_goals first | exact hsettle | exact hrest.exit 2
  | shutdown =>
    unfold Node.handleFrame
    dsimp only
    split
    · exact hrest.shutdown
    · exact hrest.exit 2
  | error code => exact hrest.exit 2

/-- A frame is read from the pipe. -/
theorem Inv.consume {frame : RustFrame} (hi : s.rust.stdin = frame :: rest) :
    Inv enc c { node := { s.node with inputChain := s.node.inputChain ++ [frame] }
                rust := { s.rust with stdin := rest } } ∧
      Inv enc c { s with rust := { s.rust with stdin := rest } } := by
  have hframes : ∀ f ∈ s.rust.writes ++ rest, f.Sound c ∧ enc.rust f ≤ c.maxFrameBytes := by
    intro f hf
    refine h.frames f ?_
    rw [hi]
    rcases List.mem_append.mp hf with hf | hf
    · exact List.mem_append_left _ hf
    · exact List.mem_append_right _ (List.mem_cons_of_mem _ hf)
  have hsound : frame.Sound c := (h.frames frame (by rw [hi]; simp)).1
  have htokens : ∀ id, tokens
      { node := { s.node with inputChain := s.node.inputChain ++ [frame] }, rust := { s.rust with stdin := rest } } id =
        s.tokens id := by
    intro id
    simp only [tokens, Session.held, hi, acks_cons, acks_snoc, Node.sent]
    omega
  have hread : s.rust.Passes enc c none False { s.rust with stdin := rest } := by
    refine ⟨fun id => ?_, fun _ => Nat.le_refl _, fun h => ⟨h.answers, h.active, h.balance⟩, fun _ => hframes, fun _ h => h⟩
    simp only [Session.held, hi, acks_cons]
    omega
  refine ⟨⟨⟨h.rust.answers, h.rust.active, h.rust.balance⟩, hframes, fun f hf => ?_, h.bytes, fun hmade => ?_⟩,
    h.passes_none hread⟩
  · rcases List.mem_append.mp hf with hf | hf
    · exact h.chain f hf
    · rw [List.mem_singleton.mp hf]
      exact hsound
  · have hu := h.unique hmade
    refine ⟨hu.sequence, fun id => ?_, hu.seenOnce, fun id hid => ?_, fun hex hsh id hpos => ?_, hu.late,
      fun id hpos => ?_⟩
    · rw [htokens]
      exact hu.once id
    · rw [htokens]
      exact hu.old id hid
    · exact hu.waits hex hsh id (by rwa [htokens] at hpos)
    · exact hu.configured id (by rwa [htokens] at hpos)

theorem Inv.nodeStep (input : Input) : Inv enc c (s.nodeStep enc input) := by
  unfold Link.nodeStep
  cases input with
  | sdkEvent payload =>
    dsimp only
    split
    next hconf => exact h.forwardEvent hconf payload
    · exact h
  | sdkState frame =>
    dsimp only
    split
    · exact h.moves (Node.moves_sendState _)
    · exact h
  | sdkStarted frame =>
    dsimp only
    split
    · exact h.started frame
    · exact h
  | sdkStartFailed =>
    dsimp only
    split
    · exact h.exit 2
    · exact h
  | sdkError fatal =>
    dsimp only
    split
    · have hm : s.node.Moves (s.node.sendState enc (failedState fatal)) := Node.moves_sendState _
      refine h.moves (hm.trans ?_)
      exact ⟨fun _ => rfl, rfl, rfl, rfl, rfl, rfl, rfl, fun he => he, Nat.le_refl _, fun h _ => h⟩
    · exact h
  | ackTimeout id =>
    dsimp only
    split
    next hin => exact h.ackTimeout hin
    · exact h
  | written =>
    refine h.moves (Node.Moves.trans ?_ Node.moves_pumpOutbound)
    exact ⟨fun _ => rfl, rfl, rfl, rfl, rfl, rfl, rfl, fun he => he, Nat.le_refl _, fun h _ => h⟩
  | consume =>
    dsimp only
    cases hi : s.rust.stdin with
    | nil => exact h
    | cons frame rest =>
      dsimp only
      split
      · exact (h.consume hi).2.exit 2
      · exact (h.consume hi).1
  | handle =>
    dsimp only
    cases hc : s.node.inputChain with
    | nil => exact h
    | cons frame rest =>
      dsimp only
      split
      · exact h
      · exact h.handle hc
  | finish =>
    dsimp only
    split
    · exact h.exit 0
    split
    · exact h.exit 1
    · exact h
  | inputEnd =>
    dsimp only
    split
    · have hgone := h.exit 0
      refine hgone.forget (fun _ hin => ?_) fun _ he => by cases he
      cases hin
    · exact h
  | _ => exact h

theorem Inv.step (input : Input) : Inv enc c (s.step enc c input) := by
  unfold Link.step
  refine Inv.rustStep ?_ input
  split
  · exact h
  · exact h.nodeStep input

end

theorem inv_start (enc : Encoding) (hc : c.Valid) : Inv enc c (start enc) := by
  have hempty : Inv enc c ⟨⟨hardMaxFrameBytes, hardMaxInFlight, false, false, false, false, false, 0, [], [], false, [],
      [], none, 0, []⟩, .new⟩ := by
    refine ⟨⟨fun _ => Nat.le_refl _, fun _ _ => rfl, fun _ _ _ => Nat.le_refl _⟩, nofun, nofun, hc.frame.2, fun _ => ?_⟩
    exact ⟨rfl, fun _ => Nat.zero_le _, fun _ => Nat.zero_le _, fun _ _ => ⟨rfl, rfl, nofun, nofun⟩,
      fun _ _ _ h => absurd h (Nat.lt_irrefl 0), nofun, fun _ h => absurd h (Nat.lt_irrefl 0)⟩
  unfold Link.start Node.start
  dsimp only
  cases hw : Node.writeFrame enc ⟨hardMaxFrameBytes, hardMaxInFlight, false, false, false, false, false, 0, [], [], false,
      [], [], none, 0, []⟩ .hello with
  | none => exact hempty
  | some n => exact hempty.moves (Node.moves_writeFrame hw rfl)

/-! ## Runs -/

theorem Inv.after (enc : Encoding) (hc : c.Valid) (inputs : List Input) : Inv enc c (after enc c inputs) :=
  exec_invariant' (fun _ input h => h.step input) (inv_start enc hc)

/-- The next frame that Node reads or handles. -/
def next (s : Link) (input : Input) : Option RustFrame :=
  match input with
  | .consume => s.rust.stdin.head?
  | .handle => if s.node.starting then none else s.node.inputChain.head?
  | _ => none

/-- A completed decision whose answer finds no room in the write queue, or in a frame. -/
def Refuses (enc : Encoding) (c : NodeSidecarConfig) (s : Link) (input : Input) : Prop :=
  match input with
  | .completed id result =>
    id ∈ s.rust.handlers ∧
      ({ s.rust with handlers := s.rust.handlers.erase id }.sendAck enc c id result.ack).isNone = true
  | _ => False

theorem nodeStep_session (s : Link) (input : Input) :
    (s.nodeStep enc input).rust = { s.rust with stdin := (s.nodeStep enc input).rust.stdin } := by
  unfold Link.nodeStep
  cases input <;> dsimp only <;> repeat' split
  all_goals rfl

theorem working_rustStep (h : s.rust.Working) (hr : ¬ Refuses enc c s input) :
    (s.rustStep enc c input).rust.Working := by
  have hpasses : ∀ {id r}, s.rust.Passes enc c id False r → r.Working := fun hp => hp.works not_false h
  unfold Link.rustStep
  cases input with
  | completed id result => exact (Session.completed_passes id result).works hr h
  | read =>
    dsimp only
    cases s.node.stdout with
    | nil => exact h
    | cons frame rest =>
      dsimp only
      split
      · exact h
      dsimp only
      split
      · exact hpasses (Session.lineError_passes none)
      · exact hpasses Session.line_passes
  | take => exact hpasses Session.take_passes
  | write => exact hpasses Session.write_passes
  | writerFails =>
    dsimp only
    split
    · exact hpasses Session.writerFails_passes
    · exact h
  | shutdown => exact hpasses Session.shutdown_passes
  | ends => exact hpasses (Session.lineError_passes none)
  | abort =>
    dsimp only
    split
    · exact hpasses (Session.abortTasks_passes none)
    · exact h
  | _ => exact h

/-- The worker ends with the session, or with a refused answer. -/
theorem working_step (h : s.rust.Working) (hr : ¬ Refuses enc c s input) :
    (s.step enc c input).rust.Working := by
  unfold Link.step
  split
  · exact working_rustStep h hr
  · refine working_rustStep ?_ fun hr' => hr ?_
    · rw [nodeStep_session]
      exact h
    · cases input with
      | completed id result => exact hr'
      | _ => cases hr'

/-! ## The answers of a run -/

/-- What every state says of the answers. -/
structure Answered (enc : Encoding) (c : NodeSidecarConfig) (s : Link) : Prop where
  once : ∀ id, s.rust.acked.count id ≤ s.rust.seen.count id
  distinct : s.node.made < maxSafeInteger → ∀ id, s.rust.acked.count id ≤ 1
  /-- An answer ends the process only when Node handles it after its own timeout. -/
  late : s.node.made < maxSafeInteger → s.node.exited = none → s.node.shuttingDown = false →
    ∀ input id result, s.next input = some (.eventAck id result) →
      ((s.step enc c input).node.exited ≠ none ↔ input = .handle ∧ id ∈ s.node.timedOut)

/-- What a session whose worker runs says of its events. -/
structure InWork (s : Session) : Prop where
  active : s.activeIds.Perm (s.queue ++ s.handlers)
  seen : s.phase.live = true → s.seen.Perm (s.acked ++ s.activeIds)

theorem Inv.inWork (h : s.Inv enc c) (hw : s.rust.worker = true) : InWork s.rust := by
  refine ⟨List.perm_iff_count.mpr fun id => ?_, fun hl => List.perm_iff_count.mpr fun id => ?_⟩
  · rw [List.count_append]
    exact h.rust.active hw id
  · have hle := h.rust.answers id
    have hge := h.rust.balance hw hl id
    have hactive := h.rust.active hw id
    rw [List.count_append]
    omega

theorem handleAck_exited (n : Node) (id : ℕ) {result : AckResult} (hs : (RustFrame.eventAck id result).Sound c)
    (he : n.exited = none) : (n.handleAck id result).exited ≠ none ↔ id ∉ n.pending := by
  have hbranch : (if id ∈ n.pending then { n with pending := n.pending.filter (· ≠ id) } else n.exit 2).exited ≠ none ↔
      id ∉ n.pending := by
    split
    next hin => simp [he, hin]
    next hin => simp [Node.exit, hin]
  unfold Node.handleAck
  cases result with
  | ok data => exact hbranch
  | error code =>
    dsimp only
    rw [if_neg (by rintro (hc | hc); exacts [hs.1 hc, absurd hs.2 (Nat.not_le_of_lt hc)])]
    exact hbranch

theorem Inv.answered (h : s.Inv enc c) : Answered enc c s where
  once id := by
    have := h.rust.answers id
    omega
  distinct hmade id := by
    have := h.rust.answers id
    have hs := (h.unique hmade).seenOnce id
    unfold forwarded at hs
    omega
  late hmade hex hsh input id result hnext := by
    have hu := h.unique hmade
    have hlive : s.node.exited.isSome = false := by rw [hex]; rfl
    cases input with
    | consume =>
      obtain ⟨rest, hi⟩ := List.head?_eq_some_iff.mp hnext
      have hsmall := (h.frames (.eventAck id result) (by rw [hi]; simp)).2
      have hbytes := h.bytes
      simp only [Link.step, hlive, Link.nodeStep, hi, Link.rustStep]
      rw [if_neg (by simp), if_neg (by omega)]
      simp [hex]
    | handle =>
      unfold Link.next at hnext
      dsimp only at hnext
      split at hnext
      · cases hnext
      next hstarting =>
      obtain ⟨rest, hc⟩ := List.head?_eq_some_iff.mp hnext
      have htoken : 0 < s.tokens id := by
        simp only [tokens, hc, acks_cons, RustFrame.ack?, one, if_pos]
        omega
      have hsound := h.chain (.eventAck id result) (by rw [hc]; exact List.mem_cons_self)
      have hpending : id ∉ s.node.pending ↔ id ∈ s.node.timedOut :=
        ⟨fun hn => (hu.waits hex hsh id htoken).resolve_left hn, hu.late id⟩
      have hack := handleAck_exited { s.node with inputChain := rest } id hsound hex
      simp only [Link.step, hlive, Link.nodeStep, hc, Link.rustStep, Node.handleFrame, true_and]
      rw [if_neg (by simp), if_neg hstarting]
      dsimp only
      rw [if_pos (hu.configured id htoken)]
      exact hack.trans hpending
    | _ => cases hnext

end Link

open Link

/-- **Every event is answered once.** For each configuration that `validate` accepts and every run: there are no more
answers to an id than event frames, and no second one until the ids of a process recur. An answer makes a process that
is not shutting down exit only after Node's own timeout of the event. As long as every completed decision finds room
for its answer, the active ids are the events queued or handled, and the events seen before a shutdown are the answered
ones and these. -/
theorem events_answered (enc : Encoding) {c : NodeSidecarConfig} (hc : c.Valid) (inputs : List Input) :
    Answered enc c (after enc c inputs) ∧
      (Along (step enc c) (fun s input => ¬ Refuses enc c s input) (start enc) inputs →
        (after enc c inputs).rust.phase ≠ .over → InWork (after enc c inputs).rust) := by
  refine ⟨(Inv.after enc hc inputs).answered, fun hfits hphase => ?_⟩
  have hworking : (after enc c inputs).rust.Working :=
    exec_invariant (I := fun s : Link => s.rust.Working) (fun s input h hr => working_step h hr) (Or.inl rfl) hfits
  exact (Inv.after enc hc inputs).inWork (hworking.resolve_right hphase)

/-! ## Late and refused answers -/

def sampleEncoding : Encoding := ⟨fun _ => 1, fun _ => 1, fun _ => 1⟩

def sampleConfig : NodeSidecarConfig := ⟨1024, 8, 1, 60000⟩

theorem sampleConfig_valid : sampleConfig.Valid := by
  constructor <;> decide

/-- The handshake up to the first connection. -/
def connects : List Input :=
  [.read, .write, .consume, .handle, .written, .sdkStarted ⟨true, "connected", none, none, false⟩, .read, .written, .read,
    .written]

/-- An event is handed to its handler. -/
def takesEvent : List Input := [.sdkEvent "message", .written, .read, .take]

/-- The answer reaches Node in time. -/
def answeredRun : List Input :=
  connects ++ takesEvent ++ [.completed 2 (.ok "null"), .write, .consume, .handle]

/-- Node's timer fires before the answer reaches it. -/
def lateRun : List Input :=
  connects ++ takesEvent ++ [.ackTimeout 2, .completed 2 .timeout, .write, .consume, .handle]

/-- Two decisions are completed before the writer writes. -/
def refusedRun : List Input :=
  connects ++ takesEvent ++ takesEvent ++ takesEvent ++ [.completed 2 (.ok "null"), .completed 3 (.ok "null")]

instance (enc : Encoding) (c : NodeSidecarConfig) (s : Link) : ∀ input, Decidable (Refuses enc c s input)
  | .completed id result =>
    inferInstanceAs (Decidable (id ∈ s.rust.handlers ∧
      ({ s.rust with handlers := s.rust.handlers.erase id }.sendAck enc c id result.ack).isNone = true))
  | .sdkEvent _ | .sdkState _ | .sdkStarted _ | .sdkStartFailed | .sdkError _ | .ackTimeout _ | .written | .consume
  | .handle | .finish | .inputEnd | .read | .take | .write | .writerFails | .shutdown | .ends | .abort => isFalse nofun

theorem events_answered_answeredRun :
    (after sampleEncoding sampleConfig answeredRun).rust.acked = [2] ∧
      InWork (after sampleEncoding sampleConfig answeredRun).rust :=
  ⟨by decide, (events_answered sampleEncoding sampleConfig_valid answeredRun).2 (by decide)
    (by decide)⟩

/-- A late answer ends a process that is not shutting down; and after a refused answer a session runs on that has
neither answered two of its events nor works on them. -/
theorem events_answered_fails :
    ((after sampleEncoding sampleConfig lateRun).node.exited = some 2 ∧
      (after sampleEncoding sampleConfig lateRun).node.shuttingDown = false) ∧
    ((after sampleEncoding sampleConfig refusedRun).rust.phase = .running ∧
      (after sampleEncoding sampleConfig refusedRun).rust.seen = [2, 3, 4] ∧
      (after sampleEncoding sampleConfig refusedRun).rust.acked = [2] ∧
      (after sampleEncoding sampleConfig refusedRun).rust.activeIds = [] ∧
      (after sampleEncoding sampleConfig refusedRun).rust.queue = [] ∧
      (after sampleEncoding sampleConfig refusedRun).rust.handlers = []) := by
  decide

end LarkCodexBridge.Channel.Events
