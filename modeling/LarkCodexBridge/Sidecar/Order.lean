import LarkCodexBridge.Sidecar.Steps

/-!
# The order of what Codex sent

* `Ordered`: in each lane, the frames made from frames of Codex come in the order Codex sent those (`ordered_step`);
* `upstream_order`: a frame keeps its place before a later one of its lane, and before what comes after it is written;
* `terminal_overtakes`: a terminal of the control lane overtakes the events that wait in the normal lane.
-/

namespace LarkCodexBridge.Sidecar

open StepSystem

namespace Session

variable {P : SidecarParams} {s s' : Session} {e : SidecarEvent}

/-- The upstream frames that the frames of a list were made from. -/
def origins (fs : List Outgoing) : List ℕ := fs.filterMap (·.origin)

theorem origins_filter (fs : List Outgoing) : origins (fs.filter (·.origin.isSome)) = origins fs := by
  unfold origins
  rw [List.filterMap_filter]
  exact List.filterMap_congr fun f _ => by cases f.origin <;> simp

/-- Each lane has the frames of Codex in order. -/
structure Ordered (s : Session) : Prop where
  lanes : s.toLocal.InLanes
  sorted : ∀ lane, (origins (s.toLocal.laneOrder lane)).Pairwise (· < ·)
  old : ∀ f ∈ s.toLocal.held, ∀ i, f.origin = some i → i < s.received.length

theorem ordered_new : Ordered new := by
  refine ⟨WriteQueue.inLanes_empty, fun lane => ?_, fun f hf => ?_⟩
  · cases lane <;> exact List.Pairwise.nil
  · simp [new, WriteQueue.held, WriteQueue.empty] at hf

theorem mem_laneOrder_iff {q : WriteQueue Outgoing} (h : q.InLanes) {f : Outgoing} :
    f ∈ q.laneOrder f.lane ↔ f ∈ q.held := by
  have hc : f ∈ q.control → f.lane = .control := h.control f
  have hn : f ∈ q.normal → f.lane = .normal := h.normal f
  unfold WriteQueue.laneOrder WriteQueue.held
  simp only [List.mem_append, List.mem_filter, decide_eq_true_eq, Queued.lane]
  cases hl : f.lane <;> simp only [hl] at hc hn ⊢ <;> grind

namespace Ordered

/-- Nothing new from Codex. -/
theorem same (h : Ordered s) (hlanes : s'.toLocal.InLanes)
    (horder : ∀ lane, origins (s'.toLocal.laneOrder lane) = origins (s.toLocal.laneOrder lane))
    (hheld : ∀ f ∈ s'.toLocal.held, f ∈ s.toLocal.held ∨ f.origin = none)
    (hreceived : s.received.length ≤ s'.received.length) : Ordered s' := by
  refine ⟨hlanes, fun lane => horder lane ▸ h.sorted lane, fun f hf i hi => ?_⟩
  rcases hheld f hf with hf | hf
  · exact (h.old f hf i hi).trans_le hreceived
  · rw [hf] at hi; cases hi

/-- A frame of the sidecar itself. -/
theorem enqueue {toLocal : WriteQueue Outgoing} {f : Outgoing} (h : Ordered s) (hf : f.origin = none)
    (hq : s.toLocal.enqueue P.queue f = .ok toLocal) (hs' : s'.toLocal = toLocal) (hreceived : s'.received = s.received) :
    Ordered s' := by
  refine h.same (hs' ▸ h.lanes.enqueue _ hq) (fun lane => ?_) (fun g hg => ?_) (by rw [hreceived])
  · rw [hs', ← origins_filter, WriteQueue.laneOrder_enqueue P.queue h.lanes (by rw [hf]; rfl) hq, origins_filter]
  · rw [hs'] at hg
    rcases List.mem_cons.1 ((WriteQueue.perm_enqueue _ hq).mem_iff.1 hg) with rfl | hg
    · exact Or.inr hf
    · exact Or.inl hg

/-- The frame made from the upstream frame that has just come. -/
theorem relay {toLocal : WriteQueue Outgoing} {f : Outgoing} (h : Ordered s) (hf : f.origin = some s.received.length)
    (hq : s.toLocal.enqueueWithBackpressure P.queue f = .ok toLocal) (hs' : s'.toLocal = toLocal)
    (hreceived : s'.received.length = s.received.length + 1) : Ordered s' := by
  refine ⟨hs' ▸ h.lanes.enqueueWithBackpressure _ hq, fun lane => ?_, fun g hg i hi => ?_⟩
  · have hold : ∀ i ∈ origins (s.toLocal.laneOrder lane), i < s.received.length := by
      intro i hi
      obtain ⟨g, hg, hi⟩ := List.mem_filterMap.1 hi
      refine h.old g ?_ i hi
      unfold WriteQueue.laneOrder at hg
      unfold WriteQueue.held
      cases lane <;> grind
    rw [hs', WriteQueue.laneOrder_enqueueWithBackpressure P.queue h.lanes hq, origins, List.filterMap_append,
      List.pairwise_append]
    refine ⟨h.sorted lane, ?_, fun i hi j hj => ?_⟩
    · by_cases hl : f.lane = lane <;> simp [Queued.lane, hl, hf]
    · obtain ⟨g, hg, hj⟩ := List.mem_filterMap.1 hj
      rw [List.mem_singleton.1 (List.mem_filter.1 hg).1, hf] at hj
      cases hj
      exact hold i hi
  · rw [hs'] at hg
    rcases List.mem_cons.1 ((WriteQueue.perm_enqueueWithBackpressure _ hq).2.mem_iff.1 hg) with rfl | hg
    · rw [hf] at hi
      cases hi
      omega
    · exact (h.old g hg i hi).trans (by omega)

end Ordered

theorem ordered_step (h : Ordered s) (he : Effect P s e s') : Ordered s' := by
  have hsame : ∀ {s' : Session}, s'.toLocal = s.toLocal → s.received.length ≤ s'.received.length → Ordered s' :=
    fun hl hr => h.same (hl ▸ h.lanes) (fun lane => by rw [hl]) (fun f hf => Or.inl (hl ▸ hf)) hr
  cases he with
  | idle => exact h
  | localWritten =>
    exact h.same (h.lanes.complete P.queue) (fun lane => congrArg origins (WriteQueue.laneOrder_complete P.queue h.lanes lane))
      (fun f hf => Or.inl ((WriteQueue.perm_complete P.queue _).mem_iff.1 hf)) le_rfl
  | upstreamWritten | resumed | timed | forwarded | noted | answered | forgiven | expired => exact hsame rfl le_rfl
  | refused _ _ hq | closes _ hq => exact h.enqueue rfl hq rfl rfl
  | completed _ _ hq => exact h.relay rfl hq rfl (by simp [retireRequest, receive])
  | @notified method params _ s₁ _ hr hq =>
    have hs₁ : s₁.toLocal = s.toLocal ∧ s₁.received.length = s.received.length + 1 := by
      rcases hr with ⟨rfl, -⟩ | ⟨key, localId, -, -, hr⟩
      · exact ⟨rfl, by simp [receive]⟩
      · rcases resolve_cases hr with ⟨-, rfl⟩ | ⟨-, k, pending, -, -, -, rfl⟩ <;>
          exact ⟨rfl, by simp [receive, retireServer]⟩
    rcases relayNotification_cases hq with rfl | ⟨_, _, _, hadmitted, rfl⟩
    · exact hsame hs₁.1 (by omega)
    · rw [hs₁.1] at hadmitted
      exact h.relay rfl hadmitted rfl hs₁.2
  | refusedServer => exact hsame rfl (by simp [receive])
  | asked _ _ _ hq => exact h.relay rfl hq rfl (by simp [receive])

theorem after_ordered (P : SidecarParams) (events : List SidecarEvent) : Ordered (after P events) :=
  exec_invariant' (step_keeps (fun _ _ h => ⟨h.lanes, h.sorted, h.old⟩) fun _ _ _ => ordered_step) ordered_new

theorem written_step (he : Effect P s e s') : s.toLocal.written <+: s'.toLocal.written := by
  cases he with
  | localWritten => exact WriteQueue.written_complete _ _
  | refused _ _ hq | closes _ hq => exact WriteQueue.written_enqueue _ hq
  | completed _ _ hq | asked _ _ _ hq => exact WriteQueue.written_enqueueWithBackpressure _ hq
  | @notified method params _ s₁ _ hr hq =>
    have hs₁ : s₁.toLocal = s.toLocal := by
      rcases hr with ⟨rfl, -⟩ | ⟨key, localId, -, -, hr⟩
      · rfl
      · rcases resolve_cases hr with ⟨-, rfl⟩ | ⟨-, k, pending, -, -, -, rfl⟩ <;> rfl
    rcases relayNotification_cases hq with rfl | ⟨_, _, _, hadmitted, rfl⟩
    · exact hs₁ ▸ List.prefix_rfl
    · rw [hs₁] at hadmitted
      exact WriteQueue.written_enqueueWithBackpressure _ hadmitted
  | _ => exact List.prefix_rfl

theorem after_written (P : SidecarParams) (pre post : List SidecarEvent) :
    (after P pre).toLocal.written <+: (after P (pre ++ post)).toLocal.written := by
  rw [after, after, exec_append]
  exact exec_invariant' (I := fun s : Session => (exec (step P) new pre).toLocal.written <+: s.toLocal.written)
    (step_keeps (I := fun s : Session => (exec (step P) new pre).toLocal.written <+: s.toLocal.written) (fun _ _ h => h)
      fun _ _ _ h he => h.trans (written_step he)) List.prefix_rfl

/-! ## Two frames -/

theorem sublist_or_sublist {α : Type*} {a b : α} (hne : a ≠ b) : ∀ {l : List α}, a ∈ l → b ∈ l →
    [a, b].Sublist l ∨ [b, a].Sublist l
  | c :: l, ha, hb => by
    rcases List.mem_cons.1 ha with rfl | ha
    · have hb : b ∈ l := (List.mem_cons.1 hb).resolve_left fun h => hne h.symm
      exact Or.inl ((List.singleton_sublist.2 hb).cons_cons a)
    · rcases List.mem_cons.1 hb with rfl | hb
      · exact Or.inr ((List.singleton_sublist.2 ‹a ∈ l›).cons_cons b)
      · exact (sublist_or_sublist hne ‹a ∈ l› hb).imp (List.Sublist.cons c) (List.Sublist.cons c)

/-- Frames with ordered origins stand in their order. -/
theorem sublist_of_origins {fs : List Outgoing} {f g : Outgoing} {i j : ℕ} (h : (origins fs).Pairwise (· < ·))
    (hf : f ∈ fs) (hg : g ∈ fs) (hi : f.origin = some i) (hj : g.origin = some j) (hij : i < j) : [f, g].Sublist fs := by
  have hne : f ≠ g := fun he => by
    rw [he, hj] at hi
    cases hi
    exact hij.false
  refine (sublist_or_sublist hne hf hg).resolve_right fun hgf => ?_
  have hji : [j, i].Sublist (origins fs) := by simpa [origins, hi, hj] using hgf.filterMap (·.origin)
  have hlt : j < i := by simpa using h.sublist hji
  omega

/-- **What the lanes keep of the order of Codex.** Frame `g` was made from a later upstream frame than `f` and is
written. Then `f` is written before it if both are of one lane, or if `f` was written before the upstream frame of `g`
came. -/
theorem upstream_order (P : SidecarParams) (pre post : List SidecarEvent) {f g : Outgoing} {i j : ℕ}
    (hi : f.origin = some i) (hj : g.origin = some j) (hij : i < j)
    (hf : f ∈ (after P (pre ++ post)).toLocal.held) (hg : g ∈ (after P (pre ++ post)).toLocal.written)
    (h : f.lane = g.lane ∨ f ∈ (after P pre).toLocal.written ∧ (after P pre).received.length ≤ j) :
    [f, g].Sublist (after P (pre ++ post)).toLocal.written := by
  have hord := after_ordered P (pre ++ post)
  rcases h with hlane | ⟨hfw, hlate⟩
  · have hfl := (mem_laneOrder_iff hord.lanes).2 hf
    have hgl : g ∈ (after P (pre ++ post)).toLocal.written.filter (Queued.lane · = f.lane) :=
      List.mem_filter.2 ⟨hg, by simpa [Queued.lane] using hlane.symm⟩
    have hsorted := hord.sorted f.lane
    have hrest := List.mem_append.1 hfl
    unfold WriteQueue.laneOrder at hsorted
    rw [origins, List.filterMap_append, List.pairwise_append] at hsorted
    have hfw : f ∈ (after P (pre ++ post)).toLocal.written.filter (Queued.lane · = f.lane) := by
      refine hrest.resolve_right fun hfr => ?_
      have hji := hsorted.2.2 j (List.mem_filterMap.2 ⟨g, hgl, hj⟩) i (List.mem_filterMap.2 ⟨f, hfr, hi⟩)
      omega
    exact (sublist_of_origins hsorted.1 hfw hgl hi hj hij).trans List.filter_sublist
  · obtain ⟨later, hl⟩ := after_written P pre post
    have hgl : g ∈ later := by
      rw [← hl] at hg
      refine (List.mem_append.1 hg).resolve_left fun hgw => ?_
      have hold := (after_ordered P pre).old g (List.mem_append_left _ hgw) j hj
      omega
    rw [← hl]
    exact (List.singleton_sublist.2 hfw).append (List.singleton_sublist.2 hgl)

/-- Item 1 starts and completes, and the turn completes, all while the output is busy. -/
def overtakingRun : List SidecarEvent :=
  [.fromUpstream (.notification "item/started" (some "turn 1")), .resume,
    .fromUpstream (.notification "item/completed" (some "turn 1")), .resume,
    .fromUpstream (.notification "turn/completed" (some "turn 1")), .resume, .localWritten, .localWritten]

theorem upstream_order_started : ∃ f g : Outgoing, f.origin = some 0 ∧ g.origin = some 2 ∧
    [f, g].Sublist (after plainSidecar overtakingRun).toLocal.written :=
  ⟨⟨.notification "item/started" (some "turn 1"), .normal, 256, .notification, some 0⟩,
    ⟨.notification "turn/completed" (some "turn 1"), .control, 256, .notification, some 2⟩, rfl, rfl,
    upstream_order plainSidecar (overtakingRun.take 4) (overtakingRun.drop 4) rfl rfl (by decide) (by decide) (by decide)
      (Or.inr (by decide))⟩

/-- The terminal of a turn overtakes the completion of its item. -/
theorem terminal_overtakes :
    (after plainSidecar overtakingRun).ended = none ∧
    (after plainSidecar overtakingRun).received = [.notification "item/started" (some "turn 1"),
      .notification "item/completed" (some "turn 1"), .notification "turn/completed" (some "turn 1")] ∧
    (after plainSidecar overtakingRun).toLocal.written.map (fun f => (f.frame, f.origin)) =
      [(.notification "item/started" (some "turn 1"), some 0), (.notification "turn/completed" (some "turn 1"), some 2),
        (.notification "item/completed" (some "turn 1"), some 1)] :=
  ⟨rfl, rfl, rfl⟩

end Session

end LarkCodexBridge.Sidecar
