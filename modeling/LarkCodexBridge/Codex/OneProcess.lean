import LarkCodexBridge.Codex.Supervisor

/-!
# At most one app-server process

* `Clean`: every process was terminated, and no cleanup has failed; the factory is asked in clean states only;
* `Sound`: what every state of the task keeps (`sound_step`);
* `one_process`: the results for every run; `epochs_saturate`: the epoch counter stays at its end.
-/

namespace LarkCodexBridge.Codex

open Limits StepSystem

/-- The current process is not yet terminated. -/
def Point.owns : Point → Bool
  | .initializing _ | .closing _ | .running | .stoppingClient | .terminating _ => true
  | _ => false

/-- A cleanup has failed; the task can only end. -/
def Point.stuck : Point → Bool
  | .closingClient false | .cleanupFailed | .degraded (.error .cleanupFailed) | .ended (.error .cleanupFailed) => true
  | _ => false

/-- The current epoch is not yet given to a connection. -/
def Point.early : Point → Bool
  | .yielding | .spawning => true
  | _ => false

namespace Supervisor

variable {P : SupervisorParams} {s : Supervisor} {log : List SupervisorNote} {n : SupervisorNote} {epoch : ℕ}

/-! ## Logs -/

/-- No cleanup has failed. -/
def Confirmed (log : List SupervisorNote) : Prop := ∀ k, .terminated k false ∉ log ∧ .unconfirmed k ∉ log

/-- Every process was terminated, and no cleanup has failed. -/
structure Clean (log : List SupervisorNote) : Prop where
  confirmed : Confirmed log
  terminated : ∀ k, .process k ∈ log → .terminated k true ∈ log

/-- The factory was asked only after clean logs. -/
def AskedClean (log : List SupervisorNote) : Prop := ∀ before k later, log = before ++ .spawn k :: later → Clean before

/-- The epochs given to connections. -/
def connections (log : List SupervisorNote) : List ℕ := log.filterMap fun
  | .connection epoch => some epoch
  | _ => none

/-- The processes the factory gave. -/
def processes (log : List SupervisorNote) : List ℕ := log.filterMap fun
  | .process k => some k
  | _ => none

def isSpawn : SupervisorNote → Bool
  | .spawn _ => true
  | _ => false

theorem askedClean_append (h : AskedClean log) (hn : isSpawn n = true → Clean log) :
    AskedClean (log ++ [n]) := by
  intro before k later he
  rcases List.eq_nil_or_concat later with rfl | ⟨later', m, rfl⟩
  · obtain ⟨rfl, hk⟩ := List.append_inj' he rfl
    cases hk
    exact hn rfl
  · have he' : log ++ [n] = (before ++ .spawn k :: later') ++ [m] := by simpa using he
    exact h before k later' (List.append_inj' he' rfl).1

theorem clean_nil : Clean [] := ⟨fun _ => ⟨List.not_mem_nil, List.not_mem_nil⟩, fun _ h => absurd h List.not_mem_nil⟩

theorem Clean.spawn (h : Clean log) (k : ℕ) : Clean (log ++ [.spawn k]) := by
  refine ⟨fun j => ?_, fun j hj => ?_⟩
  · simpa using h.confirmed j
  · exact List.mem_append_left _ (h.terminated j (by simpa using hj))

/-! ## States -/

/-- What does not depend on where the task waits. -/
structure Base (P : SupervisorParams) (s : Supervisor) : Prop where
  asked : AskedClean s.log
  sorted : (connections s.log).Pairwise fun a b => a < b ∨ a = u64Max ∧ b = u64Max
  past : ∀ e ∈ connections s.log, e ≤ s.epoch
  bounded : s.epoch ≤ u64Max
  counted : s.log.countP isSpawn = s.spawns
  once : P.restartPolicy = .never → s.attempt = 0 ∧ s.spawns ≤ 1
  numbered : (processes s.log).Pairwise (· < ·)
  given : ∀ k ∈ processes s.log, k ≤ s.spawns

/-- A client is ready exactly while the task waits for its process. -/
structure SlotCurrent (s : Supervisor) : Prop where
  running : s.point = .running → ∃ profile version peer protocol,
    s.readySlot = some ⟨s.epoch, profile⟩ ∧ s.state = .ready s.epoch version peer protocol
  idle : s.point ≠ .running → s.readySlot = none

/-- What every state of the task keeps. -/
structure Sound (P : SupervisorParams) (s : Supervisor) : Prop where
  base : Base P s
  owned : s.point.stuck = true ∨ Confirmed s.log ∧
    ∀ k, .process k ∈ s.log → .terminated k true ∈ s.log ∨ k = s.spawns ∧ s.point.owns = true
  early : s.point.early = true → ∀ e ∈ connections s.log, e < s.epoch ∨ e = u64Max ∧ s.epoch = u64Max
  awaited : s.point = .spawning → ∀ k ∈ processes s.log, k < s.spawns
  slot : SlotCurrent s
  first : P.restartPolicy = .never → s.point = .created ∨ s.point = .backoff ∨ s.point = .yielding → s.spawns = 0

theorem Sound.clean (h : Sound P s) (hstuck : s.point.stuck = false) (howns : s.point.owns = false) : Clean s.log := by
  rcases h.owned with hs | ⟨hc, hp⟩
  · rw [hs] at hstuck; cases hstuck
  · exact ⟨hc, fun k hk => (hp k hk).resolve_right fun h => by rw [h.2] at howns; cases howns⟩

theorem nextEpoch_le (epoch : ℕ) : nextEpoch epoch ≤ u64Max := min_le_right _ _

theorem lt_nextEpoch {e : ℕ} (he : e ≤ epoch) (hmax : epoch ≤ u64Max) :
    e < nextEpoch epoch ∨ e = u64Max ∧ nextEpoch epoch = u64Max := by
  unfold nextEpoch
  omega

theorem le_nextEpoch (hmax : epoch ≤ u64Max) : epoch ≤ nextEpoch epoch := by
  unfold nextEpoch
  omega

section

variable (hb : Base P s)
include hb

/-- The point, the slot and what is published do not matter. -/
theorem Base.congr {s' : Supervisor} (hlog : s'.log = s.log) (hepoch : s'.epoch = s.epoch)
    (hattempt : s'.attempt = s.attempt) (hspawns : s'.spawns = s.spawns) : Base P s' := by
  constructor
  · rw [hlog]; exact hb.asked
  · rw [hlog]; exact hb.sorted
  · rw [hlog, hepoch]; exact hb.past
  · rw [hepoch]; exact hb.bounded
  · rw [hlog, hspawns]; exact hb.counted
  · rw [hattempt, hspawns]; exact hb.once
  · rw [hlog]; exact hb.numbered
  · rw [hlog, hspawns]; exact hb.given

theorem sound_finish (hc : Clean s.log) (outcome : Except SupervisorError Unit) :
    Sound P (s.finish outcome) :=
  ⟨hb.congr rfl rfl rfl rfl, Or.inr ⟨hc.confirmed, fun k hk => Or.inl (hc.terminated k hk)⟩,
    (nomatch ·), (nomatch ·), ⟨(nomatch ·), fun _ => rfl⟩, fun _ h => by rcases h with h | h | h <;> cases h⟩

theorem sound_finish_stuck : Sound P (s.finish (.error .cleanupFailed)) :=
  ⟨hb.congr rfl rfl rfl rfl, Or.inl rfl,
    (nomatch ·), (nomatch ·), ⟨(nomatch ·), fun _ => rfl⟩, fun _ h => by rcases h with h | h | h <;> cases h⟩

theorem sound_begin (hc : Clean s.log) (hslot : s.readySlot = none)
    (hfirst : P.restartPolicy = .never → s.spawns = 0) : Sound P s.begin := by
  unfold begin
  split
  · exact sound_finish hb hc _
  · exact ⟨⟨hb.asked, hb.sorted, fun e he => (hb.past e he).trans (le_nextEpoch hb.bounded), nextEpoch_le _, hb.counted,
      hb.once, hb.numbered, hb.given⟩, Or.inr ⟨hc.confirmed, fun k hk => Or.inl (hc.terminated k hk)⟩,
      fun _ e he => lt_nextEpoch (hb.past e he) hb.bounded, (nomatch ·), ⟨(nomatch ·), fun _ => hslot⟩,
      fun hn _ => hfirst hn⟩

theorem sound_loopTop (hc : Clean s.log) (hslot : s.readySlot = none)
    (hfirst : P.restartPolicy = .never → s.spawns = 0) : Sound P (s.loopTop P) := by
  unfold loopTop
  split
  · exact ⟨(hb.congr rfl rfl rfl rfl),
      Or.inr ⟨hc.confirmed, fun k hk => Or.inl (hc.terminated k hk)⟩, (nomatch ·), (nomatch ·), ⟨(nomatch ·), fun _ => hslot⟩,
      fun hn _ => hfirst hn⟩
  · exact sound_begin hb hc hslot hfirst

theorem sound_retry (hc : Clean s.log) (hslot : s.readySlot = none)
    (halways : P.restartPolicy = .always) : Sound P (s.retry P) := by
  have hnever : P.restartPolicy ≠ .never := by rw [halways]; exact nofun
  exact sound_loopTop ⟨hb.asked, hb.sorted, hb.past, hb.bounded, hb.counted, fun h => absurd h hnever,
    hb.numbered, hb.given⟩ hc hslot
    fun h => absurd h hnever

/-- A state that waits for the shutdown, or for a client to go down. -/
theorem sound_waiting (hslot : s.readySlot = none)
    (howned : s.point.stuck = true ∨ Confirmed s.log ∧
      ∀ k, .process k ∈ s.log → .terminated k true ∈ s.log ∨ k = s.spawns ∧ s.point.owns = true)
    (hpoint : s.point.early = false ∧ s.point ≠ .running ∧ s.point ≠ .created ∧ s.point ≠ .backoff ∧ s.point ≠ .yielding) :
    Sound P s := by
  obtain ⟨hearly, hrunning, hcreated, hbackoff, hyielding⟩ := hpoint
  refine ⟨hb, howned, fun h => ?_, fun h => ?_, ⟨fun h => absurd h hrunning, fun _ => hslot⟩, fun _ h => ?_⟩
  · rw [hearly] at h; cases h
  · rw [h] at hearly; cases hearly
  · rcases h with h | h | h
    · exact absurd h hcreated
    · exact absurd h hbackoff
    · exact absurd h hyielding

theorem sound_stopAfterStartFailure (hslot : s.readySlot = none) (permanent : Option String)
    {outcome : Except SupervisorError Unit}
    (hc : outcome = .error .cleanupFailed ∧ permanent.isSome ∨ outcome = .ok () ∧ Clean s.log) :
    Sound P (s.stopAfterStartFailure P permanent outcome) := by
  have hdegraded : ∀ reason, Sound P { s with state := .degraded reason, point := .degraded outcome } := by
    intro reason
    refine sound_waiting (hb.congr rfl rfl rfl rfl) hslot ?_
      ⟨rfl, nofun, nofun, nofun, nofun⟩
    rcases hc with ⟨rfl, -⟩ | ⟨-, hc⟩
    · exact Or.inl rfl
    · exact Or.inr ⟨hc.confirmed, fun k hk => Or.inl (hc.terminated k hk)⟩
  unfold stopAfterStartFailure
  split
  · exact hdegraded _
  · exact hdegraded _
  · next halways =>
    rcases hc with ⟨-, hsome⟩ | ⟨-, hc⟩
    · cases hsome
    · exact sound_retry hb hc hslot halways

theorem Base.note (hspawn : isSpawn n = false) (hconn : connections [n] = [])
    (hproc : ∀ k ∈ processes [n], k = s.spawns ∧ ∀ j ∈ processes s.log, j < s.spawns) :
    Base P { s with log := s.log ++ [n] } := by
  have hc : connections (s.log ++ [n]) = connections s.log := by
    rw [connections, List.filterMap_append]
    exact (congrArg _ hconn).trans (List.append_nil _)
  have hps : processes (s.log ++ [n]) = processes s.log ++ processes [n] := List.filterMap_append
  have hsingle : (processes [n]).Pairwise (· < ·) := by cases n <;> simp [processes]
  refine ⟨askedClean_append hb.asked fun h => ?_, hc ▸ hb.sorted, hc ▸ hb.past, hb.bounded, ?_, hb.once, ?_, ?_⟩
  · rw [hspawn] at h; cases h
  · simpa [List.countP_append, hspawn] using hb.counted
  · dsimp only
    rw [hps, List.pairwise_append]
    refine ⟨hb.numbered, hsingle, fun j hj k hk => ?_⟩
    obtain ⟨rfl, hlt⟩ := hproc k hk
    exact hlt j hj
  · dsimp only
    rw [hps]
    intro k hk
    rcases List.mem_append.1 hk with hk | hk
    · exact hb.given k hk
    · exact (hproc k hk).1.le

end

theorem sound_spawned {result : Except ProcessError AppServerProcess} (h : Sound P s) (hp : s.point = .spawning) :
    Sound P (s.spawned P result) := by
  have hclean : Clean s.log := h.clean (by rw [hp]; rfl) (by rw [hp]; rfl)
  have hslot : s.readySlot = none := h.slot.idle (by rw [hp]; exact nofun)
  cases result with
  | error error =>
    simp only [spawned]
    by_cases hu : error.cleanupUnconfirmed = true
    · have hb : Base P { s with log := s.log ++ [.unconfirmed s.spawns] } := h.base.note rfl rfl (by simp [processes])
      have hreason : (permanentProcessReason error).isSome := by
        cases error <;> first | rfl | cases hu
      rw [if_pos hu, startFailureOutcome, if_pos hu]
      split
      · exact sound_finish_stuck hb
      · exact sound_stopAfterStartFailure hb hslot _ (Or.inl ⟨rfl, hreason⟩)
    · rw [if_neg hu, startFailureOutcome, if_neg hu]
      split
      · exact sound_finish h.base hclean _
      · exact sound_stopAfterStartFailure h.base hslot _ (Or.inr ⟨rfl, hclean⟩)
  | ok process =>
    simp only [spawned]
    have hb : Base P { s with log := s.log ++ [.process s.spawns] } := by
      refine h.base.note rfl rfl fun k hk => ⟨?_, h.awaited hp⟩
      simpa [processes] using hk
    have howned : Confirmed (s.log ++ [.process s.spawns]) ∧ ∀ k, .process k ∈ s.log ++ [.process s.spawns] →
        .terminated k true ∈ s.log ++ [.process s.spawns] ∨ k = s.spawns ∧ true = true := by
      refine ⟨fun k => by simpa using hclean.confirmed k, fun k hk => ?_⟩
      rcases List.mem_append.1 hk with hk | hk
      · exact Or.inl (List.mem_append_left _ (hclean.terminated k hk))
      · rw [List.mem_singleton] at hk
        cases hk
        exact Or.inr ⟨rfl, rfl⟩
    have hterminating : ∀ cleanup, Sound P { s with log := s.log ++ [.process s.spawns], point := .terminating cleanup } :=
      fun _ => sound_waiting (hb.congr rfl rfl rfl rfl) hslot (Or.inr howned)
        ⟨rfl, nofun, nofun, nofun, nofun⟩
    split
    · exact hterminating _
    · unfold connect
      split
      · exact hterminating _
      · split
        · exact hterminating _
        · have hnew : connections (s.log ++ [.process s.spawns] ++ [.connection s.epoch]) = connections s.log ++ [s.epoch] := by
            simp [connections]
          have hsame : processes (s.log ++ [.process s.spawns] ++ [.connection s.epoch]) =
              processes (s.log ++ [.process s.spawns]) := by simp [processes]
          refine sound_waiting ⟨askedClean_append hb.asked nofun, ?_, ?_, hb.bounded, ?_, hb.once, hsame ▸ hb.numbered,
            hsame ▸ hb.given⟩ hslot (Or.inr ⟨?_, ?_⟩)
            ⟨rfl, nofun, nofun, nofun, nofun⟩
          · dsimp only
            rw [hnew, List.pairwise_append]
            refine ⟨h.base.sorted, List.pairwise_singleton _ _, fun a ha b hb' => ?_⟩
            rw [List.mem_singleton.1 hb']
            exact h.early (by rw [hp]; rfl) a ha
          · dsimp only
            rw [hnew]
            intro e he
            rcases List.mem_append.1 he with he | he
            · exact h.base.past e he
            · exact (List.mem_singleton.1 he).le
          · simpa [List.countP_append, isSpawn] using h.base.counted
          · exact fun k => by simpa using hclean.confirmed k
          · intro k hk
            rcases howned.2 k (by simpa using hk) with ht | ht
            · exact Or.inl (List.mem_append_left _ ht)
            · exact Or.inr ⟨ht.1, rfl⟩

theorem sound_terminated {cleanup : Cleanup} (h : Sound P s) (hp : s.point = .terminating cleanup) (ok : Bool) :
    Sound P (s.terminated P cleanup ok) := by
  have hslot : s.readySlot = none := h.slot.idle (by rw [hp]; exact nofun)
  have hb : Base P { s with log := s.log ++ [.terminated s.spawns ok] } :=
    h.base.note rfl rfl (by simp [processes])
  have hfailed : ∀ point, point.stuck = true → point.early = false ∧ point ≠ .running ∧ point ≠ .created ∧
      point ≠ .backoff ∧ point ≠ .yielding → Sound P { s with
        log := s.log ++ [.terminated s.spawns ok], state := .degraded cleanupFailedReason, point := point } :=
    fun point hstuck hpoint => sound_waiting (hb.congr rfl rfl rfl rfl) hslot
      (Or.inl hstuck) hpoint
  cases ok with
  | false => cases cleanup <;> exact hfailed _ rfl ⟨rfl, nofun, nofun, nofun, nofun⟩
  | true =>
    have hclean : Clean (s.log ++ [.terminated s.spawns true]) := by
      obtain ⟨hc, hproc⟩ := h.owned.resolve_left (by rw [hp]; exact nofun)
      refine ⟨fun k => by simpa using hc k, fun k hk => ?_⟩
      rcases hproc k (by simpa using hk) with ht | ht
      · exact List.mem_append_left _ ht
      · rw [ht.1]; exact List.mem_append_right _ (List.mem_singleton_self _)
    cases cleanup with
    | exited =>
      exact sound_waiting (hb.congr rfl rfl rfl rfl) hslot
        (Or.inr ⟨hclean.confirmed, fun k hk => Or.inl (hclean.terminated k hk)⟩) ⟨rfl, nofun, nofun, nofun, nofun⟩
    | startFailed permanent => exact sound_stopAfterStartFailure hb hslot permanent (Or.inr ⟨rfl, hclean⟩)
    | spawnCancelled | graceful => exact sound_finish hb hclean _

/-- One event keeps what every state keeps. -/
theorem sound_step (h : Sound P s) (e : SupervisorEvent) : Sound P (s.step P e) := by
  have hb := h.base
  have hfinish : ∀ outcome, s.point.owns = false → (s.point.stuck = true → outcome = .error .cleanupFailed) →
      Sound P (s.finish outcome) := by
    intro outcome howns hstuck
    cases hs : s.point.stuck with
    | true => rw [hstuck hs]; exact sound_finish_stuck hb
    | false => exact sound_finish hb (h.clean hs howns) _
  /- A step to another wait of the same epoch. -/
  have hmove : ∀ (s' : Supervisor) (point : Point), s' = { s with point := point, readySlot := none } →
      s.point.owns = true → point.owns = true → point ≠ .running → Sound P s' := by
    rintro s' point rfl howns howns' hrunning
    have howned : s.point.stuck = false := by cases hp : s.point <;> simp [hp, Point.owns] at howns <;> rfl
    have hrest := h.owned.resolve_left (by rw [howned]; exact nofun)
    refine sound_waiting (hb.congr rfl rfl rfl rfl) rfl
      (Or.inr ⟨hrest.1, fun k hk => (hrest.2 k hk).imp_right fun h => ⟨h.1, howns'⟩⟩) ?_
    cases point <;> simp_all [Point.owns, Point.early]
  unfold step
  split
  · exact ⟨hb.congr rfl rfl rfl rfl, h.owned, h.early, h.awaited,
      ⟨h.slot.running, h.slot.idle⟩, h.first⟩
  · next hp =>
    exact sound_loopTop hb (h.clean (by rw [hp]; rfl) (by rw [hp]; rfl)) (h.slot.idle (by rw [hp]; exact nofun))
      fun hn => h.first hn (Or.inl hp)
  · next hp =>
    have hc := h.clean (by rw [hp]; rfl) (by rw [hp]; rfl)
    split
    · exact sound_finish hb hc _
    · exact sound_begin hb hc (h.slot.idle (by rw [hp]; exact nofun)) fun hn => h.first hn (Or.inr (Or.inl hp))
  · next hp =>
    split
    · exact hfinish _ (by rw [hp]; rfl) fun hs => by rw [hp] at hs; cases hs
    · exact h
  · next hp =>
    have hc := h.clean (by rw [hp]; rfl) (by rw [hp]; rfl)
    have hconn : connections (s.log ++ [.spawn (s.spawns + 1)]) = connections s.log := by simp [connections]
    have hproc : processes (s.log ++ [.spawn (s.spawns + 1)]) = processes s.log := by simp [processes]
    have hgiven : ∀ k ∈ processes s.log, k < s.spawns + 1 := fun k hk => Nat.lt_succ_of_le (hb.given k hk)
    refine ⟨⟨askedClean_append hb.asked fun _ => hc, hconn ▸ hb.sorted, hconn ▸ hb.past, hb.bounded, ?_, fun hn => ?_,
        hproc ▸ hb.numbered, fun k hk => (hgiven k (hproc ▸ hk)).le⟩,
      Or.inr ⟨(hc.spawn _).confirmed, fun k hk => Or.inl ((hc.spawn _).terminated k hk)⟩,
      fun _ => hconn ▸ h.early (by rw [hp]; rfl), fun _ => hproc ▸ hgiven, ⟨(nomatch ·), fun _ => h.slot.idle (by rw [hp]; exact nofun)⟩,
      fun _ hpoint => by rcases hpoint with hpoint | hpoint | hpoint <;> cases hpoint⟩
    · simpa [List.countP_append, isSpawn] using hb.counted
    · have hzero := h.first hn (Or.inr (Or.inr hp))
      exact ⟨(hb.once hn).1, by dsimp only; omega⟩
  · next hp => exact sound_spawned h hp
  · next outcome hp =>
    split
    · refine hfinish _ (by rw [hp]; rfl) fun hs => ?_
      rw [hp] at hs
      cases outcome with
      | ok => cases hs
      | error error => cases error <;> first | rfl | cases hs
    · exact h
  · next process result hp =>
    cases result with
    | ok result =>
      have hrest := h.owned.resolve_left (by rw [hp]; exact nofun)
      exact ⟨⟨hb.asked, hb.sorted, hb.past, hb.bounded, hb.counted, fun hn => ⟨rfl, (hb.once hn).2⟩, hb.numbered, hb.given⟩,
        Or.inr ⟨hrest.1, fun k hk => (hrest.2 k hk).imp_right fun h => ⟨h.1, rfl⟩⟩, (nomatch ·), (nomatch ·),
        ⟨fun _ => ⟨_, _, _, _, rfl, rfl⟩, fun hr => absurd rfl hr⟩,
        fun _ hpoint => by rcases hpoint with hpoint | hpoint | hpoint <;> cases hpoint⟩
    | error error =>
      have hslot := h.slot.idle (by rw [hp]; exact nofun)
      exact hmove _ (.closing (permanentRpcReason error)) (by rw [← hslot]; rfl) (by rw [hp]; rfl) rfl nofun
  · next permanent hp =>
    have hslot := h.slot.idle (by rw [hp]; exact nofun)
    exact hmove _ (.terminating (.startFailed permanent)) (by rw [← hslot]) (by rw [hp]; rfl) rfl nofun
  · next hp =>
    unfold leaveRunning
    split
    · exact hmove _ .stoppingClient rfl (by rw [hp]; rfl) rfl nofun
    · exact hmove _ (.terminating .exited) rfl (by rw [hp]; rfl) rfl nofun
  · next hp =>
    split
    · next hc =>
      rw [leaveRunning, if_pos hc]
      exact hmove _ .stoppingClient rfl (by rw [hp]; rfl) rfl nofun
    · exact h
  · next hp =>
    have hslot := h.slot.idle (by rw [hp]; exact nofun)
    exact hmove _ (.terminating .graceful) (by rw [← hslot]) (by rw [hp]; rfl) rfl nofun
  · next cleanup ok hp => exact sound_terminated h hp ok
  · next ok hp =>
    have hslot := h.slot.idle (by rw [hp]; exact nofun)
    cases ok with
    | false =>
      exact sound_waiting (hb.congr rfl rfl rfl rfl) hslot (Or.inl rfl)
        ⟨rfl, nofun, nofun, nofun, nofun⟩
    | true =>
      have hc := h.clean (by rw [hp]; rfl) (by rw [hp]; rfl)
      unfold clientClosed
      dsimp only
      split
      · exact sound_finish hb hc _
      · next halways => exact sound_retry hb hc hslot halways
  · next hp =>
    split
    · exact hfinish _ (by rw [hp]; rfl) fun _ => rfl
    · exact h
  · exact h

/-! ## Every run -/

theorem sound_new : Sound P new := by
  refine ⟨⟨fun before k later h => ?_, List.Pairwise.nil, fun _ h => absurd h List.not_mem_nil, Nat.zero_le _, rfl,
    fun _ => ⟨rfl, Nat.zero_le _⟩, List.Pairwise.nil, fun _ h => absurd h List.not_mem_nil⟩,
    Or.inr ⟨clean_nil.confirmed, fun k hk => absurd hk List.not_mem_nil⟩, (nomatch ·), (nomatch ·),
    ⟨(nomatch ·), fun _ => rfl⟩, fun _ _ => rfl⟩
  exact absurd (congrArg List.length h) (by simp [new])

/-- At most one process, and the slot of its epoch. -/
structure OneProcess (P : SupervisorParams) (s : Supervisor) : Prop where
  /-- The factory is asked only when every process before was terminated, and no cleanup has failed. -/
  asked : AskedClean s.log
  /-- No two processes share their number. -/
  numbered : (processes s.log).Pairwise (· < ·)
  /-- The epochs of connections strictly increase, until the counter is at its end. -/
  epochs : (connections s.log).Pairwise fun a b => a < b ∨ a = u64Max ∧ b = u64Max
  /-- A client is ready exactly from the publication of its epoch until the task sees an exit or the shutdown. -/
  slot : SlotCurrent s
  once : P.restartPolicy = .never → s.log.countP isSpawn ≤ 1
  ended : ∀ outcome, s.point = .ended outcome →
    (∀ k, .process k ∈ s.log → .terminated k true ∈ s.log) ∨ outcome = .error .cleanupFailed

/-- **At most one process**, and never one after an unconfirmed cleanup, in every run of the task. -/
theorem one_process (P : SupervisorParams) (events : List SupervisorEvent) : OneProcess P (after P events) := by
  have h : Sound P (after P events) := exec_invariant' (I := Sound P) (fun _ e h => sound_step h e) sound_new
  refine ⟨h.base.asked, h.base.numbered, h.base.sorted, h.slot, fun hn => h.base.counted ▸ (h.base.once hn).2,
    fun outcome hp => ?_⟩
  cases hs : (after P events).point.stuck with
  | true =>
    rw [hp] at hs
    cases outcome with
    | ok => cases hs
    | error error => cases error <;> first | exact Or.inr rfl | cases hs
  | false => exact Or.inl (h.clean hs (by rw [hp]; rfl)).terminated

/-- An attempt whose process cannot be probed in time. -/
def failedAttempt : List SupervisorEvent := [.slept, .yielded, .spawned (.error .probeTimeout)]

/-- A process of the reviewed version, and its answer to `initialize`. -/
def plainProcess : AppServerProcess := ⟨"0.149.0", true, "codex-app-server", .ok ()⟩
def plainInitialize : InitializeResult := ⟨"profile", ⟨"codex", "unix", "linux"⟩⟩

/-- An attempt whose process gets ready and then exits. -/
def readyAttempt : List SupervisorEvent :=
  [.slept, .yielded, .spawned (.ok plainProcess), .initialized (.ok plainInitialize), .exited, .terminated true,
    .connectionDown]

section

variable (halways : P.restartPolicy = .always)
include halways

theorem failedAttempt_step (hp : s.point = .backoff) (hc : s.cancelled = false) :
    (exec (step P) s failedAttempt).point = .backoff ∧ (exec (step P) s failedAttempt).cancelled = false ∧
      (exec (step P) s failedAttempt).epoch = nextEpoch s.epoch ∧
      connections (exec (step P) s failedAttempt).log = connections s.log := by
  have hattempt : nextAttempt s.attempt > 0 := by unfold nextAttempt u32Max; omega
  simp [failedAttempt, step, hp, hc, begin, spawned, ProcessError.cleanupUnconfirmed, stopAfterStartFailure,
    permanentProcessReason, halways, retry, loopTop, hattempt, connections]

theorem readyAttempt_step (hp : s.point = .backoff) (hc : s.cancelled = false) :
    (exec (step P) s readyAttempt).point = .backoff ∧ (exec (step P) s readyAttempt).cancelled = false ∧
      (exec (step P) s readyAttempt).epoch = nextEpoch s.epoch ∧
      connections (exec (step P) s readyAttempt).log = connections s.log ++ [nextEpoch s.epoch] := by
  have hattempt : nextAttempt 0 > 0 := by unfold nextAttempt u32Max; omega
  simp [readyAttempt, step, hp, hc, begin, spawned, connect, plainProcess, plainInitialize, initialized,
    activateReadyEpoch, leaveRunning, terminated, clientClosed, halways, retry, loopTop, hattempt, connections]

theorem failedAttempts : ∀ (n : ℕ) (s : Supervisor), s.point = .backoff →
    s.cancelled = false → s.epoch ≤ u64Max →
      let s' := exec (step P) s (List.replicate n failedAttempt).flatten
      s'.point = .backoff ∧ s'.cancelled = false ∧ s'.epoch = min (s.epoch + n) u64Max ∧
        connections s'.log = connections s.log
  | 0, s, hp, hc, hmax => ⟨hp, hc, (Nat.min_eq_left hmax).symm, rfl⟩
  | n + 1, s, hp, hc, hmax => by
    obtain ⟨hp', hc', he', hl'⟩ := failedAttempt_step halways hp hc
    have ih := failedAttempts n _ hp' hc' (he' ▸ nextEpoch_le _)
    rw [List.replicate_succ, List.flatten_cons, exec_append]
    refine ⟨ih.1, ih.2.1, ?_, ih.2.2.2.trans hl'⟩
    rw [ih.2.2.1, he', nextEpoch]
    omega

end

/-- Two ready epochs behind as many failed attempts as the counter has room for. -/
def saturatedRun : List SupervisorEvent :=
  .started :: .yielded :: .spawned (.error .probeTimeout) :: ((List.replicate (u64Max - 1) failedAttempt).flatten ++
    (readyAttempt ++ readyAttempt))

/-- The counter of the epochs stays at its end: two connections get one epoch. -/
theorem epochs_saturate : connections (after ⟨.always, fun _ _ => 0⟩ saturatedRun).log = [u64Max, u64Max] := by
  rw [after, saturatedRun, exec_cons, exec_cons, exec_cons, exec_append, exec_append]
  generalize hs : step _ (step _ (step _ new .started) .yielded) (.spawned (.error .probeTimeout)) = s
  have hs' : s.point = .backoff ∧ s.cancelled = false ∧ s.epoch = 1 ∧ connections s.log = [] := by
    rw [← hs]
    exact ⟨rfl, rfl, rfl, rfl⟩
  obtain ⟨hp, hc, he, hl⟩ := failedAttempts (P := ⟨.always, fun _ _ => 0⟩) rfl (u64Max - 1) s hs'.1 hs'.2.1
    (by rw [hs'.2.2.1]; decide)
  obtain ⟨hp₁, hc₁, he₁, hl₁⟩ := readyAttempt_step (P := ⟨.always, fun _ _ => 0⟩) rfl hp hc
  obtain ⟨-, -, -, hl₂⟩ := readyAttempt_step (P := ⟨.always, fun _ _ => 0⟩) rfl hp₁ hc₁
  rw [hl₂, hl₁, hl, hs'.2.2.2, he₁, he, hs'.2.2.1]
  unfold nextEpoch u64Max
  rfl

end Supervisor

end LarkCodexBridge.Codex
