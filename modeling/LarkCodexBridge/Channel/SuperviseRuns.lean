import LarkCodexBridge.Channel.Supervise
import LarkCodexBridge.Lib.Chronicle

/-!
# Runs of the channel supervisor

* `ConnectedFor`: a session was connected without interruption; `Reported` connects the health flag with it;
* `Fair`: what an entry of the log says about the entries before it;
* `Inv`: the invariant of runs, with one lemma per function of the model;
* `one_process_honest_backoff`: the run theorem.

A step is `Clean` unless a frame error ends a session that is healthy by now, or a fatal failure of the provider comes
before the response to the configuration of a restarted process.
-/

namespace LarkCodexBridge.Channel.Supervise

open StepSystem Chronicle Supervisor

/-! ## Connected without interruption -/

/-- The session is connected, and has been at least since `a`. -/
def Since (history : List (ℕ × Bool)) (a : ℕ) : Prop :=
  ∃ pre mid, history = pre ++ (a, true) :: mid ∧ ∀ e ∈ mid, e.2 = true

/-- Somewhere the session was connected for `d` without interruption. -/
def ConnectedFor (history : List (ℕ × Bool)) (d : ℕ) : Prop :=
  ∃ pre a mid b x post, history = pre ++ (a, true) :: mid ++ (b, x) :: post ∧ (∀ e ∈ mid, e.2 = true) ∧ a + d ≤ b

section Sessions

variable {history : List (ℕ × Bool)} {a t d : ℕ} {x : Bool}

theorem since_snoc : Since (history ++ [(t, x)]) a ↔ x = true ∧ (Since history a ∨ a = t) := by
  constructor
  · rintro ⟨pre, mid, heq, hmid⟩
    rcases List.eq_nil_or_concat mid with rfl | ⟨mid, e, rfl⟩
    · obtain ⟨-, hlast⟩ := List.append_inj' heq rfl
      simp only [List.cons.injEq, Prod.mk.injEq, and_true] at hlast
      exact ⟨hlast.2, Or.inr hlast.1.symm⟩
    · rw [List.concat_eq_append, ← List.cons_append, ← List.append_assoc] at heq
      obtain ⟨hinit, hlast⟩ := List.append_inj' heq rfl
      have hx := hmid e (by simp)
      rw [List.concat_eq_append] at hmid
      cases hlast
      exact ⟨hx, Or.inl ⟨pre, mid, hinit, fun e he => hmid e (List.mem_append_left _ he)⟩⟩
  · rintro ⟨rfl, ⟨pre, mid, rfl, hmid⟩ | rfl⟩
    · refine ⟨pre, mid ++ [(t, true)], by simp, fun e he => ?_⟩
      rcases List.mem_append.mp he with he | he
      · exact hmid e he
      · rw [List.mem_singleton.mp he]
    · exact ⟨history, [], rfl, by simp⟩

theorem connectedFor_snoc :
    ConnectedFor (history ++ [(t, x)]) d ↔ ConnectedFor history d ∨ ∃ a, Since history a ∧ a + d ≤ t := by
  constructor
  · rintro ⟨pre, a, mid, b, y, post, heq, hmid, hd⟩
    rcases List.eq_nil_or_concat post with rfl | ⟨post, e, rfl⟩
    · obtain ⟨hinit, hlast⟩ := List.append_inj' heq rfl
      cases hlast
      exact Or.inr ⟨a, ⟨pre, mid, hinit, hmid⟩, hd⟩
    · rw [List.concat_eq_append, ← List.cons_append, ← List.append_assoc] at heq
      exact Or.inl ⟨pre, a, mid, b, y, post, (List.append_inj' heq rfl).1, hmid, hd⟩
  · rintro (⟨pre, a, mid, b, y, post, rfl, hmid, hd⟩ | ⟨a, ⟨pre, mid, rfl, hmid⟩, hd⟩)
    · exact ⟨pre, a, mid, b, y, post ++ [(t, x)], by simp, hmid, hd⟩
    · exact ⟨pre, a, mid, t, x, [], rfl, hmid, hd⟩

/-- At the end of a session the flag says whether it was connected long enough. -/
def Reported (d : ℕ) (s : Session) (time : ℕ) : Prop :=
  s.wasHealthy = true ↔ ConnectedFor (s.history ++ [(time, false)]) d

/-- What the two variables of a running session say about its history. -/
structure Session.Ok (d : ℕ) (s : Session) (clock : ℕ) : Prop where
  past : ∀ a, Since s.history a → a ≤ clock
  since : ∀ a, s.connectedSince = some a → Since s.history a ∧ ∀ a', Since s.history a' → a ≤ a'
  apart : s.connectedSince = none → ∀ a, ¬ Since s.history a
  healthy : s.wasHealthy = true → ConnectedFor s.history d
  unhealthy : ConnectedFor s.history d → s.wasHealthy = true ∨ ∃ a, s.connectedSince = some a ∧ a + d ≤ clock

namespace Session.Ok

variable {s : Session} {clock : ℕ}

theorem new (d now : ℕ) : (Session.new now).Ok d now where
  past a h := by
    obtain ⟨-, ⟨pre, mid, h, -⟩ | rfl⟩ := since_snoc.mp (show Since ([] ++ [(now, true)]) _ from h)
    · simp at h
    · exact Nat.le_refl _
  since a h := by
    cases h
    refine ⟨⟨[], [], rfl, by simp⟩, fun a' h => ?_⟩
    obtain ⟨-, ⟨pre, mid, h, -⟩ | rfl⟩ := since_snoc.mp (show Since ([] ++ [(now, true)]) _ from h)
    · simp at h
    · exact Nat.le_refl _
  apart h := by cases h
  healthy h := by cases h
  unhealthy h := by
    rcases connectedFor_snoc.mp (show ConnectedFor ([] ++ [(now, true)]) d from h) with ⟨pre, a, mid, b, x, post, h, -⟩ | ⟨a, ⟨pre, mid, h, -⟩, -⟩
    · simp at h
    · simp at h

section

variable (h : s.Ok d clock)
include h

theorem pass (time : ℕ) : s.Ok d (clock + time) where
  past a ha := Nat.le_trans (h.past a ha) (Nat.le_add_right ..)
  since := h.since
  apart := h.apart
  healthy := h.healthy
  unhealthy hc := (h.unhealthy hc).imp_right fun ⟨a, ha, hd⟩ => ⟨a, ha, by omega⟩

theorem update_wasHealthy (y : Bool) :
    (s.update clock d).wasHealthy = true ↔ ConnectedFor (s.history ++ [(clock, y)]) d := by
  simp only [Session.update, Bool.or_eq_true, connectedFor_snoc]
  constructor
  · rintro (hw | hw)
    · exact Or.inl (h.healthy hw)
    · cases hs : s.connectedSince with
      | none => simp [hs] at hw
      | some a =>
        simp only [hs, Option.any_some, decide_eq_true_eq] at hw
        have ha := (h.since a hs).1
        have := h.past a ha
        exact Or.inr ⟨a, ha, by omega⟩
  · have hlong : ∀ a, s.connectedSince = some a → a + d ≤ clock →
        (s.connectedSince.any fun since => decide (d ≤ clock - since)) = true := by
      intro a ha hd
      simp only [ha, Option.any_some, decide_eq_true_eq]
      omega
    rintro (hc | ⟨a', ha', hd⟩)
    · exact (h.unhealthy hc).imp_right fun ⟨a, ha, hd⟩ => hlong a ha hd
    · cases hs : s.connectedSince with
      | none => exact absurd ha' (h.apart hs a')
      | some a =>
        have := (h.since a hs).2 a' ha'
        exact Or.inr (hs ▸ hlong a hs (by omega))

theorem update_reported : Reported d (s.update clock d) clock :=
  h.update_wasHealthy false

theorem connect : (s.connect clock).Ok d clock where
  past a ha := by
    obtain ⟨-, ha | rfl⟩ := since_snoc.mp ha
    · exact h.past a ha
    · exact Nat.le_refl _
  since a ha := by
    simp only [Session.connect, Option.some.injEq, since_snoc, true_and] at ha ⊢
    cases hs : s.connectedSince with
    | none =>
      simp only [hs, Option.getD_none] at ha
      refine ⟨Or.inr ha.symm, fun a' ha' => ?_⟩
      exact ha'.elim (fun ha' => absurd ha' (h.apart hs a')) fun ha' => by omega
    | some b =>
      simp only [hs, Option.getD_some] at ha
      subst ha
      refine ⟨Or.inl (h.since b hs).1, fun a' ha' => ?_⟩
      exact ha'.elim (fun ha' => (h.since b hs).2 a' ha') fun ha' => ha' ▸ h.past b (h.since b hs).1
  apart ha := by cases ha
  healthy hw := connectedFor_snoc.mpr (Or.inl (h.healthy hw))
  unhealthy hc := by
    have hw := (h.update_wasHealthy true).mpr hc
    simp only [Session.update, Bool.or_eq_true] at hw
    refine hw.imp_right fun hw => ?_
    cases hs : s.connectedSince with
    | none => simp [hs] at hw
    | some a =>
      simp only [hs, Option.any_some, decide_eq_true_eq] at hw
      have := h.past a (h.since a hs).1
      exact ⟨a, by simp [Session.connect, hs], by omega⟩

theorem disconnect : (s.disconnect clock d).Ok d clock where
  past a ha := by simp [Session.disconnect, since_snoc] at ha
  since a ha := by cases ha
  apart _ a ha := by simp [Session.disconnect, since_snoc] at ha
  healthy hw := (h.update_wasHealthy false).mp hw
  unhealthy hc := Or.inl ((h.update_wasHealthy false).mpr hc)

theorem disconnect_reported : Reported d (s.disconnect clock d) clock := by
  have hr := h.disconnect.update_reported
  have hsame : (s.disconnect clock d).update clock d = s.disconnect clock d := by
    simp [Session.disconnect, Session.update]
  rwa [hsame] at hr

end

end Session.Ok

end Sessions

/-! ## The log -/

def Note.process : Note → Option ℕ
  | .spawned n | .killed n | .lost n | .reaped n _ => some n
  | .fatal | .startFailed .. | .ended .. => none

/-- Nothing that forbids a restart. -/
structure Quiet (log : List Note) : Prop where
  reaped : ∀ k, .reaped k false ∉ log
  starts : ∀ first error unconfirmed, .startFailed first error unconfirmed ∈ log →
    first = false ∧ unconfirmed = false ∧ error ≠ .permanentAuth

/-- What a note says about the notes before it. -/
def Fair (P : SupervisorParams) (before : List Note) : Note → Prop
  | .spawned n =>
    (∀ note ∈ before, note.process ≠ some n) ∧ (∀ k, .spawned k ∈ before → .reaped k true ∈ before) ∧
      Quiet before ∧ .fatal ∉ before
  | .killed n => .killed n ∉ before ∧ .lost n ∉ before
  | .ended history time failures next =>
    (ConnectedFor (history ++ [(time, false)]) P.healthyUptime → next = nextFailure 0) ∧
      (¬ ConnectedFor (history ++ [(time, false)]) P.healthyUptime → next = nextFailure failures)
  | .lost _ | .reaped .. | .fatal | .startFailed .. => True

/-- Every process but the owned one is reaped, and nothing forbids a restart. -/
structure Going (log : List Note) (child : Option OwnedChildGroup) : Prop where
  reaped : ∀ k, .spawned k ∈ log → .reaped k true ∈ log ∨ ∃ c, child = some c ∧ c.number = k
  quiet : Quiet log

/-- What the log, the numbers and the flags of the owned process say. -/
structure Held (P : SupervisorParams) (s : Supervisor) : Prop where
  justified : Justified (Fair P) s.log
  numbered : ∀ note ∈ s.log, ∀ n, note.process = some n → n < s.spawns
  owner : ∀ c, s.child = some c → c.number < s.spawns ∧
    (c.groupSignalAuthorized = true → .killed c.number ∉ s.log ∧ .lost c.number ∉ s.log)

/-- What follows a cleanup fits the log. -/
def After.Ok (P : SupervisorParams) (s : Supervisor) : After → Prop
  | .start error => .fatal ∈ s.log → error = .permanentAuth ∨ s.ready = true
  | .crashed session time => .fatal ∉ s.log ∧ Reported P.healthyUptime session time
  | .terminal => s.published.final = true
  | .graceful => True

def PhaseOk (P : SupervisorParams) (s : Supervisor) : Phase → Prop
  | .top | .backoff => s.child = none ∧ Going s.log none ∧ .fatal ∉ s.log
  | .hello | .configure | .connect | .draining | .leaving => Going s.log s.child ∧ .fatal ∉ s.log
  | .running session => Going s.log s.child ∧ .fatal ∉ s.log ∧ session.Ok P.healthyUptime s.clock
  | .closing next | .reaping next => Going s.log s.child ∧ next.Ok P s
  | .returned => s.published.final = true
  | .aborted => True

/-- **The invariant of runs.** -/
structure Inv (P : SupervisorParams) (s : Supervisor) : Prop where
  held : Held P s
  phase : PhaseOk P s s.phase

/-- The steps outside the two defects. -/
def clean (P : SupervisorParams) (s : Supervisor) (input : Input) : Bool :=
  match s.phase, input with
  | .running session, .line line =>
    s.shutdown || (handleLine line).isOk ||
      (session.update s.clock P.healthyUptime).wasHealthy == session.wasHealthy
  | .configure, .line line => s.ready || !((handleLine line).toOption.any fun r => r.2 = .failed true)
  | _, _ => true

section Notes

variable {P : SupervisorParams} {log : List Note} {child : Option OwnedChildGroup} {s : Supervisor} {note : Note}

theorem Quiet.snoc (h : Quiet log) (hr : ∀ k, note ≠ .reaped k false)
    (hs : ∀ first error unconfirmed, note = .startFailed first error unconfirmed →
      first = false ∧ unconfirmed = false ∧ error ≠ .permanentAuth) : Quiet (log ++ [note]) where
  reaped k hk := by
    rcases List.mem_append.mp hk with hk | hk
    · exact h.reaped k hk
    · exact hr k (List.mem_singleton.mp hk).symm
  starts first error unconfirmed hk := by
    rcases List.mem_append.mp hk with hk | hk
    · exact h.starts _ _ _ hk
    · exact hs _ _ _ (List.mem_singleton.mp hk).symm

theorem Going.snoc (h : Going log child) (hn : ∀ k, note = .spawned k → ∃ c, child = some c ∧ c.number = k)
    (hr : ∀ k, note ≠ .reaped k false)
    (hs : ∀ first error unconfirmed, note = .startFailed first error unconfirmed →
      first = false ∧ unconfirmed = false ∧ error ≠ .permanentAuth) : Going (log ++ [note]) child where
  reaped k hk := by
    rcases List.mem_append.mp hk with hk | hk
    · exact (h.reaped k hk).imp_left (List.mem_append_left _)
    · exact Or.inr (hn k (List.mem_singleton.mp hk).symm)
  quiet := h.quiet.snoc hr hs

theorem Going.quietNote (h : Going log child) (hn : (∃ n, note = .killed n) ∨ (∃ n, note = .lost n) ∨ note = .fatal) :
    Going (log ++ [note]) child := by
  rcases hn with ⟨n, rfl⟩ | ⟨n, rfl⟩ | rfl <;> exact h.snoc nofun nofun nofun

theorem Going.flags {c c' : OwnedChildGroup} (h : Going log (some c)) (hn : c'.number = c.number) :
    Going log (some c') where
  reaped k hk := (h.reaped k hk).imp_right fun ⟨_, hc, hk⟩ => ⟨c', rfl, hn.trans (by cases hc; exact hk)⟩
  quiet := h.quiet

theorem Going.reap {c : OwnedChildGroup} (h : Going log (some c)) : Going (log ++ [.reaped c.number true]) none where
  reaped k hk := by
    rcases List.mem_append.mp hk with hk | hk
    · rcases h.reaped k hk with hr | ⟨c', hc, rfl⟩
      · exact Or.inl (List.mem_append_left _ hr)
      · cases hc
        exact Or.inl (by simp)
    · simp at hk
  quiet := h.quiet.snoc (by simp) nofun

theorem Held.add (h : Held P s) (hfair : Fair P s.log note) (hnum : ∀ n, note.process = some n → n < s.spawns)
    (howner : ∀ c, s.child = some c → c.groupSignalAuthorized = true →
      note ≠ .killed c.number ∧ note ≠ .lost c.number) : Held P (s.notes [note]) where
  justified := h.justified.snoc hfair
  numbered note' hn n hp := by
    rcases List.mem_append.mp hn with hn | hn
    · exact h.numbered note' hn n hp
    · exact hnum n (List.mem_singleton.mp hn ▸ hp)
  owner c hc := by
    refine ⟨(h.owner c hc).1, fun ha => ?_⟩
    obtain ⟨hk, hl⟩ := (h.owner c hc).2 ha
    obtain ⟨hk', hl'⟩ := howner c hc ha
    simp only [Supervisor.notes, List.mem_append, List.mem_singleton, not_or]
    exact ⟨⟨hk, Ne.symm hk'⟩, hl, Ne.symm hl'⟩

/-- A note that is about no process. -/
theorem Held.addFree (h : Held P s) (hfair : Fair P s.log note) (hp : note.process = none) :
    Held P (s.notes [note]) :=
  h.add hfair (fun n hn => by rw [hp] at hn; cases hn) fun c _ _ =>
    ⟨(by rintro rfl; cases hp), (by rintro rfl; cases hp)⟩

@[simp] theorem notes_nil (s : Supervisor) : s.notes [] = s := by simp [Supervisor.notes]

end Notes

/-! ## The functions of the task -/

section Functions

variable {P : SupervisorParams} {s : Supervisor} {c : OwnedChildGroup} {next : After} {error : LarkErrorKind}
  {line : Line} {session : Session} {input : Input}

section

variable (h : Held P s)
include h

theorem Held.stop {state : ConnectionState} (hf : state.final = true) : Inv P (s.stop state) :=
  ⟨⟨h.justified, h.numbered, h.owner⟩, hf⟩

theorem Held.retry (hchild : s.child = none) (hg : Going s.log none) (hf : .fatal ∉ s.log) :
    Inv P (s.retry P) :=
  ⟨⟨h.justified, h.numbered, h.owner⟩, hchild, hg, hf⟩

theorem Held.startFailed {unconfirmed : Bool} (hgo : unconfirmed = false →
      s.child = none ∧ Going s.log none ∧ (.fatal ∈ s.log → error = .permanentAuth ∨ s.ready = true)) :
    Inv P (s.startFailed P error unconfirmed) := by
  have hnoted : Held P (s.notes [.startFailed s.ready error unconfirmed]) := h.addFree trivial rfl
  unfold Supervisor.startFailed
  dsimp only
  split
  · have hdone : Held P { s.notes [.startFailed s.ready error unconfirmed] with ready := false } :=
      ⟨hnoted.justified, hnoted.numbered, hnoted.owner⟩
    refine hdone.stop ?_
    cases unconfirmed <;> rfl
  next hready =>
  split
  · exact hnoted.stop rfl
  next hconf =>
  split
  · exact hnoted.stop rfl
  next herror =>
  obtain ⟨hchild, hg, hf⟩ := hgo (by simpa using hconf)
  refine hnoted.retry hchild (hg.snoc nofun nofun ?_) ?_
  · rintro _ _ _ h
    cases h
    exact ⟨by simpa using hready, by simpa using hconf, herror⟩
  · simp only [Supervisor.notes, List.mem_append, List.mem_singleton, reduceCtorEq, or_false]
    exact fun hm => (hf hm).elim herror hready

theorem Held.cleaned (hchild : s.child = none) {confirmed : Bool}
    (hg : confirmed = true → Going s.log none) (hnext : next.Ok P s) : Inv P (s.cleaned P next confirmed) := by
  unfold Supervisor.cleaned
  cases next with
  | start error =>
    refine h.startFailed fun hc => ?_
    have hconf : confirmed = true := by simpa using hc
    subst hconf
    exact ⟨hchild, hg rfl, hnext⟩
  | crashed session time =>
    obtain ⟨hf, hreported⟩ := hnext
    dsimp only
    split
    next hconf =>
      refine ⟨Held.addFree ⟨h.justified, h.numbered, h.owner⟩ ⟨fun hd => ?_, fun hd => ?_⟩ rfl, hchild, ?_, ?_⟩
      · rw [if_pos (hreported.mpr hd)]
      · rw [if_neg (fun hw => hd (hreported.mp hw))]
      · exact (hg hconf).snoc nofun nofun nofun
      · simpa [Supervisor.notes, Supervisor.retry] using hf
    · exact h.stop rfl
  | terminal =>
    dsimp only
    split
    · exact ⟨⟨h.justified, h.numbered, h.owner⟩, hnext⟩
    · exact h.stop rfl
  | graceful =>
    refine h.stop ?_
    cases confirmed <;> rfl

/-- `terminate_and_reap` ends. -/
theorem Held.confirm (hc : s.child = some c) (hg : Going s.log s.child) (hnext : next.Ok P s)
    (confirmed : Bool) : Inv P (s.confirm P c next confirmed) := by
  have hdropped : Held P { s with child := none } := ⟨h.justified, h.numbered, nofun⟩
  have hnoted : Held P ({ s with child := none }.notes [.reaped c.number confirmed]) := by
    refine hdropped.add trivial (fun n hn => ?_) nofun
    cases hn
    exact (h.owner c hc).1
  refine hnoted.cleaned rfl ?_ ?_
  · rintro rfl
    rw [hc] at hg
    exact hg.reap
  · cases next with
    | start error | crashed session time => simpa [After.Ok, Supervisor.notes] using hnext
    | terminal => exact hnext
    | graceful => trivial

theorem Held.lose (hc : s.child = some c) :
    Held P ({ s with child := some c.lose }.notes [.lost c.number]) := by
  have hlost : Held P { s with child := some c.lose } := by
    refine ⟨h.justified, h.numbered, fun c' hc' => ?_⟩
    cases hc'
    exact ⟨(h.owner c hc).1, nofun⟩
  refine hlost.add trivial (fun n hn => by cases hn; exact (h.owner c hc).1) fun c' hc' ha => ?_
  cases hc'
  cases ha

/-- The signal of the owned process is used up. -/
theorem Held.kill (hc : s.child = some c) :
    Held P ({ s with child := some c.kill }.notes c.killNotes) := by
  have hkilled : Held P { s with child := some c.kill } := by
    refine ⟨h.justified, h.numbered, fun c' hc' => ?_⟩
    cases hc'
    exact ⟨(h.owner c hc).1, nofun⟩
  unfold OwnedChildGroup.killNotes
  split
  next ha =>
    refine hkilled.add ((h.owner c hc).2 ha) (fun n hn => by cases hn; exact (h.owner c hc).1) fun c' hc' ha => ?_
    cases hc'
    cases ha
  · simpa using hkilled

/-- The check before the signal, when it does not lose the identity. -/
theorem Held.probe (hc : s.child = some c) (p : Probe) (hl : (c.probe P.unix p).identityLost = false) :
    Held P { s with child := some (c.probe P.unix p) } ∧ c.probeNotes P.unix p = [] := by
  have hsub : (c.probe P.unix p).number = c.number ∧
      ((c.probe P.unix p).groupSignalAuthorized = true → c.groupSignalAuthorized = true) := by
    unfold OwnedChildGroup.probe
    cases p <;> split <;> simp [OwnedChildGroup.lose]
  refine ⟨⟨h.justified, h.numbered, fun c' hc' => ?_⟩, ?_⟩
  · cases hc'
    rw [hsub.1]
    exact ⟨(h.owner c hc).1, fun ha => (h.owner c hc).2 (hsub.2 ha)⟩
  · unfold OwnedChildGroup.probeNotes
    split
    next hlost =>
      rw [Bool.and_eq_true, decide_eq_true_eq] at hlost
      obtain ⟨hunix, rfl⟩ := hlost
      simp [OwnedChildGroup.probe, hunix, OwnedChildGroup.lose] at hl
    · rfl

end

/-- The check before the signal loses the identity that was not lost before. -/
theorem probe_lost {p : Probe} (hn : c.identityLost = false) (hl : (c.probe P.unix p).identityLost = true) :
    c.probe P.unix p = c.lose ∧ c.probeNotes P.unix p = [.lost c.number] := by
  unfold OwnedChildGroup.probe at hl
  unfold OwnedChildGroup.probe OwnedChildGroup.probeNotes
  cases hunix : P.unix with
  | false => simp [hunix, hn] at hl
  | true => cases p <;> simp_all [OwnedChildGroup.lose]

theorem Going.lose (hg : Going s.log s.child) (hc : s.child = some c) :
    Going (s.log ++ [.lost c.number]) (some c.lose) := by
  rw [hc] at hg
  have hlost : Going s.log (some c.lose) := hg.flags rfl
  exact hlost.quietNote (Or.inr (Or.inl ⟨_, rfl⟩))

theorem After.Ok.notes {s' : Supervisor} (hnext : next.Ok P s) {n : List Note} (hn : .fatal ∉ n)
    (hlog : s'.log = s.log ++ n) (hready : s'.ready = s.ready) (hpublished : s'.published = s.published) :
    next.Ok P s' := by
  cases next with
  | graceful => trivial
  | _ => simpa [After.Ok, hlog, hn, hready, hpublished] using hnext

section

variable (h : Held P s)
include h

theorem Held.terminate (hc : s.child = some c) (hg : Going s.log s.child) (hnext : next.Ok P s)
    (p : Probe) : Inv P (s.terminate P c next p) := by
  unfold Supervisor.terminate
  split
  · exact h.confirm hc hg hnext false
  next hlive =>
  have hlive : c.identityLost = false := by simpa using hlive
  dsimp only
  split
  next hl =>
    obtain ⟨hprobed, hnotes⟩ := probe_lost hlive hl
    rw [hprobed, hnotes]
    exact (h.lose hc).confirm rfl (hg.lose hc) (hnext.notes (by simp) rfl rfl rfl) false
  next hl =>
    obtain ⟨hprobed, hnotes⟩ := h.probe hc p (by simpa using hl)
    have hnumber : (c.probe P.unix p).kill.number = c.number := by
      unfold OwnedChildGroup.probe
      cases p <;> split <;> rfl
    rw [hnotes, notes_nil]
    have hkilled := hprobed.kill rfl
    refine ⟨⟨hkilled.justified, hkilled.numbered, hkilled.owner⟩, ?_, ?_⟩
    · have hg' : Going s.log (some (c.probe P.unix p).kill) := (hc ▸ hg).flags hnumber
      unfold OwnedChildGroup.killNotes
      split
      · exact hg'.quietNote (Or.inl ⟨_, rfl⟩)
      · simpa [Supervisor.notes] using hg'
    · have hfatal : .fatal ∉ (c.probe P.unix p).killNotes := by
        unfold OwnedChildGroup.killNotes
        split
        · simp
        · exact List.not_mem_nil
      exact hnext.notes hfatal rfl rfl rfl

theorem Held.waited (hc : s.child = some c) (hg : Going s.log s.child) (hnext : next.Ok P s)
    (r : Reaped) : Inv P (s.waited P c next r) := by
  cases r with
  | reaped groupEmpty | failed | late => exact h.confirm hc hg hnext _
  | lost =>
    unfold Supervisor.waited
    dsimp only
    split
    · exact (h.lose hc).confirm (c := c.lose) rfl (hg.lose hc) (hnext.notes (by simp) rfl rfl rfl) false
    · rw [notes_nil]
      exact h.confirm hc hg hnext false

theorem Held.leaderWaited (hc : s.child = some c) (hg : Going s.log s.child) (hf : .fatal ∉ s.log)
    (r : LeaderWait) : Held P (s.leaderWaited P c r) ∧
      Going (s.leaderWaited P c r).log (s.leaderWaited P c r).child ∧ .fatal ∉ (s.leaderWaited P c r).log ∧
      (s.leaderWaited P c r).clock = s.clock := by
  unfold Supervisor.leaderWaited
  split
  · exact ⟨h.lose hc, hg.lose hc, by simpa [Supervisor.notes] using hf, rfl⟩
  · exact ⟨h, hg, hf, rfl⟩

theorem Held.dropChild (p : Probe) : Inv P (s.dropChild P p) := by
  unfold Supervisor.dropChild
  cases hc : s.child with
  | none =>
    dsimp only
    exact ⟨⟨h.justified, h.numbered, nofun⟩, trivial⟩
  | some c =>
    dsimp only
    have hdropped : Held P { s with phase := .aborted, child := none } := ⟨h.justified, h.numbered, nofun⟩
    split
    next hlive =>
      rw [Bool.and_eq_true, Bool.not_eq_true'] at hlive
      cases hl : (c.probe P.unix p).identityLost with
      | true =>
        obtain ⟨hprobed, hnotes⟩ := probe_lost hlive.1 hl
        rw [hprobed, hnotes]
        have hlost := h.lose hc
        exact ⟨⟨hlost.justified, hlost.numbered, nofun⟩, trivial⟩
      | false =>
        obtain ⟨hprobed, hnotes⟩ := h.probe hc p hl
        rw [hnotes]
        have hkilled := hprobed.kill rfl
        exact ⟨⟨hkilled.justified, hkilled.numbered, nofun⟩, trivial⟩
    · exact ⟨hdropped, trivial⟩

/-- A process is spawned when every earlier one is reaped. -/
theorem Held.spawned (hg : Going s.log none) (hf : .fatal ∉ s.log) :
    Held P ({ s with spawns := s.spawns + 1, child := none }.notes [.spawned s.spawns]) := by
  have hnext : Held P { s with spawns := s.spawns + 1, child := none } :=
    ⟨h.justified, fun note hn n hp => Nat.lt_succ_of_lt (h.numbered note hn n hp), nofun⟩
  refine hnext.add ⟨fun note hn hp => Nat.lt_irrefl _ (h.numbered note hn _ hp), fun k hk => ?_, hg.quiet, hf⟩ ?_ nofun
  · exact (hg.reaped k hk).resolve_right nofun
  · rintro n hn
    cases hn
    exact Nat.lt_succ_self _

theorem Held.own (hg : Going s.log none) (hf : .fatal ∉ s.log) :
    Held P ({ s with spawns := s.spawns + 1, child := some ⟨s.spawns, true, false⟩ }.notes [.spawned s.spawns]) ∧
      Going (s.log ++ [.spawned s.spawns]) (some ⟨s.spawns, true, false⟩) := by
  have hspawned := h.spawned hg hf
  refine ⟨⟨hspawned.justified, hspawned.numbered, fun c hc => ?_⟩, ⟨fun k hk => ?_, ?_⟩⟩
  · cases hc
    refine ⟨Nat.lt_succ_self _, fun _ => ?_⟩
    simp only [Supervisor.notes, List.mem_append, List.mem_singleton, reduceCtorEq, or_false]
    exact ⟨fun hk => Nat.lt_irrefl _ (h.numbered _ hk _ rfl), fun hk => Nat.lt_irrefl _ (h.numbered _ hk _ rfl)⟩
  · rcases List.mem_append.mp hk with hk | hk
    · exact Or.inl (List.mem_append_left _ ((hg.reaped k hk).resolve_right (by simp)))
    · cases List.mem_singleton.mp hk
      exact Or.inr ⟨_, rfl, rfl⟩
  · exact hg.quiet.snoc (by simp) (by simp)

theorem Held.launch (hchild : s.child = none) (hg : Going s.log none) (hf : .fatal ∉ s.log)
    (result : SpawnResult) : Inv P (s.launch P result) := by
  unfold Supervisor.launch
  split
  · exact h.stop rfl
  have hconnecting : Held P { s with published := .connecting (nextFailure s.failures) } :=
    ⟨h.justified, h.numbered, h.owner⟩
  cases result with
  | failed => exact hconnecting.startFailed fun _ => ⟨hchild, hg, fun hm => absurd hm hf⟩
  | noPid =>
    have hspawned := hconnecting.spawned hg hf
    refine Held.startFailed ?_ nofun
    have hnoted : Held P (({ s with
        published := .connecting (nextFailure s.failures), spawns := s.spawns + 1, child := none }.notes
        [.spawned s.spawns]).notes [.reaped s.spawns false]) :=
      hspawned.add trivial (fun n hn => by cases hn; exact Nat.lt_succ_self _) nofun
    exact ⟨hnoted.justified, hnoted.numbered, fun c hc => by rw [show _ = s.child from rfl, hchild] at hc; cases hc⟩
  | noPipes =>
    obtain ⟨hown, hgo⟩ := hconnecting.own hg hf
    exact ⟨⟨hown.justified, hown.numbered, hown.owner⟩, hgo, fun hm => absurd hm (by simpa [Supervisor.notes] using hf)⟩
  | started =>
    obtain ⟨hown, hgo⟩ := hconnecting.own hg hf
    exact ⟨⟨hown.justified, hown.numbered, hown.owner⟩, hgo, by simpa [Supervisor.notes] using hf⟩

/-! ## Lines and sessions -/

theorem Held.close (next : After) (hg : Going s.log s.child) (hnext : next.Ok P s) :
    Inv P { s with phase := .closing next } :=
  ⟨⟨h.justified, h.numbered, h.owner⟩, hg, by cases next <;> exact hnext⟩

theorem Held.bootstrapFailed (hg : Going s.log s.child)
    (hf : .fatal ∈ s.log → error = .permanentAuth ∨ s.ready = true) : Inv P (s.bootstrapFailed error) :=
  h.close (.start error) hg hf

/-- A frame publishes its state, and is noted when it reports a fatal failure. -/
theorem Held.publish (hg : Going s.log s.child) (published : Option ConnectionState)
    (effect : FrameEffect) :
    Held P (s.publish published effect) ∧ Going (s.publish published effect).log s.child ∧
      (.fatal ∈ (s.publish published effect).log → .fatal ∈ s.log ∨ effect = .failed true) := by
  have hpublished : Held P { s with published := published.getD s.published } := ⟨h.justified, h.numbered, h.owner⟩
  unfold Supervisor.publish
  split
  next heffect => exact ⟨hpublished.addFree trivial rfl, hg.quietNote (Or.inr (Or.inr rfl)), fun _ => Or.inr heffect⟩
  · rw [notes_nil]
    exact ⟨hpublished, hg, Or.inl⟩

end

/-- A frame that reports a failure publishes a state that nothing follows. -/
theorem handleLine_failed {published : Option ConnectionState} {fatal : Bool}
    (h : handleLine line = .ok (published, .failed fatal)) : (published.getD s.published).final = true := by
  cases line with
  | state frame =>
    cases hp : frame.publish with
    | error e => simp [handleLine, hp, Except.map] at h
    | ok r =>
      simp only [handleLine, hp, Except.map, Except.ok.injEq, Prod.mk.injEq] at h
      obtain ⟨rfl, heffect⟩ := h
      unfold StateFrame.publish at hp
      dsimp only at hp
      split at hp
      · cases hp
      · split at hp <;> cases hp <;> first | rfl | cases heffect
  | event room => cases room <;> cases h
  | other hello room => cases room <;> cases h
  | response ours valid => cases h
  | error => cases h
  | malformed => cases h

theorem Held.configureLine (h : Held P s) (hphase : s.phase = .configure) (hg : Going s.log s.child)
    (hf : .fatal ∉ s.log) (hclean : clean P s (.line line) = true) : Inv P (s.configureLine line) := by
  unfold Supervisor.configureLine
  split
  · split
    · exact ⟨⟨h.justified, h.numbered, h.owner⟩, hg, hf⟩
    · exact h.bootstrapFailed hg fun hm => absurd hm hf
  cases hline : handleLine line with
  | error error => exact h.bootstrapFailed hg fun hm => absurd hm hf
  | ok r =>
    obtain ⟨published, effect⟩ := r
    obtain ⟨hheld, hgoing, hfatal⟩ := h.publish hg published effect
    have hready : effect = .failed true → s.ready = true := by
      rintro rfl
      simpa [clean, hphase, hline, Except.toOption] using hclean
    have hquiet : effect ≠ .failed true → .fatal ∉ (s.publish published effect).log := fun hne hm =>
      (hfatal hm).elim hf hne
    have hstay : (s.publish published effect).phase = .configure := by
      simp [Supervisor.publish, Supervisor.notes, hphase]
    cases effect with
    | failed fatal =>
      exact hheld.bootstrapFailed hgoing fun hm => Or.inr ((hfatal hm).elim (fun hm => absurd hm hf) hready)
    | stopped => exact hheld.bootstrapFailed hgoing fun hm => absurd hm (hquiet nofun)
    | continues | connected | disconnected => exact ⟨hheld, hstay ▸ ⟨hgoing, hquiet nofun⟩⟩

theorem Held.connectLine (h : Held P s) (hphase : s.phase = .connect) (hg : Going s.log s.child)
    (hf : .fatal ∉ s.log) (line : Line) : Inv P (s.connectLine line) := by
  unfold Supervisor.connectLine
  cases hline : handleLine line with
  | error error => exact h.bootstrapFailed hg fun hm => absurd hm hf
  | ok r =>
    obtain ⟨published, effect⟩ := r
    obtain ⟨hheld, hgoing, hfatal⟩ := h.publish hg published effect
    have hquiet : effect ≠ .failed true → .fatal ∉ (s.publish published effect).log := fun hne hm =>
      (hfatal hm).elim hf hne
    have hstay : (s.publish published effect).phase = .connect := by
      simp [Supervisor.publish, Supervisor.notes, hphase]
    cases effect with
    | connected =>
      exact ⟨⟨hheld.justified, hheld.numbered, hheld.owner⟩, hgoing, hquiet nofun, Session.Ok.new _ _⟩
    | failed fatal =>
      cases fatal with
      | true => exact hheld.bootstrapFailed hgoing fun _ => Or.inl rfl
      | false => exact hheld.bootstrapFailed hgoing fun hm => absurd hm (hquiet nofun)
    | stopped => exact hheld.bootstrapFailed hgoing fun hm => absurd hm (hquiet nofun)
    | continues | disconnected => exact ⟨hheld, hstay ▸ ⟨hgoing, hquiet nofun⟩⟩

theorem Held.crash (h : Held P s) (hg : Going s.log s.child) (hf : .fatal ∉ s.log)
    (hs : session.Ok P.healthyUptime s.clock) : Inv P (s.crash P session) :=
  h.close (.crashed _ s.clock) hg ⟨hf, hs.update_reported⟩

theorem Held.runningLine (h : Held P s) (hphase : s.phase = .running session) (hg : Going s.log s.child)
    (hf : .fatal ∉ s.log) (hs : session.Ok P.healthyUptime s.clock) (hrun : s.shutdown = false)
    (hclean : clean P s (.line line) = true) :
    Inv P (s.runningLine P session line) := by
  unfold Supervisor.runningLine
  cases hline : handleLine line with
  | error error =>
    have hsame : (session.update s.clock P.healthyUptime).wasHealthy = session.wasHealthy := by
      simpa [clean, hphase, hline, hrun, Except.isOk, Except.toBool] using hclean
    have hreported := hs.update_reported
    rw [Reported, hsame] at hreported
    exact h.close (.crashed _ _) hg ⟨hf, hreported⟩
  | ok r =>
    obtain ⟨published, effect⟩ := r
    obtain ⟨hheld, hgoing, hfatal⟩ := h.publish hg published effect
    have hquiet : effect ≠ .failed true → .fatal ∉ (s.publish published effect).log := fun hne hm =>
      (hfatal hm).elim hf hne
    have hdisconnect : effect ≠ .failed true → Inv P
        (if (s.publish published effect).published.final then
          { s.publish published effect with phase := .closing (.crashed (session.disconnect s.clock P.healthyUptime) s.clock) }
        else { s.publish published effect with phase := .running (session.disconnect s.clock P.healthyUptime) }) := by
      intro hne
      split
      · exact hheld.close _ hgoing ⟨hquiet hne, hs.disconnect_reported⟩
      · exact ⟨⟨hheld.justified, hheld.numbered, hheld.owner⟩, hgoing, hquiet hne, hs.disconnect⟩
    cases effect with
    | connected => exact ⟨⟨hheld.justified, hheld.numbered, hheld.owner⟩, hgoing, hquiet nofun, hs.connect⟩
    | failed fatal =>
      cases fatal with
      | true => exact hheld.close .terminal hgoing (handleLine_failed hline)
      | false => exact hdisconnect nofun
    | disconnected => exact hdisconnect nofun
    | stopped => exact hdisconnect nofun
    | continues =>
      refine ⟨hheld, ?_⟩
      have hstay : (s.publish published .continues).phase = .running session := by
        simp [Supervisor.publish, Supervisor.notes, hphase]
      rw [hstay]
      exact ⟨hgoing, hquiet nofun, hs⟩

/-! ## Steps -/

/-- A line, the end of the output or a deadline during the bootstrap. -/
theorem Inv.bootstrapReply (h : Inv P s) (hg : Going s.log s.child) (hf : .fatal ∉ s.log) {read : Line → Supervisor}
    (hread : ∀ line, input = .line line → Inv P (read line)) : Inv P (s.bootstrapReply read input) := by
  have hfailed : ∀ error, Inv P (s.bootstrapFailed error) := fun _ => h.held.bootstrapFailed hg fun hm => absurd hm hf
  cases input with
  | line line => exact hread line rfl
  | lineError | eof | timeout => exact hfailed _
  | _ => exact h

theorem Inv.reply (h : Inv P s) (hclean : clean P s input = true) : Inv P (s.reply P input) := by
  have hheld := h.held
  have hok := h.phase
  unfold Supervisor.reply
  cases hphase : s.phase with
  | top =>
    rw [hphase] at hok
    obtain ⟨hchild, hg, hf⟩ := hok
    cases input with
    | launch result => exact hheld.launch hchild hg hf result
    | _ => exact h
  | hello =>
    rw [hphase] at hok
    refine h.bootstrapReply hok.1 hok.2 fun line _ => ?_
    unfold Supervisor.helloLine
    split
    · exact ⟨⟨hheld.justified, hheld.numbered, hheld.owner⟩, hok⟩
    · exact hheld.bootstrapFailed hok.1 fun hm => absurd hm hok.2
  | configure =>
    rw [hphase] at hok
    dsimp only
    split
    · exact hheld.bootstrapFailed hok.1 fun hm => absurd hm hok.2
    · exact h.bootstrapReply hok.1 hok.2 fun line hl => hheld.configureLine hphase hok.1 hok.2 (hl ▸ hclean)
  | connect =>
    rw [hphase] at hok
    dsimp only
    split
    next c result hc =>
      obtain ⟨hwaited, hg, hf, -⟩ := hheld.leaderWaited hc hok.1 hok.2 result
      exact hwaited.bootstrapFailed hg fun hm => absurd hm hf
    · exact h.bootstrapReply hok.1 hok.2 fun line _ => hheld.connectLine hphase hok.1 hok.2 line
  | running session =>
    rw [hphase] at hok
    obtain ⟨hg, hf, hs⟩ := hok
    dsimp only
    split
    · exact ⟨⟨hheld.justified, hheld.numbered, hheld.owner⟩, hg, hf⟩
    next hrun =>
    unfold Supervisor.runningReply
    split
    · exact hheld.runningLine hphase hg hf hs (by simpa using hrun) hclean
    · exact hheld.crash hg hf hs
    · exact hheld.crash hg hf hs
    next c result hc =>
      obtain ⟨hwaited, hg', hf', hclock⟩ := hheld.leaderWaited hc hg hf result
      exact hwaited.crash hg' hf' (hclock ▸ hs)
    · exact h
  | draining =>
    rw [hphase] at hok
    dsimp only [Supervisor.drainingReply]
    split <;> first | exact h | exact ⟨⟨hheld.justified, hheld.numbered, hheld.owner⟩, hok⟩
  | leaving =>
    rw [hphase] at hok
    dsimp only
    split
    next c result hc =>
      obtain ⟨hwaited, hg, -, -⟩ := hheld.leaderWaited hc hok.1 hok.2 result
      exact hwaited.close .graceful hg trivial
    · exact hheld.close .graceful hok.1 trivial
    · exact h
  | closing next =>
    rw [hphase] at hok
    dsimp only
    split
    next c p hc => exact hheld.terminate hc hok.1 hok.2 p
    · exact h
  | reaping next =>
    rw [hphase] at hok
    dsimp only
    split
    next c result hc => exact hheld.waited hc hok.1 hok.2 result
    · exact h
  | backoff =>
    rw [hphase] at hok
    dsimp only
    split
    · exact ⟨⟨hheld.justified, hheld.numbered, hheld.owner⟩, hok⟩
    · split
      · exact hheld.stop rfl
      · exact h
    · exact h
  | returned => exact h
  | aborted => exact h

theorem Inv.step (h : Inv P s) (hclean : clean P s input = true) : Inv P (step P s input) := by
  have hheld := h.held
  unfold Supervisor.step
  split
  next time =>
    refine ⟨⟨hheld.justified, hheld.numbered, hheld.owner⟩, ?_⟩
    have hok := h.phase
    dsimp only
    cases hphase : s.phase with
    | running session =>
      rw [hphase] at hok
      exact ⟨hok.1, hok.2.1, hok.2.2.pass time⟩
    | closing next | reaping next => rw [hphase] at hok; exact ⟨hok.1, hok.2.notes (n := []) nofun (by simp) rfl rfl⟩
    | _ => rw [hphase] at hok; exact hok
  · refine ⟨⟨hheld.justified, hheld.numbered, hheld.owner⟩, ?_⟩
    have hok := h.phase
    dsimp only
    cases hphase : s.phase with
    | closing next | reaping next => rw [hphase] at hok; exact ⟨hok.1, hok.2.notes (n := []) nofun (by simp) rfl rfl⟩
    | _ => rw [hphase] at hok; exact hok
  · split
    · exact h
    · exact h
    · exact hheld.dropChild _
  · exact h.reply hclean

theorem inv_new (P : SupervisorParams) : Inv P .new :=
  ⟨⟨justified_nil, nofun, nofun⟩, rfl, ⟨nofun, nofun, nofun⟩, nofun⟩

theorem step_returned (h : s.phase = .returned) (input : Input) :
    (step P s input).phase = .returned ∧ (step P s input).published = s.published := by
  have hreply : s.reply P input = s := by
    unfold Supervisor.reply
    rw [h]
  unfold Supervisor.step
  split
  · exact ⟨h, rfl⟩
  · exact ⟨h, rfl⟩
  · rw [h]
    exact ⟨h, rfl⟩
  · rw [hreply]
    exact ⟨h, rfl⟩

end Functions

/-! ## Runs -/

/-- **One process and an honest back-off.** In a run whose steps are outside the two defects every entry of the log is
fair; when the task returns, the published state is one that nothing follows, and it stays. -/
theorem one_process_honest_backoff (P : SupervisorParams) (inputs : List Input)
    (hclean : Along (step P) (fun s input => clean P s input = true) .new inputs) :
    Justified (Fair P) (after P inputs).log ∧
      ((after P inputs).phase = .returned → (after P inputs).published.final = true ∧
        ∀ more, (exec (step P) (after P inputs) more).phase = .returned ∧
          (exec (step P) (after P inputs) more).published = (after P inputs).published) := by
  have hinv : Inv P (after P inputs) := exec_invariant (fun s input h hc => h.step hc) (inv_new P) hclean
  refine ⟨hinv.held.justified, fun hreturned => ⟨?_, fun more => ?_⟩⟩
  · have hok := hinv.phase
    rwa [hreturned] at hok
  · refine exec_invariant' (I := fun s : Supervisor => s.phase = .returned ∧ s.published = (after P inputs).published)
      (fun s input h => ?_) ⟨hreturned, rfl⟩
    obtain ⟨hphase, hpublished⟩ := step_returned (P := P) h.1 input
    exact ⟨hphase, hpublished.trans h.2⟩

/-! ## Two runs outside -/

def sampleParams : SupervisorParams := ⟨true, 10, id⟩

def stateLine (state : String) (fatal : Bool) : Input := .line (.state ⟨true, state, none, none, fatal⟩)

/-- A start up to the connection. -/
def connects : List Input :=
  [.launch .started, .line (.other true .fits), .line (.response true true), stateLine "connected" false]

/-- The cleanup of a process, confirmed. -/
def cleansUp : List Input := [.terminate .running, .waited (.reaped true)]

/-- A session that ends at once, and the next attempt. -/
def restart : List Input := connects ++ [.eof] ++ cleansUp ++ [.slept]

/-- The second session is connected long enough, and its output ends. -/
def healthyRun : List Input := restart ++ connects ++ [.pass 10, .eof] ++ cleansUp

/-- The same, and it ends by a frame that does not decode. -/
def malformedRun : List Input := restart ++ connects ++ [.pass 10, .line .malformed] ++ cleansUp

/-- The provider fails before the configuration is confirmed, and another process is spawned. -/
def fatalRun : List Input :=
  restart ++ [.launch .started, .line (.other true .fits), stateLine "failed" true] ++ cleansUp ++
    [.slept, .launch .started]

theorem one_process_honest_backoff_healthyRun :
    .ended [(0, true)] 10 1 1 ∈ (after sampleParams healthyRun).log ∧
      Justified (Fair sampleParams) (after sampleParams healthyRun).log :=
  ⟨by decide, (one_process_honest_backoff sampleParams healthyRun (by decide)).1⟩

/-- The counter does not restart; and a process is spawned after a fatal failure. -/
theorem one_process_honest_backoff_fails :
    ¬ Justified (Fair sampleParams) (after sampleParams malformedRun).log ∧
      ¬ Justified (Fair sampleParams) (after sampleParams fatalRun).log := by
  have hmalformed : (after sampleParams malformedRun).log =
      [.spawned 0, .killed 0, .reaped 0 true, .ended [(0, true)] 0 0 1, .spawned 1, .killed 1, .reaped 1 true] ++
        .ended [(0, true)] 10 1 2 :: [] := by decide
  have hfatal : (after sampleParams fatalRun).log =
      [.spawned 0, .killed 0, .reaped 0 true, .ended [(0, true)] 0 0 1, .spawned 1, .fatal, .killed 1,
        .reaped 1 true, .startFailed false .retryable false] ++ .spawned 2 :: [] := by decide
  refine ⟨fun h => ?_, fun h => ?_⟩
  · have hconnected : ConnectedFor ([(0, true)] ++ [(10, false)]) sampleParams.healthyUptime :=
      ⟨[], 0, [], 10, false, [], rfl, nofun, Nat.le_refl _⟩
    have hnext := (h _ _ _ hmalformed).1 hconnected
    exact absurd hnext (by decide)
  · exact (h _ _ _ hfatal).2.2.2 (by simp)

end LarkCodexBridge.Channel.Supervise
