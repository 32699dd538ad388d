import LarkCodexBridge.Runtime.ActorSteps
import LarkCodexBridge.Runtime.RouterSteps

/-!
# Configuration changes and later messages

Router and actors copy policy and settings at the top of their loops and then wait for input, so a change that returns
while they wait does not reach the next message. `Bridge.freshTake` is the condition that the copies a message meets were
read after every change made before the router took it, and that no change falls between the two reads of an actor.
Under it:

* `Actor.run_fresh`: one step of an actor decides and starts turns with copies as new as its messages;
* `step_fresh`: so does one step of the bridge;
* `change_binds_later_messages`: and every run.
-/

namespace LarkCodexBridge.Runtime

open Limits Lark Store Outbox SqlTable StepSystem

variable {l : Live}

/-! ## Versions -/

/-- The policy is that of version `n`. -/
def Live.HasPolicy (l : Live) (policy : AccessPolicy) (n : ℕ) : Prop := ∃ inner, l.get? n = some inner ∧ inner.policy = policy

/-- Policy and settings are of one version. -/
def Live.Has (l : Live) (c : Copies) : Prop :=
  c.policyVersion = c.settingsVersion ∧
    ∃ inner, l.get? c.policyVersion = some inner ∧ inner.policy = c.policy ∧ inner.settings = c.settings

variable {c : Copies}

theorem Live.Has.policy (h : l.Has c) : l.HasPolicy c.policy c.policyVersion := by
  obtain ⟨-, inner, hget, hp, -⟩ := h
  exact ⟨inner, hget, hp⟩

theorem Live.HasPolicy.le {policy : AccessPolicy} {n : ℕ} (h : l.HasPolicy policy n) : n ≤ l.version := by
  obtain ⟨inner, hget, -⟩ := h
  have := (List.getElem?_eq_some_iff.1 hget).1
  rw [List.length_append, List.length_singleton] at this
  exact Nat.le_of_lt_succ this

theorem Live.get?_version (l : Live) : l.get? l.version = some l.inner := by
  simp [Live.get?, Live.version]

theorem Live.readPolicy_has (l : Live) : l.HasPolicy l.readPolicy.policy l.readPolicy.version :=
  ⟨l.inner, l.get?_version, rfl⟩

theorem Live.readSettings_has {p : PolicyCopy} (h : l.HasPolicy p.policy p.version) (hv : p.version = l.version) :
    l.Has (l.readSettings p) := by
  obtain ⟨inner, hget, hp⟩ := h
  rw [hv, Live.get?_version] at hget
  cases hget
  exact ⟨hv, l.inner, by rw [Live.readSettings]; simpa [hv] using l.get?_version, hp, rfl⟩

/-- `l'` continues the history of `l`. -/
def Live.Extends (l l' : Live) : Prop := l.version ≤ l'.version ∧ ∀ n inner, l.get? n = some inner → l'.get? n = some inner

theorem Live.Extends.refl (l : Live) : l.Extends l := ⟨Nat.le_refl _, fun _ _ h => h⟩

theorem Live.extends_apply (l : Live) (env : LiveInner.ApplyEnv) (patch : ConfigPatch) : l.Extends (l.apply env patch) := by
  unfold Live.apply
  dsimp only
  split
  · exact .refl l
  · refine ⟨by simp [Live.version], fun n inner h => ?_⟩
    have hlt := (List.getElem?_eq_some_iff.1 h).1
    rw [Live.get?, List.getElem?_append_left hlt]
    exact h

variable {l' : Live}

theorem Live.HasPolicy.mono (he : l.Extends l') {policy : AccessPolicy} {n : ℕ} (h : l.HasPolicy policy n) :
    l'.HasPolicy policy n := by
  obtain ⟨inner, hget, hp⟩ := h
  exact ⟨inner, he.2 n inner hget, hp⟩

theorem Live.Has.mono (he : l.Extends l') (h : l.Has c) : l'.Has c := by
  obtain ⟨hv, inner, hget, hp, hs⟩ := h
  exact ⟨hv, inner, he.2 _ inner hget, hp, hs⟩

/-! ## Fresh states -/

/-- The messages were taken no later than the copies were read. -/
def Copies.Covers (c : Copies) (items : List ActorInbound) : Prop := ∀ item ∈ items, item.taken ≤ c.policyVersion

/-- Decisions and turns are made with copies as new as their messages, and a turn with copies of one version. -/
def LogEntry.Fresh (l : Live) : LogEntry → Prop
  | .decision item policy version => item.taken ≤ version ∧ l.HasPolicy policy version
  | .started sources c => l.Has c ∧ c.Covers sources
  | .executed _ _ | .staged _ => True

/-- The copies of a batch are recorded ones and cover it. -/
def BatchFresh (l : Live) (c : Copies) (batch : List TurnInbound) : Prop := l.Has c ∧ c.Covers (batch.map (·.inbound))

def ActorPc.Fresh (l : Live) : ActorPc → Prop
  | .readSettings p => l.HasPolicy p.policy p.version
  | .waiting c => l.Has c
  | .preparing c batch item _ => BatchFresh l c (batch.getD []) ∧ item.taken ≤ c.policyVersion
  | .controlPolicy control => control.inbound.taken ≤ l.version
  | .controlSettings control p => l.HasPolicy p.policy p.version ∧ control.inbound.taken ≤ p.version
  | .screening c _ item _ _ rest kept => BatchFresh l c (item :: rest ++ kept)
  | .debouncing c batch | .readAdoption c batch | .readMapping c batch _ | .permitCheck c batch _
  | .permitWait c batch _ | .readThread c batch _ | .workspace c batch _ | .route c batch | .waitClient c batch
  | .ensureThread c batch _ | .subscribing c batch _ _ _ | .claiming c batch _ _ _ => BatchFresh l c batch
  | .assembling t => l.Has t.copies ∧ t.copies.Covers t.sources
  | _ => True

/-- What waits in the mailbox and from the round before was taken already. -/
def Actor.RestFresh (l : Live) (a : Actor) : Prop :=
  (∀ command ∈ a.mailbox, command.item.taken ≤ l.version) ∧ ∀ work ∈ a.deferred, work.item.taken ≤ l.version

def Actor.Fresh (l : Live) (a : Actor) : Prop := a.pc.Fresh l ∧ a.RestFresh l

/-- A step that continues the history, and is fresh. -/
structure Outcome.Fresh (l : Live) (o : Outcome) : Prop where
  continues : l.Extends o.live
  actor : o.actor.Fresh o.live
  log : ∀ e ∈ o.log, e.Fresh o.live

theorem LogEntry.Fresh.mono (he : l.Extends l') {e : LogEntry} (h : e.Fresh l) : e.Fresh l' := by
  cases e with
  | decision item policy version => exact ⟨h.1, h.2.mono he⟩
  | started sources c => exact ⟨h.1.mono he, h.2⟩
  | executed | staged => trivial

theorem BatchFresh.mono (he : l.Extends l') {batch : List TurnInbound} (h : BatchFresh l c batch) :
    BatchFresh l' c batch := ⟨h.1.mono he, h.2⟩

theorem BatchFresh.subset {batch batch' : List TurnInbound} (h : BatchFresh l c batch)
    (hsub : ∀ item ∈ batch', item ∈ batch) : BatchFresh l c batch' := by
  refine ⟨h.1, fun item hitem => ?_⟩
  obtain ⟨turn, hturn, rfl⟩ := List.mem_map.1 hitem
  exact h.2 _ (List.mem_map.2 ⟨turn, hsub turn hturn, rfl⟩)

theorem BatchFresh.append {batch batch' : List TurnInbound} (h : BatchFresh l c batch) (h' : BatchFresh l c batch') :
    BatchFresh l c (batch ++ batch') := by
  refine ⟨h.1, fun item hitem => ?_⟩
  rw [List.map_append, List.mem_append] at hitem
  exact hitem.elim (h.2 item) (h'.2 item)

theorem BatchFresh.single {item : TurnInbound} (h : l.Has c) (ht : item.inbound.taken ≤ c.policyVersion) :
    BatchFresh l c [item] := ⟨h, by simpa [Copies.Covers] using ht⟩

theorem ActorPc.Fresh.mono (he : l.Extends l') {pc : ActorPc} (h : pc.Fresh l) : pc.Fresh l' := by
  cases pc with
  | readSettings p => exact Live.HasPolicy.mono he h
  | waiting c => exact Live.Has.mono he h
  | preparing c batch item op | controlSettings control p | assembling t => exact ⟨h.1.mono he, h.2⟩
  | controlPolicy control => exact Nat.le_trans h he.1
  | screening c adopted item reason notice rest kept | debouncing c batch | readAdoption c batch
  | readMapping c batch saga | permitCheck c batch adopted | permitWait c batch adopted | readThread c batch adopted
  | workspace c batch adopted | route c batch | waitClient c batch | ensureThread c batch epoch
  | subscribing c batch adopted thread epoch | claiming c batch adopted turn epoch => exact BatchFresh.mono he h
  | _ => trivial

theorem ActorPc.fresh_iff {pc : ActorPc} {batch : List TurnInbound} (h : pc.batch? = some (some c, batch)) :
    pc.Fresh l ↔ BatchFresh l c batch := by
  cases pc <;> cases h <;> exact Iff.rfl

theorem Actor.RestFresh.mono (he : l.Extends l') {a : Actor} (h : a.RestFresh l) : a.RestFresh l' :=
  ⟨fun command hc => Nat.le_trans (h.1 command hc) he.1, fun work hw => Nat.le_trans (h.2 work hw) he.1⟩

theorem Actor.Fresh.mono (he : l.Extends l') {a : Actor} (h : a.Fresh l) : a.Fresh l' :=
  ⟨h.1.mono he, h.2.mono he⟩

/-! ## One step of an actor -/

namespace Actor

variable {x : Ctx} {a : Actor}

variable {log : List LogEntry}

theorem goto_fresh {pc : ActorPc} (hr : a.RestFresh x.live) (hpc : pc.Fresh x.live) (hlog : ∀ e ∈ log, e.Fresh x.live) :
    (a.goto x pc log).Fresh x.live := ⟨.refl _, ⟨hpc, hr⟩, hlog⟩

variable {dropped : List ActorInbound}

theorem again_fresh {state : ScopeState} (hr : a.RestFresh x.live) (hlog : ∀ e ∈ log, e.Fresh x.live) :
    (a.again x state log dropped).Fresh x.live := ⟨.refl _, ⟨trivial, hr⟩, hlog⟩

theorem stop_fresh (hlog : ∀ e ∈ log, e.Fresh x.live) :
    (a.stop x dropped log).Fresh x.live :=
  ⟨.refl _, ⟨trivial, by simp [RestFresh, stop]⟩, hlog⟩

theorem leaveBatch_fresh {state : ScopeState} {batch : List TurnInbound} (hr : a.RestFresh x.live)
    (hlog : ∀ e ∈ log, e.Fresh x.live) :
    (a.leaveBatch x state batch dropped log).Fresh x.live := by
  unfold leaveBatch
  dsimp only
  split
  · exact stop_fresh hlog
  · exact again_fresh hr hlog

theorem rejectAll_fresh {reason : InboundRejectionKind} {batch : List TurnInbound} (hr : a.RestFresh x.live) :
    (a.rejectAll x reason batch).Fresh x.live := by
  unfold rejectAll
  split
  · exact leaveBatch_fresh hr (by simp)
  · split
    · exact leaveBatch_fresh hr (by simp)
    · exact goto_fresh hr trivial (by simp)

variable {c : Copies} {batch : List TurnInbound}

theorem startBatch_fresh (hr : a.RestFresh x.live) (hb : BatchFresh x.live c batch) : (a.startBatch x c batch).Fresh x.live :=
  goto_fresh hr (hb.subset (deduplicateBatch_spec batch).1.subset) (by simp)

theorem collect_fresh (hr : a.RestFresh x.live) (hb : BatchFresh x.live c batch) : (a.collect x c batch).Fresh x.live := by
  unfold collect
  split
  · exact startBatch_fresh hr hb
  · exact goto_fresh hr hb (by simp)

theorem openBatch_fresh {item : TurnInbound} (hr : a.RestFresh x.live) (hb : BatchFresh x.live c [item]) :
    (a.openBatch x c item).Fresh x.live := by
  unfold openBatch
  dsimp only
  split
  · exact startBatch_fresh hr hb
  · exact collect_fresh hr hb

theorem joinBatch_fresh {item : TurnInbound} (hr : a.RestFresh x.live) (hb : BatchFresh x.live c batch)
    (hi : item.inbound.taken ≤ c.policyVersion) : (a.joinBatch x c batch item).Fresh x.live := by
  unfold joinBatch
  split
  · refine startBatch_fresh ⟨hr.1, fun work hw => ?_⟩ hb
    cases hw
    exact Nat.le_trans hi hb.1.policy.le
  · exact collect_fresh hr (hb.append (.single hb.1 hi))

variable {collected : Option (List TurnInbound)} {item : ActorInbound}

theorem prepared_fresh {turn : TurnInbound} (hr : a.RestFresh x.live) (hb : BatchFresh x.live c (collected.getD []))
    (hi : turn.inbound.taken ≤ c.policyVersion) : (a.prepared x c collected turn).Fresh x.live := by
  unfold prepared
  split
  · exact openBatch_fresh hr (.single hb.1 hi)
  · exact joinBatch_fresh hr hb hi

theorem settled_fresh (hr : a.RestFresh x.live) (hb : BatchFresh x.live c (collected.getD [])) :
    (a.settled x c collected).Fresh x.live := by
  unfold settled
  split
  · exact again_fresh hr (by simp)
  · exact collect_fresh hr hb

theorem prepareFailed_fresh {kind : ScopeFailureKind} (hr : a.RestFresh x.live)
    (hb : BatchFresh x.live c (collected.getD [])) : (a.prepareFailed x c collected item kind).Fresh x.live := by
  unfold prepareFailed
  split
  · exact again_fresh hr (by simp)
  · have h := startBatch_fresh hr hb
    exact ⟨h.continues, h.actor, h.log⟩

theorem logged_fresh {o : Outcome} (ho : o.Fresh l) (hlog : ∀ e ∈ log, e.Fresh o.live) :
    (o.logged log).Fresh l := by
  refine ⟨ho.continues, ho.actor, fun e he => ?_⟩
  rcases List.mem_append.1 he with he | he
  · exact hlog e he
  · exact ho.log e he

@[simp] theorem stop_live : (a.stop x dropped log).live = x.live := rfl

theorem leaveBatch_live {state : ScopeState} :
    (a.leaveBatch x state batch dropped log).live = x.live := by
  unfold leaveBatch
  dsimp only
  split <;> rfl

theorem prepareFailed_live {kind : ScopeFailureKind} : (a.prepareFailed x c collected item kind).live = x.live := by
  unfold prepareFailed
  split <;> rfl

theorem decision_fresh (hc : l.HasPolicy c.policy c.policyVersion) (hi : item.taken ≤ c.policyVersion) :
    ∀ e ∈ [LogEntry.decision item c.policy c.policyVersion], e.Fresh l := by
  intro e he
  rw [List.mem_singleton.1 he]
  exact ⟨hi, hc⟩

theorem prepareMedia_fresh (hr : a.RestFresh x.live) (hb : BatchFresh x.live c (collected.getD []))
    (hi : item.taken ≤ c.policyVersion) : (a.prepareMedia x c collected item).Fresh x.live := by
  have hlog : ∀ e ∈ if isStale x.env.clock item.event c.settings.messageMaxAge then []
      else [LogEntry.decision item c.policy c.policyVersion], e.Fresh x.live := by
    split
    · simp
    · exact decision_fresh hb.1.policy hi
  unfold prepareMedia
  dsimp only
  split
  · exact goto_fresh hr ⟨hb, hi⟩ hlog
  · split
    · refine logged_fresh (prepareFailed_fresh hr hb) ?_
      rw [prepareFailed_live]
      exact hlog
    · exact goto_fresh hr ⟨hb, hi⟩ hlog

theorem prepareInbound_fresh (hr : a.RestFresh x.live) (hb : BatchFresh x.live c (collected.getD []))
    (hi : item.taken ≤ c.policyVersion) : (a.prepareInbound x c collected item).Fresh x.live := by
  unfold prepareInbound
  split
  · exact prepareMedia_fresh hr hb hi
  · have hres : (a.reserve x item).1.inbound = item := reserve_inbound
    generalize a.reserve x item = reserved at hres ⊢
    refine prepared_fresh hr hb ?_
    rw [hres]
    exact hi

theorem finishPreparing_fresh {op : SettleOp} (hr : a.RestFresh x.live) (hb : BatchFresh x.live c (collected.getD [])) :
    (a.finishPreparing x c collected item op).Fresh x.live := by
  unfold finishPreparing
  split
  · exact settled_fresh hr hb
  · split
    · exact logged_fresh (settled_fresh hr hb) (by simp [LogEntry.Fresh])
    · exact settled_fresh hr hb

theorem screenLog_fresh {turn : TurnInbound} (hc : x.live.Has c) (hi : turn.inbound.taken ≤ c.policyVersion) :
    ∀ e ∈ screenLog x c turn, e.Fresh x.live := by
  unfold screenLog
  split
  · simp
  · exact decision_fresh hc.policy hi

variable {adopted : Bool}

theorem screen_live : ∀ {todo kept : List TurnInbound}, (a.screen x c adopted todo kept).live = x.live
  | [], kept => by
    unfold screen
    split
    · exact leaveBatch_live
    · rfl
  | turn :: todo, kept => by
    unfold screen
    split
    · exact screen_live
    · split
      · exact leaveBatch_live
      · rfl

theorem screen_fresh (hr : a.RestFresh x.live) : ∀ {todo kept : List TurnInbound},
    BatchFresh x.live c (todo ++ kept) → (a.screen x c adopted todo kept).Fresh x.live
  | [], kept, hb => by
    unfold screen
    split
    · exact leaveBatch_fresh hr (by simp)
    · exact goto_fresh hr hb (by simp)
  | turn :: todo, kept, hb => by
    have hi : turn.inbound.taken ≤ c.policyVersion := hb.2 _ (by simp)
    have hlog := screenLog_fresh (x := x) hb.1 hi
    unfold screen
    split
    · refine logged_fresh (screen_fresh hr (hb.subset ?_)) (by rw [screen_live]; exact hlog)
      intro item h
      simpa [or_comm, or_left_comm, or_assoc] using h
    · split
      · exact leaveBatch_fresh hr hlog
      · exact goto_fresh hr hb hlog

variable {epoch : ℕ}

theorem claimed_fresh {r : Except StoreError OpReply} (hr : a.RestFresh x.live) (hb : BatchFresh x.live c batch) :
    (a.claimed x c batch adopted epoch r).Fresh x.live := by
  unfold claimed
  split
  · refine goto_fresh hr ⟨hb.1, fun item hitem => ?_⟩ (by simp)
    exact hb.2 item (List.mem_of_mem_filter hitem)
  · exact leaveBatch_fresh hr (by simp)
  · exact leaveBatch_fresh hr (by simp)

variable {control : ActorControl}

theorem replied_fresh {row : NewOutboxRow} {r : Except StoreError OpReply} (hr : a.RestFresh x.live) :
    (a.replied x control row r).Fresh x.live := by
  unfold replied
  split
  · exact again_fresh hr (by simp)
  · exact goto_fresh hr trivial (by simp)
  · exact again_fresh hr (by simp)

theorem answered_fresh {r : Except StoreError OpReply} (h : a.Fresh x.live) : (a.answered x r).Fresh x.live := by
  obtain ⟨hpc, hr⟩ := h
  unfold answered
  split
  · next c batch item op heq =>
    rw [heq] at hpc
    split
    · exact finishPreparing_fresh hr hpc.1
    · exact prepareFailed_fresh hr hpc.1
  · split <;> exact again_fresh hr (by simp)
  · exact replied_fresh hr
  · next c adopted item _ _ rest kept heq =>
    rw [heq] at hpc
    split
    · refine screen_fresh ?_ (hpc.subset fun _ => List.mem_cons_of_mem _)
      exact hr
    · exact leaveBatch_fresh hr (by simp)
  · split
    · exact rejectAll_fresh hr
    · exact leaveBatch_fresh hr (by simp)
  · next c batch adopted _ epoch heq =>
    rw [heq] at hpc
    exact claimed_fresh hr hpc
  · split
    · exact goto_fresh hr trivial (by simp)
    · exact goto_fresh hr trivial (by simp)
  · split
    · unfold resolved
      split
      · exact leaveBatch_fresh hr (by simp)
      · split
        · exact goto_fresh hr trivial (by simp)
        · split
          · exact leaveBatch_fresh hr (by simp)
          · exact goto_fresh hr trivial (by simp)
    · exact leaveBatch_fresh hr (by simp)
  · exact ⟨.refl _, ⟨hpc, hr⟩, by simp [stay]⟩

theorem reply_fresh (hr : a.RestFresh x.live) : (a.reply x control).Fresh x.live := by
  unfold reply
  split
  · exact again_fresh hr (by simp)
  · exact goto_fresh hr trivial (by simp)

theorem reply_live : (a.reply x control).live = x.live := by
  unfold reply
  split <;> rfl

theorem rejectControl_fresh {reason : InboundRejectionKind} (hr : a.RestFresh x.live) (hlog : ∀ e ∈ log, e.Fresh x.live) :
    (a.rejectControl x control reason log).Fresh x.live := by
  unfold rejectControl
  split
  · exact again_fresh hr hlog
  · exact goto_fresh hr trivial hlog

theorem executeControl_extends {command : BridgeCommand} :
    x.live.Extends (a.executeControl x control command).live := by
  unfold executeControl
  dsimp only
  split
  · exact x.live.extends_apply _ _
  · exact .refl _

theorem executeControl_fresh {command : BridgeCommand} (hr : a.RestFresh x.live) :
    (a.executeControl x control command).Fresh x.live :=
  ⟨executeControl_extends, ⟨trivial, hr.mono executeControl_extends⟩, by simp [executeControl, goto, LogEntry.Fresh]⟩

theorem processControl_fresh (hr : a.RestFresh x.live) (hc : x.live.HasPolicy c.policy c.policyVersion)
    (hi : control.inbound.taken ≤ c.policyVersion) :
    (a.processControl x control c).Fresh x.live := by
  have hlog := decision_fresh hc hi
  unfold processControl
  split
  · exact rejectControl_fresh hr (by simp)
  · dsimp only
    split
    · exact rejectControl_fresh hr hlog
    · split
      · exact logged_fresh (reply_fresh hr) (by rw [reply_live]; exact hlog)
      · exact logged_fresh (executeControl_fresh hr) fun e he => (hlog e he).mono executeControl_extends

theorem stay_fresh (h : a.Fresh x.live) : (a.stay x).Fresh x.live := ⟨.refl _, h, by simp [stay]⟩

theorem receive_fresh (h : a.Fresh x.live) (hb : BatchFresh x.live c (collected.getD []))
    (hv : ∀ item mailbox, a.mailbox = .inbound item :: mailbox → item.taken ≤ c.policyVersion) :
    (a.receive x c collected).Fresh x.live := by
  obtain ⟨hmail, hdef⟩ := h.2
  unfold receive
  split
  · exact stay_fresh h
  · next item mailbox heq =>
    rw [heq] at hmail
    exact prepareInbound_fresh ⟨fun command hc => hmail command (List.mem_cons_of_mem _ hc), hdef⟩ hb (hv _ _ heq)
  · next control mailbox heq =>
    rw [heq] at hmail
    have hi := hmail _ List.mem_cons_self
    have hmail' : ∀ command ∈ mailbox, command.item.taken ≤ x.live.version :=
      fun command hc => hmail command (List.mem_cons_of_mem _ hc)
    split
    · exact goto_fresh ⟨hmail', hdef⟩ hi (by simp)
    · refine startBatch_fresh ⟨hmail', fun work hw => ?_⟩ hb
      cases hw
      exact hi

theorem dispatch_fresh (hr : a.RestFresh x.live) (hc : x.live.Has c) (hv : c.policyVersion = x.live.version) :
    (a.dispatch x c).Fresh x.live := by
  obtain ⟨hmail, hdef⟩ := hr
  have hr' : { a with deferred := none }.RestFresh x.live := ⟨hmail, by simp⟩
  unfold dispatch
  split
  · exact goto_fresh ⟨hmail, hdef⟩ hc (by simp)
  · next item heq =>
    refine openBatch_fresh hr' (.single hc ?_)
    rw [hv]
    exact hdef _ heq
  · next control heq => exact goto_fresh hr' (hdef _ heq) (by simp)

/-- No change falls between the two reads, nor between them and the time when the router took the message that the
actor takes now. Commands are decided on with a policy that is read for them. -/
def freshTake (l : Live) (a : Actor) (answer : Answer) : Bool :=
  match a.pc with
  | .readSettings p => p.version = l.version
  | .waiting c | .debouncing c _ =>
    answer ≠ .message || a.mailbox.head?.all fun command =>
      match command with
      | .inbound item => item.taken ≤ c.policyVersion
      | .control _ => true
  | _ => true

theorem awaited_fresh (h : a.Fresh x.live) (ht : freshTake x.live a x.env.answer = true) : (a.awaited x).Fresh x.live := by
  obtain ⟨hf, hr⟩ := h
  have h : a.Fresh x.live := ⟨hf, hr⟩
  have hto := a.awaited_to x
  generalize a.awaited x = o at hto ⊢
  unfold freshTake at ht
  cases hto with
  | stays => exact stay_fresh h
  | readsPolicy => exact goto_fresh hr x.live.readPolicy_has (by simp)
  | @dispatches p hpc =>
    rw [hpc] at hf ht
    have hv : p.version = x.live.version := of_decide_eq_true ht
    exact dispatch_fresh hr (Live.readSettings_has hf hv) hv
  | waits hpc =>
    rw [hpc] at hf ht
    unfold onWaiting
    split
    · exact stop_fresh (by simp)
    · exact again_fresh hr (by simp)
    · next hm => exact receive_fresh h ⟨hf, by simp [Copies.Covers]⟩ fun item mailbox hmail => by simpa [hm, hmail] using ht
    · exact stay_fresh h
  | collects hpc =>
    rw [hpc] at hf ht
    unfold onDebouncing
    split
    · exact stop_fresh (by simp)
    · exact startBatch_fresh hr hf
    · next hm => exact receive_fresh h hf fun item mailbox hmail => by simpa [hm, hmail] using ht
    · exact stay_fresh h
  | readsForCommand hpc =>
    rw [hpc] at hf
    exact goto_fresh hr ⟨x.live.readPolicy_has, hf⟩ (by simp)
  | processes hpc =>
    rw [hpc] at hf
    exact processControl_fresh hr hf.1 hf.2
  | executed => exact reply_fresh hr
  | drops => exact again_fresh hr (by simp)
  | replies | settles | marks | finalizes | resolves | releases => exact goto_fresh hr trivial (by simp)
  | goes _ hb hb' => exact goto_fresh hr ((ActorPc.fresh_iff hb').2 ((ActorPc.fresh_iff hb).1 hf)) (by simp)
  | claims hb => exact goto_fresh hr ((ActorPc.fresh_iff hb).1 hf) (by simp)
  | fails | leaves => exact leaveBatch_fresh hr (by simp)
  | rejects => exact rejectAll_fresh hr
  | @screens c batch adopted hpc =>
    rw [hpc] at hf
    have hb : BatchFresh x.live c batch := hf
    exact screen_fresh hr (by simpa using hb)
  | @starts t hpc =>
    rw [hpc] at hf
    have ht : x.live.Has t.copies ∧ t.copies.Covers t.sources := hf
    exact goto_fresh hr trivial (by simpa [LogEntry.Fresh] using ht)

/-- **One step of an actor decides and starts turns with copies as new as its messages.** -/
theorem run_fresh {tenant : TenantNamespace} (h : a.Fresh x.live) (ht : freshTake x.live a x.env.answer = true) :
    (a.run tenant x).Fresh x.live := by
  unfold run
  split
  · exact answered_fresh h
  · exact stay_fresh h
  · split
    · exact stay_fresh h
    · exact awaited_fresh h ht

end Actor

/-! ## The bridge -/

namespace Bridge

variable {C : Codec} {I : InboundCodec} {tenant : TenantNamespace} {fromStr : String → Option String} {st : Bridge}

/-- The condition on an event: the router has read its policy since the last change when it takes a message, and the
actor has read its policy and settings, without a change between them, since the last change before that. -/
def freshTake (st : Bridge) : Event → Bool
  | .router env =>
    match st.router with
    | .waiting c => env.wake ≠ .message || c.policyVersion = st.live.version
    | _ => true
  | .actor scope env => (st.findActor scope).all fun a => a.freshTake st.live env.answer
  | _ => true

/-- The router's copies cover what it routes. -/
def RouterPc.Fresh (l : Live) (retries : List ActorInbound) : RouterPc → Prop
  | .readSettings p => l.HasPolicy p.policy p.version ∧ ∀ item ∈ retries, item.taken ≤ p.version
  | .waiting c => l.HasPolicy c.policy c.policyVersion ∧ ∀ item ∈ retries, item.taken ≤ c.policyVersion
  | .completing _ item | .rejecting _ item _ _ | .readThread _ _ item | .evicting _ item _ => item.taken ≤ l.version
  | .loopTop => True

/-- The actors, the retry lane and what was done are fresh. -/
structure TasksFresh (st : Bridge) : Prop where
  retries : ∀ item ∈ st.retries, item.taken ≤ st.live.version
  actors : ∀ a ∈ st.actors, a.Fresh st.live
  log : ∀ e ∈ st.log, e.Fresh st.live

/-- Every task is fresh, and so is what they did. -/
structure Fresh (st : Bridge) : Prop extends TasksFresh st where
  router : RouterPc.Fresh st.live st.retries st.router

theorem RouterPc.Fresh.mono {l l' : Live} (he : l.Extends l') {retries : List ActorInbound} {pc : RouterPc}
    (h : RouterPc.Fresh l retries pc) : RouterPc.Fresh l' retries pc := by
  cases pc with
  | readSettings p => exact ⟨h.1.mono he, h.2⟩
  | waiting c => exact ⟨h.1.mono he, h.2⟩
  | loopTop => trivial
  | completing | rejecting | readThread | evicting => exact Nat.le_trans h he.1

variable {scope : String}

/-- An actor of the bridge changes, the others stay. -/
theorem setActor_forall {a : Actor} {P : Actor → Prop} (h : ∀ b ∈ st.actors, P b) (ha : P a) :
    ∀ b ∈ (st.setActor scope a).actors, P b := by
  intro b hb
  obtain ⟨b', hb', rfl⟩ := List.mem_map.1 hb
  split
  · exact ha
  · exact h b' hb'

theorem setActor_fresh {a : Actor} (h : st.TasksFresh) (ha : a.Fresh st.live) :
    (st.setActor scope a).TasksFresh :=
  ⟨h.retries, setActor_forall h.actors ha, h.log⟩

variable {env : RouterEnv} {src : RouteSource} {item : ActorInbound}

theorem routed_fresh (h : st.TasksFresh) : (st.routed src).Fresh := by
  cases src with
  | queue | retry => exact ⟨⟨h.retries, h.actors, h.log⟩, trivial⟩

theorem spawn_fresh {l : Live} {scope : ScopeKey} {settings : RouterSettings} : (Actor.spawn scope settings).Fresh l :=
  ⟨trivial, by simp [Actor.spawn], by simp [Actor.spawn]⟩

/-- The message is decided with copies that cover it. -/
theorem Handles.fresh {copies : Option Copies} {st' : Bridge} (h : Handles False copies src item st st') : st.TasksFresh →
    item.taken ≤ st.live.version →
    (∀ c ∈ copies, st.live.HasPolicy c.policy c.policyVersion ∧ item.taken ≤ c.policyVersion) → st'.Fresh := by
  induction h with
  | lost => exact fun h _ _ => ⟨⟨h.retries, h.actors, h.log⟩, trivial⟩
  | later =>
    intro h hi _
    refine routed_fresh ⟨fun other hother => ?_, h.actors, h.log⟩
    rcases List.mem_append.1 hother with hother | hother
    · exact h.retries other hother
    · rw [List.mem_singleton.1 hother]
      exact hi
  | @works st pc hin =>
    intro h hi _
    refine ⟨⟨h.retries, h.actors, h.log⟩, ?_⟩
    cases pc with
    | completing | rejecting | readThread | evicting => cases hin; exact hi
    | loopTop | readSettings | waiting => cases hin
  | takes ha _ _ hitem =>
    intro h hi _
    obtain ⟨hpc, hmailbox, hrest⟩ := h.actors _ ha
    refine routed_fresh (setActor_fresh h ⟨hpc, fun command hc => ?_, hrest⟩)
    rcases List.mem_append.1 hc with hc | hc
    · exact hmailbox command hc
    · rw [List.mem_singleton.1 hc, hitem]
      exact hi
  | decides hc _ ih =>
    intro h hi hcopies
    refine ih ⟨h.retries, h.actors, fun e he => ?_⟩ hi hcopies
    rcases List.mem_append.1 he with he | he
    · exact h.log e he
    · exact Actor.decision_fresh (hcopies _ hc).1 (hcopies _ hc).2 e he
  | spawns _ _ ih =>
    refine fun h => ih ⟨h.retries, fun b hb => ?_, h.log⟩
    rcases List.mem_append.1 hb with hb | hb
    · exact h.actors b hb
    · rw [List.mem_singleton.1 hb]
      exact spawn_fresh
  | removes _ _ _ _ ih => exact fun h => ih ⟨h.retries, fun b hb => h.actors b (List.mem_of_mem_filter hb), h.log⟩
  | @cancels st _ a ha _ _ ih =>
    intro h
    have hactor : Actor.Fresh st.live { a with cancelled := true, pendingMedia := a.pendingMedia.clear } := h.actors a ha
    exact ih (setActor_fresh h hactor)

theorem routerStep_fresh (h : st.Fresh) (ht : st.freshTake (.router env) = true) : (st.routerStep fromStr env).Fresh := by
  have hr := h.router
  have hheld : ∀ {src item}, st.router.inHand = some (src, item) → item.taken ≤ st.live.version := by
    intro src item hin
    cases hpc : st.router with
    | completing | rejecting | readThread | evicting => rw [hpc] at hr hin; cases hin; exact hr
    | loopTop | readSettings | waiting => rw [hpc] at hin; cases hin
  have hto : RouterTo False env st (st.routerStep fromStr env) := routerStep_to nofun
  generalize st.routerStep fromStr env = st' at hto
  cases hto with
  | readsPolicy => exact ⟨⟨h.retries, h.actors, h.log⟩, st.live.readPolicy_has, h.retries⟩
  | readsSettings heq =>
    rw [heq] at hr
    exact ⟨⟨h.retries, h.actors, h.log⟩, hr.1, hr.2⟩
  | wakes => exact ⟨⟨h.retries, h.actors, h.log⟩, trivial⟩
  | idles | waits => exact h
  | @message c _ _ _ heq hw _ hh =>
    rw [heq] at hr
    have hv : c.policyVersion = st.live.version := by simpa [freshTake, heq, hw] using ht
    refine hh.fresh ⟨h.retries, h.actors, h.log⟩ (Nat.le_refl st.live.version) ?_
    rintro _ ⟨⟩
    exact ⟨hr.1, Nat.le_of_eq hv.symm⟩
  | retry heq _ hq hh =>
    rw [heq, hq] at hr
    have hretries := h.retries
    rw [hq] at hretries
    refine hh.fresh ⟨fun other ho => hretries other (List.mem_cons_of_mem _ ho), h.actors, h.log⟩
      (hretries _ List.mem_cons_self) ?_
    rintro _ ⟨⟩
    exact ⟨hr.1, hr.2 _ List.mem_cons_self⟩
  | settles => exact routed_fresh h.toTasksFresh
  | fails hin _ hh | resumes hin _ hh => exact hh.fresh h.toTasksFresh (hheld hin) (by simp)

theorem actorStep_fresh {env : Env} (h : st.Fresh) (ht : st.freshTake (.actor scope env) = true) :
    (st.actorStep tenant scope env).Fresh := by
  unfold actorStep
  split
  · exact h
  · next a ha =>
    have ht' : a.freshTake st.live env.answer = true := by
      simpa [freshTake, ha] using ht
    have ho : (a.run tenant ⟨st.live, st.supervisor, env⟩).Fresh st.live :=
      Actor.run_fresh (x := ⟨st.live, st.supervisor, env⟩) (h.actors a (findActor_some ha).1) ht'
    have hext := ho.continues
    refine ⟨setActor_fresh ⟨fun item hi => Nat.le_trans (h.retries item hi) hext.1,
      fun b hb => (h.actors b hb).mono hext, fun e he => ?_⟩ ho.actor, h.router.mono hext⟩
    rcases List.mem_append.1 he with he | he
    · exact (h.log e he).mono hext
    · exact ho.log e he

theorem actorStore_fresh {fate : Fate} {now : ℤ} (h : st.Fresh) :
    (st.actorStore C I tenant scope fate now).Fresh := by
  unfold actorStore
  split
  · exact h
  · next a ha =>
    split
    · next op _ _ =>
      generalize st.store.callOp C I fate now op = answer
      exact ⟨⟨h.retries, setActor_forall h.actors (h.actors a (findActor_some ha).1), h.log⟩, h.router⟩
    · exact h

theorem initial_fresh (inner : LiveInner) : (initial inner).Fresh :=
  ⟨⟨by simp [initial], by simp [initial], by simp [initial]⟩, trivial⟩

theorem restart_fresh {inner : LiveInner} {fate : Fate} {now : ℤ} {accepted : Bool} :
    (st.restart C I tenant inner fate now accepted).Fresh := by
  have h := initial_fresh inner
  unfold restart
  dsimp only
  split
  · split
    · exact ⟨⟨h.retries, h.actors, h.log⟩, h.router⟩
    · exact ⟨⟨h.retries, h.actors, h.log⟩, h.router⟩
  · exact ⟨⟨h.retries, h.actors, h.log⟩, h.router⟩

/-- **One step of the bridge keeps every task fresh.** -/
theorem step_fresh (h : st.Fresh) {e : Event} (ht : st.freshTake e = true) :
    (st.step C I tenant fromStr e).Fresh := by
  have same : ∀ {st' : Bridge}, st'.live = st.live → st'.retries = st.retries → st'.actors = st.actors →
      st'.log = st.log → st'.router = st.router → st'.Fresh := by
    intro st' hlive hretries hactors hlog hrouter
    refine ⟨⟨?_, ?_, ?_⟩, ?_⟩
    · rw [hretries, hlive]; exact h.retries
    · rw [hactors, hlive]; exact h.actors
    · rw [hlog, hlive]; exact h.log
    · rw [hrouter, hretries, hlive]; exact h.router
  have running : (st.stepRunning C I tenant fromStr e).Fresh := by
    cases e with
    | deliver | supervise | sweep => exact same rfl rfl rfl rfl rfl
    | register i fate now =>
      show (st.register C I tenant i fate now).Fresh
      unfold register
      split
      · exact same rfl rfl rfl rfl rfl
      · exact h
    | handled i accepted =>
      show (st.handled tenant i accepted).Fresh
      unfold handled
      split
      · dsimp only
        split
        · split <;> exact same rfl rfl rfl rfl rfl
        · exact same rfl rfl rfl rfl rfl
      · exact h
    | abandon i =>
      show (st.abandon i).Fresh
      unfold abandon
      split
      · exact same rfl rfl rfl rfl rfl
      · exact same rfl rfl rfl rfl rfl
      · exact h
    | drive fits =>
      show (st.drive fits).Fresh
      unfold drive send
      split
      · split
        · exact h
        · split <;> exact same rfl rfl rfl rfl rfl
      · split <;> exact same rfl rfl rfl rfl rfl
      · exact h
    | routerStore fate now =>
      show (st.routerStore C I tenant fate now).Fresh
      unfold routerStore
      split
      · exact same rfl rfl rfl rfl rfl
      · exact h
    | router env => exact routerStep_fresh h ht
    | actorStore scope fate now => exact actorStore_fresh h
    | actor scope env => exact actorStep_fresh h ht
    | restart inner fate now accepted => exact restart_fresh
  unfold step
  split
  · exact restart_fresh
  · split
    · exact running
    · exact h

/-! ## Runs -/

/-- The log of a bridge binds: a message is decided on with a policy that was read after every change made before the
router took it, and a turn uses policy and settings of one version that no source is newer than. -/
def Binds (st : Bridge) : Prop :=
  (∀ item policy version, LogEntry.decision item policy version ∈ st.log →
    item.taken ≤ version ∧ ∃ inner, st.live.get? version = some inner ∧ inner.policy = policy) ∧
  ∀ sources c, LogEntry.started sources c ∈ st.log →
    c.policyVersion = c.settingsVersion ∧ (∀ item ∈ sources, item.taken ≤ c.policyVersion) ∧
    ∃ inner, st.live.get? c.policyVersion = some inner ∧ inner.policy = c.policy ∧ inner.settings = c.settings

theorem Fresh.binds (h : st.Fresh) : st.Binds := by
  refine ⟨fun item policy version he => h.log _ he, fun sources c he => ?_⟩
  obtain ⟨⟨hv, hinner⟩, hcovers⟩ := h.log _ he
  exact ⟨hv, hcovers, hinner⟩

/-- **A configuration change binds every later message,** in every run in which the tasks take messages with fresh
copies. -/
theorem change_binds_later_messages (inner : LiveInner) (es : List Event)
    (hes : Along (step C I tenant fromStr) (fun st e => st.freshTake e = true) (initial inner) es) :
    (after C I tenant fromStr inner es).Binds :=
  (exec_invariant (I := Fresh) (fun _ _ h ht => step_fresh h ht) (initial_fresh inner) hes).binds

/-! ### A removed sender -/

/-- The owner removes a sender. -/
def removalMessage : InboundEvent := directMessage "evt_1" "om_1" "oc_1" "ou_1" "/config sender rm ou_2"

/-- A message in another chat. -/
def laterMessage (senderId : String) : InboundEvent := directMessage "evt_2" "om_2" "oc_2" senderId "hello"

def removalCodec : InboundCodec :=
  codecOf
    [(.ofEvent (persistableEvent removalMessage), directPayload "evt_1" "om_1" "oc_1" "ou_1" "/config sender rm ou_2"),
     (.ofEvent (persistableEvent (laterMessage "ou_1")), directPayload "evt_2" "om_2" "oc_2" "ou_1" "hello"),
     (.ofEvent (persistableEvent (laterMessage "ou_2")), directPayload "evt_2" "om_2" "oc_2" "ou_2" "hello")]
    (by decide)

/-- The bridge after a run of the sample. -/
def removalAfter (es : List Event) : Bridge := after noOutbox removalCodec sampleTenant (fun _ => none) sampleInner es

/-- The removal reaches its actor. -/
def removalRun : List Event :=
  startEvent :: intake removalMessage 1001 ++
    [routerTakes .other, routerTakes .other, routerTakes .message, actorTakes "im:oc_1" .next, actorTakes "im:oc_1" .next,
     actorTakes "im:oc_1" .message]

/-- The actor reads the policy and the settings for the command and runs it. -/
def removalApplied : List Event := [actorTakes "im:oc_1" .next, actorTakes "im:oc_1" .next]

/-- The router reads its copies after the removal, and the owner's message gets a turn. -/
def freshRun : List Event :=
  removalRun ++ removalApplied ++ [routerTakes .other, routerTakes .other] ++ intake (laterMessage "ou_1") 1002 ++
    [.supervise ⟨1, true, false⟩, routerTakes .message] ++
    ([.next, .next, .message, .timer, .adoption (some none), .mapping (some none), .next, .permit, .mapping (some none),
      .workspace (.ok false), .next, .thread (.ok "thread-1"), .subscribed (.ok "client-1")].map
        (actorTakes "im:oc_2" ·)) ++
    [.actorStore "im:oc_2" .execute 2000, actorTakes "im:oc_2" .next, actorTakes "im:oc_2" (.assembled true)]

set_option maxRecDepth 20000 in
theorem freshRun_fresh :
    Along (step noOutbox removalCodec sampleTenant fun _ => none) (fun st e => st.freshTake e = true) (initial sampleInner)
      freshRun := by
  decide

set_option maxRecDepth 20000 in
theorem freshRun_started :
    ((removalAfter freshRun).log.any fun e => match e with
      | .started [item] c => item = ⟨laterMessage "ou_1", 1⟩ && c.policyVersion = 1 && !c.policy.isAllowedSender "ou_2"
      | _ => false) = true := by
  decide

theorem change_binds_later_messages_freshRun :
    ((removalAfter freshRun).log.any fun e => match e with
      | .started [item] c => item = ⟨laterMessage "ou_1", 1⟩ && c.policyVersion = 1 && !c.policy.isAllowedSender "ou_2"
      | _ => false) = true ∧ (removalAfter freshRun).Binds :=
  ⟨freshRun_started, change_binds_later_messages sampleInner freshRun freshRun_fresh⟩

/-- The router reads its copies, the removal is applied, and a message of the removed sender comes. -/
def staleRun : List Event :=
  removalRun ++ [routerTakes .other, routerTakes .other] ++ removalApplied ++ intake (laterMessage "ou_2") 1002 ++
    [routerTakes .message]

set_option maxRecDepth 20000 in
theorem staleRun_decision :
    LogEntry.decision ⟨laterMessage "ou_2", 1⟩ sampleInner.policy 0 ∈ (removalAfter staleRun).log ∧
      sampleInner.policy.decide (laterMessage "ou_2") = .allow ∧
        (removalAfter staleRun).live.inner.policy.decide (laterMessage "ou_2") = .denyNotOwner := by
  decide

/-- **A removed sender is let through**: the router decides on its message with the policy from before the removal. -/
theorem removed_sender_let_through :
    sampleInner.policy.decide (laterMessage "ou_2") = .allow ∧
      (removalAfter staleRun).live.inner.policy.decide (laterMessage "ou_2") = .denyNotOwner ∧
        ¬(removalAfter staleRun).Binds := by
  obtain ⟨hmem, hallow, hdeny⟩ := staleRun_decision
  refine ⟨hallow, hdeny, fun h => ?_⟩
  have hle : 1 ≤ 0 := (h.1 _ _ _ hmem).1
  omega

end Bridge

end LarkCodexBridge.Runtime
