import Mathlib
import LarkCodexBridge.Runtime.Custody
import LarkCodexBridge.Runtime.ScopeTask

/-!
# The batches of a scope actor

The actor takes commands from its mailbox one by one, prepares the messages, and processes batches of prepared messages
and single commands. One command that is taken while a batch is collected may wait for the next round.

* `ScopeUnit`: what is processed at once, and `BatchTask`: the actor with the works it prepared and the units it processed;
* `Actor.run_cases`: a step stays, works on a unit, or assembles one;
* `Partitioned`: the units and what the actor has in hand are the prepared works in order (`Partitioned.step`);
* `units_partition`, and `repeated_message_skipped`: the second copy of a message in one batch is not processed.
-/

namespace LarkCodexBridge.Runtime

open Limits Lark Store StepSystem

/-! ## Units -/

def DeferredScopeWork.command : DeferredScopeWork → ScopeCommand
  | .prepared item => .inbound item.inbound
  | .control c => .control c

/-- A media message that `prepare_inbound` settles on its own. -/
def isSettledMedia (event : InboundEvent) : Bool :=
  isPendingMediaEvent event || (event.chatType ≠ .p2p && isConversationMedia event.messageType)

/-- The command is not settled on its own. -/
def ScopeCommand.isPrepared : ScopeCommand → Bool
  | .inbound item => !isSettledMedia item.event
  | .control _ => true

/-- What the actor processes at once. -/
inductive ScopeUnit where
  | batch (items : List TurnInbound)
  | control (control : ActorControl)

namespace ScopeUnit

def works : ScopeUnit → List DeferredScopeWork
  | .batch items => items.map .prepared
  | .control c => [.control c]

/-- `process_batch` leaves out the later copies of a message. -/
def processed : ScopeUnit → ScopeUnit
  | .batch items => .batch (deduplicateBatch items)
  | .control c => .control c

/-- A batch keeps to its bounds, and an audio message is alone. -/
def WellFormed : ScopeUnit → Prop
  | .batch items => items ≠ [] ∧ items.length ≤ turnBatchMaxMessages ∧
      (items.length = 1 ∨ textBytes items ≤ turnBatchTextByteBudget) ∧
      ∀ item ∈ items, isAudioEvent item.inbound.event = true → items = [item]
  | .control _ => True

end ScopeUnit

def ActorPc.collected : ActorPc → List TurnInbound
  | .preparing _ (some batch) _ _ | .debouncing _ batch => batch
  | _ => []

/-- The unit whose processing begins. -/
def ActorPc.begins : ActorPc → List ScopeUnit
  | .readAdoption _ batch => [.batch batch]
  | .controlPolicy control => [.control control]
  | _ => []

/-- The units whose processing begins on the way from one await to another. -/
def unitsBegun (pc pc' : ActorPc) : List ScopeUnit := if pc.begins = [] then pc'.begins else []

namespace Actor

/-- The prepared works that are not processed yet. -/
def hand (a : Actor) : List DeferredScopeWork := a.pc.collected.map .prepared ++ a.deferred.toList

/-- The command that a step takes from the mailbox. -/
def takes (x : Ctx) (a : Actor) : Option ScopeCommand :=
  match a.pc with
  | .waiting _ | .debouncing _ _ => if x.env.answer = .message ∧ a.cancelled = false then a.mailbox.head? else none
  | _ => none

/-- The work that a step prepares. -/
def prepares (x : Ctx) (a : Actor) : Option DeferredScopeWork :=
  match a.takes x with
  | some (.inbound item) => if isSettledMedia item.event then none else some (.prepared (a.reserve x item).1)
  | some (.control control) => some (.control control)
  | none => none

end Actor

/-- A scope actor with the commands that its mailbox accepted and those it took, the works it prepared and the units it
began to process. -/
structure BatchTask where
  task : ScopeTask
  accepted : List ScopeCommand
  taken : List ScopeCommand
  prepared : List DeferredScopeWork
  units : List ScopeUnit

namespace BatchTask

variable (tenant : TenantNamespace)

def step (s : BatchTask) (e : TaskEvent) : BatchTask :=
  let task := s.task.step tenant e
  match e with
  | .route command =>
    { s with
      task
      accepted := if s.task.actor.mailbox.length < task.actor.mailbox.length then s.accepted ++ [command] else s.accepted }
  | .go env =>
    let x : Ctx := ⟨s.task.live, s.task.supervisor, env⟩
    { s with
      task
      taken := s.taken ++ (s.task.actor.takes x).toList
      prepared := s.prepared ++ (s.task.actor.prepares x).toList
      units := s.units ++ unitsBegun s.task.actor.pc task.actor.pc }
  | _ => { s with task }

def spawn (scope : ScopeKey) (live : Live) (supervisor : SupervisorAccess) : BatchTask :=
  ⟨.spawn scope live supervisor, [], [], [], []⟩

end BatchTask

/-! ## Steps on a unit -/

/-- A batch is collected or a unit begins. -/
def ActorPc.assembles : ActorPc → Bool
  | .preparing _ _ _ _ | .debouncing _ _ | .readAdoption _ _ | .controlPolicy _ => true
  | _ => false

/-- The step leaves the actor elsewhere, with the same rest, or ended. -/
structure Outcome.Leaves (o : Outcome) (deferred : Option DeferredScopeWork) (mailbox : List ScopeCommand) : Prop where
  elsewhere : o.actor.pc.assembles = false
  rest : o.actor.pc = .ended ∨ o.actor.deferred = deferred ∧ o.actor.mailbox = mailbox

/-- The step stays, or leaves. -/
def Outcome.Works (o : Outcome) (a : Actor) : Prop := o.actor = a ∨ o.Leaves a.deferred a.mailbox

namespace Actor

variable {x : Ctx} {a : Actor} {log : List LogEntry} {c : Copies} {batch : List TurnInbound} {tenant : TenantNamespace}
  {state : ScopeState} {dropped : List ActorInbound} {reason : InboundRejectionKind} {control : ActorControl}

theorem goto_leaves {pc : ActorPc} (h : pc.assembles = false) : (a.goto x pc log).Leaves a.deferred a.mailbox :=
  ⟨h, .inr ⟨rfl, rfl⟩⟩

theorem again_leaves :
    (a.again x state log dropped).Leaves a.deferred a.mailbox := ⟨rfl, .inr ⟨rfl, rfl⟩⟩

theorem stop_leaves : (a.stop x dropped log).Leaves a.deferred a.mailbox := ⟨rfl, .inl rfl⟩

theorem leaveBatch_leaves :
    (a.leaveBatch x state batch dropped log).Leaves a.deferred a.mailbox := by
  unfold leaveBatch
  dsimp only
  split
  · exact ⟨rfl, .inl rfl⟩
  · exact ⟨rfl, .inr ⟨rfl, rfl⟩⟩

theorem rejectAll_leaves : (a.rejectAll x reason batch).Leaves a.deferred a.mailbox := by
  cases batch with
  | nil => exact leaveBatch_leaves
  | cons item rest =>
    rw [rejectAll]
    split
    · exact leaveBatch_leaves
    · exact goto_leaves rfl

theorem screen_leaves {adopted : Bool} {items kept : List TurnInbound} :
    (a.screen x c adopted items kept).Leaves a.deferred a.mailbox := by
  induction items generalizing kept with
  | nil =>
    unfold screen
    split
    · exact leaveBatch_leaves
    · exact goto_leaves rfl
  | cons item rest ih =>
    unfold screen
    split
    · exact ⟨ih.elsewhere, ih.rest⟩
    · split
      · exact leaveBatch_leaves
      · exact goto_leaves rfl

theorem reply_leaves : (a.reply x control).Leaves a.deferred a.mailbox := by
  unfold reply
  split
  · exact again_leaves
  · exact goto_leaves rfl

theorem rejectControl_leaves :
    (a.rejectControl x control reason log).Leaves a.deferred a.mailbox := by
  unfold rejectControl
  split
  · exact again_leaves
  · exact goto_leaves rfl

theorem processControl_leaves : (a.processControl x control c).Leaves a.deferred a.mailbox := by
  unfold processControl
  split
  · exact rejectControl_leaves
  · dsimp only
    split
    · exact rejectControl_leaves
    · split
      · exact ⟨reply_leaves.elsewhere, reply_leaves.rest⟩
      · exact ⟨rfl, .inr ⟨rfl, rfl⟩⟩

theorem answered_works {r : Except StoreError OpReply} (h : ∀ c batch item op, a.pc ≠ .preparing c batch item op) :
    (a.answered x r).Works a := by
  unfold answered
  cases hpc : a.pc with
  | preparing c batch item op => exact absurd hpc (h c batch item op)
  | controlRejecting control reason notice =>
    dsimp only
    split <;> exact .inr again_leaves
  | replying control row =>
    dsimp only
    unfold replied
    split
    · exact .inr again_leaves
    · exact .inr (goto_leaves rfl)
    · exact .inr again_leaves
  | screening c adopted item reason notice rest kept =>
    dsimp only
    split
    · exact .inr screen_leaves
    · exact .inr leaveBatch_leaves
  | rejectingAll reason item notice rest =>
    dsimp only
    split
    · exact .inr rejectAll_leaves
    · exact .inr leaveBatch_leaves
  | claiming c batch adopted turn epoch =>
    dsimp only
    unfold claimed
    split
    · exact .inr (goto_leaves rfl)
    · exact .inr leaveBatch_leaves
    · exact .inr leaveBatch_leaves
  | markRunning t codexTurnId =>
    dsimp only
    split <;> exact .inr (goto_leaves rfl)
  | resolving t resolution waits =>
    dsimp only
    unfold resolved
    split
    · split
      · exact .inr leaveBatch_leaves
      · split
        · exact .inr (goto_leaves rfl)
        · split
          · exact .inr leaveBatch_leaves
          · exact .inr (goto_leaves rfl)
    · exact .inr leaveBatch_leaves
  | _ => exact .inl rfl

/-- The awaits at which a command is taken or waits. -/
def picks : ActorPc → Bool
  | .readSettings _ | .waiting _ | .debouncing _ _ => true
  | _ => false

theorem awaited_works (h : picks a.pc = false) : (a.awaited x).Works a := by
  have hto := a.awaited_to x
  generalize a.awaited x = o at hto ⊢
  cases hto with
  | stays => exact .inl rfl
  | dispatches hpc | waits hpc | collects hpc =>
    rw [hpc] at h
    cases h
  | readsPolicy | readsForCommand | replies | settles | claims | starts | marks | finalizes | resolves | releases =>
    exact .inr (goto_leaves rfl)
  | @goes c batch pc' state hb hb' hne hp =>
    refine .inr (goto_leaves ?_)
    cases pc' with
    | readAdoption =>
      cases hb'
      exact absurd rfl hne
    | preparing | debouncing | controlPolicy => cases hb'
    | _ => rfl
  | processes => exact .inr processControl_leaves
  | executed => exact .inr reply_leaves
  | drops => exact .inr again_leaves
  | fails | leaves => exact .inr leaveBatch_leaves
  | rejects => exact .inr rejectAll_leaves
  | screens => exact .inr screen_leaves

end Actor

/-! ## Assembling -/

/-- A batch that goes on being collected. -/
structure Filling (batch : List TurnInbound) : Prop where
  nonempty : batch ≠ []
  count : batch.length < turnBatchMaxMessages
  bytes : textBytes batch < turnBatchTextByteBudget
  plain : ∀ item ∈ batch, isAudioEvent item.inbound.event = false

def ActorPc.Fills : ActorPc → Prop
  | .preparing _ (some batch) _ _ | .debouncing _ batch => Filling batch
  | _ => True

/-- The works are a unit that begins and what the actor has in hand then. -/
structure Outcome.Assembles (o : Outcome) (works : List DeferredScopeWork) (mailbox : List ScopeCommand) : Prop where
  mailbox : o.actor.mailbox = mailbox
  fills : o.actor.pc.Fills
  unit : ∃ runs : List ScopeUnit, o.actor.pc.begins = runs.map ScopeUnit.processed ∧
    works = runs.flatMap ScopeUnit.works ++ o.actor.hand ∧ ∀ run ∈ runs, run.WellFormed

namespace Actor

variable {x : Ctx} {a : Actor} {log : List LogEntry} {c : Copies} {batch : List TurnInbound} {tenant : TenantNamespace}
  {collected : Option (List TurnInbound)} {item : ActorInbound} {o : Outcome}

theorem textBytes_append (batch batch' : List TurnInbound) : textBytes (batch ++ batch') = textBytes batch + textBytes batch' := by
  rw [textBytes, List.map_append, List.sum_append, textBytes, textBytes]

/-- A batch of messages without audio that is within its bounds. -/
theorem wellFormed_batch (hne : batch ≠ []) (hcount : batch.length ≤ turnBatchMaxMessages)
    (hbytes : batch.length = 1 ∨ textBytes batch ≤ turnBatchTextByteBudget)
    (hplain : ∀ item ∈ batch, isAudioEvent item.inbound.event = false) : (ScopeUnit.batch batch).WellFormed :=
  ⟨hne, hcount, hbytes, fun item hitem haudio => by rw [hplain item hitem] at haudio; cases haudio⟩

theorem wellFormed_single (item : TurnInbound) : (ScopeUnit.batch [item]).WellFormed :=
  ⟨List.cons_ne_nil _ _, Nat.le_of_ble_eq_true rfl, .inl rfl, fun other hother _ => by rw [List.mem_singleton.1 hother]⟩

theorem Filling.wellFormed (h : Filling batch) : (ScopeUnit.batch batch).WellFormed :=
  wellFormed_batch h.nonempty h.count.le (.inr h.bytes.le) h.plain

theorem startBatch_assembles (h : (ScopeUnit.batch batch).WellFormed) :
    (a.startBatch x c batch).Assembles (batch.map .prepared ++ a.deferred.toList) a.mailbox where
  mailbox := rfl
  fills := trivial
  unit := ⟨[.batch batch], rfl, by simp [startBatch, goto, hand, ActorPc.collected, ScopeUnit.works], by simpa using h⟩

theorem collect_assembles (h : (ScopeUnit.batch batch).WellFormed)
    (hplain : ∀ item ∈ batch, isAudioEvent item.inbound.event = false) :
    (a.collect x c batch).Assembles (batch.map .prepared ++ a.deferred.toList) a.mailbox := by
  unfold collect
  split
  · exact startBatch_assembles h
  · next hroom =>
    obtain ⟨hcount, hbytes⟩ := not_or.1 hroom
    exact ⟨rfl, ⟨h.1, not_le.1 hcount, not_le.1 hbytes, hplain⟩, [], rfl, rfl, List.forall_mem_nil _⟩

theorem openBatch_assembles (first : TurnInbound) :
    (a.openBatch x c first).Assembles (.prepared first :: a.deferred.toList) a.mailbox := by
  unfold openBatch
  dsimp only
  split
  · exact startBatch_assembles (wellFormed_single first)
  · next haudio =>
    refine collect_assembles (wellFormed_single first) fun item hitem => ?_
    rw [List.mem_singleton.1 hitem]
    exact Bool.eq_false_iff.2 haudio

theorem joinBatch_assembles (hd : a.deferred = none) (h : Filling batch) (next : TurnInbound) :
    (a.joinBatch x c batch next).Assembles (batch.map .prepared ++ [.prepared next]) a.mailbox := by
  unfold joinBatch
  split
  · exact startBatch_assembles (Filling.wellFormed h)
  · next hjoins =>
    obtain ⟨haudio, hbytes⟩ := not_or.1 hjoins
    have hplain : ∀ item ∈ batch ++ [next], isAudioEvent item.inbound.event = false := by
      intro item hitem
      rcases List.mem_append.1 hitem with hitem | hitem
      · exact h.plain item hitem
      · rw [List.mem_singleton.1 hitem]
        exact Bool.eq_false_iff.2 haudio
    have hwf : (ScopeUnit.batch (batch ++ [next])).WellFormed := by
      refine wellFormed_batch (by simp) ?_ (.inr ?_) hplain
      · rw [List.length_append]
        exact h.count
      · rw [textBytes_append]
        simpa [textBytes] using not_lt.1 hbytes
    have hall := @collect_assembles x a c _ hwf hplain
    rwa [hd, Option.toList_none, List.append_nil, List.map_append] at hall

/-- What was collected, if anything. -/
def FillsOption (collected : Option (List TurnInbound)) : Prop := ∀ batch, collected = some batch → Filling batch

theorem prepared_assembles (hd : a.deferred = none) (h : FillsOption collected) (turn : TurnInbound) :
    (a.prepared x c collected turn).Assembles ((collected.getD []).map .prepared ++ [.prepared turn]) a.mailbox := by
  cases collected with
  | none =>
    have hopen := @openBatch_assembles x a c turn
    rwa [hd] at hopen
  | some batch => exact joinBatch_assembles hd (h batch rfl) turn

theorem settled_assembles (hd : a.deferred = none) (h : FillsOption collected) :
    (a.settled x c collected).Assembles ((collected.getD []).map .prepared) a.mailbox := by
  cases collected with
  | none => exact ⟨rfl, trivial, [], rfl, by simp [settled, again, hand, ActorPc.collected, hd], List.forall_mem_nil _⟩
  | some batch =>
    have hfill := h batch rfl
    have hcollect := @collect_assembles x a c _ (Filling.wellFormed hfill) hfill.plain
    rwa [hd, Option.toList_none, List.append_nil] at hcollect

theorem prepareFailed_assembles {kind : ScopeFailureKind} (hd : a.deferred = none) (h : FillsOption collected) :
    (a.prepareFailed x c collected item kind).Assembles ((collected.getD []).map .prepared) a.mailbox := by
  cases collected with
  | none => exact ⟨rfl, trivial, [], rfl, by simp [prepareFailed, again, hand, ActorPc.collected, hd], List.forall_mem_nil _⟩
  | some batch =>
    have hstart := @startBatch_assembles x a c _ (Filling.wellFormed (h batch rfl))
    rw [hd, Option.toList_none, List.append_nil] at hstart
    exact ⟨hstart.mailbox, hstart.fills, hstart.unit⟩

theorem preparing_assembles {op : SettleOp} (hd : a.deferred = none) (h : FillsOption collected) :
    (a.goto x (.preparing c collected item op) log).Assembles ((collected.getD []).map .prepared) a.mailbox := by
  cases collected with
  | none => exact ⟨rfl, trivial, [], rfl, by simp [goto, hand, ActorPc.collected, hd], List.forall_mem_nil _⟩
  | some batch => exact ⟨rfl, h batch rfl, [], rfl, by simp [goto, hand, ActorPc.collected, hd], List.forall_mem_nil _⟩

theorem prepareMedia_assembles (hd : a.deferred = none) (h : FillsOption collected) :
    (a.prepareMedia x c collected item).Assembles ((collected.getD []).map .prepared) a.mailbox := by
  unfold prepareMedia
  dsimp only
  split
  · exact preparing_assembles hd h
  · split
    · have hfailed := @prepareFailed_assembles x a c collected item .projection hd h
      exact ⟨hfailed.mailbox, hfailed.fills, hfailed.unit⟩
    · exact preparing_assembles hd h

theorem finishPreparing_assembles (hd : a.deferred = none) (h : FillsOption collected) (op : SettleOp) :
    (a.finishPreparing x c collected item op).Assembles ((collected.getD []).map .prepared) a.mailbox := by
  cases op with
  | reject reason notice => exact settled_assembles hd h
  | complete =>
    unfold finishPreparing
    dsimp only
    split
    · have hsettled := @settled_assembles x { a with pendingMedia := a.pendingMedia.stage x.env.instant item.event } c collected
        hd h
      exact ⟨hsettled.mailbox, hsettled.fills, hsettled.unit⟩
    · exact settled_assembles hd h

/-- One step: what it takes comes from the front of the mailbox, and what was in hand with what it prepares is the units that
begin and the new hand. -/
structure Progress (x : Ctx) (a a' : Actor) : Prop where
  mailbox : a'.pc = .ended ∧ a.takes x = none ∨ a.mailbox = (a.takes x).toList ++ a'.mailbox
  fills : a'.pc.Fills
  unit : ∃ (runs : List ScopeUnit) (rest : List DeferredScopeWork),
    unitsBegun a.pc a'.pc = runs.map ScopeUnit.processed ∧
    a.hand ++ (a.prepares x).toList = runs.flatMap ScopeUnit.works ++ rest ∧
    (a'.pc ≠ .ended → rest = a'.hand) ∧ ∀ run ∈ runs, run.WellFormed

theorem unitsBegun_self (pc : ActorPc) : unitsBegun pc pc = [] := by
  unfold unitsBegun
  split
  · assumption
  · rfl

theorem begins_of_elsewhere {pc : ActorPc} (h : pc.assembles = false) : pc.begins = [] ∧ pc.collected = [] ∧ pc.Fills := by
  cases pc <;> first | exact ⟨rfl, rfl, trivial⟩ | cases h

theorem prepares_of_takes (h : a.takes x = none) : a.prepares x = none := by
  unfold prepares
  rw [h]

theorem takes_of_picks (h : picks a.pc = false) : a.takes x = none := by
  unfold takes
  cases hpc : a.pc <;> first | rfl | (rw [hpc] at h; cases h)

/-- Nothing happens. -/
theorem progress_stay (hfills : a.pc.Fills) (htakes : a.takes x = none) : a.Progress x a where
  mailbox := .inr (by rw [htakes]; rfl)
  fills := hfills
  unit := ⟨[], a.hand, unitsBegun_self _, by rw [prepares_of_takes htakes]; simp, fun _ => rfl, List.forall_mem_nil _⟩

/-- The actor ends or goes elsewhere with nothing collected. -/
theorem progress_leaves (h : o.Leaves a.deferred a.mailbox) (htakes : a.takes x = none)
    (hcollected : o.actor.pc = .ended ∨ a.pc.collected = []) : a.Progress x o.actor := by
  obtain ⟨hbegins, hnone, hfills⟩ := begins_of_elsewhere h.elsewhere
  have hunits : unitsBegun a.pc o.actor.pc = [] := by
    unfold unitsBegun
    rw [hbegins, ite_self]
  have hall : a.hand ++ (a.prepares x).toList = [] ++ a.hand := by
    rw [prepares_of_takes htakes, Option.toList_none, List.append_nil, List.nil_append]
  by_cases hended : o.actor.pc = .ended
  · exact ⟨.inl ⟨hended, htakes⟩, hfills, [], a.hand, hunits, hall, fun hne => absurd hended hne, List.forall_mem_nil _⟩
  · obtain ⟨hd, hm⟩ := h.rest.resolve_left hended
    refine ⟨.inr (by rw [htakes, hm]; rfl), hfills, [], a.hand, hunits, hall, fun _ => ?_, List.forall_mem_nil _⟩
    rw [hand, hand, hnone, hd, hcollected.resolve_left hended]

theorem progress_works (h : o.Works a) (hfills : a.pc.Fills) (htakes : a.takes x = none)
    (hcollected : a.pc.collected = []) : a.Progress x o.actor := by
  rcases h with heq | hleaves
  · rw [heq]
    exact progress_stay hfills htakes
  · exact progress_leaves hleaves htakes (.inr hcollected)

theorem progress_assembles {works : List DeferredScopeWork} {mailbox : List ScopeCommand}
    (h : o.Assembles works mailbox) (hbegins : a.pc.begins = []) (hmailbox : a.mailbox = (a.takes x).toList ++ mailbox)
    (hworks : works = a.hand ++ (a.prepares x).toList) : a.Progress x o.actor := by
  obtain ⟨runs, hruns, hall, hwf⟩ := h.unit
  refine ⟨.inr (by rw [hmailbox, h.mailbox]), h.fills, runs, o.actor.hand, ?_, hworks ▸ hall, fun _ => rfl, hwf⟩
  rw [unitsBegun, if_pos hbegins, hruns]

theorem control_assembles {control : ActorControl} (hd : a.deferred = none) :
    (a.goto x (.controlPolicy control) log).Assembles [.control control] a.mailbox :=
  ⟨rfl, trivial, [.control control], rfl, by simp [goto, hand, ActorPc.collected, hd, ScopeUnit.works],
    by simp [ScopeUnit.WellFormed]⟩

theorem prepareInbound_assembles (hd : a.deferred = none) (h : FillsOption collected) :
    (a.prepareInbound x c collected item).Assembles ((collected.getD []).map .prepared ++
      (if isSettledMedia item.event then none else some (DeferredScopeWork.prepared (a.reserve x item).1)).toList)
      a.mailbox := by
  unfold prepareInbound
  split
  · next hmedia =>
    rw [if_pos (by simpa [isSettledMedia] using hmedia), Option.toList_none, List.append_nil]
    exact prepareMedia_assembles hd h
  · next hplain =>
    rw [if_neg (by simpa [isSettledMedia] using hplain)]
    exact @prepared_assembles x { a with pendingMedia := (a.reserve x item).2 } c collected hd h (a.reserve x item).1

/-- A command is taken. -/
theorem receive_progress (hd : a.deferred = none) (h : FillsOption collected)
    (hpc : a.pc = .waiting c ∧ collected = none ∨ ∃ batch, a.pc = .debouncing c batch ∧ collected = some batch)
    (hanswer : x.env.answer = .message) (hcancelled : a.cancelled = false) :
    a.Progress x (a.receive x c collected).actor := by
  have htakes : a.takes x = a.mailbox.head? := by
    unfold takes
    rcases hpc with ⟨hpc, -⟩ | ⟨batch, hpc, -⟩ <;> rw [hpc] <;> exact if_pos ⟨hanswer, hcancelled⟩
  have hbegins : a.pc.begins = [] := by
    rcases hpc with ⟨hpc, -⟩ | ⟨batch, hpc, -⟩ <;> rw [hpc] <;> rfl
  have hhand : a.hand = (collected.getD []).map .prepared := by
    unfold hand
    rcases hpc with ⟨hpc, rfl⟩ | ⟨batch, hpc, rfl⟩ <;> rw [hpc, hd] <;> simp [ActorPc.collected]
  have hfills : a.pc.Fills := by
    rcases hpc with ⟨hpc, -⟩ | ⟨batch, hpc, rfl⟩ <;> rw [hpc]
    · trivial
    · exact h batch rfl
  unfold receive
  split
  · next hempty =>
    exact progress_stay hfills (by rw [htakes, hempty]; rfl)
  · next item mailbox hmailbox =>
    have hhead : a.takes x = some (.inbound item) := by
      rw [htakes, hmailbox]
      rfl
    refine progress_assembles (prepareInbound_assembles (a := { a with mailbox := mailbox }) hd h) hbegins
      (by rw [hhead, hmailbox]; rfl) ?_
    rw [hhand, prepares, hhead]
    rfl
  · next control mailbox hmailbox =>
    have hhead : a.takes x = some (.control control) := by
      rw [htakes, hmailbox]
      rfl
    have hworks : a.hand ++ (a.prepares x).toList = (collected.getD []).map .prepared ++ [.control control] := by
      rw [hhand, prepares, hhead]
      rfl
    cases collected with
    | none =>
      exact progress_assembles (control_assembles (a := { a with mailbox := mailbox }) hd) hbegins
        (by rw [hhead, hmailbox]; rfl) hworks.symm
    | some batch =>
      exact progress_assembles (startBatch_assembles (a := { a with mailbox := mailbox, deferred := some (.control control) })
        (Filling.wellFormed (h batch rfl))) hbegins (by rw [hhead, hmailbox]; rfl) hworks.symm

/-- The work of the round before goes first. -/
theorem dispatch_progress {policy : PolicyCopy} (hpc : a.pc = .readSettings policy) : a.Progress x (a.dispatch x c).actor := by
  have htakes : a.takes x = none := by
    unfold takes
    rw [hpc]
  have hbegins : a.pc.begins = [] := by
    rw [hpc]
    rfl
  have hmailbox : a.mailbox = (a.takes x).toList ++ a.mailbox := by
    rw [htakes]
    rfl
  have hworks : a.hand ++ (a.prepares x).toList = a.deferred.toList := by
    rw [prepares_of_takes htakes, hand, hpc]
    simp [ActorPc.collected]
  unfold dispatch
  split
  · exact progress_leaves (goto_leaves rfl) htakes (.inr (by rw [hpc]; rfl))
  · next item hd =>
    exact progress_assembles (openBatch_assembles (a := { a with deferred := none }) item) hbegins hmailbox
      (by rw [hworks, hd]; rfl)
  · next control hd =>
    exact progress_assembles (control_assembles (a := { a with deferred := none }) rfl) hbegins hmailbox
      (by rw [hworks, hd]; rfl)

theorem awaited_progress (hwf : a.WF) (hfills : a.pc.Fills) (hop : a.pc.op tenant = none)
    (hblocked : a.blocked x.env.answer = false) : a.Progress x (a.awaited x).actor := by
  by_cases hpicks : picks a.pc = false
  · have hcollected : a.pc.collected = [] := by
      cases hpc : a.pc <;> rw [hpc] at hpicks hop <;> first | rfl | cases hpicks
      next c collected item op => cases op <;> cases hop
    exact progress_works (awaited_works hpicks) hfills (takes_of_picks hpicks) hcollected
  · unfold awaited
    cases hpc : a.pc with
    | readSettings policy => exact dispatch_progress hpc
    | waiting c =>
      have hd := hwf.collects (by rw [hpc]; rfl)
      dsimp only
      unfold onWaiting
      have hnone : x.env.answer ≠ .message → a.takes x = none := fun hne => by
        unfold takes
        rw [hpc]
        exact if_neg fun h => hne h.1
      split
      · next hanswer => exact progress_leaves stop_leaves (hnone (by rw [hanswer]; nofun)) (.inl rfl)
      · next hanswer => exact progress_leaves ⟨rfl, .inr ⟨rfl, rfl⟩⟩ (hnone (by rw [hanswer]; nofun)) (.inr (by rw [hpc]; rfl))
      · next hanswer =>
        refine receive_progress hd nofun (.inl ⟨hpc, rfl⟩) hanswer ?_
        simpa [blocked, hanswer, hpc, ActorPc.looksAtShutdown] using hblocked
      · next hanswer => exact progress_stay hfills (hnone hanswer)
    | debouncing c batch =>
      have hd := hwf.collects (by rw [hpc]; rfl)
      have hfill : Filling batch := by rwa [hpc] at hfills
      dsimp only
      unfold onDebouncing
      have hnone : x.env.answer ≠ .message → a.takes x = none := fun hne => by
        unfold takes
        rw [hpc]
        exact if_neg fun h => hne h.1
      split
      · next hanswer => exact progress_leaves stop_leaves (hnone (by rw [hanswer]; nofun)) (.inl rfl)
      · next hanswer =>
        have htakes := hnone (by rw [hanswer]; nofun)
        refine progress_assembles (startBatch_assembles (Filling.wellFormed hfill)) (by rw [hpc]; rfl)
          (by rw [htakes]; rfl) ?_
        rw [prepares_of_takes htakes, hand, hpc]
        simp [ActorPc.collected]
      · next hanswer =>
        refine receive_progress hd (fun other heq => Option.some.inj heq ▸ hfill) (.inr ⟨batch, hpc, rfl⟩) hanswer ?_
        simpa [blocked, hanswer, hpc, ActorPc.looksAtShutdown] using hblocked
      · next hanswer => exact progress_stay hfills (hnone hanswer)
    | _ =>
      rw [hpc] at hpicks
      exact absurd rfl hpicks

/-- **What one step does with the works.** -/
theorem run_progress (hwf : a.WF) (hfills : a.pc.Fills) : a.Progress x (a.run tenant x).actor := by
  unfold run
  split
  · next op r hop hanswer =>
    have htakes : a.takes x = none := by
      unfold takes
      cases hpc : a.pc <;> first | rfl | (rw [hpc] at hop; cases hop)
    by_cases hprep : ∃ c batch item op, a.pc = .preparing c batch item op
    · obtain ⟨c, collected, item, op, hpc⟩ := hprep
      have hd := hwf.collects (by rw [hpc]; rfl)
      have hfill : FillsOption collected := by
        rintro batch rfl
        rwa [hpc] at hfills
      have hhand : (collected.getD []).map .prepared = a.hand ++ (a.prepares x).toList := by
        rw [prepares_of_takes htakes, hand, hpc, hd]
        cases collected <;> simp [ActorPc.collected]
      have hmailbox : a.mailbox = (a.takes x).toList ++ a.mailbox := by
        rw [htakes]
        rfl
      unfold answered
      rw [hpc]
      dsimp only
      split
      · exact progress_assembles (finishPreparing_assembles hd hfill op) (by rw [hpc]; rfl) hmailbox hhand
      · exact progress_assembles (prepareFailed_assembles hd hfill) (by rw [hpc]; rfl) hmailbox hhand
    · refine progress_works (answered_works fun c batch item op hpc => hprep ⟨c, batch, item, op, hpc⟩) hfills htakes ?_
      cases hpc : a.pc <;> rw [hpc] at hop <;> first | rfl | cases hop | skip
      next c collected item op => exact absurd ⟨c, collected, item, op, hpc⟩ hprep
  · next op hop hanswer =>
    refine progress_stay hfills ?_
    unfold takes
    cases hpc : a.pc <;> first | rfl | (rw [hpc] at hop; cases hop)
  · next hop =>
    split
    · next hblocked =>
      refine progress_stay hfills ?_
      unfold takes
      split
      · next hpc =>
        refine if_neg fun h => ?_
        simp [blocked, h.1, h.2] at hblocked
      · next hpc =>
        refine if_neg fun h => ?_
        simp [blocked, h.1, h.2] at hblocked
      · rfl
    · next hblocked => exact awaited_progress hwf hfills hop (Bool.eq_false_iff.2 hblocked)

end Actor

/-! ## Runs -/

namespace BatchTask

variable {tenant : TenantNamespace} {s : BatchTask}

/-- The units are the prepared works in order, but for what the actor has in hand, and the prepared works are the taken
commands in order, but for the media that are settled on their own. -/
structure Partitioned (s : BatchTask) : Prop where
  wf : s.task.actor.WF
  fills : s.task.actor.pc.Fills
  units : ∃ (runs : List ScopeUnit) (rest : List DeferredScopeWork), s.units = runs.map ScopeUnit.processed ∧
    s.prepared = runs.flatMap ScopeUnit.works ++ rest ∧ (s.task.actor.pc ≠ .ended → rest = s.task.actor.hand) ∧
    ∀ run ∈ runs, run.WellFormed
  prepared : s.prepared.map DeferredScopeWork.command = s.taken.filter ScopeCommand.isPrepared
  accepted : ∃ waiting, s.accepted = s.taken ++ waiting ∧ (s.task.actor.pc ≠ .ended → waiting = s.task.actor.mailbox)

theorem partitioned_spawn (scope : ScopeKey) (live : Live) (supervisor : SupervisorAccess) :
    (spawn scope live supervisor).Partitioned where
  wf := ⟨nofun, nofun⟩
  fills := trivial
  units := ⟨[], [], rfl, rfl, fun _ => rfl, List.forall_mem_nil _⟩
  prepared := rfl
  accepted := ⟨[], rfl, fun _ => rfl⟩

theorem command_of_prepares (x : Ctx) (a : Actor) :
    (a.prepares x).toList.map DeferredScopeWork.command = (a.takes x).toList.filter ScopeCommand.isPrepared := by
  unfold Actor.prepares
  cases a.takes x with
  | none => rfl
  | some command =>
    cases command with
    | control control => rfl
    | inbound item =>
      dsimp only
      by_cases hmedia : isSettledMedia item.event = true
      · simp [hmedia, ScopeCommand.isPrepared]
      · simp [hmedia, ScopeCommand.isPrepared, DeferredScopeWork.command, Actor.reserve_inbound]

theorem takes_of_ended {x : Ctx} {a : Actor} (h : a.pc = .ended) : a.takes x = none := by
  unfold Actor.takes
  rw [h]

theorem run_of_ended {x : Ctx} {a : Actor} (h : a.pc = .ended) : (a.run tenant x).actor.pc = .ended := by
  have hstay : a.run tenant x = a.stay x := by
    unfold Actor.run
    rw [h]
    dsimp only [ActorPc.op]
    split
    · rfl
    · unfold Actor.awaited
      rw [h]
  rw [hstay]
  exact h

theorem Partitioned.go (h : s.Partitioned) (env : Env) : (s.step tenant (.go env)).Partitioned := by
  have hprogress := @Actor.run_progress ⟨s.task.live, s.task.supervisor, env⟩ _ tenant h.wf h.fills
  obtain ⟨runs, rest, hunits, hprepared, hrest, hwf⟩ := h.units
  obtain ⟨waiting, haccepted, hwaiting⟩ := h.accepted
  obtain ⟨begun, hand, hbegun, hworks, hhand, hbegunwf⟩ := hprogress.unit
  refine ⟨(Actor.run_keeps h.wf).wf, hprogress.fills, ?_, ?_, ?_⟩
  · by_cases hended : s.task.actor.pc = .ended
    · -- an actor that ended prepares and begins nothing
      have htakes := takes_of_ended (x := ⟨s.task.live, s.task.supervisor, env⟩) hended
      have hprepares := Actor.prepares_of_takes htakes
      refine ⟨runs, rest, ?_, ?_, fun hne => absurd (run_of_ended hended) hne, hwf⟩
      · show s.units ++ unitsBegun s.task.actor.pc _ = _
        rw [hunits, show (s.task.step tenant (.go env)).actor.pc = .ended from run_of_ended hended, hended,
          Actor.unitsBegun_self, List.append_nil]
      · show s.prepared ++ _ = _
        rw [hprepares, hprepared, Option.toList_none, List.append_nil]
    · refine ⟨runs ++ begun, hand, ?_, ?_, hhand, List.forall_mem_append.2 ⟨hwf, hbegunwf⟩⟩
      · show s.units ++ unitsBegun s.task.actor.pc _ = _
        rw [List.map_append, hunits]
        exact congrArg (runs.map ScopeUnit.processed ++ ·) hbegun
      · show s.prepared ++ _ = _
        rw [hprepared, hrest hended, List.append_assoc, hworks, List.flatMap_append, List.append_assoc]
  · show (s.prepared ++ _).map _ = (s.taken ++ _).filter _
    rw [List.map_append, List.filter_append, h.prepared, command_of_prepares]
  · by_cases hended : s.task.actor.pc = .ended
    · have htakes := takes_of_ended (x := ⟨s.task.live, s.task.supervisor, env⟩) hended
      refine ⟨waiting, ?_, fun hne => absurd (run_of_ended hended) hne⟩
      show s.accepted = s.taken ++ _ ++ waiting
      rw [htakes, haccepted, Option.toList_none, List.append_nil]
    · rcases hprogress.mailbox with ⟨hpc, htakes⟩ | hmailbox
      · refine ⟨waiting, ?_, fun hne => absurd hpc hne⟩
        show s.accepted = s.taken ++ _ ++ waiting
        rw [htakes, haccepted, Option.toList_none, List.append_nil]
      · refine ⟨_, ?_, fun _ => rfl⟩
        show s.accepted = s.taken ++ _ ++ _
        rw [haccepted, hwaiting hended, List.append_assoc]
        exact congrArg (s.taken ++ ·) hmailbox

theorem Partitioned.step (h : s.Partitioned) (e : TaskEvent) : (s.step tenant e).Partitioned := by
  obtain ⟨waiting, haccepted, hwaiting⟩ := h.accepted
  cases e with
  | go env => exact h.go env
  | route command =>
    by_cases hfull : s.task.actor.pc = .ended ∨ s.task.actor.mailbox.length ≥ scopeMailboxCapacity
    · have htask : s.task.step tenant (.route command) = s.task := if_pos hfull
      unfold BatchTask.step
      dsimp only
      rw [htask, if_neg (Nat.lt_irrefl _)]
      exact h
    · have htask : s.task.step tenant (.route command) =
          { s.task with actor := { s.task.actor with mailbox := s.task.actor.mailbox ++ [command] } } := if_neg hfull
      unfold BatchTask.step
      dsimp only
      rw [htask, if_pos (by simp)]
      refine ⟨⟨h.wf.collects, fun hended => absurd (.inl hended) hfull⟩, h.fills, h.units, h.prepared,
        waiting ++ [command], ?_, fun hne => ?_⟩
      · rw [haccepted, List.append_assoc]
      · rw [hwaiting hne]
  | store reply =>
    unfold BatchTask.step ScopeTask.step
    dsimp only
    split
    · exact ⟨⟨h.wf.collects, h.wf.ended⟩, h.fills, h.units, h.prepared, h.accepted⟩
    · exact h
  | supervise access | configure live => exact ⟨h.wf, h.fills, h.units, h.prepared, h.accepted⟩
  | cancel => exact ⟨⟨h.wf.collects, h.wf.ended⟩, h.fills, h.units, h.prepared, h.accepted⟩

/-- The task after a run. -/
def after (tenant : TenantNamespace) (scope : ScopeKey) (live : Live) (supervisor : SupervisorAccess) (es : List TaskEvent) :
    BatchTask := exec (step tenant) (spawn scope live supervisor) es

theorem partitioned_after (tenant : TenantNamespace) (scope : ScopeKey) (live : Live) (supervisor : SupervisorAccess)
    (es : List TaskEvent) : (after tenant scope live supervisor es).Partitioned :=
  @exec_invariant' _ _ _ Partitioned (fun _ e h => h.step e) _ es (partitioned_spawn scope live supervisor)

/-- Leaving out later copies keeps a batch within its bounds. -/
theorem wellFormed_processed {run : ScopeUnit} (h : run.WellFormed) : run.processed.WellFormed := by
  cases run with
  | control c => exact h
  | batch items =>
    obtain ⟨hne, hcount, hbytes, haudio⟩ := h
    obtain ⟨hsub, hcover⟩ := deduplicateBatch_spec items
    have hkept : deduplicateBatch items ≠ [] := by
      obtain ⟨item, hitem⟩ := List.exists_mem_of_ne_nil items hne
      obtain ⟨copy, hcopy, -⟩ := hcover item hitem
      exact List.ne_nil_of_mem hcopy
    have hpos := List.length_pos_iff.2 hkept
    refine ⟨hkept, hsub.length_le.trans hcount, ?_, fun item hitem hitemAudio => ?_⟩
    · rcases hbytes with hone | hbytes
      · have := hsub.length_le
        exact .inl (by omega)
      · exact .inr (((hsub.map _).sum_le_sum (by simp)).trans hbytes)
    · have hall := haudio item (hsub.subset hitem) hitemAudio
      rw [hall] at hsub ⊢
      exact (List.sublist_singleton.1 hsub).resolve_left (hall ▸ hkept)

/-- **The units are the prepared works, in order and cut into runs**, but for the later copies of a message in its batch
and for what the actor has in hand. Batches keep to their bounds, and the works are prepared in the order of the mailbox. -/
theorem units_partition (tenant : TenantNamespace) (scope : ScopeKey) (live : Live) (supervisor : SupervisorAccess)
    (es : List TaskEvent) :
    (∃ (runs : List ScopeUnit) (rest : List DeferredScopeWork),
      (after tenant scope live supervisor es).units = runs.map ScopeUnit.processed ∧
      (after tenant scope live supervisor es).prepared = runs.flatMap ScopeUnit.works ++ rest ∧
      ((after tenant scope live supervisor es).task.actor.pc ≠ .ended →
        rest = (after tenant scope live supervisor es).task.actor.hand) ∧
      ∀ run ∈ runs, run.WellFormed) ∧
    (∀ unit ∈ (after tenant scope live supervisor es).units, unit.WellFormed) ∧
    (after tenant scope live supervisor es).prepared.map DeferredScopeWork.command =
      (after tenant scope live supervisor es).taken.filter ScopeCommand.isPrepared ∧
    (after tenant scope live supervisor es).taken <+: (after tenant scope live supervisor es).accepted := by
  have h := partitioned_after tenant scope live supervisor es
  refine ⟨h.units, ?_, h.prepared, ?_⟩
  · obtain ⟨runs, rest, hunits, -, -, hwf⟩ := h.units
    rw [hunits, List.forall_mem_map]
    exact fun run hrun => wellFormed_processed (hwf run hrun)
  · obtain ⟨waiting, haccepted, -⟩ := h.accepted
    exact ⟨waiting, haccepted.symm⟩

/-- A message is delivered twice before its batch is closed. -/
def repeatedMessage : BatchTask :=
  after sampleTenant (.chat "oc_1") ⟨[], sampleInner⟩ ⟨1, true, false⟩
    [ScopeTask.goes .next, ScopeTask.goes .next, .route (.inbound ⟨ScopeTask.turnMessage, 0⟩),
      .route (.inbound ⟨ScopeTask.turnMessage, 0⟩), ScopeTask.goes .message, ScopeTask.goes .message, ScopeTask.goes .timer]

theorem repeated_message_skipped :
    ¬∃ rest, repeatedMessage.prepared = repeatedMessage.units.flatMap ScopeUnit.works ++ rest ∧
      (repeatedMessage.task.actor.pc ≠ .ended → rest = repeatedMessage.task.actor.hand) := by
  rintro ⟨rest, hprepared, hrest⟩
  have hrunning : repeatedMessage.task.actor.pc.assembles = true := by decide
  have htwo : repeatedMessage.prepared.length = 2 := by decide
  have hone : (repeatedMessage.units.flatMap ScopeUnit.works).length = 1 := by decide
  have hnone : repeatedMessage.task.actor.hand.length = 0 := by decide
  have hlive : repeatedMessage.task.actor.pc ≠ .ended := fun hended => by
    rw [hended] at hrunning
    cases hrunning
  rw [hprepared, List.length_append, hone, hrest hlive, hnone] at htwo
  cases htwo

end BatchTask

end LarkCodexBridge.Runtime
