import LarkCodexBridge.Runtime.Actor

/-!
# What an await of an actor can become

An actor waits for a message, for its copies of policy and settings, for what its batch needs next, or for its turn.
`Actor.AwaitTo` are the things that can become of such an await, so that a property of the actor is proved by cases, whichever
function continues it.
-/

namespace LarkCodexBridge.Runtime

open Limits Lark Store

/-- The turn that was begun for the batch. -/
def ActorPc.turn? : ActorPc → Option TurnTask
  | .assembling t | .starting t | .markRunning t _ | .running t | .finalizing t _ _ | .resolving t _ _ | .epochEnd t
  | .releasing t => some t
  | _ => none

/-- The awaits of a batch that are reached with a permit only. -/
def ActorPc.needsPermit : ActorPc → Bool
  | .screening .. | .readThread .. | .workspace .. | .route .. | .waitClient .. | .ensureThread .. | .settling ..
  | .subscribing .. | .claiming .. => true
  | pc => pc.turn?.isSome

/-- The batch of an await on the way to its turn, with the copies that it goes on with. -/
def ActorPc.batch? : ActorPc → Option (Option Copies × List TurnInbound)
  | .readAdoption c batch | .readMapping c batch _ | .permitCheck c batch _ | .permitWait c batch _ | .readThread c batch _
  | .workspace c batch _ | .route c batch | .waitClient c batch | .ensureThread c batch _ | .subscribing c batch _ _ _ =>
    some (some c, batch)
  | .settling batch _ => some (none, batch)
  | _ => none

namespace Actor

/-- What can become of the await `pc`. -/
inductive AwaitTo (a : Actor) (x : Ctx) (pc : ActorPc) : Outcome → Prop
  /-- What it waits for has not come. -/
  | stays : AwaitTo a x pc (a.stay x)
  | readsPolicy (hpc : pc = .loopTop) : AwaitTo a x pc (a.goto x (.readSettings x.live.readPolicy))
  | dispatches {policy : PolicyCopy} (hpc : pc = .readSettings policy) :
    AwaitTo a x pc (a.dispatch x (x.live.readSettings policy))
  | waits {c : Copies} (hpc : pc = .waiting c) : AwaitTo a x pc (a.onWaiting x c)
  | collects {c : Copies} {batch : List TurnInbound} (hpc : pc = .debouncing c batch) : AwaitTo a x pc (a.onDebouncing x c batch)
  | readsForCommand {control : ActorControl} (hpc : pc = .controlPolicy control) :
    AwaitTo a x pc (a.goto x (.controlSettings control x.live.readPolicy))
  | processes {control : ActorControl} {policy : PolicyCopy} (hpc : pc = .controlSettings control policy) :
    AwaitTo a x pc (a.processControl x control (x.live.readSettings policy))
  | executed {control : ActorControl} (media : PendingMediaQueue) (hpc : pc = .executing control) :
    AwaitTo a x pc ({ a with pendingMedia := media }.reply x control)
  | replies {control : ActorControl} {row : NewOutboxRow} (hpc : pc = .replyPause control row) :
    AwaitTo a x pc (a.goto x (.replying control row))
  | drops {control : ActorControl} {row : NewOutboxRow} (hpc : pc = .replyPause control row) :
    AwaitTo a x pc (a.again x (.failed .supervisor) [] [control.inbound])
  /-- The batch goes on to its next await. -/
  | goes {c : Copies} {batch : List TurnInbound} {pc' : ActorPc} (state : ScopeState)
      (hb : pc.batch? = some (some c, batch)) (hb' : pc'.batch? = some (some c, batch)) (hne : pc' ≠ .readAdoption c batch)
      (hp : pc'.needsPermit = true → pc.needsPermit = true) : AwaitTo a x pc ({ a with state := state }.goto x pc')
  | settles {c : Copies} {batch : List TurnInbound} {epoch : ℕ} (hb : pc.batch? = some (some c, batch))
      (hp : pc.needsPermit = true) : AwaitTo a x pc (a.goto x (.settling batch epoch))
  | claims {c : Copies} {batch : List TurnInbound} {adopted : Bool} {turn : NewTurnRow} {epoch : ℕ}
      (hb : pc.batch? = some (some c, batch)) (hp : pc.needsPermit = true) :
    AwaitTo a x pc (a.goto x (.claiming c batch adopted turn epoch))
  | fails {c : Option Copies} {batch : List TurnInbound} {kind : ScopeFailureKind} (hb : pc.batch? = some (c, batch)) :
    AwaitTo a x pc (a.failBatch x kind batch)
  | rejects {c : Option Copies} {batch : List TurnInbound} {reason : InboundRejectionKind} (state : ScopeState)
      (hb : pc.batch? = some (c, batch)) : AwaitTo a x pc ({ a with state := state }.rejectAll x reason batch)
  /-- The permit has come. -/
  | screens {c : Copies} {batch : List TurnInbound} {adopted : Bool} (hpc : pc = .permitWait c batch adopted)
      (hanswer : x.env.answer = .permit) : AwaitTo a x pc (a.screen x c adopted batch [])
  | starts {t : TurnTask} (hpc : pc = .assembling t) : AwaitTo a x pc (a.goto x (.starting t) [.started t.sources t.copies])
  | marks {t : TurnTask} {codexTurnId : String} (hpc : pc = .starting t) :
    AwaitTo a x pc (a.goto x (.markRunning t.commitPendingMedia codexTurnId))
  | finalizes {t t' : TurnTask} {resolution : TurnResolution} {waits : Bool} (state : ScopeState)
      (hpc : pc = .assembling t ∨ pc = .starting t ∨ pc = .running t) (hid : t'.turnRowId = t.turnRowId) :
    AwaitTo a x pc ({ a with state := state }.goto x (.finalizing t' resolution waits))
  | resolves {t : TurnTask} {resolution : TurnResolution} {waits : Bool} (hpc : pc = .finalizing t resolution waits) :
    AwaitTo a x pc (a.goto x (.resolving t resolution waits))
  | releases {t : TurnTask} (hpc : pc = .epochEnd t) : AwaitTo a x pc (a.goto x (.releasing t))
  /-- The turn is left with what it still holds. -/
  | leaves {t : TurnTask} {state : ScopeState} (ht : pc.turn? = some t) : AwaitTo a x pc (a.leaveBatch x state t.batch [])

/-- **Whatever is awaited** comes to one of these. -/
theorem awaited_to (x : Ctx) (a : Actor) : AwaitTo a x a.pc (a.awaited x) := by
  unfold awaited
  cases a.pc with
  | loopTop =>
    dsimp only
    exact .readsPolicy rfl
  | readSettings policy =>
    dsimp only
    exact .dispatches rfl
  | waiting c =>
    dsimp only
    exact .waits rfl
  | debouncing c batch =>
    dsimp only
    exact .collects rfl
  | controlPolicy control =>
    dsimp only
    exact .readsForCommand rfl
  | controlSettings control policy =>
    dsimp only
    exact .processes rfl
  | executing control =>
    dsimp only
    unfold onExecuting
    split
    · exact .executed _ rfl
    · exact .stays
  | replyPause control row =>
    dsimp only
    unfold onReplyPause
    split
    · exact .drops rfl
    · exact .replies rfl
    · exact .stays
  | readAdoption c batch =>
    dsimp only
    unfold onReadAdoption
    split
    · exact .goes a.state rfl rfl nofun nofun
    · exact .fails rfl
    · exact .stays
  | readMapping c batch saga =>
    dsimp only
    unfold onReadMapping
    split
    · split
      · exact .goes a.state rfl rfl nofun nofun
      · exact .rejects a.state rfl
    · exact .fails rfl
    · exact .stays
  | permitCheck c batch adopted =>
    dsimp only
    unfold onPermitCheck
    split
    · exact .rejects a.state rfl
    · exact .goes a.state rfl rfl nofun nofun
  | permitWait c batch adopted =>
    dsimp only
    unfold onPermitWait
    split
    · exact .fails rfl
    · next hanswer => exact .screens rfl hanswer
    · split
      · exact .stays
      · exact .goes a.state rfl rfl nofun nofun
    · split
      · exact .stays
      · exact .fails rfl
    · exact .stays
  | readThread c batch adopted =>
    dsimp only
    unfold onReadThread
    split
    · exact .goes a.state rfl rfl nofun fun _ => rfl
    · exact .stays
  | workspace c batch adopted =>
    dsimp only
    unfold onWorkspace
    split
    · unfold enterTurn
      dsimp only
      split
      · exact .goes .startingTurn rfl rfl nofun fun _ => rfl
      · split
        · exact .rejects .startingTurn rfl
        · exact .goes .startingTurn rfl rfl nofun fun _ => rfl
    · exact .rejects a.state rfl
    · exact .fails rfl
    · exact .stays
  | route c batch =>
    dsimp only
    unfold onRoute
    split
    · exact .goes a.state rfl rfl nofun fun _ => rfl
    · exact .rejects a.state rfl
    · exact .stays
  | waitClient c batch =>
    dsimp only
    unfold awaitClient
    split
    · split
      · exact .rejects a.state rfl
      · exact .fails rfl
    · split
      · exact .rejects a.state rfl
      · exact .fails rfl
    · split
      · exact .goes a.state rfl rfl nofun fun _ => rfl
      · split
        · exact .rejects a.state rfl
        · exact .stays
  | ensureThread c batch epoch =>
    dsimp only
    unfold onEnsureThread
    split
    · exact .fails rfl
    · exact .goes a.state rfl rfl nofun fun _ => rfl
    · split
      · exact .settles rfl rfl
      · exact .rejects a.state rfl
    · exact .fails rfl
    · exact .stays
  | settling batch epoch =>
    dsimp only
    unfold settle
    split
    · exact .rejects a.state rfl
    · split
      · exact .fails rfl
      · split
        · exact .fails rfl
        · exact .fails rfl
        · exact .stays
  | subscribing c batch adopted thread epoch =>
    dsimp only
    unfold onSubscribing
    split
    · exact .fails rfl
    · exact .claims rfl rfl
    · split
      · exact .rejects a.state rfl
      · split
        · exact .settles rfl rfl
        · exact .fails rfl
    · exact .stays
  | assembling t =>
    dsimp only
    unfold onAssembling
    split
    · exact .starts rfl
    · exact .finalizes a.state (.inl rfl) rfl
    · exact .stays
  | starting t =>
    dsimp only
    unfold onStarting
    split
    · exact .marks rfl
    · exact .finalizes a.state (.inr (.inl rfl)) rfl
    · exact .finalizes a.state (.inr (.inl rfl)) rfl
    · exact .finalizes a.state (.inr (.inl rfl)) rfl
    · exact .stays
  | running t =>
    dsimp only
    unfold onRunning
    split
    · exact .finalizes (.finalizing t.turnRowId) (.inr (.inr rfl)) rfl
    · exact .finalizes (.finalizing t.turnRowId) (.inr (.inr rfl)) rfl
    · exact .stays
  | finalizing t resolution waits =>
    dsimp only
    unfold onFinalizing
    split
    · exact .resolves rfl
    · exact .leaves rfl
    · exact .stays
  | epochEnd t =>
    dsimp only
    unfold onEpochEnd
    split
    · exact .releases rfl
    · split
      · exact .leaves rfl
      · exact .leaves rfl
      · exact .stays
  | releasing t =>
    dsimp only
    unfold onReleasing
    split
    · exact .leaves rfl
    · exact .leaves rfl
    · exact .stays
  | _ => exact .stays

end Actor

end LarkCodexBridge.Runtime
