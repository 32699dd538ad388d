import LarkCodexBridge.Lark.Event
import LarkCodexBridge.Lib.KeyMap
import LarkCodexBridge.Limits

/-!
# The context registry

`ContextRegistry` keeps the capabilities through which a tool reads the message of a turn. Each call is one step, made
under the lock of the registry with its own reading of the clock; gates and read meters are shared objects and carry
numbers. `uuid` is the supply of unique identifiers.

* `revokeWhere`: the one way in which entries are revoked;
* `step`: the calls of the registry and of the operations it authorised, with their answers.
-/

namespace LarkCodexBridge.Runtime.Contexts

open Lark (ResourceDesc TranscriptFailure)
open Limits

/-! ## Messages -/

abbrev ContextId := String
abbrev MediaHandle := String

structure SenderSnapshot where
  openId : String
  senderType : String

structure ChatSnapshot where
  chatId : String
  kind : Lark.ChatMode

inductive MentionKind where
  | user | bot | everyone

structure MentionSnapshot where
  kind : MentionKind
  openId : Option String
  displayName : Option String

structure ThreadSnapshot where
  threadId : Option String
  rootMessageId : Option String

inductive QuoteStatus where
  | available | deleted | unauthorized | oversize | unsupported | unavailable

inductive MediaKind where
  | image | file | sticker | audio | video
  deriving DecidableEq

structure MediaMetadata where
  name : Option String
  mimeType : Option String
  sizeBytes : Option ℕ
  durationMs : Option ℕ

inductive DraftPart where
  | text (text : String)
  | media (kind : MediaKind) (resource : ResourceDesc) (thumbnail : Option ResourceDesc) (metadata : MediaMetadata)
    (transcriptFailure : Option TranscriptFailure)
  | card (content : String)
  | forward (messageId : Option String) (status : Lark.PartStatus)
  | unsupported (messageType reason : String)

/-- A part as the tools see it, with handles in place of resources. -/
inductive TypedPart where
  | text (text : String)
  | media (kind : MediaKind) (handle : MediaHandle) (thumbnailHandle : Option MediaHandle) (metadata : MediaMetadata)
  | card (content : String)
  | forward (messageId : Option String) (status : Lark.PartStatus)
  | unsupported (messageType reason : String)

structure QuoteDraft where
  messageId : String
  messageType : Option String
  status : QuoteStatus
  parts : List DraftPart

structure QuoteSnapshot where
  messageId : String
  messageType : Option String
  status : QuoteStatus
  parts : List TypedPart

structure ContextDraft where
  eventId : String
  messageId : String
  sender : SenderSnapshot
  chat : ChatSnapshot
  mentions : List MentionSnapshot
  thread : ThreadSnapshot
  quote : Option QuoteDraft
  messageType : String
  createTimeMs : ℤ
  parts : List DraftPart

structure ContextSnapshot where
  eventId : String
  messageId : String
  sender : SenderSnapshot
  chat : ChatSnapshot
  mentions : List MentionSnapshot
  thread : ThreadSnapshot
  quote : Option QuoteSnapshot
  messageType : String
  createTimeMs : ℤ
  parts : List TypedPart

/-! ## Bindings and errors -/

/-- What is known of a turn before it starts. -/
structure PendingBinding where
  codexThreadId : String
  localTurnRowId : ℤ
  deriving DecidableEq

/-- The caller of an active context. -/
structure ActiveBinding where
  codexThreadId : String
  localTurnRowId : ℤ
  codexTurnId : String

inductive RevocationReason where
  | completed | failed | cancelled | expired | replaced | shutdown
  deriving DecidableEq

inductive ContextErrorCode where
  | invalidRequest | notFound | unavailable | forbidden | unsupported | capacityExceeded

structure ContextError where
  code : ContextErrorCode
  message : String
  retryable : Bool

namespace ContextError

def unavailable (reason : RevocationReason) : ContextError :=
  ⟨.unavailable, match reason with
    | .expired => "context capability has expired"
    | .completed => "context is unavailable after turn completion"
    | .failed => "context is unavailable after turn failure"
    | .cancelled => "context is unavailable after turn cancellation"
    | .replaced => "context capability was replaced"
    | .shutdown => "context is unavailable after bridge shutdown", false⟩

def notFound : ContextError := ⟨.notFound, "context capability was not found", false⟩

def forbidden : ContextError := ⟨.forbidden, "context capability does not belong to this Codex turn", false⟩

def tooManyParts : ContextError := ⟨.invalidRequest, "context contains too many typed parts", false⟩

def emptyTurn : ContextError := ⟨.invalidRequest, "Codex turn ID must not be empty", false⟩

def emptyToolBinding : ContextError := ⟨.invalidRequest, "Codex thread and turn IDs must not be empty", false⟩

def pending : ContextError := ⟨.unavailable, "context is pending turn activation", true⟩

def atCapacity : ContextError := ⟨.capacityExceeded, "context registry is at capacity", true⟩

def unknownHandle : ContextError := ⟨.unsupported, "media handle is not resolvable in this context", false⟩

def revokedGate : ContextError := ⟨.unavailable, "context capability was revoked", false⟩

def budgetExhausted : ContextError := ⟨.capacityExceeded, "turn media read budget is exhausted", false⟩

end ContextError

/-! ## The registry -/

structure ContextRegistryConfig where
  ttl : ℕ
  maxContexts : ℕ
  maxPartsPerContext : ℕ
  maxMediaReadsPerTurn : ℕ
  maxMediaReadBytesPerTurn : ℕ
  maxMediaReadBytesPerItem : ℕ

def ContextRegistryConfig.default : ContextRegistryConfig :=
  ⟨10 * 60 * 1000, 4096, 128, attachmentMaxPerMessage, attachmentTurnTotalBytes, attachmentMaxBytes⟩

structure ResourceGrant where
  messageId : String
  kind : MediaKind
  resource : ResourceDesc
  transcript : Option String
  transcriptFailure : Option TranscriptFailure
  durationMs : Option ℕ

structure TurnReadMeter where
  reads : ℕ
  chargedBytes : ℕ
  observedBytes : KeyMap MediaHandle ℕ
  maxReads : ℕ
  maxBytes : ℕ

inductive EntryState where
  | pending
  | active (codexTurnId : String)
  | revoked (reason : RevocationReason)
  deriving DecidableEq

structure ContextEntry where
  contextId : ContextId
  pendingBinding : PendingBinding
  state : EntryState
  expiresAt : ℕ
  snapshot : ContextSnapshot
  grants : KeyMap MediaHandle ResourceGrant
  readMeter : ℕ
  responseGate : ℕ

def ContextEntry.live (e : ContextEntry) : Bool :=
  match e.state with
  | .revoked _ => false
  | _ => true

structure ResponseGate where
  revoked : Bool
  active : ℕ

/-- An authorised resource that its holder has not dropped. The context and its binding are only recorded. -/
structure AuthorizedResource where
  number : ℕ
  contextId : ContextId
  binding : PendingBinding
  localTurnRowId : ℤ
  grant : ResourceGrant
  handle : MediaHandle
  meter : ℕ
  reservedBytes : ℕ
  settled : Bool
  gate : ℕ

/-- A call of `revokeTurnAndWait` and the gates it still waits for. -/
structure Waiter where
  number : ℕ
  binding : PendingBinding
  gates : List ℕ
  revoked : ℕ

structure ContextRegistry where
  entries : List ContextEntry
  gates : ℕ → ResponseGate
  meters : ℕ → TurnReadMeter
  operations : List AuthorizedResource
  waiters : List Waiter
  nextGate : ℕ
  nextMeter : ℕ
  nextNumber : ℕ
  minted : ℕ

def u64Max : ℕ := 2 ^ 64 - 1

def satAdd (a b : ℕ) : ℕ := min (a + b) u64Max

namespace TurnReadMeter

def new (config : ContextRegistryConfig) : TurnReadMeter :=
  ⟨0, 0, ∅, config.maxMediaReadsPerTurn, config.maxMediaReadBytesPerTurn⟩

/-- Charges one read, with the observed size of the handle or the bound on it. -/
def reserve (m : TurnReadMeter) (handle : MediaHandle) (maxUnobservedBytes : ℕ) : Option (ℕ × TurnReadMeter) :=
  let reservedBytes := (m.observedBytes.lookup handle).getD maxUnobservedBytes
  if m.maxReads ≤ m.reads ∨ m.maxBytes < satAdd m.chargedBytes reservedBytes then none
  else some (reservedBytes, { m with reads := satAdd m.reads 1, chargedBytes := satAdd m.chargedBytes reservedBytes })

def settle (m : TurnReadMeter) (handle : MediaHandle) (reservedBytes actualBytes : ℕ) : TurnReadMeter :=
  { m with
    chargedBytes := satAdd (m.chargedBytes - reservedBytes) actualBytes
    observedBytes := m.observedBytes.insert handle actualBytes }

end TurnReadMeter

/-! ## Handles -/

section Supply

variable (uuid : ℕ → String)

/-- The first identifier from number `n` on that is not taken, after at most `tries` taken ones. -/
def firstFree (taken : String → Bool) (name : ℕ → String) : ℕ → ℕ → String × ℕ
  | 0, n => (name n, n + 1)
  | tries + 1, n => if taken (name n) then firstFree taken name tries (n + 1) else (name n, n + 1)

def contextName (n : ℕ) : ContextId := "bctx_" ++ uuid n

def handleName (n : ℕ) : MediaHandle := "bmedia_" ++ uuid n

/-- The grants of a context in the making, the transcripts left for it and the count of identifiers. -/
structure Minting where
  grants : KeyMap MediaHandle ResourceGrant
  liveTranscripts : List (ℕ × String)
  minted : ℕ

/-- `take_for_part`: the last transcript takes the place of the one taken. -/
def takeForPart (entries : List (ℕ × String)) (partIndex : ℕ) : Option String × List (ℕ × String) :=
  match entries.findIdx? (·.1 == partIndex), entries.find? (·.1 == partIndex), entries.getLast? with
  | some index, some entry, some last => (some entry.2, (entries.set index last).dropLast)
  | _, _, _ => (none, entries)

/-- A grant under a new handle. -/
def Minting.grant (m : Minting) (g : ResourceGrant) : MediaHandle × Minting :=
  let (handle, minted) := firstFree (fun h => (m.grants.lookup h).isSome) (handleName uuid) m.grants.size m.minted
  (handle, { m with grants := m.grants.insert handle g, minted })

def materializePart (partIndex : ℕ) (part : DraftPart) (messageId : String) (m : Minting) : TypedPart × Minting :=
  match part with
  | .text text => (.text text, m)
  | .media kind resource thumbnail metadata transcriptFailure =>
    let (transcript, liveTranscripts) :=
      if kind = .audio then takeForPart m.liveTranscripts partIndex else (none, m.liveTranscripts)
    let transcriptFailure := if transcript.isSome then none else transcriptFailure
    let (handle, m) := Minting.grant uuid { m with liveTranscripts }
      ⟨messageId, kind, resource, transcript, transcriptFailure, metadata.durationMs⟩
    match thumbnail with
    | none => (.media kind handle none metadata, m)
    | some resource =>
      let (thumbnailHandle, m) := Minting.grant uuid m ⟨messageId, .image, resource, none, none, none⟩
      (.media kind handle (some thumbnailHandle) metadata, m)
  | .card content => (.card content, m)
  | .forward messageId status => (.forward messageId status, m)
  | .unsupported messageType reason => (.unsupported messageType reason, m)

/-- The parts from `partIndex` on. -/
def materializeParts (messageId : String) : ℕ → List DraftPart → Minting → List TypedPart × Minting
  | _, [], m => ([], m)
  | partIndex, part :: rest, m =>
    let (typed, m) := materializePart uuid partIndex part messageId m
    let (parts, m) := materializeParts messageId (partIndex + 1) rest m
    (typed :: parts, m)

/-- A quoted audio is recognised from its bytes. -/
def prepareLiveQuotePart : DraftPart → DraftPart
  | .media .audio resource thumbnail metadata (some .notRetained) => .media .audio resource thumbnail metadata none
  | part => part

def materializeQuote (quote : QuoteDraft) (m : Minting) : QuoteSnapshot × Minting :=
  -- the transcripts of the message are not those of the quote
  let (parts, quoted) :=
    materializeParts uuid quote.messageId 0 (quote.parts.map prepareLiveQuotePart) { m with liveTranscripts := [] }
  (⟨quote.messageId, quote.messageType, quote.status, parts⟩, { quoted with liveTranscripts := m.liveTranscripts })

def materialize (draft : ContextDraft) (m : Minting) : ContextSnapshot × Minting :=
  let (parts, m) := materializeParts uuid draft.messageId 0 draft.parts m
  let (quote, m) := match draft.quote with
    | none => (none, m)
    | some quote => let (q, m) := materializeQuote uuid quote m; (some q, m)
  (⟨draft.eventId, draft.messageId, draft.sender, draft.chat, draft.mentions, draft.thread, quote, draft.messageType,
    draft.createTimeMs, parts⟩, m)

end Supply

/-! ## Revocation -/

namespace ContextRegistry

def empty (config : ContextRegistryConfig) : ContextRegistry :=
  ⟨[], fun _ => ⟨false, 0⟩, fun _ => .new config, [], [], 0, 0, 0, 0⟩

def find (s : ContextRegistry) (contextId : ContextId) : Option ContextEntry :=
  s.entries.find? (·.contextId = contextId)

/-- `revoke_entry` of the entries with `p`; a revoked entry stays as it is. -/
def revokeWhere (p : ContextEntry → Bool) (reason : RevocationReason) (s : ContextRegistry) : ContextRegistry :=
  { s with
    entries := s.entries.map fun e => if p e && e.live then { e with state := .revoked reason, grants := ∅ } else e
    gates := fun n =>
      if s.entries.any fun e => (p e && e.live) && e.responseGate == n then { s.gates n with revoked := true }
      else s.gates n }

/-- `expire` of the entry `contextId`. -/
def expire (contextId : ContextId) (now : ℕ) : ContextRegistry → ContextRegistry :=
  revokeWhere (fun e => e.contextId = contextId ∧ e.expiresAt ≤ now) .expired

def expireAll (now : ℕ) : ContextRegistry → ContextRegistry := revokeWhere (fun e => e.expiresAt ≤ now) .expired

/-- The entries of a local turn. -/
def revokeTurn (binding : PendingBinding) : RevocationReason → ContextRegistry → ContextRegistry :=
  revokeWhere fun e => e.pendingBinding = binding

/-- The entries that `revokeTurn` changes. -/
def liveOf (s : ContextRegistry) (binding : PendingBinding) : List ContextEntry :=
  s.entries.filter fun e => e.pendingBinding = binding ∧ e.live

/-- The revoked entries are evicted when there is no room. -/
def makeCapacity (s : ContextRegistry) (maxContexts now : ℕ) : Bool × ContextRegistry :=
  if s.entries.length < maxContexts then (true, s)
  else
    let s := s.expireAll now
    let s := { s with entries := s.entries.filter ContextEntry.live }
    (s.entries.length < maxContexts, s)

def setEntry (s : ContextRegistry) (contextId : ContextId) (f : ContextEntry → ContextEntry) : ContextRegistry :=
  { s with entries := s.entries.map fun e => if e.contextId = contextId then f e else e }

end ContextRegistry

/-! ## The calls -/

inductive Call where
  | registerPending (binding : PendingBinding) (draft : ContextDraft) (liveTranscripts : List (ℕ × String)) (now : ℕ)
  | activate (contextId : ContextId) (pending : PendingBinding) (codexTurnId : String) (now : ℕ)
  | resolve (contextId : ContextId) (caller : ActiveBinding) (now : ℕ)
  | resolveForTool (contextId : ContextId) (codexThreadId codexTurnId : String) (now : ℕ)
  | authorizeMedia (contextId : ContextId) (handle : MediaHandle) (caller : ActiveBinding) (now : ℕ)
  | authorizeMediaForTool (contextId : ContextId) (handle : MediaHandle) (codexThreadId codexTurnId : String)
    (maxMaterializedBytes now : ℕ)
  | commitResponse (operation : ℕ)
  | settleRead (operation actualBytes : ℕ)
  | dropResource (operation : ℕ)
  | revoke (contextId : ContextId) (binding : PendingBinding) (reason : RevocationReason)
  | revokeTurn (binding : PendingBinding) (reason : RevocationReason)
  | revokeTurnAndWait (binding : PendingBinding) (reason : RevocationReason)
  | poll (waiter : ℕ)
  | stats (now : ℕ)

structure ContextRegistryStats where
  total : ℕ
  pending : ℕ
  active : ℕ
  revoked : ℕ
  mediaGrants : ℕ

inductive Answer where
  | registered (contextId : ContextId)
  | activated
  | snapshot (snapshot : ContextSnapshot)
  | resource (operation : ℕ) (grant : ResourceGrant) (localTurnRowId : ℤ)
  | committed (allowed : Bool)
  | revoked (count : ℕ)
  | waiting (waiter : ℕ)
  | returned (count : ℕ)
  | stats (stats : ContextRegistryStats)
  | done
  | error (error : ContextError)

/-- `authorize_entry` after the expiry. -/
def authorizeEntry (e : ContextEntry) (caller : ActiveBinding) : Except ContextError Unit :=
  if e.pendingBinding.codexThreadId ≠ caller.codexThreadId ∨ e.pendingBinding.localTurnRowId ≠ caller.localTurnRowId then
    .error .forbidden
  else
    match e.state with
    | .pending => .error .pending
    | .active codexTurnId => if codexTurnId = caller.codexTurnId then .ok () else .error .forbidden
    | .revoked reason => .error (.unavailable reason)

/-- `authorize_entry_for_tool` after the expiry, with the new state of the entry. -/
def authorizeEntryForTool (e : ContextEntry) (codexThreadId codexTurnId : String) : Except ContextError EntryState :=
  if e.pendingBinding.codexThreadId ≠ codexThreadId then .error .forbidden
  else
    match e.state with
    | .pending => .ok (.active codexTurnId)
    | .active active => if active = codexTurnId then .ok e.state else .error .forbidden
    | .revoked reason => .error (.unavailable reason)

namespace ContextRegistry

/-- A call on the entry `contextId`, which expires first. -/
def withEntry (s : ContextRegistry) (contextId : ContextId) (now : ℕ)
    (f : ContextRegistry → ContextEntry → ContextRegistry × Answer) : ContextRegistry × Answer :=
  let s := s.expire contextId now
  match s.find contextId with
  | none => (s, .error .notFound)
  | some e => f s e

def authorizedResource (s : ContextRegistry) (e : ContextEntry) (handle : MediaHandle) (maxUnobservedBytes : ℕ) :
    ContextRegistry × Answer :=
  match e.grants.lookup handle with
  | none => (s, .error .unknownHandle)
  | some grant =>
    if (s.gates e.responseGate).revoked then (s, .error .revokedGate)
    else
      match (s.meters e.readMeter).reserve handle maxUnobservedBytes with
      | none => (s, .error .budgetExhausted)
      | some (reservedBytes, meter) =>
        ({ s with
            gates := Function.update s.gates e.responseGate ⟨false, (s.gates e.responseGate).active + 1⟩
            meters := Function.update s.meters e.readMeter meter
            operations := s.operations ++ [⟨s.nextNumber, e.contextId, e.pendingBinding, e.pendingBinding.localTurnRowId,
              grant, handle, e.readMeter, reservedBytes, false, e.responseGate⟩]
            nextNumber := s.nextNumber + 1 },
          .resource s.nextNumber grant e.pendingBinding.localTurnRowId)

def findOperation (s : ContextRegistry) (number : ℕ) : Option AuthorizedResource :=
  s.operations.find? (·.number = number)

def statsOf (s : ContextRegistry) : ContextRegistryStats where
  total := s.entries.length
  pending := s.entries.countP fun e => e.state = .pending
  active := s.entries.countP fun e => e.live ∧ e.state ≠ .pending
  revoked := s.entries.countP fun e => ¬ e.live
  mediaGrants := (s.entries.map fun e => e.grants.size).sum

section Supply

variable (uuid : ℕ → String) (config : ContextRegistryConfig)

/-- The new entry, once there is room for it. -/
def addPending (s : ContextRegistry) (binding : PendingBinding) (draft : ContextDraft)
    (liveTranscripts : List (ℕ × String)) (now : ℕ) : ContextRegistry × Answer :=
  let shared := s.entries.find? (·.pendingBinding = binding)
  let (contextId, minted) := firstFree (fun id => (s.find id).isSome) (contextName uuid) s.entries.length s.minted
  let (snapshot, m) := materialize uuid draft ⟨∅, liveTranscripts, minted⟩
  let entry : ContextEntry :=
    { contextId, pendingBinding := binding, state := .pending, expiresAt := now + config.ttl, snapshot
      grants := m.grants, readMeter := shared.elim s.nextMeter ContextEntry.readMeter, responseGate := s.nextGate }
  ({ s with
      entries := s.entries.filter (·.contextId ≠ contextId) ++ [entry]
      gates := Function.update s.gates s.nextGate ⟨false, 0⟩
      meters := if shared.isSome then s.meters else Function.update s.meters s.nextMeter (.new config)
      nextGate := s.nextGate + 1
      nextMeter := if shared.isSome then s.nextMeter else s.nextMeter + 1
      minted := m.minted }, .registered contextId)

def step (s : ContextRegistry) : Call → ContextRegistry × Answer
  | .registerPending binding draft liveTranscripts now =>
    let quoteParts := draft.quote.elim 0 fun quote => quote.parts.length
    if config.maxPartsPerContext < draft.parts.length + quoteParts then (s, .error .tooManyParts)
    else
      match s.makeCapacity config.maxContexts now with
      | (false, s) => (s, .error .atCapacity)
      | (true, s) => s.addPending uuid config binding draft liveTranscripts now
  | .activate contextId pending codexTurnId now =>
    if codexTurnId = "" then (s, .error .emptyTurn)
    else s.withEntry contextId now fun s e =>
      if e.pendingBinding ≠ pending then (s, .error .forbidden)
      else
        match e.state with
        | .pending => (s.setEntry contextId fun e => { e with state := .active codexTurnId }, .activated)
        | .active active => (s, if active = codexTurnId then .activated else .error .forbidden)
        | .revoked reason => (s, .error (.unavailable reason))
  | .resolve contextId caller now =>
    s.withEntry contextId now fun s e =>
      match authorizeEntry e caller with
      | .error error => (s, .error error)
      | .ok () => (s, .snapshot e.snapshot)
  | .resolveForTool contextId codexThreadId codexTurnId now =>
    if codexThreadId = "" ∨ codexTurnId = "" then (s, .error .emptyToolBinding)
    else s.withEntry contextId now fun s e =>
      match authorizeEntryForTool e codexThreadId codexTurnId with
      | .error error => (s, .error error)
      | .ok state => (s.setEntry contextId fun e => { e with state }, .snapshot e.snapshot)
  | .authorizeMedia contextId handle caller now =>
    s.withEntry contextId now fun s e =>
      match authorizeEntry e caller with
      | .error error => (s, .error error)
      | .ok () => s.authorizedResource e handle config.maxMediaReadBytesPerItem
  | .authorizeMediaForTool contextId handle codexThreadId codexTurnId maxMaterializedBytes now =>
    if codexThreadId = "" ∨ codexTurnId = "" then (s, .error .emptyToolBinding)
    else s.withEntry contextId now fun s e =>
      match authorizeEntryForTool e codexThreadId codexTurnId with
      | .error error => (s, .error error)
      | .ok state =>
        (s.setEntry contextId fun e => { e with state }).authorizedResource { e with state } handle maxMaterializedBytes
  | .commitResponse number =>
    match s.findOperation number with
    | none => (s, .done)
    | some o => (s, .committed (!(s.gates o.gate).revoked))
  | .settleRead number actualBytes =>
    match s.findOperation number with
    | none => (s, .done)
    | some o =>
      if o.settled then (s, .done)
      else
        ({ s with
            meters := Function.update s.meters o.meter ((s.meters o.meter).settle o.handle o.reservedBytes actualBytes)
            operations := s.operations.map fun o' => if o'.number = number then { o' with settled := true } else o' },
          .done)
  | .dropResource number =>
    match s.findOperation number with
    | none => (s, .done)
    | some o =>
      ({ s with
          gates := Function.update s.gates o.gate { s.gates o.gate with active := (s.gates o.gate).active - 1 }
          operations := s.operations.filter (·.number ≠ number) }, .done)
  | .revoke contextId binding reason =>
    match s.find contextId with
    | none => (s, .error .notFound)
    | some e =>
      if e.pendingBinding ≠ binding then (s, .error .forbidden)
      else (s.revokeWhere (fun e => e.contextId = contextId) reason, .done)
  | .revokeTurn binding reason => (s.revokeTurn binding reason, .revoked (s.liveOf binding).length)
  | .revokeTurnAndWait binding reason =>
    -- only the entries that this call changes give their gates
    ({ s.revokeTurn binding reason with
        waiters := s.waiters ++
          [⟨s.nextNumber, binding, (s.liveOf binding).map (·.responseGate), (s.liveOf binding).length⟩]
        nextNumber := s.nextNumber + 1 }, .waiting s.nextNumber)
  | .poll number =>
    match s.waiters.find? (·.number = number) with
    | none => (s, .done)
    | some w =>
      match w.gates with
      | [] => ({ s with waiters := s.waiters.filter (·.number ≠ number) }, .returned w.revoked)
      | gate :: rest =>
        if (s.gates gate).active = 0 then
          ({ s with waiters := s.waiters.map fun w => if w.number = number then { w with gates := rest } else w }, .done)
        else (s, .done)
  | .stats now => (s.expireAll now, .stats (s.expireAll now).statsOf)

theorem step_commitResponse (s : ContextRegistry) (number : ℕ) : ∃ answer,
    (answer = .done ∨ ∃ allowed, answer = .committed allowed) ∧
      s.step uuid config (.commitResponse number) = (s, answer) := by
  rw [step]
  split
  · exact ⟨_, .inl rfl, rfl⟩
  · exact ⟨_, .inr ⟨_, rfl⟩, rfl⟩

end Supply

end ContextRegistry

end LarkCodexBridge.Runtime.Contexts
