import LarkCodexBridge.Store.InboundIntegrity

/-!
# Replays of stored events

A stored event reads back as its crash-replay descriptor, with a part made up where it has none, and a live redelivery
of the event can be bound to what is read back (`validateLiveClaim`).

* `validateLiveClaim_replayEvent`: an event is bound to its own descriptor, whatever its parts;
* `replayable_iff`: an accepted event is replayable exactly when it has a message type or a part.
-/

namespace LarkCodexBridge.Store

open Limits Lark

variable {I : InboundCodec}

/-- The event, with the parts of the old format if it has none. -/
def withLegacyParts (event : InboundEvent) : InboundEvent :=
  { event with
    parts := if event.parts.isEmpty then partsFromV1 event.messageType event.text event.resources else event.parts }

theorem replayEvent_eq (event : InboundEvent) : replayEvent event = withLegacyParts (persistableEvent event) := rfl

/-! ## Live claims -/

theorem samePersistedMediaMetadata_persistable (media : MediaPart) :
    samePersistedMediaMetadata media (persistableMedia media) = true := by
  simp [samePersistedMediaMetadata, persistableMedia]

theorem sameShape_persistable : ∀ part : MessagePart, sameShape part (persistablePart part) = true
  | .image media | .file media | .sticker media | .audio media | .video media =>
    samePersistedMediaMetadata_persistable media
  | .text _ | .forward _ _ | .card _ | .unsupported _ _ => by simp [sameShape, persistablePart]

theorem sameShape_parts : ∀ parts : List MessagePart,
    (parts.zip (parts.map persistablePart)).all (fun (live, persisted) => sameShape live persisted) = true
  | [] => rfl
  | part :: parts => by
    have ih := sameShape_parts parts
    rw [List.map_cons, List.zip_cons_cons, List.all_cons, ih, Bool.and_true]
    exact sameShape_persistable part

/-- A media part made up from the resources, and the one made up without them. -/
theorem samePersistedMediaMetadata_legacy (resources : List ResourceDesc) (kind : ResourceKind) :
    samePersistedMediaMetadata (legacyMediaPart resources kind) (legacyMediaPart [] kind) = true := by
  unfold samePersistedMediaMetadata legacyMediaPart
  cases resources.find? (·.kind = kind) <;> rfl

/-- The parts made up for a live event and for its descriptor. -/
theorem sameShape_partsFromV1 (messageType text : String) (resources : List ResourceDesc) :
    (partsFromV1 messageType text resources).length = (partsFromV1 messageType text []).length ∧
      ((partsFromV1 messageType text resources).zip (partsFromV1 messageType text [])).all
        (fun (live, persisted) => sameShape live persisted) = true := by
  unfold partsFromV1
  split
  · simp [sameShape]
  · split
    · simp [sameShape, samePersistedMediaMetadata_legacy]
    · split
      · simp [sameShape, samePersistedMediaMetadata_legacy]
      · simp [sameShape]

/-- **A live event is bound to its own descriptor.** -/
theorem validateLiveClaim_replayEvent (event : InboundEvent) : validateLiveClaim event (replayEvent event) = .ok () := by
  have hidentity : sameIdentity event (replayEvent event) = true :=
    decide_eq_true ⟨rfl, rfl, rfl, rfl, rfl, rfl, rfl, rfl, rfl, rfl, rfl, rfl, rfl, rfl, rfl, rfl⟩
  have hparts : (replayEvent event).parts =
      if event.parts.isEmpty then partsFromV1 event.messageType event.text [] else event.parts.map persistablePart := by
    rw [replayEvent_eq]
    unfold withLegacyParts persistableEvent
    cases event.parts <;> rfl
  unfold validateLiveClaim
  rw [hidentity, hparts]
  dsimp only
  rw [if_neg (by decide)]
  by_cases hempty : event.parts.isEmpty = true
  · rw [if_pos hempty, if_pos hempty]
    obtain ⟨hlength, hall⟩ := sameShape_partsFromV1 event.messageType event.text event.resources
    rw [if_neg (not_not.2 hlength), hall]
    rfl
  · rw [if_neg hempty, if_neg hempty]
    rw [if_neg (by simp), sameShape_parts]
    rfl

/-! ## Stored events -/

/-- A received row with the identity of the event and its encoded payload. -/
structure StoresEvent (event : InboundEvent) (payload : ByteArray) (stored : InboundRow) : Prop where
  eventId : stored.eventId = event.eventId
  messageId : stored.messageId = event.messageId
  scopeKey : stored.scopeKey = event.scope.toString
  state : stored.state = .received
  version : stored.payloadVersion = some 1
  blob : stored.payloadBlob = some payload
  bytes : stored.payloadBytes = payload.size

/-- The row reads back as the descriptor of the event, and the live event is bound to that. -/
def Replayable (I : InboundCodec) (event : InboundEvent) (stored : InboundRow) : Prop :=
  ∃ retained, retainedFromStored I stored = .ok retained ∧ retained.event = withLegacyParts (persistableEvent event) ∧
    validateLiveClaim event retained.event = .ok ()

/-- **An accepted event is replayable exactly when it has a message type or a part.** -/
theorem replayable_iff (I : InboundCodec) {event : InboundEvent} {payload : ByteArray} {stored : InboundRow}
    (h : encodeEvent I event = .ok payload) (hs : StoresEvent event payload stored) :
    Replayable I event stored ↔ event.messageType ≠ "" ∨ event.parts ≠ [] := by
  obtain ⟨hv, hread, hsize⟩ := encodeEvent_ok I h
  constructor
  · rintro ⟨retained, hret, -⟩
    obtain ⟨-, -, payload', dto, hblob, -, -, hdto, hinto, -⟩ := retainedFromStored_eq_ok.1 hret
    obtain rfl : payload = payload' := Option.some.inj (hs.blob.symm.trans hblob)
    cases hread.symm.trans hdto
    by_contra hn
    rw [not_or, not_not, not_not] at hn
    exact intoEvent_emptyType hn.1 hn.2 _ hinto
  · intro hne
    refine ⟨⟨replayEvent event, payload.size⟩, ?_, replayEvent_eq event, validateLiveClaim_replayEvent event⟩
    exact retainedFromStored_eq_ok.2 ⟨.inl hs.state, hs.version, payload, _, hs.blob, hs.bytes, hsize, hread,
      intoEvent_ofEvent_persistable hv hne, hs.eventId.symm, hs.messageId.symm, hs.scopeKey.symm, rfl⟩

theorem encodeEvent_eq_ok (I : InboundCodec) {event : InboundEvent} {payload : ByteArray}
    (hv : validateEvent event = .ok ()) (hwrite : I.toVec (.ofEvent (persistableEvent event)) = some payload)
    (hsize : payload.size ≤ storeInboundPayloadMaxBytes) : encodeEvent I event = .ok payload := by
  unfold encodeEvent
  rw [hv, hwrite]
  exact if_neg (not_lt.2 hsize)

theorem codecOf_toVec_head (dto : InboundPayloadV1) (payload : ByteArray) (entries : List (InboundPayloadV1 × ByteArray))
    (h : (((dto, payload) :: entries).map (·.2.data.toList)).Nodup) :
    (codecOf ((dto, payload) :: entries) h).toVec dto = some payload := by
  simp [codecOf]

set_option maxRecDepth 20000 in
/-- A text event and its row. -/
theorem replayable_helloEvent : encodeEvent helloCodec (helloEvent "evt_1") = .ok (helloPayload "evt_1") ∧
    Replayable helloCodec (helloEvent "evt_1") (receivedRow 0 sampleTenant (helloEvent "evt_1") (helloPayload "evt_1")) := by
  have h : encodeEvent helloCodec (helloEvent "evt_1") = .ok (helloPayload "evt_1") :=
    encodeEvent_eq_ok helloCodec (by decide) (codecOf_toVec_head _ _ _ _) (by decide)
  exact ⟨h, (replayable_iff helloCodec h ⟨rfl, rfl, rfl, rfl, rfl, rfl, rfl⟩).2 (.inl (by decide))⟩

set_option maxRecDepth 20000 in
/-- An event with neither is accepted and not replayable. -/
theorem emptyTypeEvent_unreplayable : encodeEvent emptyTypeCodec emptyTypeEvent = .ok emptyTypePayload ∧
    ¬Replayable emptyTypeCodec emptyTypeEvent (receivedRow 0 sampleTenant emptyTypeEvent emptyTypePayload) := by
  refine ⟨encodeEvent_eq_ok emptyTypeCodec (by decide) (codecOf_toVec_head _ _ _ _) (by decide), ?_⟩
  rintro ⟨retained, hret, -⟩
  have herr : (retainedFromStored emptyTypeCodec (receivedRow 0 sampleTenant emptyTypeEvent emptyTypePayload)).isOk =
      false := by decide
  rw [hret] at herr
  cases herr

end LarkCodexBridge.Store
