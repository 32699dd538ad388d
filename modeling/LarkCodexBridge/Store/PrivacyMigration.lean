import Mathlib
import LarkCodexBridge.Lib.JsonFields
import LarkCodexBridge.Store.InboundJobs

/-!
# Payloads without handles

The key of a resource lets its holder fetch it, so no key is stored. A payload is written from the descriptor of its event
(`persistableEvent`), and payloads from before that rule are rewritten once: their document is stripped of the keys and the
transcripts (`scrubDocument`), decoded like any payload, and encoded anew.

* `SameButHandles`, `encodeEvent_eq`: events that differ in their handles only have one payload;
* `DocumentAlike`, `scrubDocument_eq`: documents that differ in what is stripped only become one document;
* `Rewritten`, `scrub_rewrites`: what the migration leaves in a row;
* `stored_payloads_hide_handles`: no stored payload depends on a handle.
-/

namespace LarkCodexBridge.Store

open SqlTable Lark
open JsonValue (FieldsAgree fieldNames setField removeField removeField_of_none nodup_setField setField_of_lookup asStr)

/-! ## Payloads of events -/

/-- The availability of a part follows from its key. -/
def StatusAlike (a b : PartStatus) : Prop := a = b ∨ a ≠ .unsupported ∧ b ≠ .unsupported

/-- The media differ in their keys and in the availability. -/
structure MediaSameButHandles (a b : MediaPart) : Prop where
  metadata : a.metadata = b.metadata
  status : StatusAlike a.status b.status

/-- The same part, but for the handles of media. -/
inductive PartSameButHandles : MessagePart → MessagePart → Prop where
  | image {a b : MediaPart} (h : MediaSameButHandles a b) : PartSameButHandles (.image a) (.image b)
  | file {a b : MediaPart} (h : MediaSameButHandles a b) : PartSameButHandles (.file a) (.file b)
  | sticker {a b : MediaPart} (h : MediaSameButHandles a b) : PartSameButHandles (.sticker a) (.sticker b)
  | audio {a b : MediaPart} (h : MediaSameButHandles a b) : PartSameButHandles (.audio a) (.audio b)
  | video {a b : MediaPart} (h : MediaSameButHandles a b) : PartSameButHandles (.video a) (.video b)
  | refl (part : MessagePart) : PartSameButHandles part part

/-- **The events differ only in handles**: in the resources, and in the keys and the availability of media. -/
structure SameButHandles (e e' : InboundEvent) : Prop where
  parts : List.Forall₂ PartSameButHandles e.parts e'.parts
  rest : e' = { e with resources := e'.resources, parts := e'.parts }

theorem persistableMedia_eq {a b : MediaPart} (h : MediaSameButHandles a b) : persistableMedia a = persistableMedia b := by
  obtain ⟨key, thumbnailKey, metadata, status⟩ := a
  obtain ⟨key', thumbnailKey', metadata', status'⟩ := b
  obtain ⟨rfl, hstatus⟩ := h
  have : (if status = .available then .unavailable else status) = if status' = .available then .unavailable else status' := by
    rcases hstatus with heq | ⟨hne, hne'⟩
    · rw [show status = status' from heq]
    · cases status <;> cases status' <;> simp_all
  simp only [persistableMedia, this]

theorem persistablePart_eq {a b : MessagePart} (h : PartSameButHandles a b) : persistablePart a = persistablePart b := by
  cases h with
  | image h => exact congrArg MessagePart.image (persistableMedia_eq h)
  | file h => exact congrArg MessagePart.file (persistableMedia_eq h)
  | sticker h => exact congrArg MessagePart.sticker (persistableMedia_eq h)
  | audio h => exact congrArg MessagePart.audio (persistableMedia_eq h)
  | video h => exact congrArg MessagePart.video (persistableMedia_eq h)
  | refl => rfl

theorem persistableEvent_eq {e e' : InboundEvent} (h : SameButHandles e e') : persistableEvent e = persistableEvent e' := by
  have hparts : e.parts.map persistablePart = e'.parts.map persistablePart := by
    refine List.forall₂_eq_eq_eq ▸ List.forall₂_map_left_iff.2 (List.forall₂_map_right_iff.2 (h.parts.imp fun _ _ => ?_))
    exact persistablePart_eq
  rw [h.rest]
  simp only [persistableEvent, hparts]

variable {I : InboundCodec} {e e' : InboundEvent} {payload payload' : ByteArray}

theorem toVec_of_encodeEvent (h : encodeEvent I e = .ok payload) : I.toVec (.ofEvent (persistableEvent e)) = some payload := by
  obtain ⟨-, h⟩ := seq_eq_ok.1 h
  split at h
  · cases h
  · next b hb =>
    split at h
    · cases h
    · cases h
      exact hb

/-- **Stored payloads reveal no handles.** -/
theorem encodeEvent_eq (hsame : SameButHandles e e') (h : encodeEvent I e = .ok payload) (h' : encodeEvent I e' = .ok payload') :
    payload = payload' := by
  have hvec := toVec_of_encodeEvent h
  rw [persistableEvent_eq hsame, toVec_of_encodeEvent h'] at hvec
  exact (Option.some.inj hvec).symm

/-! ## Documents of old payloads -/

def mediaKinds : List String := ["image", "file", "sticker", "audio", "video"]

/-- The metadata of a medium without its transcript. -/
def scrubMetadata (metadata : List (String × JsonValue)) : List (String × JsonValue) :=
  if (metadata.lookup "transcript").isSome then
    let metadata := removeField "transcript" metadata
    if (metadata.lookup "transcript_failure").isSome then metadata
    else setField "transcript_failure" (.str "not_retained") metadata
  else metadata

/-- A medium without its keys. -/
def scrubMedia (media : List (String × JsonValue)) : List (String × JsonValue) :=
  let media := setField "thumbnail_key" .null (setField "key" .null media)
  let media := if (media.lookup "status").bind asStr = some "available" then setField "status" (.str "unavailable") media else media
  match media.lookup "metadata" with
  | some (.obj metadata) => setField "metadata" (.obj (scrubMetadata metadata)) media
  | _ => media

def isMediaPart (part : List (String × JsonValue)) : Bool := ((part.lookup "kind").bind asStr).any (· ∈ mediaKinds)

def scrubPart : JsonValue → JsonValue
  | .obj part =>
    if isMediaPart part then
      match part.lookup "value" with
      | some (.obj media) => .obj (setField "value" (.obj (scrubMedia media)) part)
      | _ => .obj part
    else .obj part
  | part => part

/-- The body of `scrub_legacy_inbound_payload` on the document. -/
def scrubDocument : JsonValue → Except StoreError JsonValue
  | .obj root =>
    let root := setField "resources" (.arr []) root
    match root.lookup "parts" with
    | some (.arr parts) => .ok (.obj (setField "parts" (.arr (parts.map scrubPart)) root))
    | _ => .error (.corruptData "scrubbing inbound privacy payload parts")
  | _ => .error (.corruptData "scrubbing an inbound privacy payload object")

/-- Two objects of distinct names whose fields agree as `R` says. -/
def ObjectsAlike (R : String → JsonValue → JsonValue → Prop) (a b : JsonValue) : Prop :=
  ∃ m m', a = .obj m ∧ b = .obj m' ∧ (fieldNames m).Nodup ∧ FieldsAgree R m m'

/-- Metadata with two transcripts. -/
def MetadataAlike : JsonValue → JsonValue → Prop := ObjectsAlike fun k a b => k = "transcript" ∨ a = b

def statuses : List JsonValue := [.str "available", .str "unavailable"]

/-- Media with two pairs of keys, the availability that goes with them, and two transcripts. -/
def MediaFields (k : String) (a b : JsonValue) : Prop :=
  k = "key" ∨ k = "thumbnail_key" ∨ k = "status" ∧ (a ∈ statuses ∧ b ∈ statuses) ∨ k = "metadata" ∧ MetadataAlike a b ∨ a = b

def MediaAlike : JsonValue → JsonValue → Prop := ObjectsAlike MediaFields

/-- The same part, or two of a kind that has keys with media that are alike. -/
def PartAlike (a b : JsonValue) : Prop :=
  a = b ∨ ∃ m m', a = .obj m ∧ b = .obj m' ∧ (fieldNames m).Nodup ∧ isMediaPart m = true ∧
    FieldsAgree (fun k a b => k = "value" ∧ MediaAlike a b ∨ a = b) m m'

def PartsAlike (a b : JsonValue) : Prop := ∃ l l', a = .arr l ∧ b = .arr l' ∧ List.Forall₂ PartAlike l l'

/-- **The documents differ only in handles and transcripts.** -/
def DocumentAlike : JsonValue → JsonValue → Prop :=
  ObjectsAlike fun k a b => k = "resources" ∨ k = "parts" ∧ PartsAlike a b ∨ a = b

variable {m m' : List (String × JsonValue)} {a b : JsonValue}

theorem scrubMetadata_eq (h : FieldsAgree (fun k a b => k = "transcript" ∨ a = b) m m') : scrubMetadata m = scrubMetadata m' := by
  have hremoved : removeField "transcript" m = removeField "transcript" m' :=
    (h.remove (S := fun _ a b => a = b) fun _ _ _ hne hR => hR.resolve_left hne).eq fun _ _ _ => id
  unfold scrubMetadata
  rw [h.isSome_lookup "transcript"]
  split
  · rw [hremoved]
  · next hnone =>
    -- no transcript is there to differ in
    have hnone' : m'.lookup "transcript" = none := Option.not_isSome_iff_eq_none.1 hnone
    rw [← h.isSome_lookup "transcript"] at hnone
    rwa [removeField_of_none (Option.not_isSome_iff_eq_none.1 hnone), removeField_of_none hnone'] at hremoved

/-- The status of a medium as it is stored. -/
def scrubStatus (media : List (String × JsonValue)) : List (String × JsonValue) :=
  if (media.lookup "status").bind asStr = some "available" then setField "status" (.str "unavailable") media else media

/-- A medium with its transcript removed. -/
def scrubTranscript (media : List (String × JsonValue)) : List (String × JsonValue) :=
  match media.lookup "metadata" with
  | some (.obj metadata) => setField "metadata" (.obj (scrubMetadata metadata)) media
  | _ => media

theorem scrubMedia_split (media : List (String × JsonValue)) :
    scrubMedia media = scrubTranscript (scrubStatus (setField "thumbnail_key" .null (setField "key" .null media))) := rfl

/-- The fields of a medium that are left to agree once its keys are gone. -/
def StatusOrMetadata (k : String) (a b : JsonValue) : Prop :=
  k = "status" ∧ (a ∈ statuses ∧ b ∈ statuses) ∨ k = "metadata" ∧ MetadataAlike a b ∨ a = b

/-- The field that is left once the status is one. -/
def OnlyMetadata (k : String) (a b : JsonValue) : Prop := k = "metadata" ∧ MetadataAlike a b ∨ a = b

theorem setKeys_agree (h : FieldsAgree MediaFields m m') : FieldsAgree StatusOrMetadata
    (setField "thumbnail_key" .null (setField "key" .null m)) (setField "thumbnail_key" .null (setField "key" .null m')) := by
  have hkey : FieldsAgree (fun k a b => k = "thumbnail_key" ∨ StatusOrMetadata k a b) (setField "key" .null m)
      (setField "key" .null m') := h.set (.inr (.inr (.inr rfl))) fun _ _ _ hne hR => hR.resolve_left hne
  exact hkey.set (.inr (.inr rfl)) fun _ _ _ hne hR => hR.resolve_left hne

theorem scrubStatus_agree (h : FieldsAgree StatusOrMetadata m m') (hnodup : (fieldNames m).Nodup) :
    FieldsAgree OnlyMetadata (scrubStatus m) (scrubStatus m') := by
  have hnodup' : (fieldNames m').Nodup := h.names ▸ hnodup
  -- an available medium gets the status it would have without its key
  have hset : ∀ {l : List (String × JsonValue)} {v : JsonValue}, (fieldNames l).Nodup → l.lookup "status" = some v → v ∈ statuses →
      scrubStatus l = setField "status" (.str "unavailable") l := by
    intro l v hl hv hmem
    unfold scrubStatus
    rw [hv]
    rcases List.mem_cons.1 hmem with rfl | hmem
    · rfl
    · obtain rfl := List.mem_singleton.1 hmem
      exact (setField_of_lookup hl hv).symm
  rcases h.refine_or_set hnodup with hagree | ⟨a, b, ha, hb, ⟨hQ, hQ'⟩, hagree⟩
  · unfold scrubStatus
    rcases hagree.lookup "status" with ⟨hn, hn'⟩ | ⟨a, b, ha, hb, ⟨hk, -⟩ | rfl⟩
    · rw [hn, hn']
      exact hagree
    · exact absurd hk (by decide)
    · rw [ha, hb]
      split
      · exact hagree.set (.inr rfl) fun _ _ _ _ hR => hR
      · exact hagree
  · rw [hset hnodup ha hQ, hset hnodup' hb hQ']
    exact hagree _ (.inr rfl)

theorem scrubTranscript_eq (h : FieldsAgree OnlyMetadata m m') (hnodup : (fieldNames m).Nodup) :
    scrubTranscript m = scrubTranscript m' := by
  rcases h.eq_or_set hnodup with rfl | ⟨a, b, ha, hb, hQ, hset⟩
  · rfl
  · unfold scrubTranscript
    rw [ha, hb]
    obtain ⟨l, l', rfl, rfl, -, hagree⟩ := hQ
    show setField "metadata" (.obj (scrubMetadata l)) m = setField "metadata" (.obj (scrubMetadata l')) m'
    rw [scrubMetadata_eq hagree]
    exact hset _

theorem scrubMedia_eq (h : FieldsAgree MediaFields m m') (hnodup : (fieldNames m).Nodup) : scrubMedia m = scrubMedia m' := by
  have hkeys : (fieldNames (setField "thumbnail_key" .null (setField "key" .null m))).Nodup := nodup_setField (nodup_setField hnodup)
  have hstatus : (fieldNames (scrubStatus (setField "thumbnail_key" .null (setField "key" .null m)))).Nodup := by
    unfold scrubStatus
    split
    · exact nodup_setField hkeys
    · exact hkeys
  rw [scrubMedia_split, scrubMedia_split, scrubTranscript_eq (scrubStatus_agree (setKeys_agree h) hkeys) hstatus]

theorem scrubPart_eq (h : PartAlike a b) : scrubPart a = scrubPart b := by
  obtain rfl | ⟨m, m', rfl, rfl, hnodup, hmedia, hagree⟩ := h
  · rfl
  rcases hagree.eq_or_set hnodup with rfl | ⟨a, b, ha, hb, ⟨l, l', rfl, rfl, hl, hfields⟩, hset⟩
  · rfl
  · have hmedia' : isMediaPart m' = true := by
      -- the kind is a field of both
      unfold isMediaPart at hmedia ⊢
      rcases hagree.lookup "kind" with ⟨hn, hn'⟩ | ⟨x, y, hx, hy, ⟨hk, -⟩ | rfl⟩
      · rwa [hn', ← hn]
      · exact absurd hk (by decide)
      · rwa [hy, ← hx]
    simp only [scrubPart, hmedia, hmedia', if_true, ha, hb]
    rw [scrubMedia_eq hfields hl, hset]

/-- **Documents that differ only in what is stripped become one.** -/
theorem scrubDocument_eq (h : DocumentAlike a b) : scrubDocument a = scrubDocument b := by
  obtain ⟨m, m', rfl, rfl, hnodup, hagree⟩ := h
  have hresources : FieldsAgree (fun k a b => k = "parts" ∧ PartsAlike a b ∨ a = b) (setField "resources" (.arr []) m)
      (setField "resources" (.arr []) m') := hagree.set (.inr rfl) fun _ _ _ hne hR => hR.resolve_left hne
  rcases hresources.eq_or_set (nodup_setField hnodup) with heq | ⟨a, b, ha, hb, ⟨l, l', rfl, rfl, hparts⟩, hset⟩
  · simp only [scrubDocument, heq]
  · have hmap : l.map scrubPart = l'.map scrubPart :=
      List.forall₂_eq_eq_eq ▸ List.forall₂_map_left_iff.2 (List.forall₂_map_right_iff.2 (hparts.imp fun _ _ => scrubPart_eq))
    simp only [scrubDocument, ha, hb, hmap, hset]

/-! ## The migration -/

/-- `serde_json::from_slice` and `serde_json::to_vec` on untyped documents. -/
structure DocumentCodec where
  fromSlice : ByteArray → Option JsonValue
  toVec : JsonValue → Option ByteArray

variable (D : DocumentCodec)

def InboundRow.withPayload (payload : ByteArray) (r : InboundRow) : InboundRow :=
  { r with payloadBlob := some payload, payloadBytes := payload.size }

def scrubLegacyInboundPayload (stored : InboundRow) : Except StoreError InboundRow :=
  match stored.payloadBlob with
  | none => .error (.corruptData "scrubbing a missing inbound privacy payload")
  | some payload =>
    if payload.size > Limits.storeInboundPayloadMaxBytes ∨ stored.payloadBytes ≠ payload.size then
      .error (.corruptData "scrubbing an invalid inbound privacy payload length")
    else
      match D.fromSlice payload with
      | none => .error (.corruptData "decoding an inbound privacy payload")
      | some value => do
        let value ← scrubDocument value
        match D.toVec value with
        | none => .error (.corruptData "encoding a scrubbed inbound privacy payload")
        | some payload => .ok (stored.withPayload payload)

variable (I) {value : JsonValue}

/-- The payload that the migration writes for a row. -/
def scrubbedPayload (stored : InboundRow) : Except StoreError ByteArray := do
  let stored ← scrubLegacyInboundPayload D stored
  let old ← retainedFromStored I stored
  encodeEvent I old.event

/-- A row that waits for its turn or is in one. -/
def InboundRow.pending (r : InboundRow) : Bool := r.state = .received ∨ r.state = .accepted

/-- The row the migration read. -/
def isUnchanged (stored r : InboundRow) : Bool :=
  r.tenant = stored.tenant ∧ r.eventId = stored.eventId ∧ r.state = stored.state ∧ r.turnRowId = stored.turnRowId

/-- The rows are rewritten one after the other. -/
def rewritePayloads : List (Row InboundRow) → Db → Except StoreError Db
  | [], db => .ok db
  | stored :: rows, db => do
    let payload ← scrubbedPayload I D stored.val
    let db ← db.updateOne "rewriting inbound privacy payload" "rewriting one inbound privacy payload"
      (isUnchanged stored.val) (InboundRow.withPayload payload)
    rewritePayloads rows db

def scrubPersistedInboundSecrets : Job Db Unit := fun db => do
  let db ← rewritePayloads I D ((db.inbound.rows.filter (·.val.pending)).insertionSort keyOrder) db
  .ok ((), db)

/-- A row with the payload that the migration writes. -/
def Rewritten (old new : InboundRow) : Prop := ∃ payload, scrubbedPayload I D old = .ok payload ∧ new = old.withPayload payload

/-- Each listed row is rewritten, the others are left as they are. -/
theorem rewritePayloads_ok : ∀ {rows : List (Row InboundRow)} {db db' : Db}, rewritePayloads I D rows db = .ok db' →
    (∀ r ∈ rows, r ∈ db.inbound.rows) → rows.Nodup →
      ∃ f inbound, db' = { db with inbound := inbound } ∧ Table.Maps f db.inbound inbound ∧
        ∀ r ∈ db.inbound.rows, (r ∈ rows → Rewritten I D r.val (f r)) ∧ (r ∉ rows → f r = r.val)
  | [], db, db', h, _, _ => by
    cases h
    exact ⟨fun r => r.val, db.inbound, rfl, ⟨by simp, rfl⟩, fun r _ => ⟨fun hr => absurd hr List.not_mem_nil, fun _ => rfl⟩⟩
  | stored :: rows, db, db', h, hmem, hnodup => by
    obtain ⟨payload, hpayload, h⟩ := bind_eq_ok.1 h
    obtain ⟨db₁, h₁, hrest⟩ := bind_eq_ok.1 h
    obtain ⟨r₀, hr₀, -, hkey₀, inbound₁, rfl, hm₁⟩ := updateOne_row stored.val.key h₁ fun s hs => by
      simp only [isUnchanged, decide_eq_true_eq] at hs
      exact Prod.ext hs.1 hs.2.1
    obtain ⟨hstored, hrows⟩ := List.forall_mem_cons.1 hmem
    obtain ⟨hfresh, hrest'⟩ := List.nodup_cons.1 hnodup
    obtain rfl := Table.eq_of_key hr₀ hstored hkey₀
    -- any other row keeps its columns, and the row itself is listed once
    have hother : ∀ r ∈ db.inbound.rows, r ≠ r₀ →
        { r with val := rewrite (·.key = r₀.val.key) (InboundRow.withPayload payload) r } = r := by
      intro r hr hne
      have hkey : r.val.key ≠ r₀.val.key := fun heq => hne (Table.eq_of_key hr hstored heq)
      simp only [rewrite, if_neg hkey]
    have hself : { r₀ with val := r₀.val.withPayload payload } ∉ rows := fun hr =>
      hfresh (Table.eq_of_id (hrows _ hr) hstored rfl ▸ hr)
    have hrows₁ : ∀ r ∈ rows, r ∈ inbound₁.rows := fun r hr =>
      hm₁.mem.2 ⟨r, hrows r hr, (hother r (hrows r hr) fun heq => hfresh (heq ▸ hr)).symm⟩
    obtain ⟨f, inbound, rfl, hm, hf⟩ := rewritePayloads_ok hrest hrows₁ hrest'
    refine ⟨_, inbound, rfl, hm₁.trans hm, fun r hr => ?_⟩
    have hr₁ := hf _ (hm₁.mem.2 ⟨r, hr, rfl⟩)
    by_cases heq : r = r₀
    · subst heq
      simp only [rewrite, if_true] at hr₁ ⊢
      exact ⟨fun _ => ⟨payload, hpayload, hr₁.2 hself⟩, fun hne => absurd List.mem_cons_self hne⟩
    · rw [hother r hr heq] at hr₁
      simp only [hother r hr heq, List.mem_cons, heq, false_or]
      exact hr₁

/-- **What the migration leaves**: rows that wait or run with rewritten payloads, all others unchanged. -/
theorem scrub_rewrites {db db' : Db} (h : scrubPersistedInboundSecrets I D db = .ok ((), db')) {r' : Row InboundRow}
    (hr' : r' ∈ db'.inbound.rows) : ∃ r ∈ db.inbound.rows, r.id = r'.id ∧
      (r.val.pending = true ∧ Rewritten I D r.val r'.val ∨ r.val.pending = false ∧ r'.val = r.val) := by
  obtain ⟨db₁, h, hdb⟩ := bind_eq_ok.1 h
  cases hdb
  have hmem : ∀ r : Row InboundRow, r ∈ (db.inbound.rows.filter (·.val.pending)).insertionSort keyOrder ↔
      r ∈ db.inbound.rows ∧ r.val.pending = true := by simp [List.mem_insertionSort]
  have hnodup : ((db.inbound.rows.filter (·.val.pending)).insertionSort keyOrder).Nodup :=
    (List.perm_insertionSort _ _).nodup_iff.2 ((db.inbound.id_lt.imp fun hlt heq => hlt.ne (congrArg Row.id heq)).filter _)
  obtain ⟨f, inbound, rfl, hm, hf⟩ := rewritePayloads_ok I D h (fun r hr => ((hmem r).1 hr).1) hnodup
  obtain ⟨r, hr, rfl⟩ := hm.mem.1 hr'
  refine ⟨r, hr, rfl, ?_⟩
  cases hp : r.val.pending with
  | true => exact .inl ⟨rfl, (hf r hr).1 ((hmem r).2 ⟨hr, hp⟩)⟩
  | false => exact .inr ⟨rfl, (hf r hr).2 fun hr' => by simp [((hmem r).1 hr').2] at hp⟩

theorem scrubLegacyInboundPayload_eq_ok {stored scrubbed : InboundRow}
    (hvalue : stored.payloadBlob.bind D.fromSlice = some value) (h : scrubLegacyInboundPayload D stored = .ok scrubbed) :
    ∃ payload, (scrubDocument value).toOption.bind D.toVec = some payload ∧ scrubbed = stored.withPayload payload := by
  unfold scrubLegacyInboundPayload at h
  split at h
  · cases h
  · next blob hblob =>
    rw [hblob, Option.bind_some] at hvalue
    split at h
    · cases h
    · rw [hvalue] at h
      obtain ⟨scrubbedValue, hscrubbed, h⟩ := bind_eq_ok.1 h
      split at h
      · cases h
      · next payload hpayload =>
        cases h
        refine ⟨payload, ?_, rfl⟩
        rw [hscrubbed]
        exact hpayload

/-- Two rows with documents that are alike are rewritten to one. -/
theorem rewritten_eq {old old' new new' : InboundRow} {value' : JsonValue}
    (hcolumns : ∃ blob, old' = old.withPayload blob) (hvalue : old.payloadBlob.bind D.fromSlice = some value)
    (hvalue' : old'.payloadBlob.bind D.fromSlice = some value') (halike : DocumentAlike value value')
    (h : Rewritten I D old new) (h' : Rewritten I D old' new') : new = new' := by
  obtain ⟨payload, hpayload, rfl⟩ := h
  obtain ⟨payload', hpayload', rfl⟩ := h'
  obtain ⟨blob, rfl⟩ := hcolumns
  obtain ⟨scrubbed, hscrubbed, hpayload⟩ := bind_eq_ok.1 hpayload
  obtain ⟨scrubbed', hscrubbed', hpayload'⟩ := bind_eq_ok.1 hpayload'
  obtain ⟨bytes, hbytes, rfl⟩ := scrubLegacyInboundPayload_eq_ok D hvalue hscrubbed
  obtain ⟨bytes', hbytes', rfl⟩ := scrubLegacyInboundPayload_eq_ok D hvalue' hscrubbed'
  rw [scrubDocument_eq halike, hbytes'] at hbytes
  cases hbytes
  -- from the scrubbed payload on, both rows are the same
  have hsame : Except.ok payload = Except.ok payload' := hpayload.symm.trans hpayload'
  rw [Except.ok.inj hsame]
  rfl

/-- **Stored payloads reveal no handles.** Events that differ in their handles only have one payload, every row that the
migration rewrites holds the payload of the event its scrubbed payload decodes to, and what it holds does not depend on the
handles and transcripts of the document it held before. -/
theorem stored_payloads_hide_handles :
    (∀ e e' payload payload', SameButHandles e e' → encodeEvent I e = .ok payload → encodeEvent I e' = .ok payload' →
      payload = payload') ∧
    (∀ db db', scrubPersistedInboundSecrets I D db = .ok ((), db') → ∀ r' ∈ db'.inbound.rows, r'.val.pending = true →
      ∃ r ∈ db.inbound.rows, r.id = r'.id ∧ ∃ scrubbed old payload, scrubLegacyInboundPayload D r.val = .ok scrubbed ∧
        retainedFromStored I scrubbed = .ok old ∧ encodeEvent I old.event = .ok payload ∧ r'.val = r.val.withPayload payload) ∧
    ∀ old old' new new' value value', (∃ blob, old' = old.withPayload blob) → old.payloadBlob.bind D.fromSlice = some value →
      old'.payloadBlob.bind D.fromSlice = some value' → DocumentAlike value value' → Rewritten I D old new →
      Rewritten I D old' new' → new = new' := by
  refine ⟨fun e e' payload payload' => encodeEvent_eq, fun db db' h r' hr' hpending => ?_, fun old old' new new' value value' =>
    rewritten_eq I D⟩
  obtain ⟨r, hr, hid, ⟨-, payload, hpayload, hval⟩ | ⟨hnot, hval⟩⟩ := scrub_rewrites I D h hr'
  · obtain ⟨scrubbed, hscrubbed, hpayload⟩ := bind_eq_ok.1 hpayload
    obtain ⟨old, hold, hpayload⟩ := bind_eq_ok.1 hpayload
    exact ⟨r, hr, hid, scrubbed, old, payload, hscrubbed, hold, hpayload, hval⟩
  · rw [hval, hnot] at hpending
    cases hpending

end LarkCodexBridge.Store
