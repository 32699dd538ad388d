import Mathlib
import LarkCodexBridge.Lib.Run
import LarkCodexBridge.Lark.Fragments

/-!
# Reassembly of interleaved messages

A family `parts` says which fragments a message consists of. The fragments of any number of messages arrive in any
order and interleaving; between them arrive whole messages, malformed frames and repeats (`Frame`). `Fits` is what the
frames keep to: each fragment once, in time and within the bounds of the buffer.

* `Holds`: the buffer holds for each waiting message what has arrived of it, and nothing else.
* `fragments_reassemble`: the last missing fragment, and only that one, is answered with the whole message.
-/

namespace LarkCodexBridge.Lark

open Limits StepSystem

/-! ## The buffer as a map -/

namespace Reassembler

variable {r : Reassembler} {messageId id : String} {entry : Entry}

theorem WF.get?_of_mem (h : r.WF) {p : String × Entry} (hp : p ∈ r.entries) : r.get? p.1 = some p.2 := by
  cases hfind : r.entries.find? (·.1 = p.1) with
  | none => simpa using List.find?_eq_none.1 hfind p hp
  | some q =>
    have hq : q.1 = p.1 := of_decide_eq_true (List.find?_some hfind :)
    obtain rfl : q = p := List.inj_on_of_nodup_map h.ids (List.mem_of_find?_eq_some hfind) hp hq
    simp [get?, hfind]

theorem mem_of_get? (h : r.get? id = some entry) : (id, entry) ∈ r.entries := by
  obtain ⟨⟨_, _⟩, hfind, rfl⟩ := Option.map_eq_some_iff.1 h
  obtain rfl : _ = id := of_decide_eq_true (List.find?_some hfind :)
  exact List.mem_of_find?_eq_some hfind

theorem get?_filter {n : ℕ} : get? ⟨r.entries.filter (·.1 ≠ messageId), n⟩ id = if id = messageId then none else r.get? id := by
  unfold get?
  rw [List.find?_filter]
  split
  · next h =>
    rw [List.find?_eq_none.2 fun p _ => by simp [h]]
    rfl
  · next h =>
    congr 2
    funext p
    by_cases hp : p.1 = id <;> simp [hp, h]

theorem get?_put : (r.put messageId entry).get? id = if id = messageId then some entry else r.get? id := by
  have hrest := @get?_filter r messageId id 0
  unfold get? at hrest
  unfold put get?
  rw [List.find?_append]
  split
  · next h =>
    subst h
    rw [if_pos rfl, Option.map_eq_none_iff] at hrest
    rw [hrest]
    simp
  · next h =>
    rw [if_neg h] at hrest
    rw [← hrest]
    dsimp only
    cases List.find? (fun x => decide (x.1 = id)) (r.entries.filter (·.1 ≠ messageId)) with
    | some p => rfl
    | none => simp [Ne.symm h]

theorem get?_removeEntry : (r.removeEntry messageId).get? id = if id = messageId then none else r.get? id := by
  unfold removeEntry
  split
  · next h =>
    split
    · next hid => rw [hid, h]
    · rfl
  · exact get?_filter

theorem WF.get?_sweep {now : ℕ} (h : r.WF) : (r.sweep now).get? id = (r.get? id).filter fun e => !isExpired now e := by
  have hremove : ∀ (l : List (String × Entry)) (r : Reassembler),
      (l.foldl (fun r p => r.removeEntry p.1) r).get? id = if id ∈ l.map (·.1) then none else r.get? id := by
    intro l
    induction l with
    | nil => simp
    | cons p l ih =>
      intro r
      rw [List.foldl_cons, ih, get?_removeEntry]
      by_cases hp : id = p.1
      · simp [hp]
      · simp only [List.map_cons, List.mem_cons, hp, false_or, if_false]
  rw [Reassembler.sweep, hremove]
  cases hget : r.get? id with
  | none => simp
  | some e =>
    -- the message expired exactly when it is among those that are removed
    have hmem : id ∈ (r.entries.filter fun p => isExpired now p.2).map (·.1) ↔ isExpired now e = true := by
      simp only [List.mem_map, List.mem_filter]
      refine ⟨?_, fun he => ⟨(id, e), ⟨mem_of_get? hget, he⟩, rfl⟩⟩
      rintro ⟨p, ⟨hp, he⟩, rfl⟩
      rw [h.get?_of_mem hp] at hget
      exact Option.some.inj hget ▸ he
    by_cases he : isExpired now e = true
    · rw [if_pos (hmem.2 he)]
      simp [he, Option.filter]
    · rw [if_neg (mt hmem.1 he)]
      simp [he, Option.filter]

end Reassembler

namespace Reassembly

/-! ## Frames -/

/-- A frame with the time it arrives at. -/
structure Arrival where
  headers : FrameHeaders
  payload : ByteArray
  now : ℕ
  deriving DecidableEq

def Arrival.id (a : Arrival) : String := a.headers.messageId.getD ""

inductive Frame where
  /-- The fragment with number `seq` of its message. -/
  | fragment (a : Arrival) (seq : ℕ)
  /-- A message of one fragment. -/
  | whole (a : Arrival)
  /-- A malformed frame or a repeat. -/
  | other (a : Arrival)

def Frame.arrival : Frame → Arrival
  | .fragment a _ | .whole a | .other a => a

/-- A fragment that has arrived. -/
structure Piece where
  id : String
  seq : ℕ
  trace : Option String
  now : ℕ

/-- The buffer, with the fragments that have arrived and the messages that were completed. -/
structure Reception where
  seen : List Piece
  clock : ℕ
  buffer : Reassembler
  completed : List String

def Reception.start : Reception := ⟨[], 0, .new, []⟩

def piece (a : Arrival) (seq : ℕ) : Piece := ⟨a.id, seq, a.headers.traceId, a.now⟩

def answer (s : Reception) (a : Arrival) : Except ReassemblyError (Option Reassembly) :=
  (s.buffer.ingest a.headers a.payload a.now).1

def isComplete : Except ReassemblyError (Option Reassembly) → Bool
  | .ok (some _) => true
  | _ => false

/-- A frame arrives. -/
def step (s : Reception) (f : Frame) : Reception :=
  let a := f.arrival
  let s' := { s with clock := a.now, buffer := (s.buffer.ingest a.headers a.payload a.now).2 }
  match f with
  | .fragment _ seq => { s' with
      seen := s.seen ++ [piece a seq], completed := if isComplete (answer s a) then s.completed ++ [a.id] else s.completed }
  | .whole _ | .other _ => s'

/-! ## What has arrived -/

variable (parts : String → List ByteArray) (seen : List Piece)

def Arrived (id : String) (seq : ℕ) : Prop := ∃ p ∈ seen, p.id = id ∧ p.seq = seq

instance (id : String) (seq : ℕ) : Decidable (Arrived seen id seq) :=
  inferInstanceAs (Decidable (∃ p ∈ seen, p.id = id ∧ p.seq = seq))

/-- All fragments of the message have arrived. -/
def Complete (id : String) : Prop := ∀ seq < (parts id).length, Arrived seen id seq

instance (id : String) : Decidable (Complete parts seen id) :=
  inferInstanceAs (Decidable (∀ seq < (parts id).length, Arrived seen id seq))

/-- The fragment of the message that arrived first. -/
def first? (id : String) : Option Piece := seen.find? (·.id = id)

/-- The first fragment of a message that still waits for others. -/
def waiting? (now : ℕ) (id : String) : Option Piece :=
  (first? seen id).filter fun p => now - p.now ≤ larkFragmentTtl ∧ ¬Complete parts seen id

/-- What has arrived of the message, each fragment in its place. -/
def slotsOf (id : String) : List (Option ByteArray) :=
  (parts id).mapIdx fun seq part => if Arrived seen id seq then some part else none

def waitingIds (now : ℕ) : List String := (seen.map (·.id)).dedup.filter fun id => (waiting? parts seen now id).isSome

def waitingBytes (now : ℕ) : ℕ :=
  ((waitingIds parts seen now).map fun id => ((slotsOf parts seen id).map slotBytes).sum).sum

/-! ## What the frames keep to -/

/-- The frame is fragment `seq` of its message. -/
structure IsFragment (a : Arrival) (seq : ℕ) : Prop where
  part : (parts a.id)[seq]? = some a.payload
  sum : parseSum a.headers = .ok (parts a.id).length
  seq : a.headers.seq = some seq
  id : a.id ≠ ""
  several : 2 ≤ (parts a.id).length
  count : (parts a.id).length ≤ larkFragmentMessageMaxFragments
  bytes : ((parts a.id).map ByteArray.size).sum ≤ larkFragmentMessageBytes

/-- The headers do not describe a fragment, or the payload is too large. -/
def Malformed (a : Arrival) : Prop :=
  ∀ sum, parseSum a.headers = .ok sum → a.payload.size > larkFragmentMessageBytes ∨
    sum ≠ 1 ∧ (sum = 0 ∨ sum > larkFragmentMessageMaxFragments ∨ a.id = "" ∨ ∀ seq, a.headers.seq = some seq → sum ≤ seq)

/-- The frame is for a message that waits, with a conflicting `sum` or a fragment that has arrived. -/
def Repeats (a : Arrival) : Prop :=
  (waiting? parts seen a.now a.id).isSome ∧ parseSum a.headers ≠ .ok 1 ∧
    ∀ seq, a.headers.seq = some seq → parseSum a.headers = .ok (parts a.id).length → Arrived seen a.id seq

/-- The frame comes in time and within the bounds of the buffer. -/
structure InBounds (a : Arrival) : Prop where
  ttl : ∀ p, first? seen a.id = some p → a.now - p.now ≤ larkFragmentTtl
  bytes : waitingBytes parts seen a.now + a.payload.size ≤ larkFragmentTotalBytes
  inFlight : first? seen a.id = none → (waitingIds parts seen a.now).length < larkFragmentMaxInFlight

/-- The frame is what it is said to be; a fragment is new and within the bounds. -/
def Fits (s : Reception) (f : Frame) : Prop :=
  s.clock ≤ f.arrival.now ∧
  match f with
  | .fragment a seq => IsFragment parts a seq ∧ ¬Arrived s.seen a.id seq ∧ InBounds parts s.seen a
  | .whole a => parseSum a.headers = .ok 1 ∧ a.payload.size ≤ larkFragmentMessageBytes
  | .other a => Malformed a ∨ Repeats parts s.seen a

/-- The message, with the trace of the fragment that arrived first. -/
def message (id : String) : Reassembly :=
  ⟨id, (first? seen id).bind (·.trace), (parts id).foldl (· ++ ·) .empty⟩

/-- The answer that a frame should get. -/
def Answered (s : Reception) : Frame → Prop
  | .fragment a seq =>
    let seen := s.seen ++ [piece a seq]
    answer s a = .ok (if Complete parts seen a.id then some (message parts seen a.id) else none)
  | .whole a => answer s a = .ok (some ⟨a.id, a.headers.traceId, a.payload⟩)
  | .other a => ∃ e, answer s a = .error e

/-! ## What the buffer holds -/

/-- The message as the buffer keeps it, when `p` arrived first. -/
def entryOf (id : String) (p : Piece) : Entry where
  sum := (parts id).length
  traceId := p.trace
  slots := slotsOf parts seen id
  filled := (slotsOf parts seen id).countP (·.isSome)
  bytes := ((slotsOf parts seen id).map slotBytes).sum
  created := p.now

/-- **The buffer holds what has arrived of the messages that wait.** -/
structure Buffers (now : ℕ) (r : Reassembler) : Prop where
  wf : r.WF
  entry : ∀ id, r.get? id = (waiting? parts seen now id).map (entryOf parts seen id)

variable {parts seen} {now : ℕ} {r : Reassembler} {id : String} {a : Arrival} {seq : ℕ}

variable {p : Piece} {clock : ℕ}

theorem waiting?_eq_some : waiting? parts seen now id = some p ↔
    first? seen id = some p ∧ now - p.now ≤ larkFragmentTtl ∧ ¬Complete parts seen id := by
  simp [waiting?, Option.filter_eq_some_iff]

theorem waiting?_of_complete (h : Complete parts seen id) : waiting? parts seen now id = none := by
  simp [waiting?, h]

section

variable (h : Buffers parts seen now r)
include h

/-- A sweep drops the messages that no longer wait. -/
theorem Buffers.sweep {now' : ℕ} (hnow : now ≤ now') :
    Buffers parts seen now' (r.sweep now') := by
  refine ⟨h.wf.sweep, fun id => ?_⟩
  rw [h.wf.get?_sweep, h.entry, waiting?, waiting?]
  cases hfirst : first? seen id with
  | none => rfl
  | some p =>
    by_cases hc : Complete parts seen id
    · simp [Option.filter, hc]
    · by_cases hp : now' - p.now ≤ larkFragmentTtl
      · have hp' : now - p.now ≤ larkFragmentTtl := by omega
        simp [Option.filter, hc, hp, hp', Reassembler.isExpired, entryOf, Nat.not_lt.2 hp]
      · by_cases hp' : now - p.now ≤ larkFragmentTtl <;>
          simp [Option.filter, hc, hp, hp', Reassembler.isExpired, entryOf, Nat.not_le.1 hp]

theorem Buffers.ids : (r.entries.map (·.1)).Perm (waitingIds parts seen now) := by
  refine (List.perm_ext_iff_of_nodup h.wf.ids ((List.nodup_dedup _).filter _)).2 fun id => ?_
  rw [List.mem_filter, List.mem_dedup]
  constructor
  · intro hid
    obtain ⟨p, hp, rfl⟩ := List.mem_map.1 hid
    have hget := h.wf.get?_of_mem hp
    rw [h.entry] at hget
    obtain ⟨q, hq, -⟩ := Option.map_eq_some_iff.1 hget
    have hfirst := (waiting?_eq_some.1 hq).1
    refine ⟨List.mem_map.2 ⟨q, List.mem_of_find?_eq_some hfirst, ?_⟩, by rw [hq]; rfl⟩
    exact of_decide_eq_true (List.find?_some hfirst :)
  · rintro ⟨-, hwait⟩
    obtain ⟨q, hq⟩ := Option.isSome_iff_exists.1 hwait
    have hget := h.entry id
    rw [hq] at hget
    exact List.mem_map.2 ⟨_, Reassembler.mem_of_get? hget, rfl⟩

theorem Buffers.length : r.entries.length = (waitingIds parts seen now).length := by
  rw [← h.ids.length_eq, List.length_map]

theorem Buffers.totalBytes : r.totalBytes = waitingBytes parts seen now := by
  rw [h.wf.total, waitingBytes, ← (h.ids.map _).sum_eq, List.map_map]
  congr 1
  refine List.map_congr_left fun p hp => ?_
  have hget := h.wf.get?_of_mem hp
  rw [h.entry] at hget
  obtain ⟨q, -, hq⟩ := Option.map_eq_some_iff.1 hget
  rw [← hq]
  rfl

/-! ## A new fragment -/

end

theorem arrived_append :
    Arrived (seen ++ [p]) id seq ↔ Arrived seen id seq ∨ p.id = id ∧ p.seq = seq := by
  simp [Arrived, or_and_right, exists_or]

theorem first?_append : first? (seen ++ [p]) id = (first? seen id).or (if p.id = id then some p else none) := by
  unfold first?
  rw [List.find?_append]
  congr 1
  split <;> simp [*]

theorem slotsOf_length : (slotsOf parts seen id).length = (parts id).length := List.length_mapIdx

theorem slotsOf_getD (h : ¬Arrived seen id seq) : (slotsOf parts seen id).getD seq none = none := by
  rw [List.getD_eq_getElem?_getD, slotsOf, List.getElem?_mapIdx]
  cases (parts id)[seq]? <;> simp [h]

theorem slotsOf_append {part : ByteArray} (hpart : (parts p.id)[p.seq]? = some part) :
    slotsOf parts (seen ++ [p]) p.id = (slotsOf parts seen p.id).set p.seq (some part) := by
  refine List.ext_getElem? fun i => ?_
  rw [List.getElem?_set, slotsOf, slotsOf, List.getElem?_mapIdx, List.getElem?_mapIdx, List.length_mapIdx]
  obtain ⟨hlt, hget⟩ := List.getElem?_eq_some_iff.1 hpart
  by_cases hi : p.seq = i
  · subst hi
    have harr : Arrived (seen ++ [p]) p.id p.seq := arrived_append.2 (.inr ⟨rfl, rfl⟩)
    simp [harr, hlt, hget]
  · have harr : Arrived (seen ++ [p]) p.id i ↔ Arrived seen p.id i := by simp [arrived_append, hi]
    simp only [harr, if_neg hi]

theorem slotsOf_append_of_ne (h : p.id ≠ id) : slotsOf parts (seen ++ [p]) id = slotsOf parts seen id := by
  unfold slotsOf
  congr 1
  funext i part
  simp [arrived_append, h]

theorem waiting?_append_of_ne (h : p.id ≠ id) :
    waiting? parts (seen ++ [p]) now id = waiting? parts seen now id := by
  have hcomplete : Complete parts (seen ++ [p]) id ↔ Complete parts seen id := by simp [Complete, arrived_append, h]
  unfold waiting?
  rw [first?_append, if_neg h, Option.or_none]
  simp only [hcomplete]

theorem mapIdx_bytes_le {f : ℕ → ByteArray → Option ByteArray} (hf : ∀ i part, slotBytes (f i part) ≤ part.size) :
    ∀ l : List ByteArray, ((l.mapIdx f).map slotBytes).sum ≤ (l.map ByteArray.size).sum
  | [] => Nat.le_refl 0
  | part :: l => by
    have ih := mapIdx_bytes_le (f := fun i => f (i + 1)) (fun i => hf (i + 1)) l
    have hpart := hf 0 part
    simp only [List.mapIdx_cons, List.map_cons, List.sum_cons]
    omega

theorem slotsOf_bytes_le : ((slotsOf parts seen id).map slotBytes).sum ≤ ((parts id).map ByteArray.size).sum := by
  refine mapIdx_bytes_le (fun i part => ?_) _
  split <;> simp [slotBytes]

theorem slotsOf_filled : (slotsOf parts seen id).countP (·.isSome) < (parts id).length ↔ ¬Complete parts seen id := by
  have hle := List.countP_le_length (p := fun slot : Option ByteArray => slot.isSome) (l := slotsOf parts seen id)
  rw [slotsOf_length] at hle
  have hall : (slotsOf parts seen id).countP (·.isSome) = (parts id).length ↔ Complete parts seen id := by
    rw [← @slotsOf_length parts seen, List.countP_eq_length]
    simp only [slotsOf, Complete, List.mem_mapIdx]
    constructor
    · intro h i hi
      have := h _ ⟨i, hi, rfl⟩
      by_contra hnot
      simp [hnot] at this
    · rintro h slot ⟨i, hi, rfl⟩
      simp [h i hi]
  rw [← hall]
  omega

theorem slotsOf_complete (h : Complete parts seen id) : (slotsOf parts seen id).map (·.getD .empty) = parts id := by
  refine List.ext_getElem? fun i => ?_
  rw [List.getElem?_map, slotsOf, List.getElem?_mapIdx]
  cases hpart : (parts id)[i]? with
  | none => rfl
  | some part =>
    obtain ⟨hlt, -⟩ := List.getElem?_eq_some_iff.1 hpart
    simp [h i hlt]

/-- The message that a new fragment belongs to, as the buffer has it, or a new one. -/
theorem Buffers.entryFor (h : Buffers parts seen a.now r) (hf : IsFragment parts a seq) (hnew : ¬Arrived seen a.id seq)
    (hb : InBounds parts seen a) : ∃ p, first? (seen ++ [piece a seq]) a.id = some p ∧
      r.entryFor a.id a.headers.traceId (parts a.id).length a.now = .ok (entryOf parts seen a.id p) := by
  obtain ⟨hlt, -⟩ := List.getElem?_eq_some_iff.1 hf.part
  have hopen : ¬Complete parts seen a.id := fun hc => hnew (hc seq hlt)
  have hget := h.entry a.id
  rw [first?_append, if_pos (show (piece a seq).id = a.id from rfl)]
  unfold Reassembler.entryFor
  cases hfirst : first? seen a.id with
  | some p =>
    rw [waiting?_eq_some.2 ⟨hfirst, hb.ttl p hfirst, hopen⟩] at hget
    refine ⟨p, rfl, ?_⟩
    rw [hget]
    simp [entryOf]
  | none =>
    have hwait : waiting? parts seen a.now a.id = none := by simp [waiting?, hfirst]
    rw [hwait] at hget
    have hlen := hb.inFlight hfirst
    rw [← h.length] at hlen
    -- nothing of the message has arrived
    have hslots : slotsOf parts seen a.id = List.replicate (parts a.id).length none := by
      refine List.eq_replicate_iff.2 ⟨slotsOf_length, fun slot hslot => ?_⟩
      obtain ⟨i, hi, rfl⟩ := List.mem_mapIdx.1 hslot
      refine if_neg ?_
      rintro ⟨p, hp, hid, -⟩
      exact absurd hid (by simpa using List.find?_eq_none.1 hfirst p hp)
    refine ⟨piece a seq, rfl, ?_⟩
    rw [hget]
    simp [Nat.not_le.2 hlen, entryOf, hslots, piece, slotBytes, List.countP_replicate]

theorem ingest_fragment (hf : IsFragment parts a seq) (hlive : ((r.get? a.id).any (Reassembler.isExpired a.now)) = false)
    (hbytes : (r.sweep a.now).totalBytes + a.payload.size ≤ larkFragmentTotalBytes) {entry : Entry}
    (he : (r.sweep a.now).entryFor a.id a.headers.traceId (parts a.id).length a.now = .ok entry) :
    r.ingest a.headers a.payload a.now = (r.sweep a.now).fill a.id entry seq a.payload := by
  obtain ⟨hlt, -⟩ := List.getElem?_eq_some_iff.1 hf.part
  have hmem : a.payload.size ∈ (parts a.id).map ByteArray.size := List.mem_map_of_mem (List.mem_of_getElem? hf.part)
  have hsize := (List.single_le_sum (fun _ _ => Nat.zero_le _) _ hmem).trans hf.bytes
  have hseveral := hf.several
  have hid : a.id.isEmpty = false := by simpa [String.isEmpty_iff] using hf.id
  have hcount := hf.count
  unfold Reassembler.ingest
  dsimp only
  rw [show a.headers.messageId.getD "" = a.id from rfl, hf.sum]
  dsimp only
  rw [if_neg (Nat.not_lt.2 hsize), if_neg (by omega), if_neg (by omega), if_neg (Nat.not_lt.2 hcount), hid,
    if_neg Bool.false_ne_true, hf.seq]
  dsimp only
  rw [if_neg (Nat.not_le.2 hlt), hlive, if_neg Bool.false_ne_true, if_neg (Nat.not_lt.2 hbytes), he]

/-- The fragment takes its slot; the last one takes the message out of the buffer. -/
theorem Buffers.fill (h : Buffers parts seen a.now r) (hf : IsFragment parts a seq) (hnew : ¬Arrived seen a.id seq)
    (hp : first? (seen ++ [piece a seq]) a.id = some p) (hlive : a.now - p.now ≤ larkFragmentTtl)
    (hwf : (r.fill a.id (entryOf parts seen a.id p) seq a.payload).2.WF) :
    (r.fill a.id (entryOf parts seen a.id p) seq a.payload).1 = .ok (if Complete parts (seen ++ [piece a seq]) a.id then
        some (message parts (seen ++ [piece a seq]) a.id) else none) ∧
      Buffers parts (seen ++ [piece a seq]) a.now (r.fill a.id (entryOf parts seen a.id p) seq a.payload).2 := by
  obtain ⟨hlt, -⟩ := List.getElem?_eq_some_iff.1 hf.part
  have hset : (slotsOf parts seen a.id).set seq (some a.payload) = slotsOf parts (seen ++ [piece a seq]) a.id :=
    (slotsOf_append (p := piece a seq) hf.part).symm
  have hslot : (slotsOf parts seen a.id).getD seq none = none := slotsOf_getD hnew
  obtain ⟨hcount, hbytes⟩ := @Reassembler.fill_slot (slotsOf parts seen a.id) seq a.payload (slotsOf_length ▸ hlt) hslot
  rw [hset] at hcount hbytes
  have hle := @slotsOf_bytes_le parts (seen ++ [piece a seq]) a.id
  have hsum := hf.bytes
  -- the message with the fragment in its slot
  have hentry : ({ entryOf parts seen a.id p with
      slots := (slotsOf parts seen a.id).set seq (some a.payload), filled := (entryOf parts seen a.id p).filled + 1,
      bytes := (entryOf parts seen a.id p).bytes + a.payload.size } : Entry) = entryOf parts (seen ++ [piece a seq]) a.id p := by
    simp only [entryOf, hset, hcount, hbytes]
  have hfits : ¬(entryOf parts seen a.id p).bytes + a.payload.size > larkFragmentMessageBytes := by
    simp only [entryOf]
    omega
  have hothers : ∀ id, id ≠ a.id → waiting? parts (seen ++ [piece a seq]) a.now id = waiting? parts seen a.now id ∧
      slotsOf parts (seen ++ [piece a seq]) id = slotsOf parts seen id := fun id hid =>
    ⟨waiting?_append_of_ne (p := piece a seq) hid.symm, slotsOf_append_of_ne (p := piece a seq) hid.symm⟩
  have hget : ∀ id, id ≠ a.id → r.get? id =
      (waiting? parts (seen ++ [piece a seq]) a.now id).map (entryOf parts (seen ++ [piece a seq]) id) := by
    intro id hid
    obtain ⟨hw, hs⟩ := hothers id hid
    rw [hw, h.entry]
    refine congrArg (Option.map · _) (funext fun q => ?_)
    simp only [entryOf, hs]
  revert hwf
  unfold Reassembler.fill
  rw [show (entryOf parts seen a.id p).slots.getD seq none = none from hslot]
  dsimp only
  rw [if_neg hfits]
  split
  · next hmissing =>
    have hopen : ¬Complete parts (seen ++ [piece a seq]) a.id := slotsOf_filled.1 (hcount ▸ hmissing)
    refine fun hwf => ⟨by rw [if_neg hopen], hwf, fun id => ?_⟩
    show (r.put a.id _).get? id = _
    rw [Reassembler.get?_put]
    split
    · next hid =>
      subst hid
      rw [waiting?_eq_some.2 ⟨hp, hlive, hopen⟩, Option.map_some]
      exact congrArg some hentry
    · next hid => exact hget id hid
  · next hfull =>
    have hcomplete : Complete parts (seen ++ [piece a seq]) a.id := by
      by_contra hopen
      exact hfull (hcount ▸ slotsOf_filled.2 hopen)
    refine fun hwf => ⟨?_, hwf, fun id => ?_⟩
    · rw [if_pos hcomplete, message, hp]
      simp only [entryOf, hset, slotsOf_complete hcomplete, Option.bind_some]
    · rw [Reassembler.get?_removeEntry]
      split
      · next hid => rw [hid, waiting?_of_complete hcomplete, Option.map_none]
      · next hid =>
        show (r.put a.id _).get? id = _
        rw [Reassembler.get?_put, if_neg hid]
        exact hget id hid

/-- **A new fragment is answered with the whole message if it is the last one missing,** and the buffer follows. -/
theorem Buffers.fragment (h : Buffers parts seen clock r) (hnow : clock ≤ a.now) (hf : IsFragment parts a seq)
    (hnew : ¬Arrived seen a.id seq) (hb : InBounds parts seen a) :
    (r.ingest a.headers a.payload a.now).1 = .ok (if Complete parts (seen ++ [piece a seq]) a.id then
        some (message parts (seen ++ [piece a seq]) a.id) else none) ∧
      Buffers parts (seen ++ [piece a seq]) a.now (r.ingest a.headers a.payload a.now).2 := by
  have hwf : (r.ingest a.headers a.payload a.now).2.WF := Reassembler.ingest_wf h.wf
  have hswept := h.sweep hnow
  obtain ⟨p, hp, hentry⟩ := hswept.entryFor hf hnew hb
  have hlive : a.now - p.now ≤ larkFragmentTtl := by
    rw [first?_append] at hp
    cases hfirst : first? seen a.id with
    | some q =>
      obtain rfl : q = p := by simpa [hfirst] using hp
      exact hb.ttl q hfirst
    | none =>
      obtain rfl : piece a seq = p := by simpa [hfirst, piece] using hp
      exact (Nat.sub_self a.now).le.trans (Nat.zero_le _)
  -- the message has not expired before this sweep
  have hkept : (r.get? a.id).any (Reassembler.isExpired a.now) = false := by
    rw [h.entry]
    cases hwait : waiting? parts seen clock a.id with
    | none => rfl
    | some q =>
      have hq := hb.ttl q (waiting?_eq_some.1 hwait).1
      simp [Reassembler.isExpired, entryOf, hq]
  have heq := ingest_fragment hf hkept (hswept.totalBytes ▸ hb.bytes) hentry
  rw [heq] at hwf ⊢
  exact hswept.fill hf hnew hp hlive hwf

/-! ## Other frames -/

theorem ingest_whole (hsum : parseSum a.headers = .ok 1) (hsize : a.payload.size ≤ larkFragmentMessageBytes) :
    r.ingest a.headers a.payload a.now = (.ok (some ⟨a.id, a.headers.traceId, a.payload⟩), r.sweep a.now) := by
  unfold Reassembler.ingest
  dsimp only
  rw [hsum]
  dsimp only
  rw [if_neg (Nat.not_lt.2 hsize), if_pos rfl]
  rfl

/-- The headers describe fragment `i` of `n`, and the payload is not too large. -/
structure Describes (a : Arrival) (n i : ℕ) : Prop where
  sum : parseSum a.headers = .ok n
  size : a.payload.size ≤ larkFragmentMessageBytes
  several : n ≠ 1
  count : n ≤ larkFragmentMessageMaxFragments
  id : a.id ≠ ""
  seq : a.headers.seq = some i
  lt : i < n

/-- A frame is refused after the sweep, is a whole message, or describes a fragment. -/
theorem ingest_cases : (∃ e, r.ingest a.headers a.payload a.now = (.error e, r.sweep a.now)) ∨
    (parseSum a.headers = .ok 1 ∧ a.payload.size ≤ larkFragmentMessageBytes) ∨
    ∃ sum seq, Describes a sum seq ∧ r.ingest a.headers a.payload a.now =
      match (r.sweep a.now).entryFor a.id a.headers.traceId sum a.now with
      | .error e => (.error e, r.sweep a.now)
      | .ok entry => (r.sweep a.now).fill a.id entry seq a.payload := by
  unfold Reassembler.ingest
  dsimp only
  rw [show a.headers.messageId.getD "" = a.id from rfl]
  cases hsum : parseSum a.headers with
  | error e => exact .inl ⟨e, rfl⟩
  | ok sum =>
    dsimp only
    split
    · exact .inl ⟨_, rfl⟩
    · next hsize =>
      split
      · next hone => exact .inr (.inl ⟨congrArg _ hone, Nat.le_of_not_lt hsize⟩)
      · next hone =>
        split
        · exact .inl ⟨_, rfl⟩
        · split
          · exact .inl ⟨_, rfl⟩
          · next hcount =>
            split
            · exact .inl ⟨_, rfl⟩
            · next hid =>
              cases hseq : a.headers.seq with
              | none => exact .inl ⟨_, rfl⟩
              | some seq =>
                dsimp only
                split
                · exact .inl ⟨_, rfl⟩
                · next hlt =>
                  split
                  · exact .inl ⟨_, rfl⟩
                  · split
                    · exact .inl ⟨_, rfl⟩
                    · refine .inr (.inr ⟨sum, seq, ⟨hsum, ?_, hone, ?_, ?_, hseq, Nat.lt_of_not_le hlt⟩, rfl⟩)
                      · exact Nat.le_of_not_lt hsize
                      · exact Nat.le_of_not_lt hcount
                      · exact fun h => hid (String.isEmpty_iff.2 h)

theorem ingest_malformed (h : Malformed a) : ∃ e, r.ingest a.headers a.payload a.now = (.error e, r.sweep a.now) := by
  rcases @ingest_cases r a with he | ⟨hsum, hsize⟩ | ⟨sum, seq, hd, -⟩
  · exact he
  · rcases h 1 hsum with hlarge | ⟨hone, -⟩
    · exact absurd hsize (Nat.not_le.2 hlarge)
    · exact absurd rfl hone
  · have hlt := hd.lt
    have hsize := hd.size
    have hcount := hd.count
    rcases h sum hd.sum with hlarge | ⟨-, hzero | hmany | hid | hseq⟩
    · omega
    · omega
    · omega
    · exact absurd hid hd.id
    · exact absurd (hseq seq hd.seq) (Nat.not_le.2 hlt)

/-- A repeat is refused, and the message waits as before. -/
theorem Buffers.repeats (h : Buffers parts seen clock r) (hnow : clock ≤ a.now) (hr : Repeats parts seen a) :
    (∃ e, (r.ingest a.headers a.payload a.now).1 = .error e) ∧
      Buffers parts seen a.now (r.ingest a.headers a.payload a.now).2 := by
  have hswept := h.sweep hnow
  have hwf : (r.ingest a.headers a.payload a.now).2.WF := Reassembler.ingest_wf h.wf
  obtain ⟨hwait, hone, harrived⟩ := hr
  rcases @ingest_cases r a with ⟨e, he⟩ | ⟨hsum, -⟩ | ⟨sum, seq, hd, he⟩
  · rw [he]
    exact ⟨⟨e, rfl⟩, hswept⟩
  · exact absurd hsum hone
  · obtain ⟨p, hp⟩ := Option.isSome_iff_exists.1 hwait
    have hget := hswept.entry a.id
    rw [hp, Option.map_some] at hget
    rw [he] at hwf ⊢
    unfold Reassembler.entryFor at hwf ⊢
    rw [hget] at hwf ⊢
    dsimp only at hwf ⊢
    by_cases hsum : (parts a.id).length = sum
    · -- the fragment has arrived
      subst hsum
      have harr := harrived seq hd.seq hd.sum
      have hlt := hd.lt
      have hslot : (entryOf parts seen a.id p).slots.getD seq none = some (parts a.id)[seq] := by
        simp [entryOf, slotsOf, List.getD_eq_getElem?_getD, hlt, harr]
      rw [if_neg (show ¬(entryOf parts seen a.id p).sum ≠ (parts a.id).length from not_not.2 rfl)] at hwf ⊢
      dsimp only at hwf ⊢
      unfold Reassembler.fill at hwf ⊢
      rw [hslot] at hwf ⊢
      refine ⟨⟨_, rfl⟩, hwf, fun id => ?_⟩
      rw [Reassembler.get?_put]
      split
      · next hid => rw [hid, hp, Option.map_some]
      · exact hswept.entry id
    · rw [if_pos (show (entryOf parts seen a.id p).sum ≠ sum from hsum)]
      exact ⟨⟨_, rfl⟩, hswept⟩

/-! ## Runs -/

variable (parts) in
/-- The buffer is right, and a message is completed once, with its last fragment. -/
structure Holds (s : Reception) : Prop where
  buffers : Buffers parts s.seen s.clock s.buffer
  completed : ∀ id, parts id ≠ [] → s.completed.count id = if Complete parts s.seen id then 1 else 0

theorem holds_start : Holds parts .start := by
  refine ⟨⟨Reassembler.new_wf, fun id => rfl⟩, fun id hid => ?_⟩
  refine (if_neg fun h => ?_).symm
  obtain ⟨p, hp, -⟩ := h 0 (List.length_pos_iff.2 hid)
  cases hp

theorem Holds.answered {s : Reception} {f : Frame} (h : Holds parts s) (hf : Fits parts s f) : Answered parts s f := by
  obtain ⟨hnow, hf⟩ := hf
  cases f with
  | fragment a seq => exact (h.buffers.fragment hnow hf.1 hf.2.1 hf.2.2).1
  | whole a => exact congrArg Prod.fst (ingest_whole hf.1 hf.2)
  | other a =>
    rcases hf with hf | hf
    · obtain ⟨e, he⟩ := @ingest_malformed s.buffer a hf
      exact ⟨e, congrArg Prod.fst he⟩
    · exact (h.buffers.repeats hnow hf).1

theorem Holds.step {s : Reception} {f : Frame} (h : Holds parts s) (hf : Fits parts s f) : Holds parts (step s f) := by
  have hans := h.answered hf
  obtain ⟨hnow, hf⟩ := hf
  cases f with
  | fragment a seq =>
    refine ⟨(h.buffers.fragment hnow hf.1 hf.2.1 hf.2.2).2, fun id hid => ?_⟩
    have hcount := h.completed id hid
    obtain ⟨hlt, -⟩ := List.getElem?_eq_some_iff.1 hf.1.part
    simp only [Answered] at hans
    simp only [Reassembly.step, Frame.arrival, hans]
    by_cases hsame : id = a.id
    · subst hsame
      have hopen : ¬Complete parts s.seen a.id := fun hc => hf.2.1 (hc seq hlt)
      rw [if_neg hopen] at hcount
      by_cases hc : Complete parts (s.seen ++ [piece a seq]) a.id <;> simp [hc, isComplete, hcount]
    · have hc : Complete parts (s.seen ++ [piece a seq]) id ↔ Complete parts s.seen id := by
        simp [Complete, arrived_append, piece, Ne.symm hsame]
      rw [if_congr hc rfl rfl, ← hcount]
      -- only the message of the fragment may be completed
      generalize isComplete _ = b
      cases b <;> simp [Ne.symm hsame]
  | whole a =>
    refine ⟨?_, h.completed⟩
    show Buffers parts s.seen a.now (s.buffer.ingest a.headers a.payload a.now).2
    rw [ingest_whole hf.1 hf.2]
    exact h.buffers.sweep hnow
  | other a =>
    refine ⟨?_, h.completed⟩
    show Buffers parts s.seen a.now (s.buffer.ingest a.headers a.payload a.now).2
    rcases hf with hf | hf
    · obtain ⟨e, he⟩ := @ingest_malformed s.buffer a hf
      rw [he]
      exact h.buffers.sweep hnow
    · exact (h.buffers.repeats hnow hf).2

/-- **Fragments are put together exactly.** Along every run of frames that keep to the bounds, the last missing fragment
of a message is answered with its fragments in order, every earlier one with nothing, and each message is completed
once. -/
theorem fragments_reassemble (parts : String → List ByteArray) (fs : List Frame)
    (h : Along step (Fits parts) .start fs) :
    Along step (Answered parts) .start fs ∧ ∀ id, parts id ≠ [] →
      (exec step .start fs).completed.count id = if Complete parts (exec step .start fs).seen id then 1 else 0 :=
  ⟨along_of_invariant (fun _ _ => Holds.step) (fun _ _ => Holds.answered) holds_start h,
    (exec_invariant (fun _ _ => Holds.step) holds_start h).completed⟩

/-! ## A run -/

/-- Two messages: `"m"` of two fragments and `"k"` of three. -/
def twoMessages (id : String) : List ByteArray :=
  if id = "m" then [⟨#[1]⟩, ⟨#[2, 3]⟩] else if id = "k" then [⟨#[4]⟩, ⟨#[]⟩, ⟨#[5]⟩] else []

def frame (id sum seq : String) (payload : List UInt8) (now : ℕ) : Arrival :=
  ⟨⟨[⟨"message_id", id⟩, ⟨"sum", sum⟩, ⟨"seq", seq⟩]⟩, ⟨payload.toArray⟩, now⟩

/-- The fragments out of order and interleaved, with a repeat, a conflicting `sum`, a malformed and a whole frame. -/
def interleavedRun : List Frame :=
  [.fragment (frame "k" "3" "2" [5] 10) 2, .fragment (frame "m" "2" "1" [2, 3] 20) 1,
    .other (frame "k" "3" "2" [9] 30), .other (frame "m" "4" "0" [1] 30), .other (frame "m" "x" "0" [1] 40),
    .whole (frame "m" "1" "0" [7] 40), .fragment (frame "k" "3" "0" [4] 50) 0, .fragment (frame "m" "2" "0" [1] 5020) 0]

instance (a : Arrival) (seq : ℕ) : Decidable (IsFragment parts a seq) :=
  decidable_of_iff ((parts a.id)[seq]? = some a.payload ∧ parseSum a.headers = .ok (parts a.id).length ∧
      a.headers.seq = some seq ∧ a.id ≠ "" ∧ 2 ≤ (parts a.id).length ∧
      (parts a.id).length ≤ larkFragmentMessageMaxFragments ∧
      ((parts a.id).map ByteArray.size).sum ≤ larkFragmentMessageBytes)
    ⟨fun ⟨h₁, h₂, h₃, h₄, h₅, h₆, h₇⟩ => ⟨h₁, h₂, h₃, h₄, h₅, h₆, h₇⟩,
      fun ⟨h₁, h₂, h₃, h₄, h₅, h₆, h₇⟩ => ⟨h₁, h₂, h₃, h₄, h₅, h₆, h₇⟩⟩

instance (a : Arrival) : Decidable (InBounds parts seen a) :=
  have : Decidable (∀ p, first? seen a.id = some p → a.now - p.now ≤ larkFragmentTtl) :=
    inferInstanceAs (Decidable (∀ p ∈ first? seen a.id, a.now - p.now ≤ larkFragmentTtl))
  decidable_of_iff ((∀ p, first? seen a.id = some p → a.now - p.now ≤ larkFragmentTtl) ∧
      waitingBytes parts seen a.now + a.payload.size ≤ larkFragmentTotalBytes ∧
      (first? seen a.id = none → (waitingIds parts seen a.now).length < larkFragmentMaxInFlight))
    ⟨fun ⟨h₁, h₂, h₃⟩ => ⟨h₁, h₂, h₃⟩, fun ⟨h₁, h₂, h₃⟩ => ⟨h₁, h₂, h₃⟩⟩

instance (a : Arrival) : Decidable (Malformed a) :=
  match hsum : parseSum a.headers with
  | .error e => isTrue fun sum h => by simp [hsum] at h
  | .ok sum =>
    have : Decidable (∀ seq, a.headers.seq = some seq → sum ≤ seq) :=
      inferInstanceAs (Decidable (∀ seq ∈ a.headers.seq, sum ≤ seq))
    decidable_of_iff (a.payload.size > larkFragmentMessageBytes ∨ sum ≠ 1 ∧ (sum = 0 ∨
        sum > larkFragmentMessageMaxFragments ∨ a.id = "" ∨ ∀ seq, a.headers.seq = some seq → sum ≤ seq))
      (by simp [Malformed, hsum])

instance (a : Arrival) : Decidable (Repeats parts seen a) :=
  have : Decidable (∀ seq, a.headers.seq = some seq → parseSum a.headers = .ok (parts a.id).length →
      Arrived seen a.id seq) :=
    inferInstanceAs (Decidable (∀ seq ∈ a.headers.seq, parseSum a.headers = .ok (parts a.id).length →
      Arrived seen a.id seq))
  inferInstanceAs (Decidable (_ ∧ _ ∧ _))

instance (s : Reception) : ∀ f, Decidable (Fits parts s f)
  | .fragment _ _ => inferInstanceAs (Decidable (_ ∧ _ ∧ _ ∧ _))
  | .whole _ => inferInstanceAs (Decidable (_ ∧ _ ∧ _))
  | .other _ => inferInstanceAs (Decidable (_ ∧ (_ ∨ _)))

/-- `fragments_reassemble` on the run: `"m"` is completed, and what has arrived of `"k"` expires. -/
theorem interleavedRun_reassembles : Along step (Fits twoMessages) .start interleavedRun ∧
    (exec step .start interleavedRun).completed = ["m"] ∧
    Along step (Answered twoMessages) .start interleavedRun ∧
    (exec step .start interleavedRun).completed.count "k" = 0 := by
  have h : Along step (Fits twoMessages) .start interleavedRun := by decide
  obtain ⟨hanswered, hcount⟩ := fragments_reassemble twoMessages interleavedRun h
  refine ⟨h, rfl, hanswered, (hcount "k" (by decide)).trans (if_neg ?_)⟩
  decide

end Reassembly

end LarkCodexBridge.Lark
