import Mathlib
import LarkCodexBridge.Limits

/-!
# Frames and fragments

The headers of a frame (`FrameHeaders`) and the bounded reassembly of fragmented messages (`Reassembler.ingest`). A
message is complete when all of its slots are filled. Instants are milliseconds.

* `Reassembler.ingest_wf`: the buffer keeps its counts and stays within its bounds, whatever fragments come.
-/

namespace LarkCodexBridge.Lark

open Limits

/-! ## Headers -/

structure Header where
  key : String
  value : String
  deriving DecidableEq

structure FrameHeaders where
  entries : List Header
  deriving DecidableEq

/-- The first value for a key. -/
def FrameHeaders.get (h : FrameHeaders) (key : String) : Option String :=
  (h.entries.find? (·.key = key)).map (·.value)

inductive FrameType where
  | event | card | ping | pong
  deriving DecidableEq

def FrameType.parse (value : String) : Option FrameType :=
  if value = "event" then some .event
  else if value = "card" then some .card
  else if value = "ping" then some .ping
  else if value = "pong" then some .pong
  else none

/-- `str::parse::<u32>`: an optional plus sign and decimal digits. -/
def parseU32 (raw : String) : Option ℕ :=
  let digits := match raw.toList with
    | '+' :: rest => rest
    | all => all
  if digits.isEmpty || !digits.all Char.isDigit then none
  else
    let n := digits.foldl (fun n c => 10 * n + (c.toNat - '0'.toNat)) 0
    if n ≤ u32Max then some n else none

namespace FrameHeaders

variable (h : FrameHeaders)

def ty : Option FrameType := (h.get "type").bind FrameType.parse
def messageId : Option String := h.get "message_id"
def traceId : Option String := h.get "trace_id"
def seq : Option ℕ := (h.get "seq").bind parseU32

end FrameHeaders

/-! ## Reassembly -/

/-- One completely reassembled message. -/
structure Reassembly where
  messageId : String
  traceId : Option String
  payload : ByteArray
  deriving DecidableEq

inductive ReassemblyError where
  | duplicate | outOfRange | overBytes | tooManyFragments | expired
  deriving DecidableEq

def ReassemblyError.asStr : ReassemblyError → String
  | .duplicate => "duplicate-fragment"
  | .outOfRange => "fragment-out-of-range"
  | .overBytes => "fragment-over-bytes"
  | .tooManyFragments => "too-many-fragments"
  | .expired => "fragment-expired"

/-- `parse_sum`: no header means one fragment. -/
def parseSum (h : FrameHeaders) : Except ReassemblyError ℕ :=
  match h.get "sum" with
  | none => .ok 1
  | some raw =>
    match parseU32 raw with
    | some sum => .ok sum
    | none => .error .outOfRange

structure Entry where
  sum : ℕ
  traceId : Option String
  slots : List (Option ByteArray)
  filled : ℕ
  bytes : ℕ
  created : ℕ
  deriving DecidableEq

/-- The messages that wait for fragments, each under its id. -/
structure Reassembler where
  entries : List (String × Entry)
  totalBytes : ℕ

namespace Reassembler

def new : Reassembler := ⟨[], 0⟩

def get? (r : Reassembler) (messageId : String) : Option Entry := (r.entries.find? (·.1 = messageId)).map (·.2)

def removeEntry (r : Reassembler) (messageId : String) : Reassembler :=
  match r.get? messageId with
  | none => r
  | some entry => ⟨r.entries.filter (·.1 ≠ messageId), r.totalBytes - entry.bytes⟩

/-- `insert` of a message or a change of one. -/
def put (r : Reassembler) (messageId : String) (entry : Entry) : Reassembler :=
  { r with entries := r.entries.filter (·.1 ≠ messageId) ++ [(messageId, entry)] }

def isExpired (now : ℕ) (entry : Entry) : Bool := now - entry.created > larkFragmentTtl

def sweep (r : Reassembler) (now : ℕ) : Reassembler :=
  (r.entries.filter fun p => isExpired now p.2).foldl (fun r p => r.removeEntry p.1) r

/-- The message that the fragment belongs to, or a new one. -/
def entryFor (r : Reassembler) (messageId : String) (traceId : Option String) (sum now : ℕ) :
    Except ReassemblyError Entry :=
  match r.get? messageId with
  | some entry => if entry.sum ≠ sum then .error .outOfRange else .ok entry
  | none =>
    if r.entries.length ≥ larkFragmentMaxInFlight then .error .tooManyFragments
    else .ok ⟨sum, traceId, List.replicate sum none, 0, 0, now⟩

/-- The fragment takes its slot, unless the slot is taken. A new message stays without a fragment in the latter case. -/
def fill (r : Reassembler) (messageId : String) (entry : Entry) (seq : ℕ) (payload : ByteArray) :
    Except ReassemblyError (Option Reassembly) × Reassembler :=
  match entry.slots.getD seq none with
  | some _ => (.error .duplicate, r.put messageId entry)
  | none =>
    if entry.bytes + payload.size > larkFragmentMessageBytes then (.error .overBytes, r.put messageId entry)
    else
      let entry := { entry with
        slots := entry.slots.set seq (some payload), filled := entry.filled + 1, bytes := entry.bytes + payload.size }
      let r := { r.put messageId entry with totalBytes := r.totalBytes + payload.size }
      if entry.filled < entry.sum then (.ok none, r)
      else
        (.ok (some ⟨messageId, entry.traceId, (entry.slots.map (·.getD .empty)).foldl (· ++ ·) .empty⟩),
          r.removeEntry messageId)

def ingest (r : Reassembler) (headers : FrameHeaders) (payload : ByteArray) (now : ℕ) :
    Except ReassemblyError (Option Reassembly) × Reassembler :=
  let messageId := headers.messageId.getD ""
  let entryExpired := (r.get? messageId).any (isExpired now)
  let r := r.sweep now
  match parseSum headers with
  | .error e => (.error e, r)
  | .ok sum =>
    if payload.size > larkFragmentMessageBytes then (.error .overBytes, r)
    else if sum = 1 then (.ok (some ⟨messageId, headers.traceId, payload⟩), r)
    else if sum = 0 then (.error .outOfRange, r)
    else if sum > larkFragmentMessageMaxFragments then (.error .tooManyFragments, r)
    else if messageId.isEmpty then (.error .outOfRange, r)
    else
      match headers.seq with
      | none => (.error .outOfRange, r)
      | some seq =>
        if seq ≥ sum then (.error .outOfRange, r)
        else if entryExpired then (.error .expired, r)
        else if r.totalBytes + payload.size > larkFragmentTotalBytes then (.error .overBytes, r)
        else
          match r.entryFor messageId headers.traceId sum now with
          | .error e => (.error e, r)
          | .ok entry => r.fill messageId entry seq payload

/-! ## The buffer -/

end Reassembler

def slotBytes (slot : Option ByteArray) : ℕ := (slot.map ByteArray.size).getD 0

/-- The counts of a message say what its slots hold, and a fragment is missing. -/
structure Entry.WF (e : Entry) : Prop where
  length : e.slots.length = e.sum
  filled : e.filled = e.slots.countP (·.isSome)
  bytes : e.bytes = (e.slots.map slotBytes).sum
  missing : e.filled < e.sum
  bounded : e.bytes ≤ larkFragmentMessageBytes

namespace Reassembler

structure WF (r : Reassembler) : Prop where
  ids : (r.entries.map (·.1)).Nodup
  entries : ∀ p ∈ r.entries, p.2.WF
  total : r.totalBytes = (r.entries.map (·.2.bytes)).sum
  inFlight : r.entries.length ≤ larkFragmentMaxInFlight
  bounded : r.totalBytes ≤ larkFragmentTotalBytes

theorem new_wf : new.WF := ⟨List.nodup_nil, by simp [new], rfl, Nat.zero_le _, Nat.zero_le _⟩

variable {r : Reassembler} {messageId : String} {entry : Entry} {traceId : Option String} {sum now total : ℕ}

/-- The message in front of the others. -/
theorem WF.split (h : r.WF) (hget : r.get? messageId = some entry) :
    r.entries.Perm ((messageId, entry) :: r.entries.filter (·.1 ≠ messageId)) := by
  obtain ⟨⟨id, e⟩, hfind, rfl⟩ := Option.map_eq_some_iff.1 hget
  have hid : id = messageId := of_decide_eq_true (List.find?_some hfind :)
  subst hid
  obtain ⟨l₁, l₂, hl⟩ := List.append_of_mem (List.mem_of_find?_eq_some hfind)
  have hnodup := h.ids
  rw [hl, List.map_append, List.map_cons, List.perm_middle.nodup_iff, List.nodup_cons] at hnodup
  have hrest : r.entries.filter (·.1 ≠ id) = l₁ ++ l₂ := by
    rw [hl, List.filter_append, List.filter_cons_of_neg (by simp), ← List.filter_append, List.filter_eq_self]
    intro p hp
    refine decide_eq_true fun heq => hnodup.1 ?_
    rw [← List.map_append]
    exact List.mem_map.2 ⟨p, hp, heq⟩
  rw [hrest, hl]
  exact List.perm_middle

theorem get?_none (hget : r.get? messageId = none) : r.entries.filter (·.1 ≠ messageId) = r.entries := by
  have hfind := Option.map_eq_none_iff.1 hget
  refine List.filter_eq_self.2 fun p hp => ?_
  simpa using List.find?_eq_none.1 hfind p hp

/-- What the buffer holds besides one message. -/
theorem WF.removeEntry (h : r.WF) : (r.removeEntry messageId).WF := by
  unfold Reassembler.removeEntry
  split
  · exact h
  · next e hget =>
    have hsplit := h.split hget
    have hsub : (r.entries.filter (·.1 ≠ messageId)).Sublist r.entries := List.filter_sublist
    have htotal := h.total
    rw [(hsplit.map _).sum_eq, List.map_cons, List.sum_cons] at htotal
    dsimp only at htotal
    have hbounded := h.bounded
    refine ⟨(hsub.map _).nodup h.ids, fun p hp => h.entries p (hsub.subset hp), ?_,
      Nat.le_trans hsub.length_le h.inFlight, ?_⟩
    · dsimp only
      omega
    · show r.totalBytes - e.bytes ≤ _
      omega

theorem WF.sweep {now : ℕ} (h : r.WF) : (r.sweep now).WF := by
  unfold Reassembler.sweep
  -- over the messages that expired
  generalize (r.entries.filter fun p => isExpired now p.2) = expired
  induction expired generalizing r with
  | nil => exact h
  | cons p expired ih => exact ih h.removeEntry

/-- The message in the buffer, or a new one in its place. -/
theorem WF.entryFor (h : r.WF) (hsum : 0 < sum) (he : r.entryFor messageId traceId sum now = .ok entry) :
    entry.WF ∧ ((r.entries.filter (·.1 ≠ messageId)).map (·.2.bytes)).sum + entry.bytes = r.totalBytes ∧
      (r.entries.filter (·.1 ≠ messageId)).length < larkFragmentMaxInFlight := by
  unfold Reassembler.entryFor at he
  split at he
  · next e hget =>
    split at he
    · cases he
    · cases he
      have hsplit := h.split hget
      have htotal := h.total
      have hlen := h.inFlight
      rw [(hsplit.map _).sum_eq, List.map_cons, List.sum_cons] at htotal
      rw [hsplit.length_eq, List.length_cons] at hlen
      refine ⟨h.entries _ (hsplit.mem_iff.2 List.mem_cons_self), ?_, by omega⟩
      rw [htotal, Nat.add_comm]
  · next hget =>
    split at he
    · cases he
    · next hlen =>
      cases he
      rw [get?_none hget]
      refine ⟨⟨by simp, by simp [List.countP_replicate], by simp [slotBytes], hsum, Nat.zero_le _⟩, ?_, by omega⟩
      rw [h.total, Nat.add_zero]

theorem entryFor_sum (he : r.entryFor messageId traceId sum now = .ok entry) :
    entry.sum = sum := by
  unfold entryFor at he
  split at he
  · split at he
    · cases he
    · next hsum =>
      cases he
      exact not_not.1 hsum
  · split at he
    · cases he
    · cases he
      rfl

/-- A message takes its place in the buffer. -/
theorem WF.put (h : r.WF) (he : entry.WF)
    (htotal : ((r.entries.filter (·.1 ≠ messageId)).map (·.2.bytes)).sum + entry.bytes = total)
    (hlen : (r.entries.filter (·.1 ≠ messageId)).length < larkFragmentMaxInFlight)
    (hbounded : total ≤ larkFragmentTotalBytes) :
    WF { r.put messageId entry with totalBytes := total } := by
  have hsub : (r.entries.filter (·.1 ≠ messageId)).Sublist r.entries := List.filter_sublist
  refine ⟨?_, fun p hp => ?_, ?_, ?_, hbounded⟩
  · simp only [Reassembler.put, List.map_append, List.map_cons, List.map_nil]
    rw [List.nodup_append]
    refine ⟨(hsub.map _).nodup h.ids, List.nodup_singleton _, fun id hid id' hid' => ?_⟩
    obtain ⟨p, hp, rfl⟩ := List.mem_map.1 hid
    rw [List.mem_singleton.1 hid']
    exact of_decide_eq_true (List.mem_filter.1 hp).2
  · rcases List.mem_append.1 hp with hp | hp
    · exact h.entries p (hsub.subset hp)
    · rw [List.mem_singleton.1 hp]
      exact he
  · simp only [Reassembler.put, List.map_append, List.map_cons, List.map_nil, List.sum_append, List.sum_cons, List.sum_nil]
    omega
  · simp only [Reassembler.put, List.length_append, List.length_cons, List.length_nil]
    omega

theorem fill_slot {slots : List (Option ByteArray)} {seq : ℕ} {payload : ByteArray} (hseq : seq < slots.length)
    (hslot : slots.getD seq none = none) :
    (slots.set seq (some payload)).countP (·.isSome) = slots.countP (·.isSome) + 1 ∧
      ((slots.set seq (some payload)).map slotBytes).sum = (slots.map slotBytes).sum + payload.size := by
  induction slots generalizing seq with
  | nil => cases hseq
  | cons slot slots ih =>
    cases seq with
    | zero =>
      obtain rfl : slot = none := by simpa using hslot
      simp [slotBytes]
      omega
    | succ seq =>
      obtain ⟨hcount, hbytes⟩ := ih (Nat.lt_of_succ_lt_succ hseq) (by simpa using hslot)
      simp only [List.set_cons_succ, List.countP_cons, hcount, List.map_cons, List.sum_cons, hbytes]
      omega

/-- A message that is complete leaves the buffer. -/
theorem removeEntry_put_wf (h : r.WF)
    (htotal : ((r.entries.filter (·.1 ≠ messageId)).map (·.2.bytes)).sum + entry.bytes = total)
    (hlen : (r.entries.filter (·.1 ≠ messageId)).length < larkFragmentMaxInFlight)
    (hle : ((r.entries.filter (·.1 ≠ messageId)).map (·.2.bytes)).sum ≤ r.totalBytes) :
    (removeEntry { r.put messageId entry with totalBytes := total } messageId).WF := by
  have hnone : ∀ p ∈ r.entries.filter (·.1 ≠ messageId), ¬p.1 = messageId := fun p hp => by simpa using (List.mem_filter.1 hp).2
  have hget : get? { r.put messageId entry with totalBytes := total } messageId = some entry := by
    simp only [get?, Reassembler.put, List.find?_append]
    rw [List.find?_eq_none.2 fun p hp => by simpa using hnone p hp]
    simp
  have hsub : (r.entries.filter (·.1 ≠ messageId)).Sublist r.entries := List.filter_sublist
  have hrest : (r.put messageId entry).entries.filter (·.1 ≠ messageId) = r.entries.filter (·.1 ≠ messageId) := by
    simp [Reassembler.put, List.filter_append]
  have hbounded := h.bounded
  unfold Reassembler.removeEntry
  rw [hget]
  dsimp only
  rw [hrest]
  refine ⟨(hsub.map _).nodup h.ids, fun p hp => h.entries p (hsub.subset hp), ?_, Nat.le_of_lt hlen, ?_⟩
  · dsimp only
    omega
  · show total - entry.bytes ≤ _
    omega

theorem fill_wf {seq : ℕ} {payload : ByteArray} (h : r.WF) (he : entry.WF) (hseq : seq < entry.sum)
    (htotal : ((r.entries.filter (·.1 ≠ messageId)).map (·.2.bytes)).sum + entry.bytes = r.totalBytes)
    (hlen : (r.entries.filter (·.1 ≠ messageId)).length < larkFragmentMaxInFlight)
    (hfits : r.totalBytes + payload.size ≤ larkFragmentTotalBytes) : (r.fill messageId entry seq payload).2.WF := by
  have hput : (r.put messageId entry).WF := h.put he htotal hlen h.bounded
  unfold Reassembler.fill
  split
  · exact hput
  · next hslot =>
    split
    · exact hput
    · next hbytes =>
      obtain ⟨hcount, hsum⟩ : (entry.slots.set seq (some payload)).countP (·.isSome) = entry.slots.countP (·.isSome) + 1 ∧
          ((entry.slots.set seq (some payload)).map slotBytes).sum = (entry.slots.map slotBytes).sum + payload.size :=
        fill_slot (he.length ▸ hseq) hslot
      dsimp only
      split
      · next hmissing =>
        refine h.put ⟨?_, ?_, ?_, hmissing, Nat.le_of_not_lt hbytes⟩ ?_ hlen hfits
        · simpa using he.length
        · rw [hcount, he.filled]
        · rw [hsum, he.bytes]
        · dsimp only
          omega
      · exact removeEntry_put_wf h (by dsimp only; omega) hlen (by omega)

/-- **The buffer keeps its counts and stays within its bounds,** whatever fragments come. -/
theorem ingest_wf {headers : FrameHeaders} {payload : ByteArray} {now : ℕ} (h : r.WF) :
    (r.ingest headers payload now).2.WF := by
  have hswept : (r.sweep now).WF := h.sweep
  unfold ingest
  dsimp only
  split
  · exact hswept
  · next sum _ =>
    split
    · exact hswept
    · split
      · exact hswept
      · split
        · exact hswept
        · next hzero =>
          split
          · exact hswept
          · split
            · exact hswept
            · split
              · exact hswept
              · next seq _ =>
                split
                · exact hswept
                · next hseq =>
                  split
                  · exact hswept
                  · split
                    · exact hswept
                    · next hfits =>
                      split
                      · exact hswept
                      · next entry hentry =>
                        obtain ⟨he, htotal, hlen⟩ := hswept.entryFor (Nat.pos_of_ne_zero hzero) hentry
                        have hsum := entryFor_sum hentry
                        exact fill_wf hswept he (by omega) htotal hlen (Nat.le_of_not_lt hfits)

end Reassembler

end LarkCodexBridge.Lark
