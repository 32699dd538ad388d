import LarkCodexBridge.Lark.Reassembly

/-!
# The accounts of the reassembly buffer

`ingest?` is `ingest` with its panics: an underflow of the byte count, a slot that does not exist and the two `expect`s
have no result. On a buffer with exact accounts it is `ingest`, and keeps them exact.

* `classify`: what a frame is by itself; `ingest_eq`: `ingest` in terms of it.
* `ingest_exact`: a frame keeps the accounts exact; `ingest?_eq`: without a panic.
* `buffer_accounting`: the accounts of every buffer, and what an error leaves.
-/

namespace LarkCodexBridge.Lark

open Limits StepSystem

namespace Reassembly

/-! ## What a frame is by itself -/

/-- The answer to a frame that no buffer is needed for, or the count and the number of a fragment. -/
def classify (a : Arrival) : Except (Except ReassemblyError (Option Reassembly)) (ℕ × ℕ) :=
  match parseSum a.headers with
  | .error e => .error (.error e)
  | .ok sum =>
    if a.payload.size > larkFragmentMessageBytes then .error (.error .overBytes)
    else if sum = 1 then .error (.ok (some ⟨a.id, a.headers.traceId, a.payload⟩))
    else if sum = 0 then .error (.error .outOfRange)
    else if sum > larkFragmentMessageMaxFragments then .error (.error .tooManyFragments)
    else if a.id.isEmpty then .error (.error .outOfRange)
    else
      match a.headers.seq with
      | none => .error (.error .outOfRange)
      | some seq => if seq ≥ sum then .error (.error .outOfRange) else .ok (sum, seq)

variable {r : Reassembler} {a : Arrival} {sum seq : ℕ} {entry : Entry} {messageId : String} {now : ℕ}

theorem classify_ok (h : classify a = .ok (sum, seq)) : Describes a sum seq ∧ 2 ≤ sum := by
  unfold classify at h
  cases hsum : parseSum a.headers with
  | error e => simp [hsum] at h
  | ok n =>
    rw [hsum] at h
    dsimp only at h
    split_ifs at h with hsize hone hzero hcount hid
    cases hseq : a.headers.seq with
    | none => simp [hseq] at h
    | some i =>
      rw [hseq] at h
      dsimp only at h
      split_ifs at h with hlt
      obtain ⟨rfl, rfl⟩ := Prod.mk.inj (Except.ok.inj h)
      refine ⟨⟨hsum, Nat.le_of_not_lt hsize, hone, Nat.le_of_not_lt hcount, ?_, hseq, Nat.lt_of_not_le hlt⟩, by omega⟩
      exact fun hempty => hid (String.isEmpty_iff.2 hempty)

theorem ingest_eq (r : Reassembler) (a : Arrival) : r.ingest a.headers a.payload a.now =
    match classify a with
    | .error answer => (answer, r.sweep a.now)
    | .ok (sum, seq) =>
      if (r.get? a.id).any (Reassembler.isExpired a.now) then (.error .expired, r.sweep a.now)
      else if (r.sweep a.now).totalBytes + a.payload.size > larkFragmentTotalBytes then (.error .overBytes, r.sweep a.now)
      else
        match (r.sweep a.now).entryFor a.id a.headers.traceId sum a.now with
        | .error e => (.error e, r.sweep a.now)
        | .ok entry => (r.sweep a.now).fill a.id entry seq a.payload := by
  unfold Reassembler.ingest classify
  dsimp only
  rw [show a.headers.messageId.getD "" = a.id from rfl]
  cases parseSum a.headers with
  | error e => rfl
  | ok n =>
    dsimp only
    by_cases hsize : a.payload.size > larkFragmentMessageBytes
    · rw [if_pos hsize, if_pos hsize]
    rw [if_neg hsize, if_neg hsize]
    by_cases hone : n = 1
    · rw [if_pos hone, if_pos hone]
    rw [if_neg hone, if_neg hone]
    by_cases hzero : n = 0
    · rw [if_pos hzero, if_pos hzero]
    rw [if_neg hzero, if_neg hzero]
    by_cases hcount : n > larkFragmentMessageMaxFragments
    · rw [if_pos hcount, if_pos hcount]
    rw [if_neg hcount, if_neg hcount]
    by_cases hid : a.id.isEmpty = true
    · rw [if_pos hid, if_pos hid]
    rw [if_neg hid, if_neg hid]
    cases a.headers.seq with
    | none => rfl
    | some i =>
      dsimp only
      by_cases hlt : i ≥ n
      · rw [if_pos hlt, if_pos hlt]
      · rw [if_neg hlt, if_neg hlt]
        all_goals rfl

end Reassembly

/-! ## With panics -/

namespace Reassembler

open Reassembly

/-- `remove_entry`, which panics when the byte count falls below zero. -/
def removeEntry? (r : Reassembler) (messageId : String) : Option (Option Entry × Reassembler) :=
  match r.get? messageId with
  | none => some (none, r)
  | some entry =>
    if entry.bytes ≤ r.totalBytes then
      some (some entry, ⟨r.entries.filter (·.1 ≠ messageId), r.totalBytes - entry.bytes⟩)
    else none

def sweep? (r : Reassembler) (now : ℕ) : Option Reassembler :=
  (r.entries.filter fun p => isExpired now p.2).foldlM (fun r p => (r.removeEntry? p.1).map (·.2)) r

/-- The slot is indexed, and the two `expect`s are met. -/
def fill? (r : Reassembler) (messageId : String) (entry : Entry) (seq : ℕ) (payload : ByteArray) :
    Option (Except ReassemblyError (Option Reassembly) × Reassembler) :=
  match entry.slots[seq]? with
  | none => none
  | some (some _) => some (.error .duplicate, r.put messageId entry)
  | some none =>
    if entry.bytes + payload.size > larkFragmentMessageBytes then some (.error .overBytes, r.put messageId entry)
    else
      let entry := { entry with
        slots := entry.slots.set seq (some payload), filled := entry.filled + 1, bytes := entry.bytes + payload.size }
      let r := { r.put messageId entry with totalBytes := r.totalBytes + payload.size }
      if entry.filled < entry.sum then some (.ok none, r)
      else
        match r.removeEntry? messageId with
        | some (some entry, r) =>
          (entry.slots.mapM id).map fun fragments =>
            (.ok (some ⟨messageId, entry.traceId, fragments.foldl (· ++ ·) .empty⟩), r)
        | _ => none

def ingest? (r : Reassembler) (a : Arrival) : Option (Except ReassemblyError (Option Reassembly) × Reassembler) :=
  let entryExpired := (r.get? a.id).any (isExpired a.now)
  (r.sweep? a.now).bind fun r =>
    match classify a with
    | .error answer => some (answer, r)
    | .ok (sum, seq) =>
      if entryExpired then some (.error .expired, r)
      else if r.totalBytes + a.payload.size > larkFragmentTotalBytes then some (.error .overBytes, r)
      else
        match r.entryFor a.id a.headers.traceId sum a.now with
        | .error e => some (.error e, r)
        | .ok entry => r.fill? a.id entry seq a.payload

/-! ## Exact accounts -/

/-- The message has a fragment and not too many slots. -/
def Started (e : Entry) : Prop := 0 < e.filled ∧ e.sum ≤ larkFragmentMessageMaxFragments

structure Exact (r : Reassembler) : Prop where
  wf : r.WF
  started : ∀ p ∈ r.entries, Started p.2

theorem new_exact : new.Exact := ⟨new_wf, by simp [new]⟩

/-- The same bytes and the same messages, in any order. -/
structure Same (r r' : Reassembler) : Prop where
  entries : r.entries.Perm r'.entries
  totalBytes : r.totalBytes = r'.totalBytes

variable {r : Reassembler} {a : Arrival} {messageId : String} {entry : Entry} {now sum seq : ℕ} {payload : ByteArray}
  {traceId : Option String}

theorem Same.refl (r : Reassembler) : Same r r := ⟨.refl _, rfl⟩

theorem entries_removeEntry : (r.removeEntry messageId).entries = r.entries.filter (·.1 ≠ messageId) := by
  unfold removeEntry
  split
  · next h => exact (get?_none h).symm
  · rfl

theorem Exact.removeEntry (h : r.Exact) : (r.removeEntry messageId).Exact := by
  refine ⟨h.wf.removeEntry, fun p hp => h.started p ?_⟩
  rw [entries_removeEntry] at hp
  exact (List.mem_filter.1 hp).1

theorem entry_bytes_le (h : r.WF) (hget : r.get? messageId = some entry) : entry.bytes ≤ r.totalBytes := by
  rw [h.total, ((h.split hget).map _).sum_eq, List.map_cons, List.sum_cons]
  exact Nat.le_add_right _ _

/-- No underflow. -/
theorem removeEntry?_eq (h : r.WF) : r.removeEntry? messageId = some (r.get? messageId, r.removeEntry messageId) := by
  unfold removeEntry? removeEntry
  cases hget : r.get? messageId with
  | none => rfl
  | some entry =>
    dsimp only
    rw [if_pos (entry_bytes_le h hget)]

theorem sweep?_eq (h : r.Exact) : r.sweep? now = some (r.sweep now) ∧ (r.sweep now).Exact := by
  unfold sweep? sweep
  -- over the messages that expired
  generalize (r.entries.filter fun p => isExpired now p.2) = expired
  induction expired generalizing r with
  | nil => exact ⟨rfl, h⟩
  | cons p expired ih =>
    rw [List.foldlM_cons, removeEntry?_eq h.wf]
    exact ih h.removeEntry

/-- The message was in the buffer, or it is new. -/
def Held (r : Reassembler) (messageId : String) (entry : Entry) : Prop :=
  r.get? messageId = some entry ∨ entry.slots = List.replicate entry.sum none ∧ entry.bytes = 0

theorem held_entryFor (he : r.entryFor messageId traceId sum now = .ok entry) : r.Held messageId entry := by
  unfold entryFor at he
  split at he
  · next e hget =>
    split at he
    · cases he
    · cases he
      exact .inl hget
  · split at he
    · cases he
    · cases he
      exact .inr ⟨rfl, rfl⟩

theorem Held.bytes_le (h : r.WF) (hheld : r.Held messageId entry) : entry.bytes ≤ r.totalBytes := by
  rcases hheld with hget | ⟨-, hzero⟩
  · exact entry_bytes_le h hget
  · omega

/-- Putting a message back changes nothing. -/
theorem put_same (h : r.WF) (hget : r.get? messageId = some entry) : Same (r.put messageId entry) r :=
  ⟨((h.split hget).trans (@List.perm_append_comm _ [_] _)).symm, rfl⟩

/-- Only a message that was in the buffer refuses a fragment. -/
theorem Held.get? (hheld : r.Held messageId entry) (hsize : payload.size ≤ larkFragmentMessageBytes)
    (hrefused : (∃ part, entry.slots.getD seq none = some part) ∨ entry.bytes + payload.size > larkFragmentMessageBytes) :
    r.get? messageId = some entry := by
  rcases hheld with hget | ⟨hslots, hzero⟩
  · exact hget
  · rcases hrefused with ⟨part, hpart⟩ | hover
    · rw [hslots, List.getD_eq_getElem?_getD, List.getElem?_replicate] at hpart
      split at hpart <;> cases hpart
    · omega

/-- The four outcomes of a fragment. -/
theorem fill_cases (hheld : r.Held messageId entry) (hsize : payload.size ≤ larkFragmentMessageBytes) :
    r.get? messageId = some entry ∧ (∃ e, r.fill messageId entry seq payload = (.error e, r.put messageId entry)) ∨
    entry.slots.getD seq none = none ∧ (∃ o, (r.fill messageId entry seq payload).1 = .ok o) := by
  unfold fill
  cases hslot : entry.slots.getD seq none with
  | some part => exact .inl ⟨hheld.get? hsize (.inl ⟨part, hslot⟩), _, rfl⟩
  | none =>
    dsimp only
    by_cases hover : entry.bytes + payload.size > larkFragmentMessageBytes
    · rw [if_pos hover]
      exact .inl ⟨@Held.get? r messageId entry seq payload hheld hsize (.inr hover), _, rfl⟩
    · rw [if_neg hover]
      refine .inr ⟨rfl, ?_⟩
      split <;> exact ⟨_, rfl⟩

/-- A refusal of a fragment leaves the buffer as it is. -/
theorem fill_error (h : r.WF) (hheld : r.Held messageId entry) (hsize : payload.size ≤ larkFragmentMessageBytes)
    {e : ReassemblyError} (he : (r.fill messageId entry seq payload).1 = .error e) :
    Same (r.fill messageId entry seq payload).2 r := by
  rcases @fill_cases r messageId entry seq payload hheld hsize with ⟨hget, e', hfill⟩ | ⟨-, o, hok⟩
  · rw [hfill]
    exact put_same h hget
  · rw [hok] at he
    cases he

theorem started_put {total : ℕ} (h : r.Exact) (he : Started entry) :
    ∀ p ∈ ({ r.put messageId entry with totalBytes := total } : Reassembler).entries, Started p.2 := by
  intro p hp
  rcases List.mem_append.1 hp with hp | hp
  · exact h.started p (List.mem_filter.1 hp).1
  · rw [List.mem_singleton.1 hp]
    exact he

theorem fill_started (h : r.Exact) (hheld : r.Held messageId entry) (hcount : entry.sum ≤ larkFragmentMessageMaxFragments)
    (hsize : payload.size ≤ larkFragmentMessageBytes) :
    ∀ p ∈ (r.fill messageId entry seq payload).2.entries, Started p.2 := by
  rcases @fill_cases r messageId entry seq payload hheld hsize with ⟨hget, e, hfill⟩ | ⟨hslot, o, hok⟩
  · rw [hfill]
    exact @started_put r messageId entry r.totalBytes h (h.started _ (mem_of_get? hget))
  · revert hok
    unfold fill
    rw [hslot]
    dsimp only
    split
    · exact nofun
    · have hfilled : Started { entry with
          slots := entry.slots.set seq (some payload), filled := entry.filled + 1, bytes := entry.bytes + payload.size } :=
        ⟨Nat.succ_pos _, hcount⟩
      split
      · exact fun _ => started_put h hfilled
      · intro _ p hp
        rw [entries_removeEntry] at hp
        exact @started_put r messageId _ (r.totalBytes + payload.size) h hfilled p (List.mem_filter.1 hp).1

theorem mapM_id_of_all {slots : List (Option ByteArray)} (h : ∀ slot ∈ slots, slot.isSome) :
    slots.mapM id = some (slots.map (·.getD .empty)) := by
  induction slots with
  | nil => rfl
  | cons slot slots ih =>
    obtain ⟨part, rfl⟩ := Option.isSome_iff_exists.1 (h slot List.mem_cons_self)
    rw [List.mapM_cons, ih fun s hs => h s (List.mem_cons_of_mem _ hs)]
    rfl

/-- A fragment is taken without a panic. -/
theorem fill?_eq (h : r.WF) (he : entry.WF) (hheld : r.Held messageId entry) (hseq : seq < entry.sum) :
    r.fill? messageId entry seq payload = some (r.fill messageId entry seq payload) := by
  have hlt : seq < entry.slots.length := he.length ▸ hseq
  have hget : entry.slots[seq]? = some (entry.slots.getD seq none) := by
    rw [List.getD_eq_getElem?_getD, List.getElem?_eq_getElem hlt, Option.getD_some]
  unfold fill? fill
  rw [hget]
  cases hslot : entry.slots.getD seq none with
  | some part => rfl
  | none =>
    dsimp only
    split
    · rfl
    · split
      · rfl
      · next hfull =>
        -- the last slot is filled, and the message is there with its bytes
        have hall : ∀ slot ∈ entry.slots.set seq (some payload), slot.isSome = true := by
          have hmissing := he.missing
          refine List.countP_eq_length.1 ?_
          rw [(@fill_slot _ _ payload hlt hslot).1, ← he.filled, List.length_set, he.length]
          omega
        have hhere : ∀ {e : Entry} {total : ℕ},
            get? { r.put messageId e with totalBytes := total } messageId = some e :=
          fun {e} => (@get?_put r messageId messageId e).trans (if_pos rfl)
        have hbytes := hheld.bytes_le h
        unfold removeEntry? removeEntry
        rw [hhere]
        dsimp only
        rw [if_pos (by omega)]
        dsimp only
        rw [mapM_id_of_all hall]
        rfl

/-- **A frame is taken without a panic, the accounts stay exact, and an error changes no more than the sweep.** -/
theorem ingest?_eq (h : r.Exact) (a : Arrival) :
    r.ingest? a = some (r.ingest a.headers a.payload a.now) ∧ (r.ingest a.headers a.payload a.now).2.Exact ∧
      ∀ e, (r.ingest a.headers a.payload a.now).1 = .error e →
        Same (r.ingest a.headers a.payload a.now).2 (r.sweep a.now) := by
  obtain ⟨hsweep, hswept⟩ := @sweep?_eq r a.now h
  have hwf := @ingest_wf r a.headers a.payload a.now h.wf
  revert hwf
  unfold ingest?
  dsimp only
  rw [ingest_eq, hsweep, Option.bind_some]
  cases hclass : classify a with
  | error answer => exact fun _ => ⟨rfl, hswept, fun _ _ => Same.refl _⟩
  | ok fragment =>
    obtain ⟨sum, seq⟩ := fragment
    obtain ⟨hdescribes, hseveral⟩ := classify_ok hclass
    dsimp only
    split
    · exact fun _ => ⟨rfl, hswept, fun _ _ => Same.refl _⟩
    · split
      · exact fun _ => ⟨rfl, hswept, fun _ _ => Same.refl _⟩
      · cases hentry : (r.sweep a.now).entryFor a.id a.headers.traceId sum a.now with
        | error e => exact fun _ => ⟨rfl, hswept, fun _ _ => Same.refl _⟩
        | ok entry =>
          intro hwf
          have hsum := entryFor_sum hentry
          have hheld := held_entryFor hentry
          obtain ⟨he, -, -⟩ := hswept.wf.entryFor (by omega) hentry
          have hcount : entry.sum ≤ larkFragmentMessageMaxFragments := hsum ▸ hdescribes.count
          refine ⟨fill?_eq hswept.wf he hheld (hsum ▸ hdescribes.lt), ⟨hwf, ?_⟩, fun e herror => ?_⟩
          · exact fill_started hswept hheld hcount hdescribes.size
          · exact fill_error hswept.wf hheld hdescribes.size herror

/-! ## Runs -/

/-- The buffer after a frame. -/
def take (r : Reassembler) (a : Arrival) : Reassembler := (r.ingest a.headers a.payload a.now).2

def after (calls : List Arrival) : Reassembler := exec take new calls

/-- The calls with their panics. -/
def after? (calls : List Arrival) : Option Reassembler := calls.foldlM (fun r a => (r.ingest? a).map (·.2)) new

theorem exec_exact {calls : List Arrival} (h : r.Exact) :
    (exec take r calls).Exact ∧ calls.foldlM (fun r a => (r.ingest? a).map (·.2)) r = some (exec take r calls) := by
  induction calls generalizing r with
  | nil => exact ⟨h, rfl⟩
  | cons a calls ih =>
    obtain ⟨heq, hexact, -⟩ := ingest?_eq h a
    rw [List.foldlM_cons, heq]
    exact ih hexact

/-- **The accounts of the buffer are exact after any calls, none of which panics, and an error is clean.** -/
theorem buffer_accounting (calls : List Arrival) :
    after? calls = some (after calls) ∧
    (after calls).totalBytes = ((after calls).entries.map fun p => (p.2.slots.map slotBytes).sum).sum ∧
    ((after calls).entries.map (·.1)).Nodup ∧
    (∀ p ∈ (after calls).entries, p.2.filled = p.2.slots.countP (·.isSome) ∧ 0 < p.2.filled ∧ p.2.filled < p.2.sum ∧
      p.2.sum = p.2.slots.length ∧ p.2.sum ≤ larkFragmentMessageMaxFragments ∧
      p.2.bytes = (p.2.slots.map slotBytes).sum ∧ p.2.bytes ≤ larkFragmentMessageBytes) ∧
    (after calls).entries.length ≤ larkFragmentMaxInFlight ∧
    (after calls).totalBytes ≤ larkFragmentTotalBytes ∧
    ∀ a : Arrival, ∃ result, (after calls).ingest? a = some result ∧
      result = (after calls).ingest a.headers a.payload a.now ∧
      ∀ e, result.1 = .error e → Same result.2 ((after calls).sweep a.now) := by
  obtain ⟨hexact, hrun⟩ := @exec_exact _ calls new_exact
  have hwf := hexact.wf
  refine ⟨hrun, ?_, hwf.ids, fun p hp => ?_, hwf.inFlight, hwf.bounded, fun a => ?_⟩
  · refine hwf.total.trans (congrArg List.sum (List.map_congr_left fun p hp => ?_))
    exact (hwf.entries p hp).bytes
  · have he := hwf.entries p hp
    obtain ⟨hfilled, hcount⟩ := hexact.started p hp
    exact ⟨he.filled, hfilled, he.missing, he.length.symm, hcount, he.bytes, he.bounded⟩
  · obtain ⟨heq, -, herror⟩ := ingest?_eq hexact a
    exact ⟨_, heq, rfl, herror⟩

end Reassembler

end LarkCodexBridge.Lark
