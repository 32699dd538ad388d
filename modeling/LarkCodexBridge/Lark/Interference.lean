import LarkCodexBridge.Lark.Accounting

/-!
# What other messages change for a message

The answers to the frames of a message in a run, compared with those in the run of its frames alone. A sweep that the
frame of another message causes forgets a message that expired, so that its next fragment starts over.

* `ingest_local`: the answer to a frame depends on what the buffer holds of its message;
* `ingest_other`: a frame of another message changes that by a sweep only;
* `answers_alone`: a run that forgets nothing answers like the run of the frames alone;
* `forgotten_differs`: one that forgets something does not;
* `messages_apart`: two runs with the same frames of a message.
-/

namespace LarkCodexBridge.Lark.Reassembler

open Limits StepSystem Reassembly

/-- The answers to the frames of the message. -/
def answers (id : String) : Reassembler → List Arrival → List (Except ReassemblyError (Option Reassembly))
  | _, [] => []
  | r, a :: calls =>
    if a.id = id then (r.ingest a.headers a.payload a.now).1 :: answers id (r.take a) calls else answers id (r.take a) calls

def framesOf (id : String) (calls : List Arrival) : List Arrival := calls.filter (·.id = id)

/-- A fragment of the message finds room: the byte bound and the bound on messages are not reached. -/
def Roomy (id : String) (r : Reassembler) (a : Arrival) : Prop :=
  a.id = id → (classify a).isOk = true →
    (r.sweep a.now).totalBytes + a.payload.size ≤ larkFragmentTotalBytes ∧
      ((r.sweep a.now).get? id = none → (r.sweep a.now).entries.length < larkFragmentMaxInFlight)

instance (id : String) (r : Reassembler) (a : Arrival) : Decidable (Roomy id r a) :=
  inferInstanceAs (Decidable (_ → _ → _))

/-- The next frame of the message is no fragment, and sweeps the message itself. -/
def Harmless (id : String) (e : Entry) (calls : List Arrival) : Prop :=
  ∀ late, calls.find? (·.id = id) = some late → (∃ answer, classify late = .error answer) ∧ isExpired late.now e = true

/-- No frame of another message arrives while the message waits in the buffer past its time, unless the next frame of
the message would sweep it without being a fragment. -/
def Forgetless (id : String) : Reassembler → List Arrival → Prop
  | _, [] => True
  | r, a :: calls => (a.id ≠ id → ∀ e, r.get? id = some e → isExpired a.now e = true → Harmless id e calls) ∧
      Forgetless id (r.take a) calls

variable {r s : Reassembler} {a : Arrival} {id messageId : String} {entry e : Entry} {now sum seq : ℕ}
  {payload : ByteArray} {traceId : Option String} {calls : List Arrival}

/-! ## One frame -/

theorem fill_local : (r.fill messageId entry seq payload).1 = (s.fill messageId entry seq payload).1 ∧
    (r.fill messageId entry seq payload).2.get? messageId = (s.fill messageId entry seq payload).2.get? messageId := by
  have hput : ∀ {e : Entry} {total total' : ℕ}, get? { r.put messageId e with totalBytes := total } messageId =
      get? { s.put messageId e with totalBytes := total' } messageId := fun {e} =>
    ((@get?_put r messageId messageId e).trans (if_pos rfl)).trans
      ((@get?_put s messageId messageId e).trans (if_pos rfl)).symm
  unfold fill
  cases entry.slots.getD seq none with
  | some part => exact ⟨rfl, hput⟩
  | none =>
    dsimp only
    split
    · exact ⟨rfl, hput⟩
    · split
      · exact ⟨rfl, hput⟩
      · exact ⟨rfl, by rw [get?_removeEntry, get?_removeEntry, if_pos rfl, if_pos rfl]⟩

theorem fill_other (h : id ≠ messageId) : (r.fill messageId entry seq payload).2.get? id = r.get? id := by
  have hput : ∀ {e : Entry} {total : ℕ}, get? { r.put messageId e with totalBytes := total } id = r.get? id := fun {e} =>
    (@get?_put r messageId id e).trans (if_neg h)
  unfold fill
  cases entry.slots.getD seq none with
  | some part => exact hput
  | none =>
    dsimp only
    split
    · exact hput
    · split
      · exact hput
      · rw [get?_removeEntry, if_neg h]
        exact hput

/-- With room, the message that a fragment belongs to depends on what the buffer holds of it. -/
theorem entryFor_local (h : r.get? messageId = s.get? messageId)
    (hr : r.get? messageId = none → r.entries.length < larkFragmentMaxInFlight)
    (hs : s.get? messageId = none → s.entries.length < larkFragmentMaxInFlight) :
    r.entryFor messageId traceId sum now = s.entryFor messageId traceId sum now := by
  unfold entryFor
  rw [h]
  cases hget : s.get? messageId with
  | some e => rfl
  | none =>
    dsimp only
    rw [if_neg (Nat.not_le.2 (hr (h.trans hget))), if_neg (Nat.not_le.2 (hs hget))]

/-- **The answer to a frame depends on what the buffer holds of its message,** and so does what it holds afterwards. -/
theorem ingest_local (hr : r.WF) (hs : s.WF) (h : r.get? a.id = s.get? a.id) (hroom : Roomy a.id r a)
    (hroom' : Roomy a.id s a) :
    (r.ingest a.headers a.payload a.now).1 = (s.ingest a.headers a.payload a.now).1 ∧
      (r.take a).get? a.id = (s.take a).get? a.id := by
  have hswept : (r.sweep a.now).get? a.id = (s.sweep a.now).get? a.id := by rw [hr.get?_sweep, hs.get?_sweep, h]
  unfold take
  rw [ingest_eq, ingest_eq, h]
  cases hclass : classify a with
  | error answer => exact ⟨rfl, hswept⟩
  | ok fragment =>
    have hok : (classify a).isOk = true := by rw [hclass]; rfl
    obtain ⟨hbytes, hflight⟩ := hroom rfl hok
    obtain ⟨hbytes', hflight'⟩ := hroom' rfl hok
    dsimp only
    split
    · exact ⟨rfl, hswept⟩
    · rw [if_neg (Nat.not_lt.2 hbytes), if_neg (Nat.not_lt.2 hbytes'), entryFor_local hswept hflight hflight']
      cases (s.sweep a.now).entryFor a.id a.headers.traceId fragment.1 a.now with
      | error e => exact ⟨rfl, hswept⟩
      | ok entry => exact fill_local

/-- **A frame of another message changes what the buffer holds of a message by a sweep only.** -/
theorem ingest_other (hr : r.WF) (h : a.id ≠ id) :
    (r.take a).get? id = (r.get? id).filter fun e => !isExpired a.now e := by
  rw [← hr.get?_sweep]
  unfold take
  rw [ingest_eq]
  cases classify a with
  | error answer => rfl
  | ok fragment =>
    dsimp only
    split
    · rfl
    · split
      · rfl
      · cases (r.sweep a.now).entryFor a.id a.headers.traceId fragment.1 a.now with
        | error e => rfl
        | ok entry => exact fill_other h.symm

/-- A frame that is no fragment is answered by itself and sweeps. -/
theorem ingest_malformed {answer : Except ReassemblyError (Option Reassembly)} (h : classify a = .error answer) :
    r.ingest a.headers a.payload a.now = (answer, r.sweep a.now) := by
  rw [ingest_eq, h]

/-! ## The frames of a message alone -/

theorem take_wf (h : r.WF) : (r.take a).WF := ingest_wf h

theorem answers_cons_of_ne (h : a.id ≠ id) : answers id r (a :: calls) = answers id (r.take a) calls := if_neg h

theorem answers_cons_self : answers a.id r (a :: calls) =
    (r.ingest a.headers a.payload a.now).1 :: answers a.id (r.take a) calls := if_pos rfl

theorem framesOf_cons_of_ne (h : a.id ≠ id) : framesOf id (a :: calls) = framesOf id calls :=
  List.filter_cons_of_neg (by simpa using h)

theorem framesOf_cons_self : framesOf a.id (a :: calls) = a :: framesOf a.id calls :=
  List.filter_cons_of_pos (by simp)

/-- The buffer holds nothing but the message. -/
structure Alone (id : String) (r : Reassembler) : Prop where
  wf : r.WF
  only : ∀ p ∈ r.entries, p.1 = id

theorem new_alone : Alone id new := ⟨new_wf, by simp [new]⟩

theorem Alone.of_get? (h : r.WF) (hget : ∀ messageId, messageId ≠ id → r.get? messageId = none) : Alone id r := by
  refine ⟨h, fun p hp => by_contra fun hne => ?_⟩
  have hhere := h.get?_of_mem hp
  rw [hget p.1 hne] at hhere
  cases hhere

theorem Alone.get? (h : Alone id r) (hne : messageId ≠ id) : r.get? messageId = none := by
  cases hget : r.get? messageId with
  | none => rfl
  | some e => exact absurd (h.only _ (mem_of_get? hget)) hne

theorem Alone.sweep (h : Alone id r) : Alone id (r.sweep now) :=
  .of_get? h.wf.sweep fun messageId hne => by rw [h.wf.get?_sweep, h.get? hne]; rfl

theorem Alone.take (h : Alone a.id r) : Alone a.id (r.take a) :=
  .of_get? (take_wf h.wf) fun messageId hne => by rw [ingest_other h.wf hne.symm, h.get? hne]; rfl

theorem Alone.roomy (h : Alone id r) : Roomy id r a := by
  intro _ hok
  have hswept := @Alone.sweep r id a.now h
  have hsize : a.payload.size ≤ larkFragmentMessageBytes := by
    cases hclass : classify a with
    | error answer => rw [hclass] at hok; cases hok
    | ok fragment => exact (classify_ok hclass).1.size
  have hlimit : larkFragmentMessageBytes + larkFragmentMessageBytes ≤ larkFragmentTotalBytes := by decide
  cases hentries : (r.sweep a.now).entries with
  | nil =>
    have htotal := hswept.wf.total
    rw [hentries] at htotal
    refine ⟨by rw [htotal]; simp only [List.map_nil, List.sum_nil]; omega, fun _ => by decide⟩
  | cons p rest =>
    -- there is one message only
    obtain rfl : rest = [] := by
      cases rest with
      | nil => rfl
      | cons q rest =>
        have hnodup := hswept.wf.ids
        have hp := hswept.only p (hentries ▸ List.mem_cons_self)
        have hq := hswept.only q (hentries ▸ List.mem_cons_of_mem _ List.mem_cons_self)
        rw [hentries, List.map_cons, List.map_cons, hp, hq] at hnodup
        simp at hnodup
    have htotal := hswept.wf.total
    have hbytes := (hswept.wf.entries p (hentries ▸ List.mem_cons_self)).bounded
    rw [hentries, List.map_singleton, List.sum_singleton] at htotal
    exact ⟨by omega, fun _ => (by decide : 1 < larkFragmentMaxInFlight)⟩

/-! ## Runs -/

/-- The message is the same in both buffers; or it was forgotten in the first, and its next frame does no harm. -/
def Follows (id : String) (r s : Reassembler) (calls : List Arrival) : Prop :=
  r.get? id = s.get? id ∨ r.get? id = none ∧ ∃ e, s.get? id = some e ∧ Harmless id e calls

theorem Harmless.of_ne (h : Harmless id e (a :: calls)) (hne : a.id ≠ id) : Harmless id e calls := by
  intro late hlate
  exact h late (by rw [List.find?_cons_of_neg (by simpa using hne)]; exact hlate)

theorem Harmless.self (h : Harmless a.id e (a :: calls)) :
    (∃ answer, classify a = .error answer) ∧ isExpired a.now e = true :=
  h a (List.find?_cons_of_pos (by simp))

/-- A frame of the message gets the same answer in both. -/
theorem Follows.self (h : Follows a.id r s (a :: calls)) (hr : r.WF) (hs : Alone a.id s) (hroom : Roomy a.id r a) :
    (r.ingest a.headers a.payload a.now).1 = (s.ingest a.headers a.payload a.now).1 ∧
      (r.take a).get? a.id = (s.take a).get? a.id := by
  rcases h with hsame | ⟨hnone, e, hsome, hharmless⟩
  · exact ingest_local hr hs.wf hsame hroom hs.roomy
  · -- the message is swept in the second buffer, too
    obtain ⟨⟨answer, hanswer⟩, hexpired⟩ := hharmless.self
    unfold take
    rw [ingest_malformed hanswer, ingest_malformed hanswer]
    exact ⟨rfl, by rw [hr.get?_sweep, hs.wf.get?_sweep, hnone, hsome]; simp [Option.filter, hexpired]⟩

/-- A frame of another message does no harm, or it makes the first buffer forget the message. -/
theorem Follows.other (h : Follows id r s (a :: calls)) (hr : r.WF) (hid : a.id ≠ id) :
    (Follows id (r.take a) s calls ∧ ∀ e, r.get? id = some e → isExpired a.now e = true → Harmless id e calls) ∨
    ∃ e, r.get? id = some e ∧ s.get? id = some e ∧ isExpired a.now e = true ∧ ¬Harmless id e calls ∧
      (r.take a).get? id = none := by
  have hafter := ingest_other (a := a) hr hid
  rcases h with hsame | ⟨hnone, e, hsome, hharmless⟩
  · cases hget : r.get? id with
    | none =>
      rw [hget] at hafter hsame
      exact .inl ⟨.inl (hafter.trans hsame), nofun⟩
    | some e =>
      rw [hget] at hafter hsame
      by_cases hexpired : isExpired a.now e = true
      · have hnone : (r.take a).get? id = none := by rw [hafter]; simp [Option.filter, hexpired]
        by_cases hharmless : Harmless id e calls
        · refine .inl ⟨.inr ⟨hnone, e, hsame.symm, hharmless⟩, fun e' he' _ => ?_⟩
          rwa [← Option.some.inj he']
        · exact .inr ⟨e, rfl, hsame.symm, hexpired, hharmless, hnone⟩
      · refine .inl ⟨.inl ?_, fun e' he' hexpired' => ?_⟩
        · rw [hafter, ← hsame]
          simp [Option.filter, hexpired]
        · exact absurd (Option.some.inj he' ▸ hexpired') hexpired
  · rw [hnone] at hafter
    exact .inl ⟨.inr ⟨hafter, e, hsome, hharmless.of_ne hid⟩, fun e' he' => by rw [hnone] at he'; cases he'⟩

/-- **A run that forgets nothing answers like the run of the frames alone.** -/
theorem answers_alone : ∀ {calls : List Arrival} {id : String} {r s : Reassembler}, r.WF → Alone id s →
    Follows id r s calls → Along take (Roomy id) r calls → Forgetless id r calls →
      answers id r calls = answers id s (framesOf id calls)
  | [], _, _, _, _, _, _, _, _ => rfl
  | a :: calls, id, r, s, hr, hs, hfollows, ⟨hroom, hrooms⟩, ⟨hforget, hforgets⟩ => by
    by_cases hid : a.id = id
    · subst hid
      obtain ⟨hanswer, hnext⟩ := hfollows.self hr hs hroom
      rw [answers_cons_self, framesOf_cons_self, answers_cons_self, hanswer,
        answers_alone (take_wf hr) hs.take (.inl hnext) hrooms hforgets]
    · rw [answers_cons_of_ne hid, framesOf_cons_of_ne hid]
      rcases hfollows.other hr hid with ⟨hnext, -⟩ | ⟨e, hget, -, hexpired, hharm, -⟩
      · exact answers_alone (take_wf hr) hs hnext hrooms hforgets
      · exact absurd (hforget hid e hget hexpired) hharm

/-- A message that was forgotten starts over with its next fragment, which is refused if nothing was forgotten. -/
theorem differs_of_forgotten : ∀ {calls : List Arrival} {id : String} {r s : Reassembler} {e : Entry}, r.WF → Alone id s →
    r.get? id = none → s.get? id = some e → Along take (Roomy id) r calls →
    (∀ a ∈ calls, isExpired a.now e = true) → ¬Harmless id e calls → answers id r calls ≠ answers id s (framesOf id calls)
  | [], _, _, _, _, _, _, _, _, _, _, hharm => absurd (fun _ h => by cases h) hharm
  | a :: calls, id, r, s, e, hr, hs, hnone, hsome, ⟨hroom, hrooms⟩, hexpired, hharm => by
    have hnow := hexpired a List.mem_cons_self
    by_cases hid : a.id = id
    · subst hid
      rw [answers_cons_self, framesOf_cons_self, answers_cons_self]
      cases hclass : classify a with
      | error answer =>
        refine absurd (fun late hlate => ?_) hharm
        rw [List.find?_cons_of_pos (by simp)] at hlate
        cases hlate
        exact ⟨⟨answer, hclass⟩, hnow⟩
      | ok fragment =>
        obtain ⟨sum, seq⟩ := fragment
        obtain ⟨hdescribes, hseveral⟩ := classify_ok hclass
        obtain ⟨hbytes, hflight⟩ := hroom rfl (by rw [hclass]; rfl)
        have hswept : (r.sweep a.now).get? a.id = none := by rw [hr.get?_sweep, hnone]; rfl
        have hnew : (r.sweep a.now).entryFor a.id a.headers.traceId sum a.now =
            .ok ⟨sum, a.headers.traceId, List.replicate sum none, 0, 0, a.now⟩ := by
          unfold entryFor
          rw [hswept]
          exact if_neg (Nat.not_le.2 (hflight hswept))
        have halone : (s.ingest a.headers a.payload a.now).1 = .error .expired := by
          rw [ingest_eq, hclass, hsome]
          dsimp only
          rw [Option.any_some, if_pos hnow]
        have hover : ∃ o, (r.ingest a.headers a.payload a.now).1 = .ok o := by
          rw [ingest_eq, hclass, hnone]
          dsimp only
          rw [Option.any_none, if_neg Bool.false_ne_true, if_neg (Nat.not_lt.2 hbytes), hnew]
          rcases @fill_cases (r.sweep a.now) _ _ seq _ (held_entryFor hnew) hdescribes.size with ⟨hget, -⟩ | ⟨-, ho⟩
          · rw [hswept] at hget
            cases hget
          · exact ho
        obtain ⟨o, ho⟩ := hover
        rw [ho, halone]
        exact fun h => by cases (List.cons.inj h).1
    · rw [answers_cons_of_ne hid, framesOf_cons_of_ne hid]
      refine differs_of_forgotten (take_wf hr) hs ?_ hsome hrooms (fun b hb => hexpired b (List.mem_cons_of_mem _ hb)) ?_
      · rw [ingest_other hr hid, hnone]
        rfl
      · exact fun h => hharm fun late hlate => h late (by rwa [List.find?_cons_of_neg (by simpa using hid)] at hlate)

/-- **A run that forgets something does not answer like the run of the frames alone,** if time does not go back. -/
theorem forgotten_differs : ∀ {calls : List Arrival} {id : String} {r s : Reassembler}, r.WF → Alone id s →
    Follows id r s calls → Along take (Roomy id) r calls → calls.Pairwise (·.now ≤ ·.now) → ¬Forgetless id r calls →
      answers id r calls ≠ answers id s (framesOf id calls)
  | [], _, _, _, _, _, _, _, _, hforget => absurd trivial hforget
  | a :: calls, id, r, s, hr, hs, hfollows, ⟨hroom, hrooms⟩, htimes, hforget => by
    obtain ⟨hlater, htimes⟩ := List.pairwise_cons.1 htimes
    by_cases hid : a.id = id
    · subst hid
      rw [answers_cons_self, framesOf_cons_self, answers_cons_self]
      have hrest : ¬Forgetless a.id (r.take a) calls := fun h => hforget ⟨fun hne => absurd rfl hne, h⟩
      obtain ⟨-, hnext⟩ := hfollows.self hr hs hroom
      exact fun h => forgotten_differs (take_wf hr) hs.take (.inl hnext) hrooms htimes hrest (List.cons.inj h).2
    · rw [answers_cons_of_ne hid, framesOf_cons_of_ne hid]
      rcases hfollows.other hr hid with ⟨hnext, hharmless⟩ | ⟨e, -, hsome, hexpired, hharm, hnone⟩
      · have hrest : ¬Forgetless id (r.take a) calls := fun h => hforget ⟨fun _ => hharmless, h⟩
        exact forgotten_differs (take_wf hr) hs hnext hrooms htimes hrest
      · refine differs_of_forgotten (take_wf hr) hs hnone hsome hrooms (fun b hb => ?_) hharm
        have htime := hlater b hb
        simp only [isExpired, decide_eq_true_eq] at hexpired ⊢
        omega

/-- **Two runs with the same frames of a message answer them alike if neither forgets the message,** and when time does
not go back, exactly the runs that forget it answer unlike the run of its frames alone. -/
theorem messages_apart (id : String) :
    (∀ calls calls' : List Arrival, framesOf id calls = framesOf id calls' →
      Along take (Roomy id) new calls → Along take (Roomy id) new calls' →
      Forgetless id new calls → Forgetless id new calls' → answers id new calls = answers id new calls') ∧
    ∀ calls : List Arrival, Along take (Roomy id) new calls → calls.Pairwise (·.now ≤ ·.now) →
      (answers id new calls = answers id new (framesOf id calls) ↔ Forgetless id new calls) := by
  have halone : ∀ {calls : List Arrival}, Along take (Roomy id) new calls → Forgetless id new calls →
      answers id new calls = answers id new (framesOf id calls) := answers_alone new_wf new_alone (.inl rfl)
  refine ⟨fun calls calls' hsame hroom hroom' hforget hforget' => ?_, fun calls hroom htimes => ⟨fun h => ?_, halone hroom⟩⟩
  · rw [halone hroom hforget, halone hroom' hforget', hsame]
  · by_contra hforget
    exact forgotten_differs new_wf new_alone (.inl rfl) hroom htimes hforget h

/-! ### A late fragment after another message -/

/-- A frame of the message `id`. -/
def frame (id sum seq : String) (now : ℕ) : Arrival :=
  ⟨⟨[⟨"message_id", id⟩, ⟨"sum", sum⟩, ⟨"seq", seq⟩]⟩, .empty, now⟩

/-- The second fragment of a message comes after six seconds; a frame of another message may come between. -/
theorem late_fragment_forgotten :
    framesOf "om_a" [frame "om_a" "2" "0" 0, frame "om_b" "1" "0" 6000, frame "om_a" "2" "1" 7000] =
      framesOf "om_a" [frame "om_a" "2" "0" 0, frame "om_a" "2" "1" 7000] ∧
    Along take (Roomy "om_a") new [frame "om_a" "2" "0" 0, frame "om_b" "1" "0" 6000, frame "om_a" "2" "1" 7000] ∧
    Along take (Roomy "om_a") new [frame "om_a" "2" "0" 0, frame "om_a" "2" "1" 7000] ∧
    answers "om_a" new [frame "om_a" "2" "0" 0, frame "om_b" "1" "0" 6000, frame "om_a" "2" "1" 7000] = [.ok none, .ok none] ∧
    answers "om_a" new [frame "om_a" "2" "0" 0, frame "om_a" "2" "1" 7000] = [.ok none, .error .expired] := by
  decide

end LarkCodexBridge.Lark.Reassembler
