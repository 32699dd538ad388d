import LarkCodexBridge.Runtime.ProgressLoop

/-!
# Streamed text is counted once

The stream of a turn is what its events add, in the order of their arrival: the deltas, what the deltas of an item do not
cover of its completed text, and the status lines.

* `stream`: the text of a run, and `Sound`: the runs of which each character is counted;
* `Counts`: the accepted updates and the buffer are the stream (`counts_run`);
* `stream_counted`: the stream, the rollback of an update, the two copies of the card and the sequence numbers.
-/

namespace LarkCodexBridge.Runtime.ProgressLoop

open Limits StepSystem
open LarkCodexBridge.Render
open LarkCodexBridge.Render.Markdown (utf8Bytes_cons utf8Bytes_append)
open LarkCodexBridge.Outbox.Sink (replyMessageMaxChars)

/-! ## The stream -/

/-- The deltas of an agent item, in the order of their arrival. -/
def deltasOf (id : String) (reports : List Report) : List Char :=
  reports.flatMap fun report => match report.event with
    | .agentMessageDelta itemId delta => if itemId = id then delta else []
    | _ => []

/-- The agent items that complete. -/
def completedIds (reports : List Report) : List String :=
  reports.filterMap fun report => match report.event with
    | .itemCompleted (.agentMessage id _ _) => some id
    | _ => none

/-- A status line behind a text that is not shown yet. -/
def lineBehind (pending : List Char) : Option (List Char) → List Char
  | none => []
  | some line => (if pending ≠ [] ∧ pending.getLast? ≠ some '\n' then ['\n'] else []) ++ line ++ ['\n']

/-- What an event adds to the stream behind the events before it. -/
def pieceOf (pending : List Char) (before : List Report) : AppServerEvent → List Char
  | .agentMessageDelta _ delta => delta
  | .itemStarted item => lineBehind pending (itemStatusLine item true)
  | .itemCompleted (.agentMessage id text _) => text.drop (deltasOf id before).length
  | .itemCompleted item => lineBehind pending (itemStatusLine item false)
  | .other => []

def streamFrom (config : ProjectorConfig) (before : List Report) : List Report → List Char
  | [] => []
  | report :: rest =>
    pieceOf (after config before).projector.progressBuffer before report.event ++ streamFrom config (before ++ [report]) rest

/-- The text of a run. -/
def stream (config : ProjectorConfig) (reports : List Report) : List Char := streamFrom config [] reports

def eventText : AppServerEvent → List Char
  | .agentMessageDelta _ delta => delta
  | .itemCompleted (.agentMessage _ text _) => text
  | _ => []

/-- No text holds an `@`, the deltas of an item that come before its completion are the beginning of its text, an item
completes at most once, and the stream is within the limits of the buffer and of the card. -/
structure Sound (config : ProjectorConfig) (reports : List Report) : Prop where
  unmarked : ∀ report ∈ reports, '@' ∉ eventText report.event
  covered : ∀ before report rest id text phase, reports = before ++ report :: rest →
    report.event = .itemCompleted (.agentMessage id text phase) → deltasOf id before <+: text
  once : (completedIds reports).Nodup
  buffer : (stream config reports).length ≤ config.maxChars
  card : (stream config reports).length ≤ replyMessageMaxChars

def acceptedUpdates (offers : List Offer) : List Offer := offers.filter Offer.accepted

def acceptedText (offers : List Offer) : List Char := (acceptedUpdates offers).flatMap Offer.update

section Runs

variable {config : ProjectorConfig} {before reports : List Report} {report : Report} {s : ProgressLoop}
  {text : List Char} {p q : ReplyProjector} {item : ThreadItem} {started : Bool}

theorem after_concat (config : ProjectorConfig) (reports : List Report) (report : Report) :
    after config (reports ++ [report]) = (after config reports).step report := exec_append _ _ _ _

theorem streamFrom_concat (before reports : List Report) (report : Report) :
    streamFrom config before (reports ++ [report]) = streamFrom config before reports ++
      pieceOf (after config (before ++ reports)).projector.progressBuffer (before ++ reports) report.event := by
  induction reports generalizing before with
  | nil => simp [streamFrom]
  | cons first reports ih =>
    rw [List.cons_append, streamFrom, streamFrom, ih (before ++ [first]), List.append_assoc, List.append_assoc,
      List.singleton_append]

theorem stream_concat (reports : List Report) (report : Report) :
    stream config (reports ++ [report]) =
      stream config reports ++ pieceOf (after config reports).projector.progressBuffer reports report.event :=
  streamFrom_concat [] reports report

theorem deltasOf_concat (id : String) (reports : List Report) (report : Report) :
    deltasOf id (reports ++ [report]) = deltasOf id reports ++ deltasOf id [report] := List.flatMap_append

theorem completedIds_concat (reports : List Report) (report : Report) :
    completedIds (reports ++ [report]) = completedIds reports ++ completedIds [report] := List.filterMap_append

theorem Sound.front (h : Sound config (reports ++ [report])) : Sound config reports where
  unmarked r hr := h.unmarked r (List.mem_append_left _ hr)
  covered before r rest id text phase heq := by
    refine h.covered before r (rest ++ [report]) id text phase ?_
    rw [heq, List.append_assoc, List.cons_append]
  once := by
    have := h.once
    rw [completedIds_concat] at this
    exact (List.nodup_append.1 this).1
  buffer := by
    have := h.buffer
    rw [stream_concat, List.length_append] at this
    omega
  card := by
    have := h.card
    rw [stream_concat, List.length_append] at this
    omega

theorem not_mem_itemStatusLine {line : List Char} (h : itemStatusLine item started = some line) : '@' ∉ line := by
  cases item <;> cases started <;> cases h <;> decide

theorem not_mem_lineBehind (pending : List Char) (item : ThreadItem) (started : Bool) :
    '@' ∉ lineBehind pending (itemStatusLine item started) := by
  cases hline : itemStatusLine item started with
  | none => exact List.not_mem_nil
  | some line =>
    have hat := not_mem_itemStatusLine hline
    rw [lineBehind]
    split <;> simp [hat]

theorem itemCompleted_cases (item : ThreadItem) :
    (∃ id text phase, item = .agentMessage id text phase) ∨
    (∀ p : ReplyProjector, p.absorb (.itemCompleted item) = (itemStatusLine item false).map p.appendStatusLine) ∧
      (∀ pending before, pieceOf pending before (.itemCompleted item) = lineBehind pending (itemStatusLine item false)) ∧
      ∀ now answer, completedIds [⟨.itemCompleted item, now, answer⟩] = [] := by
  cases item with
  | agentMessage id text phase => exact .inl ⟨id, text, phase, rfl⟩
  | _ => exact .inr ⟨fun _ => rfl, fun _ _ => rfl, fun _ _ => rfl⟩

theorem not_mem_pieceOf (pending : List Char) (before : List Report) {event : AppServerEvent} (h : '@' ∉ eventText event) :
    '@' ∉ pieceOf pending before event := by
  cases event with
  | agentMessageDelta itemId delta => exact h
  | itemStarted item => exact not_mem_lineBehind pending item true
  | itemCompleted item =>
    rcases itemCompleted_cases item with ⟨id, text, phase, rfl⟩ | ⟨-, hpiece, -⟩
    · exact fun hmem => h (List.mem_of_mem_drop hmem)
    · rw [hpiece]
      exact not_mem_lineBehind pending item false
  | other => exact List.not_mem_nil

theorem tailBeyond_of_covered {front text : List Char} (h : front <+: text) :
    tailBeyond text (utf8Bytes front) = text.drop front.length := by
  obtain ⟨back, rfl⟩ := h
  rw [List.drop_left, tailBeyond]
  induction front with
  | nil => cases back <;> rfl
  | cons c front ih =>
    obtain ⟨n, hn⟩ : ∃ n, utf8Bytes (c :: front) = n + 1 :=
      Nat.exists_eq_add_of_lt (lt_of_lt_of_le (Nat.succ_pos _) (length_le_utf8Bytes (c :: front))) |>.imp fun n hn => by omega
    have hcons := utf8Bytes_cons c front
    rw [hn, List.cons_append, dropBytes, if_pos (by omega), ← hn, hcons, Nat.add_sub_cancel_left]
    exact ih

/-! ## The invariant -/

/-- The accepted updates and the buffer are the text, the card shows the accepted updates, and the projector has counted the
deltas of the items that have not completed. -/
structure Counts (config : ProjectorConfig) (before : List Report) (text : List Char) (s : ProgressLoop) : Prop where
  config_eq : s.projector.config = config
  text_eq : acceptedText s.offers ++ s.projector.progressBuffer = text
  streamed : s.projector.streamedContent = acceptedText s.offers
  snapshot : s.progressSnapshot = acceptedText s.offers
  sequences : (acceptedUpdates s.offers).map Offer.sequence = List.range s.progressSequence
  counted : s.progressSequence ≤ (acceptedText s.offers).length
  prefixBytes : ∀ id ∉ completedIds before, s.projector.itemPrefixBytes id = utf8Bytes (deltasOf id before)
  lastCompleted : ∀ id, s.projector.lastCompletedItemId = some id → id ∈ completedIds before
  unmarked : '@' ∉ text

theorem counts_start (config : ProjectorConfig) : Counts config [] [] (start config) where
  config_eq := rfl
  text_eq := rfl
  streamed := rfl
  snapshot := rfl
  sequences := rfl
  counted := Nat.le_refl 0
  prefixBytes _ _ := rfl
  lastCompleted _ h := nomatch h
  unmarked := List.not_mem_nil

/-- An event puts its piece into the buffer. -/
theorem Counts.push (h : Counts config before text s) {piece : List Char} (hp : p.config = s.projector.config)
    (hbuffer : p.progressBuffer = truncateToChars (s.projector.progressBuffer ++ piece) s.projector.config.maxChars)
    (hstreamed : p.streamedContent = s.projector.streamedContent) (hlen : (text ++ piece).length ≤ config.maxChars)
    (hat : '@' ∉ piece)
    (hbytes : ∀ id ∉ completedIds (before ++ [report]), p.itemPrefixBytes id = utf8Bytes (deltasOf id (before ++ [report])))
    (hlast : ∀ id, p.lastCompletedItemId = some id → id ∈ completedIds (before ++ [report])) :
    Counts config (before ++ [report]) (text ++ piece) { s with projector := p } where
  config_eq := hp.trans h.config_eq
  text_eq := by
    have hfits : (s.projector.progressBuffer ++ piece).length ≤ s.projector.config.maxChars := by
      rw [← h.text_eq, List.append_assoc, List.length_append] at hlen
      rw [h.config_eq]
      omega
    rw [hbuffer, truncateToChars, List.take_of_length_le hfits, ← List.append_assoc, h.text_eq]
  streamed := hstreamed.trans h.streamed
  snapshot := h.snapshot
  sequences := h.sequences
  counted := h.counted
  prefixBytes := hbytes
  lastCompleted := hlast
  unmarked hmem := (List.mem_append.1 hmem).elim h.unmarked hat

/-- An event that adds nothing and that no count depends on. -/
theorem Counts.ignored (h : Counts config before text s) (hdeltas : ∀ id, deltasOf id [report] = [])
    (hcompleted : completedIds [report] = []) : Counts config (before ++ [report]) text s :=
  { h with
    prefixBytes := fun id hid => by
      rw [completedIds_concat, hcompleted, List.append_nil] at hid
      rw [deltasOf_concat, hdeltas, List.append_nil]
      exact h.prefixBytes id hid
    lastCompleted := fun id hid => by
      rw [completedIds_concat, hcompleted, List.append_nil]
      exact h.lastCompleted id hid }

theorem Counts.line (h : Counts config before text s)
    (hlen : (text ++ lineBehind s.projector.progressBuffer (itemStatusLine item started)).length ≤ config.maxChars)
    (hdeltas : ∀ id, deltasOf id [report] = []) (hcompleted : completedIds [report] = []) :
    Counts config (before ++ [report]) (text ++ lineBehind s.projector.progressBuffer (itemStatusLine item started))
      { s with projector := ((itemStatusLine item started).map s.projector.appendStatusLine).getD s.projector } := by
  have hquiet := h.ignored hdeltas hcompleted
  have hat := not_mem_lineBehind s.projector.progressBuffer item started
  cases hline : itemStatusLine item started with
  | none =>
    rw [lineBehind, List.append_nil]
    exact hquiet
  | some line =>
    rw [hline] at hlen hat
    exact h.push rfl rfl rfl hlen hat hquiet.prefixBytes hquiet.lastCompleted

/-- **What an event does to the projector adds its piece to the stream.** -/
theorem Counts.absorb (h : Counts config before (stream config before) (after config before))
    (hsound : Sound config (before ++ [report])) :
    Counts config (before ++ [report]) (stream config (before ++ [report]))
      { after config before with
        projector := ((after config before).projector.absorb report.event).getD (after config before).projector } := by
  have hlen := hsound.buffer
  have hat := not_mem_pieceOf (after config before).projector.progressBuffer before
    (hsound.unmarked report (List.mem_append_right _ (List.mem_singleton_self _)))
  rw [stream_concat] at hlen ⊢
  obtain ⟨event, now, answer⟩ := report
  cases event with
  | agentMessageDelta itemId delta =>
    refine h.push rfl rfl rfl hlen hat (fun id hid => ?_) fun id hid => ?_
    · rw [completedIds_concat, show completedIds [_] = [] from rfl, List.append_nil] at hid
      have hbytes := h.prefixBytes id hid
      rw [deltasOf_concat, utf8Bytes_append, ← hbytes]
      show Function.update _ itemId _ id = _
      by_cases heq : itemId = id
      · subst heq
        rw [Function.update_self]
        simp [deltasOf]
      · rw [Function.update_of_ne (Ne.symm heq)]
        simp [deltasOf, heq, utf8Bytes]
    · rw [completedIds_concat, show completedIds [_] = [] from rfl, List.append_nil]
      exact h.lastCompleted id hid
  | itemStarted item => exact h.line hlen (fun _ => rfl) rfl
  | itemCompleted item =>
    rcases itemCompleted_cases item with ⟨id, full, phase, rfl⟩ | ⟨habsorb, hpiece, hcompleted⟩
    · have honce := hsound.once
      rw [completedIds_concat, show completedIds [_] = [id] from rfl] at honce
      have hnew : id ∉ completedIds before := fun hmem =>
        (List.nodup_append.1 honce).2.2 id hmem id (List.mem_singleton_self _) rfl
      have hlast : (after config before).projector.lastCompletedItemId ≠ some id := fun heq => hnew (h.lastCompleted id heq)
      have htail : tailBeyond full ((after config before).projector.itemPrefixBytes id) =
          full.drop (deltasOf id before).length := by
        rw [h.prefixBytes id hnew]
        exact tailBeyond_of_covered (hsound.covered before _ [] id full phase rfl rfl)
      have hfits : (after config before).projector.progressBuffer.length ≤ (after config before).projector.config.maxChars := by
        rw [List.length_append, ← h.text_eq, List.length_append] at hlen
        rw [h.config_eq]
        omega
      rw [ReplyProjector.absorb, if_neg hlast, htail, Option.getD_some]
      refine h.push ?_ ?_ ?_ hlen hat (fun other hother => ?_) fun other hother => ?_
      · split <;> rfl
      · rw [pieceOf]
        split
        · rfl
        · next hnil =>
          rw [not_not.1 hnil, List.append_nil, truncateToChars, List.take_of_length_le hfits]
      · split <;> rfl
      · rw [completedIds_concat, show completedIds [_] = [id] from rfl, List.mem_append, List.mem_singleton, not_or] at hother
        rw [deltasOf_concat, show deltasOf other [_] = [] from rfl, List.append_nil, ← h.prefixBytes other hother.1]
        split <;> exact Function.update_of_ne hother.2 _ _
      · have heq : id = other := by
          split at hother <;> exact Option.some.inj hother
        rw [completedIds_concat, show completedIds [_] = [id] from rfl, ← heq]
        exact List.mem_append_right _ (List.mem_singleton_self _)
    · rw [hpiece] at hlen ⊢
      rw [habsorb]
      exact h.line hlen (fun _ => rfl) (hcompleted now answer)
  | other =>
    rw [pieceOf, List.append_nil]
    exact h.ignored (fun _ => rfl) rfl

/-- Without an `@` and within the limit, an update is the buffer. -/
theorem Counts.update_eq (h : Counts config before text s) (hlen : text.length ≤ config.maxChars) :
    emailMask s.projector.progressBuffer = s.projector.progressBuffer ∧
      truncateToChars s.projector.progressBuffer s.projector.config.maxChars = s.projector.progressBuffer := by
  have hat : '@' ∉ s.projector.progressBuffer := fun hmem => h.unmarked (h.text_eq ▸ List.mem_append_right _ hmem)
  refine ⟨clean_of_not_mem hat, List.take_of_length_le ?_⟩
  rw [← h.text_eq, List.length_append] at hlen
  rw [h.config_eq]
  omega

/-- **An update that is restored is undone.** -/
theorem Counts.restore (h : Counts config before text s) (hlen : text.length ≤ config.maxChars) (now : ℕ) :
    (s.projector.emitted now).restoreProgress (emailMask s.projector.progressBuffer) =
      { s.projector with progressCheckpoint := none } := by
  obtain ⟨hmask, hfits⟩ := h.update_eq hlen
  rw [restoreProgress_emitted, hmask, hfits]

theorem acceptedText_concat (offers : List Offer) (offer : Offer) :
    acceptedText (offers ++ [offer]) = acceptedText offers ++ if offer.accepted then offer.update else [] := by
  rw [acceptedText, acceptedUpdates, List.filter_append, List.flatMap_append, ← acceptedUpdates, ← acceptedText]
  congr 1
  by_cases haccepted : offer.accepted = true <;> simp [haccepted]

/-- An update that is not accepted leaves everything in the buffer. -/
theorem Counts.rejected (h : Counts config before text s) {offers : List Offer}
    (hoffers : acceptedUpdates offers = acceptedUpdates s.offers) :
    Counts config before text { s with projector := { s.projector with progressCheckpoint := none }, offers } := by
  have htext : acceptedText offers = acceptedText s.offers := congrArg (List.flatMap Offer.update) hoffers
  exact {
    config_eq := h.config_eq
    text_eq := htext ▸ h.text_eq
    streamed := htext ▸ h.streamed
    snapshot := htext ▸ h.snapshot
    sequences := hoffers ▸ h.sequences
    counted := htext ▸ h.counted
    prefixBytes := h.prefixBytes
    lastCompleted := h.lastCompleted
    unmarked := h.unmarked }

/-- An update that is accepted moves the buffer to the card. -/
theorem Counts.accepted (h : Counts config before text s) (hlen : text.length ≤ config.maxChars)
    (hcard : text.length ≤ replyMessageMaxChars) (hshown : s.projector.progressBuffer ≠ []) (now : ℕ) :
    Counts config before text
      { projector := s.projector.emitted now
        progressSequence := min (s.progressSequence + 1) u32Max
        progressSnapshot := appendProgressSnapshot s.progressSnapshot (emailMask s.projector.progressBuffer)
        offers := s.offers ++ [⟨s.progressSequence,
          appendProgressSnapshot s.progressSnapshot (emailMask s.projector.progressBuffer),
          emailMask s.projector.progressBuffer, true⟩] } := by
  obtain ⟨hmask, -⟩ := h.update_eq hlen
  have hpos : 0 < s.projector.progressBuffer.length := List.length_pos_iff.2 hshown
  have hcount := h.counted
  have hlength := congrArg List.length h.text_eq
  rw [List.length_append] at hlength
  -- an accepted update shows a character, so the number of updates is below the limit of the card
  have hsequence : min (s.progressSequence + 1) u32Max = s.progressSequence + 1 := by
    have hlimit : replyMessageMaxChars = 4000 := rfl
    have hmax : u32Max = 4294967295 := rfl
    omega
  have htext : acceptedText s.offers ++ s.projector.progressBuffer = text := h.text_eq
  rw [hmask, hsequence]
  exact {
    config_eq := h.config_eq
    text_eq := by
      rw [acceptedText_concat, if_pos rfl]
      exact (List.append_nil _).trans htext
    streamed := by
      show truncateToChars (s.projector.streamedContent ++ emailMask s.projector.progressBuffer) _ = _
      rw [acceptedText_concat, if_pos rfl, hmask, h.streamed, htext, h.config_eq, truncateToChars, List.take_of_length_le hlen]
    snapshot := by
      show appendProgressSnapshot s.progressSnapshot s.projector.progressBuffer = _
      rw [acceptedText_concat, if_pos rfl, appendProgressSnapshot, h.snapshot, htext, List.take_of_length_le hcard]
    sequences := by
      rw [acceptedUpdates, List.filter_append, List.map_append, ← acceptedUpdates, h.sequences, List.range_succ]
      rfl
    counted := by
      rw [acceptedText_concat, if_pos rfl, List.length_append]
      exact Nat.add_le_add hcount hpos
    prefixBytes := h.prefixBytes
    lastCompleted := h.lastCompleted
    unmarked := h.unmarked }

/-- **A step of a sound run.** -/
theorem Counts.step (h : Counts config before (stream config before) (after config before))
    (hsound : Sound config (before ++ [report])) :
    Counts config (before ++ [report]) (stream config (before ++ [report])) (after config (before ++ [report])) := by
  have hfed := h.absorb hsound
  have hlen := hsound.buffer
  have hcard := hsound.card
  rw [after_concat]
  cases habsorb : (after config before).projector.absorb report.event with
  | none =>
    rw [habsorb] at hfed
    rw [step_quiet (ReplyProjector.observe_of_ignored habsorb)]
    exact hfed
  | some p =>
    rw [habsorb] at hfed
    by_cases hdue : p.Due report.now
    · rw [step_update (ReplyProjector.observe_of_due habsorb hdue)]
      have hrestore : (p.emitted report.now).restoreProgress (emailMask p.progressBuffer) =
          { p with progressCheckpoint := none } := hfed.restore hlen report.now
      cases report.answer with
      | noSource =>
        dsimp only
        rw [hrestore]
        exact hfed.rejected rfl
      | rejected =>
        dsimp only
        rw [hrestore]
        exact hfed.rejected (by simp [acceptedUpdates])
      | accepted => exact hfed.accepted hlen hcard hdue.1 report.now
    · rw [step_quiet (ReplyProjector.observe_of_not_due habsorb hdue)]
      exact hfed

/-- **Every sound run is counted.** -/
theorem counts_run (h : Sound config reports) : Counts config reports (stream config reports) (after config reports) := by
  induction reports using List.reverseRecOn with
  | nil => exact counts_start config
  | append_singleton reports report ih => exact (ih h.front).step h

/-! ## The checkpoint is never read again -/

/-- The loop without the checkpoint of its last update. -/
def settled (s : ProgressLoop) : ProgressLoop := { s with projector := { s.projector with progressCheckpoint := none } }

theorem absorb_settled (p : ReplyProjector) (event : AppServerEvent) :
    ({ p with progressCheckpoint := none } : ReplyProjector).absorb event =
      (p.absorb event).map fun q => { q with progressCheckpoint := none } := by
  cases event with
  | agentMessageDelta itemId delta => rfl
  | itemStarted item =>
    rw [ReplyProjector.absorb, ReplyProjector.absorb]
    cases itemStatusLine item true <;> rfl
  | itemCompleted item =>
    rcases itemCompleted_cases item with ⟨id, text, phase, rfl⟩ | ⟨habsorb, -⟩
    · rw [ReplyProjector.absorb, ReplyProjector.absorb]
      by_cases hlast : p.lastCompletedItemId = some id
      · rw [if_pos hlast, if_pos hlast]
        rfl
      · rw [if_neg hlast, if_neg hlast, Option.map_some]
        dsimp only
        split <;> rfl
    · rw [habsorb, habsorb]
      cases itemStatusLine item false <;> rfl
  | other => rfl

theorem settled_step (s : ProgressLoop) (report : Report) : (s.settled.step report).settled = (s.step report).settled := by
  have habsorbed : s.settled.projector.absorb report.event =
      (s.projector.absorb report.event).map fun q => { q with progressCheckpoint := none } := absorb_settled s.projector _
  cases habsorb : s.projector.absorb report.event with
  | none =>
    rw [habsorb, Option.map_none] at habsorbed
    rw [step_quiet (ReplyProjector.observe_of_ignored habsorb), step_quiet (ReplyProjector.observe_of_ignored habsorbed)]
    rfl
  | some p =>
    rw [habsorb, Option.map_some] at habsorbed
    by_cases hdue : p.Due report.now
    · rw [step_update (ReplyProjector.observe_of_due habsorb hdue),
        step_update (ReplyProjector.observe_of_due habsorbed hdue)]
      rfl
    · rw [step_quiet (ReplyProjector.observe_of_not_due habsorb hdue),
        step_quiet (ReplyProjector.observe_of_not_due habsorbed hdue)]
      rfl

theorem settled_exec (s : ProgressLoop) (later : List Report) :
    (exec ProgressLoop.step s.settled later).settled = (exec ProgressLoop.step s later).settled := by
  induction later generalizing s with
  | nil => rfl
  | cons report later ih =>
    rw [exec_cons, exec_cons, ← ih (s.settled.step report), settled_step, ih]

/-- **Streamed text is counted once:** the accepted updates and the buffer are the stream, an update that is restored is
undone up to its checkpoint, which no later step reads, the card shows what the projector has streamed, and the accepted
updates are numbered from zero on. -/
theorem stream_counted (config : ProjectorConfig) (reports : List Report) (h : Sound config reports) :
    acceptedText (after config reports).offers ++ (after config reports).projector.progressBuffer = stream config reports ∧
    (∀ before report rest p, reports = before ++ report :: rest →
      (after config before).projector.absorb report.event = some p → p.Due report.now →
        (p.emitted report.now).restoreProgress (emailMask p.progressBuffer) = { p with progressCheckpoint := none } ∧
        ∀ (s : ProgressLoop) later, (exec ProgressLoop.step { s with projector := { p with progressCheckpoint := none } } later).settled =
          (exec ProgressLoop.step { s with projector := p } later).settled) ∧
    (after config reports).progressSnapshot = (after config reports).projector.streamedContent ∧
    (acceptedUpdates (after config reports).offers).map Offer.sequence =
      List.range (acceptedUpdates (after config reports).offers).length := by
  have hcounts := counts_run h
  refine ⟨hcounts.text_eq, ?_, hcounts.snapshot.trans hcounts.streamed.symm, ?_⟩
  · rintro before report rest p rfl habsorb -
    have hfront : ∀ rest, Sound config (before ++ report :: rest) → Sound config (before ++ [report]) := by
      intro rest
      induction rest using List.reverseRecOn with
      | nil => exact id
      | append_singleton rest last ih =>
        intro hrest
        rw [← List.cons_append, ← List.append_assoc] at hrest
        exact ih hrest.front
    have hsound := hfront rest h
    have hfed := (counts_run hsound.front).absorb hsound
    rw [habsorb] at hfed
    exact ⟨hfed.restore hsound.buffer report.now, fun s later => settled_exec { s with projector := p } later⟩
  · have hlength := congrArg List.length hcounts.sequences
    rw [List.length_map, List.length_range] at hlength
    rw [hcounts.sequences, hlength]

end Runs

/-- A message with a status line in its middle, the first update of which is rejected. -/
def spokenTurn : List Report :=
  [⟨.agentMessageDelta "message" "Hel".toList, 0, .rejected⟩, ⟨.itemStarted .reasoning, 1, .accepted⟩,
    ⟨.itemCompleted (.agentMessage "message" "Hello".toList none), 2, .accepted⟩]

theorem spokenTurn_sound : Sound .default spokenTurn where
  unmarked := by decide
  covered before report rest id text phase heq hevent := by
    rcases before with _ | ⟨first, _ | ⟨second, _ | ⟨third, before⟩⟩⟩ <;> simp [spokenTurn] at heq
    · rw [← heq.1] at hevent
      cases hevent
    · rw [← heq.2.1] at hevent
      cases hevent
    · rw [← heq.2.2.1] at hevent
      cases hevent
      rw [← heq.1, ← heq.2.1]
      decide
  once := by decide
  buffer := by decide
  card := by decide

theorem spokenTurn_counted :
    acceptedText (after .default spokenTurn).offers ++ (after .default spokenTurn).projector.progressBuffer =
      "Hel\n> 🧠 正在思考\nlo".toList ∧
    (acceptedUpdates (after .default spokenTurn).offers).map Offer.sequence = [0] := by
  obtain ⟨htext, -, -, hsequences⟩ := stream_counted .default spokenTurn spokenTurn_sound
  exact ⟨htext.trans (by decide), hsequences.trans (by decide)⟩

end LarkCodexBridge.Runtime.ProgressLoop
