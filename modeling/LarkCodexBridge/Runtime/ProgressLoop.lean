import LarkCodexBridge.Outbox.Sink
import LarkCodexBridge.Render.ProjectorRuns
import LarkCodexBridge.Render.Seams

/-!
# The progress loop of a turn

The scope actor feeds the events of a turn to the projector, offers each update to the sink as a snapshot of the card, and
restores an update that is not accepted.

* `ReplyProjector.absorb`: an event without its update; `step`: an event and what becomes of its update;
* `offers_clean_iff`: every snapshot is masked exactly when no address lies across a seam of the updates;
* `reply_clean_iff`: the final reply is masked exactly when no cut of it leaves an address;
* `handed_clean_iff`: both, for every run and every outcome.
-/

namespace LarkCodexBridge.Render

open Limits

namespace ReplyProjector

/-! ## An event and its update -/

/-- The projector with the text of the event, `none` if it does not look at the event. -/
def absorb (p : ReplyProjector) : AppServerEvent → Option ReplyProjector
  | .agentMessageDelta itemId delta =>
    some <| push
      { p with itemPrefixBytes := Function.update p.itemPrefixBytes itemId (p.itemPrefixBytes itemId + utf8Bytes delta) } delta
  | .itemStarted item => (itemStatusLine item true).map p.appendStatusLine
  | .itemCompleted (.agentMessage id text _) =>
    if p.lastCompletedItemId = some id then none
    else
      let completed := { p with
        lastCompletedItemId := some id
        itemPrefixBytes := Function.update p.itemPrefixBytes id 0 }
      let tail := tailBeyond text (p.itemPrefixBytes id)
      some (if tail ≠ [] then completed.push tail else completed)
  | .itemCompleted item => (itemStatusLine item false).map p.appendStatusLine
  | .other => none

/-- The thresholds of an update are met. -/
def Due (p : ReplyProjector) (now : ℕ) : Prop :=
  p.progressBuffer ≠ [] ∧
    (if p.emittedProgress = 0 then 0 else p.config.minInterval) ≤ p.lastProgress.elim durationMax (now - ·) ∧
    (if p.emittedProgress = 0 then 1 else p.config.minChars) ≤ p.progressBuffer.length

instance (p : ReplyProjector) (now : ℕ) : Decidable (p.Due now) := inferInstanceAs (Decidable (_ ∧ _))

variable {p q : ReplyProjector} {event : AppServerEvent} {now : ℕ}

theorem observe_eq (p : ReplyProjector) (event : AppServerEvent) (now : ℕ) :
    p.observe event now = match p.absorb event with
      | some q => q.maybeEmit now
      | none => (p, .nothing) := by
  cases event with
  | agentMessageDelta itemId delta => rfl
  | itemStarted item =>
    rw [observe, absorb]
    cases itemStatusLine item true <;> rfl
  | itemCompleted item =>
    cases item with
    | agentMessage id text phase =>
      rw [observe, absorb]
      split <;> rfl
    | _ => rfl
  | other => rfl

theorem maybeEmit_eq (p : ReplyProjector) (now : ℕ) :
    p.maybeEmit now = if p.Due now then (p.emitted now, .progress (emailMask p.progressBuffer)) else (p, .nothing) := by
  by_cases hdue : p.Due now
  · rw [if_pos hdue, maybeEmit, if_neg hdue.1]
    exact if_pos hdue.2
  · rw [if_neg hdue, maybeEmit]
    by_cases hempty : p.progressBuffer = []
    · exact if_pos hempty
    · rw [if_neg hempty]
      exact if_neg fun h => hdue ⟨hempty, h⟩

theorem observe_of_ignored (h : p.absorb event = none) : p.observe event now = (p, .nothing) := by
  rw [observe_eq, h]

theorem observe_of_due (h : p.absorb event = some q) (hdue : q.Due now) :
    p.observe event now = (q.emitted now, .progress (emailMask q.progressBuffer)) := by
  rw [observe_eq, h]
  exact (maybeEmit_eq q now).trans (if_pos hdue)

theorem observe_of_not_due (h : p.absorb event = some q) (hdue : ¬q.Due now) : p.observe event now = (q, .nothing) := by
  rw [observe_eq, h]
  exact (maybeEmit_eq q now).trans (if_neg hdue)

end ReplyProjector

end LarkCodexBridge.Render

namespace LarkCodexBridge.Runtime

open Limits StepSystem
open LarkCodexBridge.Render
open LarkCodexBridge.Outbox.Sink (replyMessageMaxChars)

/-! ## The loop -/

/-- The answer to an update. Without a source it is not offered. -/
inductive UpdateAnswer where
  | accepted
  | rejected
  | noSource

/-- An event of the turn, its time and the answer to the update that it may lead to. -/
structure Report where
  event : AppServerEvent
  now : ℕ
  answer : UpdateAnswer

/-- A `TurnProgress` that the sink was offered, with the update it was made for. -/
structure Offer where
  sequence : ℕ
  text : List Char
  update : List Char
  accepted : Bool

/-- The local variables of the loop, and what the sink was offered. -/
structure ProgressLoop where
  projector : ReplyProjector
  progressSequence : ℕ
  progressSnapshot : List Char
  offers : List Offer

def appendProgressSnapshot (current next : List Char) : List Char := (current ++ next).take replyMessageMaxChars

namespace ProgressLoop

def start (config : ProjectorConfig) : ProgressLoop := ⟨.new config, 0, [], []⟩

/-- An event of the turn. -/
def step (s : ProgressLoop) (report : Report) : ProgressLoop :=
  match s.projector.observe report.event report.now with
  | (p, .nothing) => { s with projector := p }
  | (p, .progress text) =>
    let snapshot := appendProgressSnapshot s.progressSnapshot text
    match report.answer with
    | .noSource => { s with projector := p.restoreProgress text }
    | .rejected =>
      { s with
        projector := p.restoreProgress text
        offers := s.offers ++ [⟨s.progressSequence, snapshot, text, false⟩] }
    | .accepted =>
      { projector := p
        progressSequence := min (s.progressSequence + 1) u32Max
        progressSnapshot := snapshot
        offers := s.offers ++ [⟨s.progressSequence, snapshot, text, true⟩] }

def after (config : ProjectorConfig) (reports : List Report) : ProgressLoop := exec step (start config) reports

/-! ## Masked snapshots -/

/-- What an update shows on the card, behind what the card shows already. -/
def shownOf (s : ProgressLoop) (p : ReplyProjector) : List Char :=
  (emailMask p.progressBuffer).take (replyMessageMaxChars - s.progressSnapshot.length)

/-- If the event leads to an update that is offered, then neither the token between the card and the update nor the one that
the limit of the card cuts holds an address. -/
def Seamless (s : ProgressLoop) (report : Report) : Prop :=
  ∀ p, s.projector.absorb report.event = some p → p.Due report.now → report.answer ≠ .noSource →
    ¬HoldsAddress (lastToken s.progressSnapshot ++ tokenOf (s.shownOf p)) ∧ ¬HoldsAddress (lastToken (s.shownOf p))

/-- The card shows a masked text within its limit. -/
structure Masked (s : ProgressLoop) : Prop where
  clean : Clean s.progressSnapshot
  length : s.progressSnapshot.length ≤ replyMessageMaxChars

variable {s : ProgressLoop} {report : Report} {reports : List Report} {p : ReplyProjector}

theorem start_masked (config : ProjectorConfig) : (start config).Masked := ⟨rfl, Nat.zero_le _⟩

theorem appendProgressSnapshot_eq (h : s.Masked) :
    appendProgressSnapshot s.progressSnapshot (emailMask p.progressBuffer) = s.progressSnapshot ++ s.shownOf p := by
  rw [appendProgressSnapshot, List.take_append, List.take_of_length_le h.length]
  rfl

/-- A snapshot is masked exactly when no address lies across a seam. -/
theorem clean_snapshot_iff (h : s.Masked) :
    Clean (appendProgressSnapshot s.progressSnapshot (emailMask p.progressBuffer)) ↔
      ¬HoldsAddress (lastToken s.progressSnapshot ++ tokenOf (s.shownOf p)) ∧ ¬HoldsAddress (lastToken (s.shownOf p)) := by
  have hcut : Clean (s.shownOf p) ↔ Clean (lastToken (s.shownOf p)) :=
    @clean_cut _ ((emailMask p.progressBuffer).drop (replyMessageMaxChars - s.progressSnapshot.length)) <| by
      rw [shownOf, List.take_append_drop]
      exact clean_emailMask _
  rw [appendProgressSnapshot_eq h, ← clean_iff_no_address, ← clean_iff_no_address, ← hcut]
  constructor
  · intro hall
    have hshown := clean_of_append hall
    exact ⟨(clean_join h.clean hshown).1 hall, hshown⟩
  · rintro ⟨hseam, hshown⟩
    exact (clean_join h.clean hshown).2 hseam

theorem step_quiet (h : s.projector.observe report.event report.now = (p, .nothing)) :
    s.step report = { s with projector := p } := by
  rw [step, h]

theorem step_update {text : List Char} (h : s.projector.observe report.event report.now = (p, .progress text)) :
    s.step report = match report.answer with
      | .noSource => { s with projector := p.restoreProgress text }
      | .rejected =>
        { s with
          projector := p.restoreProgress text
          offers := s.offers ++ [⟨s.progressSequence, appendProgressSnapshot s.progressSnapshot text, text, false⟩] }
      | .accepted =>
        { projector := p
          progressSequence := min (s.progressSequence + 1) u32Max
          progressSnapshot := appendProgressSnapshot s.progressSnapshot text
          offers := s.offers ++ [⟨s.progressSequence, appendProgressSnapshot s.progressSnapshot text, text, true⟩] } := by
  rw [step, h]

/-- A step offers no update, or it offers one and the card shows what it did or the update's snapshot. -/
theorem step_cases (s : ProgressLoop) (report : Report) :
    ((s.step report).offers = s.offers ∧ (s.step report).progressSnapshot = s.progressSnapshot ∧ s.Seamless report) ∨
    ∃ p accepted, s.projector.absorb report.event = some p ∧ p.Due report.now ∧ report.answer ≠ .noSource ∧
      (s.step report).offers = s.offers ++ [⟨s.progressSequence,
        appendProgressSnapshot s.progressSnapshot (emailMask p.progressBuffer), emailMask p.progressBuffer, accepted⟩] ∧
      ((s.step report).progressSnapshot = s.progressSnapshot ∨ (s.step report).progressSnapshot =
        appendProgressSnapshot s.progressSnapshot (emailMask p.progressBuffer)) := by
  cases habsorb : s.projector.absorb report.event with
  | none =>
    rw [step_quiet (ReplyProjector.observe_of_ignored habsorb)]
    exact .inl ⟨rfl, rfl, fun p hp => by rw [habsorb] at hp; cases hp⟩
  | some p =>
    by_cases hdue : p.Due report.now
    · rw [step_update (ReplyProjector.observe_of_due habsorb hdue)]
      cases hanswer : report.answer with
      | noSource => exact .inl ⟨rfl, rfl, fun q _ _ h => absurd hanswer h⟩
      | rejected => exact .inr ⟨p, false, rfl, hdue, nofun, rfl, .inl rfl⟩
      | accepted => exact .inr ⟨p, true, rfl, hdue, nofun, rfl, .inr rfl⟩
    · rw [step_quiet (ReplyProjector.observe_of_not_due habsorb hdue)]
      refine .inl ⟨rfl, rfl, fun q hq hq' _ => ?_⟩
      rw [habsorb] at hq
      exact absurd (Option.some.inj hq ▸ hq') hdue

/-! ## Masked runs -/

/-- Every snapshot that the sink was offered is masked. -/
def OffersClean (s : ProgressLoop) : Prop := ∀ offer ∈ s.offers, Clean offer.text

/-- A step keeps the snapshots masked exactly when it is seamless. -/
theorem step_clean_iff (h : s.Masked) : (s.step report).OffersClean ↔ s.OffersClean ∧ s.Seamless report := by
  rcases step_cases s report with ⟨hoffers, -, hseamless⟩ | ⟨p, accepted, habsorb, hdue, hanswer, hoffers, -⟩
  · rw [OffersClean, hoffers]
    exact (and_iff_left hseamless).symm
  · rw [OffersClean, hoffers, List.forall_mem_append, List.forall_mem_singleton, clean_snapshot_iff h]
    refine and_congr_right fun _ => ⟨fun hseam q hq _ _ => ?_, fun hseamless => hseamless p habsorb hdue hanswer⟩
    rw [habsorb] at hq
    exact Option.some.inj hq ▸ hseam

theorem step_masked (h : s.Masked) (hseamless : s.Seamless report) : (s.step report).Masked := by
  rcases step_cases s report with ⟨-, hsnapshot, -⟩ | ⟨p, -, habsorb, hdue, hanswer, -, hsnapshot | hsnapshot⟩
  · exact ⟨hsnapshot ▸ h.clean, hsnapshot ▸ h.length⟩
  · exact ⟨hsnapshot ▸ h.clean, hsnapshot ▸ h.length⟩
  · exact ⟨hsnapshot ▸ (clean_snapshot_iff h).2 (hseamless p habsorb hdue hanswer),
      hsnapshot ▸ List.length_take_le _ _⟩

theorem offers_subset (s : ProgressLoop) (report : Report) : s.offers ⊆ (s.step report).offers := by
  rcases step_cases s report with ⟨hoffers, -⟩ | ⟨p, accepted, -, -, -, hoffers, -⟩
  · rw [hoffers]
    exact fun _ h => h
  · rw [hoffers]
    exact List.subset_append_left _ _

theorem offers_subset_exec (s : ProgressLoop) (reports : List Report) : s.offers ⊆ (exec step s reports).offers := by
  induction reports generalizing s with
  | nil => exact fun _ h => h
  | cons report reports ih => exact List.Subset.trans (offers_subset s report) (ih (s.step report))

/-- **Every snapshot is masked exactly when every update is seamless.** -/
theorem offers_clean_iff (h : s.Masked) :
    (exec step s reports).OffersClean ↔ s.OffersClean ∧ Along step Seamless s reports := by
  induction reports generalizing s with
  | nil => exact (and_iff_left trivial).symm
  | cons report reports ih =>
    rw [exec_cons, Along, ← and_assoc, ← step_clean_iff h]
    by_cases hseamless : s.Seamless report
    · exact ih (step_masked h hseamless)
    · refine iff_of_false (fun hclean => ?_) fun hclean => hseamless ((step_clean_iff h).1 hclean.1).2
      exact hseamless ((step_clean_iff h).1 fun offer hoffer => hclean offer (offers_subset_exec _ reports hoffer)).2

/-! ## The final reply -/

def textsOf : ProjectedReply → List (List Char)
  | .final parts => parts
  | .progressFinal text => [text]
  | .empty => []

section Reply

variable (J : Markdown.JsonEscaping) (urlScheme : List Char → Option String)

/-- The token that the limit of the card cuts. -/
def cardSeams (p : ReplyProjector) (text : List Char) : List (List Char) :=
  [lastToken (truncateToChars (emailMask (trim text)) p.config.maxChars)]

/-- The tokens that the splitter cuts. -/
def partSeams (p : ReplyProjector) (text : List Char) : List (List Char) :=
  (Markdown.splitPieces J (Final.finalMarkdown urlScheme text) p.config.maxChars larkMaxSendBodyBytes
    p.config.maxSplits).elim [] (·.map fun piece => lastToken piece.body)

/-- The tokens that a cut of the final reply leaves. -/
def seams (p : ReplyProjector) (outcome : TurnOutcome) : List (List Char) :=
  let snapshot := p.streamedContent ++ emailMask p.progressBuffer
  match extractFinal outcome with
  | none => if 0 < p.emittedProgress then cardSeams p snapshot else []
  | some extracted =>
    if 0 < p.emittedProgress then cardSeams p (if extracted.independent then extracted.text else snapshot)
    else partSeams J urlScheme p extracted.text

/-- The texts that the sink is handed for a turn: the snapshots of its updates and its reply. -/
def handed (s : ProgressLoop) (outcome : TurnOutcome) : List (List Char) :=
  s.offers.map Offer.text ++ (Final.finish J urlScheme s.projector outcome).elim [] textsOf

omit J urlScheme in
theorem renderProgressFinal_clean_iff (p : ReplyProjector) (text : List Char) :
    (∀ t ∈ textsOf (p.renderProgressFinal text), Clean t) ↔ ∀ seam ∈ cardSeams p text, ¬HoldsAddress seam := by
  have hcut : Clean (truncateToChars (emailMask (trim text)) p.config.maxChars) ↔
      Clean (lastToken (truncateToChars (emailMask (trim text)) p.config.maxChars)) :=
    @clean_cut _ ((emailMask (trim text)).drop p.config.maxChars) <| by
      rw [truncateToChars, List.take_append_drop]
      exact clean_emailMask _
  rw [cardSeams, List.forall_mem_singleton, ← clean_iff_no_address, ← hcut, ReplyProjector.renderProgressFinal]
  split
  · next hnil => exact iff_of_true (by rintro _ ⟨⟩) (hnil ▸ clean_of_not_mem List.not_mem_nil)
  · exact List.forall_mem_singleton

variable {J urlScheme} {text : List Char}

/-- The pieces of a masked text, each masked exactly when the cut at its end leaves no address. -/
theorem pieces_clean_iff {maxChars maxWireBytes maxSplits : ℕ} (hclean : Clean text) :
    (∀ t ∈ (Markdown.splitLarkMarkdown J text maxChars maxWireBytes maxSplits).elim [] id, Clean t) ↔
      ∀ seam ∈ (Markdown.splitPieces J text maxChars maxWireBytes maxSplits).elim [] (·.map fun piece => lastToken piece.body),
        ¬HoldsAddress seam := by
  rw [Markdown.splitLarkMarkdown_eq]
  cases hpieces : Markdown.splitPieces J text maxChars maxWireBytes maxSplits with
  | none => exact iff_of_true nofun nofun
  | some pieces =>
    simp only [Option.map_some, Option.elim_some, id, List.forall_mem_map, ← clean_iff_no_address]
    refine forall₂_congr fun piece hpiece => ?_
    unfold Markdown.splitPieces at hpieces
    split_ifs at hpieces
    · obtain rfl := Option.some.inj hpieces
      cases hpiece
    · exact @Markdown.clean_piece J _ _ [] text _ _ _ (.inl rfl) hclean hpieces piece hpiece

theorem partSeams_of_nil {p : ReplyProjector} (h : Final.finalMarkdown urlScheme text = []) :
    partSeams J urlScheme p text = [] := by
  rw [partSeams, h, Markdown.splitPieces, if_pos (rfl : ([] : List Char) = [])]
  split <;> rfl

theorem renderFinal_clean_iff (p : ReplyProjector) (text : List Char) :
    (∀ t ∈ (Final.renderFinal J urlScheme p text).elim [] textsOf, Clean t) ↔
      ∀ seam ∈ partSeams J urlScheme p text, ¬HoldsAddress seam := by
  rw [Final.renderFinal]
  dsimp only
  split
  · next htrimmed =>
    rw [partSeams_of_nil (by rw [Final.finalMarkdown, htrimmed, Final.renderLarkMarkdown_nil, Final.emailMask_nil])]
    exact iff_of_true (by rintro _ ⟨⟩) (by simp)
  · split
    · next hmarkdown =>
      rw [partSeams_of_nil hmarkdown]
      exact iff_of_true (by rintro _ ⟨⟩) (by simp)
    · rw [partSeams, Final.finalMarkdown, ← pieces_clean_iff (clean_emailMask _)]
      cases Markdown.splitLarkMarkdown J (emailMask (Markdown.renderLarkMarkdown urlScheme (trim (emailMask text))))
        p.config.maxChars larkMaxSendBodyBytes p.config.maxSplits <;> exact Iff.rfl

/-- **Every text of the final reply is masked exactly when no cut of it leaves an address.** -/
theorem reply_clean_iff (p : ReplyProjector) (outcome : TurnOutcome) :
    (∀ t ∈ (Final.finish J urlScheme p outcome).elim [] textsOf, Clean t) ↔
      ∀ seam ∈ seams J urlScheme p outcome, ¬HoldsAddress seam := by
  rw [Final.finish, seams]
  cases extractFinal outcome with
  | none =>
    dsimp only
    split
    · exact renderProgressFinal_clean_iff p _
    · exact iff_of_true (by rintro _ ⟨⟩) (by simp)
  | some extracted =>
    dsimp only
    split
    · cases extracted.independent
      · exact renderProgressFinal_clean_iff p _
      · exact renderProgressFinal_clean_iff p _
    · exact renderFinal_clean_iff p _

/-- **Every text that the sink is handed is masked exactly when no seam of the updates and no cut of the reply leaves an
address.** -/
theorem handed_clean_iff (config : ProjectorConfig) (reports : List Report) (outcome : TurnOutcome) :
    (∀ t ∈ handed J urlScheme (after config reports) outcome, Clean t) ↔
      Along step Seamless (start config) reports ∧
        ∀ seam ∈ seams J urlScheme (after config reports).projector outcome, ¬HoldsAddress seam := by
  rw [handed, List.forall_mem_append, List.forall_mem_map, reply_clean_iff]
  refine and_congr_left fun _ => (offers_clean_iff (start_masked config)).trans ?_
  exact and_iff_right nofun

end Reply

/-- The second update completes the address that the first one begins. -/
def splitAddress : List Report :=
  [⟨.agentMessageDelta "message" "user@exam".toList, 0, .accepted⟩,
    ⟨.agentMessageDelta "message" "ple.com can be reached on every working day.".toList, 400000000, .accepted⟩]

theorem split_address_shown : ¬∀ t ∈ handed Markdown.serdeJson (fun _ => none) (after .default splitAddress) ⟨[]⟩, Clean t := by
  decide

end ProgressLoop

end LarkCodexBridge.Runtime
