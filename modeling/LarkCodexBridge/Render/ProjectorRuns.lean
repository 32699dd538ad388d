import LarkCodexBridge.Render.Projector

/-!
# A turn with a card is finalised on the card

A run of a projector is a list of events with their times; an update that the sink rejects is restored at once. `fed` is
the text that the events carry, whatever the projector does with it.

* `Tracks`: how the text in the projector follows the text that was fed, kept by every step;
* `card_finalised`: the final reply is on the card exactly when there is something to show.
-/

namespace LarkCodexBridge.Render

open LarkCodexBridge.Runtime (isWhitespace)
open Lead Limits

/-! ## Runs -/

/-- An event, its time and whether the sink rejects the update it leads to. -/
structure Feed where
  event : AppServerEvent
  now : ℕ
  rejected : Bool

/-- A projector and the number of accepted updates. -/
structure Projection where
  projector : ReplyProjector
  accepted : ℕ

namespace Projection

def new (config : ProjectorConfig) : Projection := ⟨.new config, 0⟩

/-- An update is accepted or rejected and restored. -/
def settle (accepted : ℕ) (rejected : Bool) : ReplyProjector × ProjectorOutput → Projection
  | (p, .nothing) => ⟨p, accepted⟩
  | (p, .progress text) => if rejected then ⟨p.restoreProgress text, accepted⟩ else ⟨p, accepted + 1⟩

/-- The scope actor's handling of one event. -/
def feed (s : Projection) (i : Feed) : Projection :=
  settle s.accepted i.rejected (s.projector.observe i.event i.now)

def run (config : ProjectorConfig) (feeds : List Feed) : Projection := feeds.foldl feed (new config)

end Projection

/-! ## The text that is fed -/

/-- The bytes of the deltas of each item, the last completed message, and the text so far. -/
structure Fed where
  prefixBytes : String → ℕ
  lastCompleted : Option String
  text : List Char

namespace Fed

def new : Fed := ⟨fun _ => 0, none, []⟩

/-- A status line stands on a line of its own. -/
def addLine (f : Fed) (line : Option (List Char)) : Fed :=
  { f with text := f.text ++ line.elim [] fun l => '\n' :: l ++ ['\n'] }

def add (f : Fed) : AppServerEvent → Fed
  | .agentMessageDelta itemId delta =>
    { f with
      prefixBytes := Function.update f.prefixBytes itemId (f.prefixBytes itemId + utf8Bytes delta)
      text := f.text ++ delta }
  | .itemStarted item => f.addLine (itemStatusLine item true)
  | .itemCompleted (.agentMessage id text _) =>
    if f.lastCompleted = some id then f
    else ⟨Function.update f.prefixBytes id 0, some id, f.text ++ tailBeyond text (f.prefixBytes id)⟩
  | .itemCompleted item => f.addLine (itemStatusLine item false)
  | .other => f

end Fed

/-- The text that the events carry. -/
def fed (feeds : List Feed) : Fed := feeds.foldl (fun f i => f.add i.event) .new

/-! ## The text in the projector -/

/-- What the projector holds of the text: what it has shown and what it has not yet. -/
def ReplyProjector.held (p : ReplyProjector) : List Char := p.streamedContent ++ p.progressBuffer

/-- `held` follows `text` in a card of `room` characters: what shows at the start of the text shows at the start of what
is held, and nothing else does. -/
structure Follows (room : ℕ) (text held : List Char) : Prop where
  shows : Shows isWhitespace (text.take room) → Shows isWhitespace (held.take room)
  shown : Shows isWhitespace held → Shows isWhitespace text
  blank : ¬ Shows isWhitespace text → held.length ≤ text.length

variable {room : ℕ} {text held piece kept : List Char}

/-- More text follows where it is held with no more whitespace in front. -/
theorem Follows.append (h : Follows room text held)
    (hshows : ∀ n, Shows isWhitespace (piece.take n) → Shows isWhitespace (kept.take n))
    (hshown : Shows isWhitespace kept → Shows isWhitespace piece)
    (hblank : ¬ Shows isWhitespace piece → kept.length ≤ piece.length) :
    Follows room (text ++ piece) (held ++ kept) where
  shows hs := by
    rcases shows_take_append.1 hs with hs | hs
    · exact shows_take_append.2 (.inl (h.shows hs))
    · -- the first character to be seen is in the piece, or something was seen before
      by_cases htext : Shows isWhitespace text
      · by_cases hheld : Shows isWhitespace (text.take room)
        · exact shows_take_append.2 (.inl (h.shows hheld))
        · have hroom : room ≤ text.length := by
            by_contra hlt
            rw [List.take_of_length_le (by omega)] at hheld
            exact hheld htext
          rw [Nat.sub_eq_zero_of_le hroom, List.take_zero] at hs
          exact absurd hs not_shows_nil
      · have hlen := h.blank htext
        exact shows_take_append.2 (.inr ((hshows _ hs).take_mono (by omega)))
  shown hs := by
    rcases shows_append.1 hs with hs | hs
    · exact (h.shown hs).append_left
    · exact (hshown hs).append_right
  blank hs := by
    rw [shows_append, not_or] at hs
    have hold := h.blank hs.1
    have hnew := hblank hs.2
    rw [List.length_append, List.length_append]
    omega

/-- What is held may be cut to the room of the card. -/
theorem Follows.take (h : Follows room text held) {cut : List Char} (hcut : cut.take room = held.take room)
    (hshown : Shows isWhitespace cut → Shows isWhitespace held) (hlen : cut.length ≤ held.length) :
    Follows room text cut where
  shows hs := by
    rw [hcut]
    exact h.shows hs
  shown hs := h.shown (hshown hs)
  blank hs := hlen.trans (h.blank hs)

/-- What is held may be masked. -/
theorem Follows.sameLead (h : Follows room text held) {masked : List Char} (hm : SameLead isWhitespace held masked) :
    Follows room text masked where
  shows hs := (hm.take room).shows.1 (h.shows hs)
  shown hs := h.shown (hm.shows.2 hs)
  blank hs := by
    rw [hm.eq fun hs' => hs (h.shown hs')]
    exact h.blank hs

/-- The second part of what is held may be cut to the room of the card. -/
theorem Follows.take_right {front back : List Char} (h : Follows room text (front ++ back)) :
    Follows room text (front ++ truncateToChars back room) := by
  refine h.take take_append_take (fun hs => ?_) ?_
  · rcases shows_append.1 hs with hs | hs
    · exact hs.append_left
    · exact hs.of_take.append_right
  · rw [truncateToChars, List.length_append, List.length_append, List.length_take]
    omega

theorem Follows.take_all (h : Follows room text held) : Follows room text (truncateToChars held room) := by
  have hcut : Follows room text ([] ++ truncateToChars held room) := Follows.take_right (by simpa using h)
  simpa using hcut

/-! ## The invariant -/

/-- The projector has followed the text that was fed, and counts a card exactly when an update was accepted. -/
structure Tracks (config : ProjectorConfig) (f : Fed) (s : Projection) : Prop where
  config_eq : s.projector.config = config
  prefixBytes : s.projector.itemPrefixBytes = f.prefixBytes
  lastCompleted : s.projector.lastCompletedItemId = f.lastCompleted
  follows : Follows config.maxChars f.text s.projector.held
  buffer : s.projector.progressBuffer.length ≤ config.maxChars
  cards : 0 < s.projector.emittedProgress ↔ 0 < s.accepted
  room : 0 < s.accepted → 0 < config.maxChars

variable {config : ProjectorConfig} {f : Fed} {p : ReplyProjector} {accepted : ℕ} {item : ThreadItem} {started : Bool}
  {line : List Char}

theorem tracks_new : Tracks config .new (.new config) where
  config_eq := rfl
  prefixBytes := rfl
  lastCompleted := rfl
  follows := ⟨by simp [Fed.new], by simp [Projection.new, ReplyProjector.new, ReplyProjector.held],
    fun _ => Nat.le_refl 0⟩
  buffer := Nat.zero_le _
  cards := Iff.rfl
  room h := absurd h (Nat.lt_irrefl 0)

/-- Text is pushed with no more whitespace in front than the text that is fed. -/
theorem Tracks.push (h : Tracks config f ⟨p, accepted⟩)
    (hshows : ∀ n, Shows isWhitespace (piece.take n) → Shows isWhitespace (kept.take n))
    (hshown : Shows isWhitespace kept → Shows isWhitespace piece)
    (hblank : ¬ Shows isWhitespace piece → kept.length ≤ piece.length) :
    Tracks config { f with text := f.text ++ piece } ⟨p.push kept, accepted⟩ where
  config_eq := h.config_eq
  prefixBytes := h.prefixBytes
  lastCompleted := h.lastCompleted
  follows := by
    have hmore := h.follows.append hshows hshown hblank
    rw [ReplyProjector.held, List.append_assoc] at hmore
    have hcut := hmore.take_right
    rwa [← h.config_eq] at hcut ⊢
  buffer := by
    rw [← h.config_eq]
    exact List.length_take_le _ _
  cards := h.cards
  room := h.room

theorem Tracks.push_same (h : Tracks config f ⟨p, accepted⟩) (piece : List Char) :
    Tracks config { f with text := f.text ++ piece } ⟨p.push piece, accepted⟩ :=
  h.push (fun _ => id) id fun _ => Nat.le_refl _

theorem isWhitespace_newline : isWhitespace '\n' = true := by decide

theorem itemStatusLine_shown (h : itemStatusLine item started = some line) : ∃ rest, line = '>' :: rest := by
  cases item <;> cases started <;> simp [itemStatusLine] at h <;> exact ⟨_, h.symm⟩

theorem Tracks.appendStatusLine (h : Tracks config f ⟨p, accepted⟩) (hline : itemStatusLine item started = some line) :
    Tracks config (f.addLine (some line)) ⟨p.appendStatusLine line, accepted⟩ := by
  obtain ⟨rest, rfl⟩ := itemStatusLine_shown hline
  have hpiece : Shows isWhitespace ('\n' :: ('>' :: rest) ++ ['\n']) := ⟨'>', by simp, by decide⟩
  refine h.push (fun n hs => ?_) (fun _ => hpiece) fun hs => absurd hpiece hs
  -- the fed line has a line break in front, so it shows nothing within one character
  obtain _ | _ | n := n
  · exact absurd hs (by simp)
  · obtain ⟨c, hc, hb⟩ := hs
    have hcn : c = '\n' := by simpa using hc
    rw [hcn, isWhitespace_newline] at hb
    cases hb
  · split
    · exact ⟨'>', by simp, by decide⟩
    · exact ⟨'>', by simp, by decide⟩

/-- The projector after an update. -/
def ReplyProjector.emitted (p : ReplyProjector) (now : ℕ) : ReplyProjector :=
  { p with
    progressCheckpoint := some ⟨p.streamedContent, p.emittedProgress, p.lastProgress, emailMask p.progressBuffer⟩
    lastProgress := some now
    emittedProgress := min (p.emittedProgress + 1) u32Max
    streamedContent := truncateToChars (p.streamedContent ++ emailMask p.progressBuffer) p.config.maxChars
    progressBuffer := [] }

theorem maybeEmit_cases (p : ReplyProjector) (now : ℕ) :
    p.maybeEmit now = (p, .nothing) ∨
      p.progressBuffer ≠ [] ∧ p.maybeEmit now = (p.emitted now, .progress (emailMask p.progressBuffer)) := by
  by_cases hempty : p.progressBuffer = []
  · exact .inl (if_pos hempty)
  · unfold ReplyProjector.maybeEmit
    rw [if_neg hempty]
    by_cases hdue : (if p.emittedProgress = 0 then 0 else p.config.minInterval) ≤ p.lastProgress.elim durationMax (now - ·) ∧
        (if p.emittedProgress = 0 then 1 else p.config.minChars) ≤ p.progressBuffer.length
    · exact .inr ⟨hempty, if_pos hdue⟩
    · exact .inl (if_neg hdue)

/-- A rejected update is back in the buffer, masked. -/
theorem restoreProgress_emitted (p : ReplyProjector) (now : ℕ) :
    (p.emitted now).restoreProgress (emailMask p.progressBuffer) =
      { p with
        progressCheckpoint := none
        progressBuffer := truncateToChars (emailMask p.progressBuffer) p.config.maxChars } := by
  simp [ReplyProjector.restoreProgress, ReplyProjector.emitted]

theorem Tracks.settle (h : Tracks config f ⟨p, accepted⟩) (now : ℕ) (rejected : Bool) :
    Tracks config f (Projection.settle accepted rejected (p.maybeEmit now)) := by
  have hconfig : p.config = config := h.config_eq
  have hmasked : Follows p.config.maxChars f.text (p.streamedContent ++ emailMask p.progressBuffer) := by
    rw [hconfig]
    exact h.follows.sameLead ((emailMask_sameLead p.progressBuffer).append_left p.streamedContent)
  subst hconfig
  rcases maybeEmit_cases p now with hnothing | ⟨hbuffer, hemit⟩
  · rw [hnothing]
    exact h
  · rw [hemit, Projection.settle]
    cases rejected with
    | true =>
      rw [if_pos rfl, restoreProgress_emitted]
      exact ⟨rfl, h.prefixBytes, h.lastCompleted, hmasked.take_right, List.length_take_le _ _, h.cards, h.room⟩
    | false =>
      have hroom : 0 < p.config.maxChars := (List.length_pos_of_ne_nil hbuffer).trans_le h.buffer
      have hheld : (p.emitted now).held =
          truncateToChars (p.streamedContent ++ emailMask p.progressBuffer) p.config.maxChars := List.append_nil _
      rw [if_neg Bool.false_ne_true]
      refine ⟨rfl, h.prefixBytes, h.lastCompleted, ?_, Nat.zero_le _, ?_, fun _ => hroom⟩
      · rw [hheld]
        exact hmasked.take_all
      · exact iff_of_true (by simp [ReplyProjector.emitted, u32Max]) (Nat.succ_pos _)

theorem Tracks.itemLine {p : ReplyProjector} {accepted : ℕ} (h : Tracks config f ⟨p, accepted⟩) (now : ℕ)
    (rejected : Bool) (item : ThreadItem) (started : Bool) :
    Tracks config (f.addLine (itemStatusLine item started)) (Projection.settle accepted rejected
      (match itemStatusLine item started with
        | some line => (p.appendStatusLine line).maybeEmit now
        | none => (p, .nothing))) := by
  cases hl : itemStatusLine item started with
  | none => simpa [Fed.addLine, Projection.settle] using h
  | some line => exact (h.appendStatusLine hl).settle now rejected

theorem Tracks.feed {s : Projection} (h : Tracks config f s) (i : Feed) : Tracks config (f.add i.event) (s.feed i) := by
  obtain ⟨p, accepted⟩ := s
  obtain ⟨event, now, rejected⟩ := i
  cases event with
  | agentMessageDelta itemId delta =>
    have hcounted : Tracks config
        { f with prefixBytes := Function.update f.prefixBytes itemId (f.prefixBytes itemId + utf8Bytes delta) }
        ⟨{ p with
          itemPrefixBytes := Function.update p.itemPrefixBytes itemId (p.itemPrefixBytes itemId + utf8Bytes delta) },
          accepted⟩ :=
      { h with prefixBytes := by rw [← h.prefixBytes] }
    exact (hcounted.push_same delta).settle now rejected
  | itemStarted item => exact h.itemLine now rejected item true
  | itemCompleted item =>
    cases item with
    | agentMessage id text phase =>
      have hlast : p.lastCompletedItemId = f.lastCompleted := h.lastCompleted
      have hbytes : p.itemPrefixBytes = f.prefixBytes := h.prefixBytes
      by_cases hseen : f.lastCompleted = some id
      · rw [Projection.feed, ReplyProjector.observe, if_pos (hlast.trans hseen), Fed.add, if_pos hseen]
        exact h
      · have hcompleted : Tracks config
            { f with prefixBytes := Function.update p.itemPrefixBytes id 0, lastCompleted := some id }
            ⟨{ p with
              lastCompletedItemId := some id
              itemPrefixBytes := Function.update p.itemPrefixBytes id 0 }, accepted⟩ :=
          { h with
            prefixBytes := rfl
            lastCompleted := rfl }
        rw [Projection.feed, ReplyProjector.observe, if_neg (by rwa [hlast]), Fed.add, if_neg hseen]
        dsimp only
        rw [← hbytes]
        split
        · exact (hcompleted.push_same _).settle now rejected
        · next htail =>
          rw [not_not.1 htail, List.append_nil]
          exact hcompleted.settle now rejected
    | _ => exact h.itemLine now rejected _ false
  | other => exact h

/-- **A run of the projector follows the text it is fed.** -/
theorem tracks_run (config : ProjectorConfig) (feeds : List Feed) : Tracks config (fed feeds) (.run config feeds) := by
  suffices hall : ∀ f s, Tracks config f s →
      Tracks config (feeds.foldl (fun f i => f.add i.event) f) (feeds.foldl Projection.feed s) from hall _ _ tracks_new
  induction feeds with
  | nil => exact fun _ _ h => h
  | cons i feeds ih => exact fun f s h => ih _ _ (h.feed i)

/-! ## The final reply -/

/-- A turn with an accepted update is finalised with text on its card, a turn without one is not. -/
def Finalised (accepted : ℕ) (reply : ProjectedReply) : Prop :=
  (0 < accepted → ∃ text, text ≠ [] ∧ reply = .progressFinal text) ∧
    (accepted = 0 → ∀ text, reply ≠ .progressFinal text)

/-- **A turn is finalised on its card exactly when no update was accepted or the final text shows something.** What the
projector holds before the end shows something when the text that was fed does within the room of the card, and only if
that text does at all. -/
theorem card_finalised (renderLarkMarkdown : List Char → List Char)
    (splitLarkMarkdown : List Char → ℕ → ℕ → ℕ → List (List Char)) (config : ProjectorConfig) (feeds : List Feed) :
    (∀ outcome, Finalised (Projection.run config feeds).accepted
        ((Projection.run config feeds).projector.finish renderLarkMarkdown splitLarkMarkdown outcome) ↔
      (Projection.run config feeds).accepted = 0 ∨
        Shows isWhitespace ((Projection.run config feeds).projector.finalText outcome)) ∧
    (Shows isWhitespace ((fed feeds).text.take config.maxChars) →
      Shows isWhitespace (Projection.run config feeds).projector.held) ∧
    (Shows isWhitespace (Projection.run config feeds).projector.held → Shows isWhitespace (fed feeds).text) := by
  have h := tracks_run config feeds
  refine ⟨fun outcome => ?_, fun hs => (h.follows.shows hs).of_take, h.follows.shown⟩
  rcases Nat.eq_zero_or_pos (Projection.run config feeds).accepted with hnone | hcard
  · have hcardless : (Projection.run config feeds).projector.emittedProgress = 0 := by
      have hcards := h.cards
      omega
    exact iff_of_true ⟨fun hpos => absurd hpos (by omega), fun _ => ReplyProjector.finish_cardless _ _ hcardless⟩ (.inl hnone)
  · obtain ⟨text, hfinish, hshows⟩ := ReplyProjector.finish_card renderLarkMarkdown splitLarkMarkdown
      (h.cards.2 hcard)
    rw [hfinish, or_iff_right hcard.ne', ← hshows]
    constructor
    · rintro ⟨hfinal, -⟩
      by_contra hblank
      obtain ⟨shown, -, heq⟩ := hfinal hcard
      rw [ReplyProjector.renderProgressFinal_of_blank hblank] at heq
      cases heq
    · intro hs
      have hroom : 0 < (Projection.run config feeds).projector.config.maxChars := by
        rw [h.config_eq]
        exact h.room hcard
      obtain ⟨shown, hne, heq⟩ := ReplyProjector.renderProgressFinal_of_shows hroom hs
      exact ⟨fun _ => ⟨shown, hne, heq⟩, fun hzero => absurd hzero hcard.ne'⟩

/-- A card with an update, and a final answer of whitespace only. -/
def workingFeeds : List Feed := [⟨.agentMessageDelta "commentary" "Working".toList, 0, false⟩]

def blankAnswer : TurnOutcome :=
  ⟨[.agentMessage "commentary" "Working".toList (some .commentary), .agentMessage "answer" " ".toList (some .finalAnswer)]⟩

/-- The card of this turn is never finalised: the final reply is empty. -/
theorem card_finalised_fails :
    ¬ Finalised (Projection.run .default workingFeeds).accepted
      ((Projection.run .default workingFeeds).projector.finish id (fun text _ _ _ => [text]) blankAnswer) := by
  have haccepted : (Projection.run .default workingFeeds).accepted = 1 := by decide
  have hreply : (Projection.run .default workingFeeds).projector.finish id (fun text _ _ _ => [text]) blankAnswer =
      .empty := by decide
  rintro ⟨hfinal, -⟩
  obtain ⟨text, -, heq⟩ := hfinal (by rw [haccepted]; exact Nat.one_pos)
  rw [hreply] at heq
  cases heq

end LarkCodexBridge.Render
