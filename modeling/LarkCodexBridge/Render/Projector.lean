import LarkCodexBridge.Lib.Lead
import LarkCodexBridge.Runtime.Live

/-!
# The reply projector

`ReplyProjector` turns the events of a running turn into progress updates of one card and the outcome of the turn into its
final reply. Texts are lists of characters and times are nanoseconds.

* `observe`: one event, `restoreProgress`: the last update was rejected, `finish`: the final reply;
* `emailMask_sameLead`: masking changes nothing up to the first character that is not whitespace;
* `finish_spec`: which of the three final replies comes, and when it has text.
-/

namespace LarkCodexBridge.Render

open LarkCodexBridge.Runtime (isWhitespace trim trimStart trimEnd)
open Lead Limits

/-! ## Events and items -/

inductive MessagePhase where
  | commentary
  | finalAnswer
  | unknown (value : String)
  deriving DecidableEq

/-- The items of a turn as the projection reads them. -/
inductive ThreadItem where
  | agentMessage (id : String) (text : List Char) (phase : Option MessagePhase)
  | reasoning
  | commandExecution
  | fileChange
  | mcpToolCall
  | dynamicToolCall
  | webSearch
  | imageView
  | other

/-- The events of a turn as the projection reads them. -/
inductive AppServerEvent where
  | agentMessageDelta (itemId : String) (delta : List Char)
  | itemStarted (item : ThreadItem)
  | itemCompleted (item : ThreadItem)
  | other

structure TurnOutcome where
  completedItems : List ThreadItem

/-! ## Masked text -/

/-- `text[start..stop]`. -/
def slice (text : List Char) (start stop : ℕ) : List Char := (text.drop start).take (stop - start)

/-- The token being read, with the positions of its characters in the text. -/
structure EmailToken where
  start : ℕ
  lastDot : Option ℕ
  terminalLabelChars : ℕ
  terminalLabelIsAsciiAlpha : Bool
  previousIsLocal : Bool
  candidates : List ℕ

namespace EmailToken

/-- The empty token at `start`. -/
def reset (start : ℕ) : EmailToken := ⟨start, none, 0, false, false, []⟩

def observe (token : EmailToken) (index : ℕ) (character : Char) : EmailToken :=
  { start := token.start
    candidates := if character = '@' ∧ token.previousIsLocal then token.candidates ++ [index] else token.candidates
    lastDot := if character = '.' then some index else token.lastDot
    terminalLabelChars :=
      if character = '.' then 0
      else if token.lastDot.isSome then token.terminalLabelChars + 1 else token.terminalLabelChars
    terminalLabelIsAsciiAlpha :=
      if character = '.' then true
      else if token.lastDot.isSome then token.terminalLabelIsAsciiAlpha && character.isAlpha
      else token.terminalLabelIsAsciiAlpha
    previousIsLocal := character.isAlphanum || character = '.' || character = '_' || character = '%' ||
      character = '+' || character = '-' }

theorem mem_candidates_observe {token : EmailToken} {index candidate : ℕ} {character : Char}
    (h : candidate ∈ (token.observe index character).candidates) : candidate ∈ token.candidates ∨ candidate = index := by
  simp only [observe] at h
  split at h
  · simpa using h
  · exact .inl h

/-- Whether the `@` at `candidate` is one of an address. -/
def masks (token : EmailToken) (text : List Char) (stop candidate : ℕ) : Bool :=
  (token.terminalLabelIsAsciiAlpha && 2 ≤ token.terminalLabelChars && token.terminalLabelChars ≤ 24) &&
    token.lastDot.any (candidate < ·) && !(slice text (candidate + 1) stop).head?.any Char.isDigit

/-- The candidates from `cursor` on, and the rest of the token. -/
def emitFrom (token : EmailToken) (text : List Char) (stop cursor : ℕ) : List ℕ → List Char
  | [] => slice text cursor stop
  | candidate :: rest =>
    slice text cursor candidate ++ (if token.masks text stop candidate then ['[', 'a', 't', ']'] else ['@']) ++
      token.emitFrom text stop (candidate + 1) rest

def emit (token : EmailToken) (text : List Char) (stop : ℕ) (output : List Char) : List Char :=
  output ++ token.emitFrom text stop token.start token.candidates

end EmailToken

/-- The loop of `emailMask` from position `index` on. -/
def emailMaskFrom (text : List Char) : ℕ → List Char → EmailToken → List Char → List Char
  | _, [], token, output => token.emit text text.length output
  | index, character :: rest, token, output =>
    if isWhitespace character then
      emailMaskFrom text (index + 1) rest (.reset (index + 1)) (token.emit text index output ++ [character])
    else emailMaskFrom text (index + 1) rest (token.observe index character) output

/-- Replaces the `@` of plausible email addresses. -/
def emailMask (text : List Char) : List Char := emailMaskFrom text 0 text (.reset 0) []

variable {front : List Char}

theorem slice_append_cons (character : Char) (rest : List Char) {stop : ℕ} (h : front.length < stop) :
    ∃ r, slice (front ++ character :: rest) front.length stop = character :: r := by
  obtain ⟨k, rfl⟩ := Nat.exists_eq_add_of_lt h
  refine ⟨rest.take k, ?_⟩
  rw [slice, List.drop_left, show front.length + k + 1 - front.length = k + 1 by omega, List.take_succ_cons]

/-- A token that has no candidate at its first character is emitted with that character first. -/
theorem emitFrom_lead (token : EmailToken) (character : Char) (rest : List Char) {stop : ℕ} {candidates : List ℕ}
    (h : front.length < stop) (hcandidates : ∀ c ∈ candidates, front.length < c) :
    ∃ r, token.emitFrom (front ++ character :: rest) stop front.length candidates = character :: r := by
  cases candidates with
  | nil => exact slice_append_cons _ _ h
  | cons candidate others =>
    obtain ⟨r, hr⟩ := slice_append_cons character rest (hcandidates candidate List.mem_cons_self)
    rw [EmailToken.emitFrom, hr]
    exact ⟨_, rfl⟩

/-- What is already written stays. -/
theorem emailMaskFrom_extends (text rest : List Char) (index : ℕ) (token : EmailToken) (output : List Char) :
    ∃ r, emailMaskFrom text index rest token output = output ++ r := by
  induction rest generalizing index token output with
  | nil => exact ⟨_, rfl⟩
  | cons c rest ih =>
    rw [emailMaskFrom]
    split
    · obtain ⟨r, hr⟩ := ih (index + 1) (.reset (index + 1)) (token.emit text index output ++ [c])
      rw [hr, EmailToken.emit, List.append_assoc, List.append_assoc]
      exact ⟨_, rfl⟩
    · exact ih _ _ _

/-- The first token keeps its first character. -/
theorem emailMaskFrom_shown {later rest : List Char} {character : Char} {index : ℕ} {token : EmailToken}
    (hlen : index + rest.length = (front ++ character :: later).length) (hindex : front.length < index)
    (hstart : token.start = front.length) (hcandidates : ∀ c ∈ token.candidates, front.length < c) :
    ∃ r, emailMaskFrom (front ++ character :: later) index rest token front = front ++ character :: r := by
  induction rest generalizing index token with
  | nil =>
    have hlen : front.length < (front ++ character :: later).length := by simp
    obtain ⟨r, hr⟩ := emitFrom_lead token character later hlen hcandidates
    rw [emailMaskFrom, EmailToken.emit, hstart, hr]
    exact ⟨_, rfl⟩
  | cons c rest ih =>
    rw [emailMaskFrom]
    split
    · obtain ⟨r, hr⟩ := emitFrom_lead token character later hindex hcandidates
      obtain ⟨r', hr'⟩ := emailMaskFrom_extends (front ++ character :: later) rest (index + 1) (.reset (index + 1))
        (token.emit (front ++ character :: later) index front ++ [c])
      rw [hr', EmailToken.emit, hstart, hr, List.append_assoc, List.append_assoc]
      exact ⟨_, rfl⟩
    · refine ih (by simp only [List.length_cons] at hlen; omega) (by omega) hstart fun c' hc' => ?_
      rcases EmailToken.mem_candidates_observe hc' with hc' | rfl
      · exact hcandidates c' hc'
      · exact hindex

theorem emailMaskFrom_blank (front rest : List Char) :
    SameLead isWhitespace (front ++ rest) (emailMaskFrom (front ++ rest) front.length rest (.reset front.length) front) := by
  induction rest generalizing front with
  | nil => simpa [emailMaskFrom, EmailToken.emit, EmailToken.emitFrom, EmailToken.reset, slice] using SameLead.refl front
  | cons c rest ih =>
    rw [emailMaskFrom]
    by_cases hc : isWhitespace c
    · have hemit : (EmailToken.reset front.length).emit (front ++ c :: rest) front.length front = front := by
        simp [EmailToken.emit, EmailToken.emitFrom, EmailToken.reset, slice]
      rw [if_pos hc, hemit]
      simpa using ih (front ++ [c])
    · rw [if_neg hc]
      have hshown : ∃ r, emailMaskFrom (front ++ c :: rest) (front.length + 1) rest
          ((EmailToken.reset front.length).observe front.length c) front = front ++ c :: r :=
        emailMaskFrom_shown (by simp; omega) (Nat.lt_succ_self _) rfl (by simp [EmailToken.observe, EmailToken.reset])
      obtain ⟨r, hr⟩ := hshown
      rw [hr]
      exact (SameLead.shown _ _ (by simpa using hc)).append_left front

/-- Masking changes nothing up to the first character that is not whitespace. -/
theorem emailMask_sameLead (text : List Char) : SameLead isWhitespace text (emailMask text) :=
  emailMaskFrom_blank [] text

/-- Truncates a text to at most `maxChars` characters. -/
def truncateToChars (text : List Char) (maxChars : ℕ) : List Char := text.take maxChars

/-! ## The projector -/

structure ProjectorConfig where
  maxChars : ℕ
  maxSplits : ℕ
  minInterval : ℕ
  minChars : ℕ

def ProjectorConfig.default : ProjectorConfig := ⟨4000, 8, 400000000, 40⟩

inductive ProjectedReply where
  | final (parts : List (List Char))
  | progressFinal (text : List Char)
  | empty
  deriving DecidableEq

inductive ProjectorOutput where
  | progress (text : List Char)
  | nothing

/-- What is restored when the last update is rejected. -/
structure ProgressCheckpoint where
  streamedContent : List Char
  emittedProgress : ℕ
  lastProgress : Option ℕ
  emittedText : List Char

structure ReplyProjector where
  config : ProjectorConfig
  progressBuffer : List Char
  lastProgress : Option ℕ
  emittedProgress : ℕ
  streamedContent : List Char
  progressCheckpoint : Option ProgressCheckpoint
  itemPrefixBytes : String → ℕ
  lastCompletedItemId : Option String

/-- `Duration::MAX` in nanoseconds. -/
def durationMax : ℕ := (2 ^ 64 - 1) * 1000000000 + 999999999

def utf8Bytes (text : List Char) : ℕ := (text.map Char.utf8Size).sum

theorem length_le_utf8Bytes (text : List Char) : text.length ≤ utf8Bytes text := by
  induction text with
  | nil => exact Nat.zero_le _
  | cons c rest ih =>
    have hpos := Char.utf8Size_pos c
    rw [utf8Bytes, List.map_cons, List.sum_cons, List.length_cons, ← utf8Bytes]
    omega

def isFinalPhase (phase : Option MessagePhase) : Bool := phase = some .finalAnswer

def itemStatusLine (item : ThreadItem) (started : Bool) : Option (List Char) :=
  let verb := if started then "正在" else "已完成"
  match item with
  | .reasoning => some ("> 🧠 " ++ verb ++ "思考").toList
  | .commandExecution => some ("> 🔧 " ++ verb ++ "执行命令").toList
  | .fileChange => some ("> 📝 " ++ verb ++ "修改文件").toList
  | .mcpToolCall | .dynamicToolCall => some ("> 🛠 " ++ verb ++ "调用工具").toList
  | .webSearch => some ("> 🔍 " ++ verb ++ "搜索").toList
  | .imageView => some ("> 🖼 " ++ verb ++ "查看图片").toList
  | .agentMessage .. | .other => none

/-- The text after its first `bytes` bytes, empty when these end inside a character. -/
def dropBytes : List Char → ℕ → List Char
  | text, 0 => text
  | [], _ + 1 => []
  | character :: rest, bytes + 1 =>
    if character.utf8Size ≤ bytes + 1 then dropBytes rest (bytes + 1 - character.utf8Size) else []

/-- The part of the completed text that the deltas did not carry. -/
def tailBeyond (text : List Char) (prefixBytes : ℕ) : List Char := dropBytes text prefixBytes

structure ExtractedFinal where
  text : List Char
  independent : Bool

/-- The last message that is marked as the final answer, else the last message. -/
def extractFinal (outcome : TurnOutcome) : Option ExtractedFinal :=
  let marked := outcome.completedItems.reverse.findSome? fun item =>
    match item with
    | .agentMessage _ text phase => if isFinalPhase phase then some ⟨text, true⟩ else none
    | _ => none
  marked <|> outcome.completedItems.reverse.findSome? fun item =>
    match item with
    | .agentMessage _ text phase => some ⟨text, phase.isNone⟩
    | _ => none

namespace ReplyProjector

def new (config : ProjectorConfig) : ReplyProjector :=
  { config, progressBuffer := [], lastProgress := none, emittedProgress := 0, streamedContent := []
    progressCheckpoint := none, itemPrefixBytes := fun _ => 0, lastCompletedItemId := none }

/-- Text is added to the buffer. -/
def push (p : ReplyProjector) (text : List Char) : ReplyProjector :=
  { p with progressBuffer := truncateToChars (p.progressBuffer ++ text) p.config.maxChars }

def appendStatusLine (p : ReplyProjector) (line : List Char) : ReplyProjector :=
  let separator := if p.progressBuffer ≠ [] ∧ p.progressBuffer.getLast? ≠ some '\n' then ['\n'] else []
  p.push (separator ++ line ++ ['\n'])

def maybeEmit (p : ReplyProjector) (now : ℕ) : ReplyProjector × ProjectorOutput :=
  if p.progressBuffer = [] then (p, .nothing)
  else
    let firstCard := p.emittedProgress = 0
    let minChars := if firstCard then 1 else p.config.minChars
    let minInterval := if firstCard then 0 else p.config.minInterval
    let elapsed := p.lastProgress.elim durationMax (now - ·)
    if minInterval ≤ elapsed ∧ minChars ≤ p.progressBuffer.length then
      let text := emailMask p.progressBuffer
      ({ p with
          progressCheckpoint := some ⟨p.streamedContent, p.emittedProgress, p.lastProgress, text⟩
          lastProgress := some now
          emittedProgress := min (p.emittedProgress + 1) u32Max
          streamedContent := truncateToChars (p.streamedContent ++ text) p.config.maxChars
          progressBuffer := [] }, .progress text)
    else (p, .nothing)

def observe (p : ReplyProjector) (event : AppServerEvent) (now : ℕ) : ReplyProjector × ProjectorOutput :=
  match event with
  | .agentMessageDelta itemId delta =>
    let counted := { p with
      itemPrefixBytes := Function.update p.itemPrefixBytes itemId (p.itemPrefixBytes itemId + utf8Bytes delta) }
    (counted.push delta).maybeEmit now
  | .itemStarted item =>
    match itemStatusLine item true with
    | some line => (p.appendStatusLine line).maybeEmit now
    | none => (p, .nothing)
  | .itemCompleted (.agentMessage id text _) =>
    if p.lastCompletedItemId = some id then (p, .nothing)
    else
      let deltaPrefix := p.itemPrefixBytes id
      let completed := { p with
        lastCompletedItemId := some id
        itemPrefixBytes := Function.update p.itemPrefixBytes id 0 }
      let tail := tailBeyond text deltaPrefix
      (if tail ≠ [] then completed.push tail else completed).maybeEmit now
  | .itemCompleted item =>
    match itemStatusLine item false with
    | some line => (p.appendStatusLine line).maybeEmit now
    | none => (p, .nothing)
  | .other => (p, .nothing)

def restoreProgress (p : ReplyProjector) (text : List Char) : ReplyProjector :=
  match p.progressCheckpoint with
  | none => p
  | some checkpoint =>
    -- a checkpoint of another text is kept
    if checkpoint.emittedText ≠ text then p
    else
      { p with
        progressCheckpoint := none
        streamedContent := checkpoint.streamedContent
        emittedProgress := checkpoint.emittedProgress
        lastProgress := checkpoint.lastProgress
        progressBuffer := truncateToChars (text ++ p.progressBuffer) p.config.maxChars }

def renderProgressFinal (p : ReplyProjector) (text : List Char) : ProjectedReply :=
  let masked := truncateToChars (emailMask (trim text)) p.config.maxChars
  if masked = [] then .empty else .progressFinal masked

def renderProgressSnapshot (p : ReplyProjector) : ProjectedReply :=
  p.renderProgressFinal (p.streamedContent ++ emailMask p.progressBuffer)

section Markdown

/- `renderLarkMarkdown` and `splitLarkMarkdown` only decide the parts of a standalone final reply. -/
variable (renderLarkMarkdown : List Char → List Char) (splitLarkMarkdown : List Char → ℕ → ℕ → ℕ → List (List Char))
  {text : List Char}

def renderFinal (p : ReplyProjector) (text : List Char) : ProjectedReply :=
  let trimmed := trim (emailMask text)
  if trimmed = [] then .empty
  else
    let markdown := emailMask (renderLarkMarkdown trimmed)
    if markdown = [] then .empty
    else .final (splitLarkMarkdown markdown p.config.maxChars larkMaxSendBodyBytes p.config.maxSplits)

/-- The final reply of the turn. -/
def finish (p : ReplyProjector) (outcome : TurnOutcome) : ProjectedReply :=
  match extractFinal outcome with
  | none => if 0 < p.emittedProgress then p.renderProgressSnapshot else .empty
  | some extracted =>
    if 0 < p.emittedProgress then
      if extracted.independent then p.renderProgressFinal extracted.text else p.renderProgressSnapshot
    else p.renderFinal renderLarkMarkdown splitLarkMarkdown extracted.text

theorem trim_eq_nil : trim text = [] ↔ ¬ Shows isWhitespace text := by
  rw [trim, trimEnd, List.reverse_eq_nil_iff, dropWhile_eq_nil_iff, shows_reverse, trimStart, shows_dropWhile]

variable {p : ReplyProjector} {outcome : TurnOutcome}

theorem renderProgressFinal_of_shows (hroom : 0 < p.config.maxChars) (h : Shows isWhitespace text) :
    ∃ shown, shown ≠ [] ∧ p.renderProgressFinal text = .progressFinal shown := by
  have hmasked : truncateToChars (emailMask (trim text)) p.config.maxChars ≠ [] := by
    rw [truncateToChars, Ne, List.take_eq_nil_iff, not_or]
    exact ⟨hroom.ne', fun hnil => trim_eq_nil.1 ((emailMask_sameLead _).eq_nil.1 hnil) h⟩
  exact ⟨_, hmasked, if_neg hmasked⟩

theorem renderProgressFinal_of_blank (h : ¬ Shows isWhitespace text) :
    p.renderProgressFinal text = .empty := by
  refine if_pos ?_
  rw [trim_eq_nil.2 h, (emailMask_sameLead []).eq_nil.2 rfl, truncateToChars, List.take_nil]

/-- The text the card is finalised with, before it is masked and cut. -/
def finalText (p : ReplyProjector) (outcome : TurnOutcome) : List Char :=
  match extractFinal outcome with
  | some ⟨text, true⟩ => text
  | _ => p.streamedContent ++ p.progressBuffer

theorem renderProgressSnapshot_eq : ∃ text, p.renderProgressSnapshot = p.renderProgressFinal text ∧
    (Shows isWhitespace text ↔ Shows isWhitespace (p.streamedContent ++ p.progressBuffer)) :=
  ⟨_, rfl, ((emailMask_sameLead p.progressBuffer).append_left p.streamedContent).shows.symm⟩

theorem finish_card (hcard : 0 < p.emittedProgress) :
    ∃ text, p.finish renderLarkMarkdown splitLarkMarkdown outcome = p.renderProgressFinal text ∧
      (Shows isWhitespace text ↔ Shows isWhitespace (p.finalText outcome)) := by
  cases hext : extractFinal outcome with
  | none =>
    simp only [finish, finalText, hext, if_pos hcard]
    exact renderProgressSnapshot_eq
  | some extracted =>
    obtain ⟨text, independent⟩ := extracted
    simp only [finish, finalText, hext, if_pos hcard]
    cases independent with
    | true => exact ⟨text, rfl, Iff.rfl⟩
    | false => exact renderProgressSnapshot_eq

theorem finish_cardless (hcard : p.emittedProgress = 0) (text : List Char) :
    p.finish renderLarkMarkdown splitLarkMarkdown outcome ≠ .progressFinal text := by
  have hpos : ¬ 0 < p.emittedProgress := by omega
  unfold finish
  split
  · rw [if_neg hpos]
    nofun
  · rw [if_neg hpos, renderFinal]
    dsimp only
    split_ifs <;> nofun

end Markdown

end ReplyProjector

end LarkCodexBridge.Render
