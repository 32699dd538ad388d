import LarkCodexBridge.Render.Wire
import LarkCodexBridge.Runtime.Prompt

/-!
# The request that starts a turn

`assembleTurnInputs` writes a prompt for every message of a batch, and `countSerialized` refuses a request that is too
long. The batch is bounded by the bytes of its texts; the request holds them escaped three times.

* `characterCost`: the bytes of a character of the user's text in the request;
* `size_params`: the request, from the one without the texts;
* `request_accepted_iff`: which batches are accepted.
-/

namespace LarkCodexBridge.Runtime.Prompt

open Json Lark Limits Render Render.Markdown

/-! ## The inputs of a turn -/

/-- A message with what has been gathered for it. -/
structure TurnMessage where
  event : InboundEvent
  senderName : Option (List Char)
  quotedMessages : List PromptQuotedMessage
  attachments : List PromptAttachment
  transcripts : List (List Char)

/-- The text and the transcripts of its audio. -/
def TurnMessage.userInput (m : TurnMessage) : List Char :=
  if m.transcripts = [] then m.event.text.toList
  else
    (if m.event.text.toList = [] then [] else m.event.text.toList ++ ['\n']) ++ ['\n'].intercalate m.transcripts

def chatTypeLabel : ChatMode → List Char
  | .p2p => "p2p".toList
  | .group => "group".toList
  | .topic => "topic".toList

def promptMention (mention : MentionIdentity) : PromptMention :=
  ⟨mention.openId.map String.toList, mention.name.map String.toList, none⟩

def promptContextFromEvent (event : InboundEvent) (botOpenId : Option (List Char)) (source : List Char) : PromptContext where
  chatId := event.chatId.toList
  chatType := chatTypeLabel event.chatType
  senderId := event.senderId.toList
  senderName := none
  senderType := if event.senderIsHuman then "user".toList else "bot".toList
  botOpenId := botOpenId.filter (· ≠ [])
  mentions := event.mentions.map promptMention
  threadId := event.threadId.map String.toList
  messageIds := [event.messageId.toList]
  source := source

/-- The text `BRIDGE_SYSTEM_PROMPT` is a parameter; nothing depends on it. -/
def prefixBridgeSystemPrompt (systemPrompt prompt : List Char) (botOpenId : Option (List Char)) : List Char :=
  systemPrompt ++
    (match botOpenId.filter (· ≠ []) with
    | none => []
    | some openId => "\n## 你的身份\n\n你的 open_id 是 `".toList ++ openId ++
        "`。消息内容或 mentions 里出现这个 open_id 都是指你自己。\n".toList) ++
    "\n\n## user_message\n\n".toList ++ prompt

inductive UserInput where
  | text (text : List Char)
  | localImage (path : List Char)

def TurnMessage.promptInput (m : TurnMessage) (botOpenId : Option (List Char)) (topicContext : List PromptQuotedMessage) :
    BuildAgentPromptInput where
  context := { promptContextFromEvent m.event botOpenId "im".toList with senderName := m.senderName }
  userInput := m.userInput
  quotedMessages := m.quotedMessages
  topicContext := topicContext
  attachments := m.attachments

section Assemble

variable (systemPrompt : List Char) (botOpenId : Option (List Char)) (topicContext : List PromptQuotedMessage)

/-- The images of a message, then its prompt. -/
def TurnMessage.inputs (m : TurnMessage) : List UserInput :=
  (m.attachments.filter (·.kind = "image".toList)).map (fun a => .localImage a.path) ++
    [.text (prefixBridgeSystemPrompt systemPrompt
      (buildAgentPrompt serdeEscaping (m.promptInput botOpenId topicContext)) botOpenId)]

def assembleTurnInputs (messages : List TurnMessage) : List UserInput :=
  messages.flatMap (·.inputs systemPrompt botOpenId topicContext)

end Assemble

/-! ## The request -/

/-- The fields that `process_batch` sets; the policies are values of the settings. -/
structure TurnStartParams where
  threadId : List Char
  input : List UserInput
  sandboxPolicy : Json
  approvalPolicy : Json
  clientUserMessageId : List Char
  cwd : List Char
  effort : Option (List Char)
  model : Option (List Char)

def UserInput.toJson : UserInput → Json
  | .text content => .obj (member "text" (some (.str content)) ++ member "type" (some (.str "text".toList)))
  | .localImage path => .obj (member "path" (some (.str path)) ++ member "type" (some (.str "localImage".toList)))

/-- The request as a map with sorted keys. -/
def TurnStartParams.toJson (p : TurnStartParams) : Json :=
  .obj (member "approvalPolicy" (some p.approvalPolicy) ++ member "clientUserMessageId" (some (.str p.clientUserMessageId)) ++
    member "cwd" (some (.str p.cwd)) ++ member "effort" (p.effort.map .str) ++
    member "input" (some (.arr (p.input.map UserInput.toJson))) ++ member "model" (p.model.map .str) ++
    member "sandboxPolicy" (some p.sandboxPolicy) ++ member "threadId" (some (.str p.threadId)))

/-- `LimitedCounter`: `n` more bytes are written. -/
def LimitedCounter.write (maximum written n : ℕ) : Option ℕ :=
  if maximum < written + n then none else some (written + n)

/-- The bytes of the serialized value; `none` is `PayloadTooLarge`. -/
def countSerialized (method : String) (value : Json) : Option ℕ :=
  ((encode serdeEscaping.escape value).map Char.utf8Size).foldlM
    (LimitedCounter.write (maxOutboundValueWireBytes - (method.utf8ByteSize + 256))) 0

/-- The bytes of a value on the wire. -/
def size (value : Json) : ℕ := utf8Bytes (encode serdeEscaping.escape value)

theorem foldlM_write (maximum : ℕ) (pieces : List ℕ) (written : ℕ) (h : written ≤ maximum) :
    pieces.foldlM (LimitedCounter.write maximum) written =
      if maximum < written + pieces.sum then none else some (written + pieces.sum) := by
  induction pieces generalizing written with
  | nil => simp [Nat.not_lt.2 h]
  | cons n pieces ih =>
    rw [List.foldlM_cons, LimitedCounter.write, List.sum_cons]
    split
    · rw [if_pos (by omega)]
      rfl
    · next hle =>
      rw [Option.bind_eq_bind, Option.bind_some, ih _ (Nat.not_lt.1 hle), Nat.add_assoc]

theorem countSerialized_isSome {method : String} {value : Json} : (countSerialized method value).isSome ↔
    size value ≤ maxOutboundValueWireBytes - (method.utf8ByteSize + 256) := by
  rw [countSerialized, foldlM_write _ _ _ (Nat.zero_le _), Nat.zero_add, ← utf8Bytes, ← size]
  split
  · next h => simpa using h
  · next h => simpa using h

/-! ## Sizes -/

def fieldSize (field : List Char × Json) : ℕ := 2 + utf8Bytes (quoted serdeEscaping.escape field.1) + size field.2

theorem utf8Bytes_encodeFields (fields : List (List Char × Json)) :
    utf8Bytes (encodeFields serdeEscaping.escape fields) = 1 + (fields.map fieldSize).sum := by
  induction fields with
  | nil => rfl
  | cons field fields ih =>
    obtain ⟨k, v⟩ := field
    simp only [encodeFields, utf8Bytes_cons, utf8Bytes_append, ih, List.map_cons, List.sum_cons, fieldSize, size]
    have hcomma : ','.utf8Size = 1 := rfl
    have hcolon : ':'.utf8Size = 1 := rfl
    omega

theorem size_obj (field : List Char × Json) (fields : List (List Char × Json)) :
    size (.obj (field :: fields)) = 1 + ((field :: fields).map fieldSize).sum := by
  obtain ⟨k, v⟩ := field
  simp only [size, encode, utf8Bytes_cons, utf8Bytes_append, utf8Bytes_encodeFields, List.map_cons, List.sum_cons, fieldSize]
  have hbrace : '\x7b'.utf8Size = 1 := rfl
  have hcolon : ':'.utf8Size = 1 := rfl
  omega

theorem utf8Bytes_encodeItems (items : List Json) :
    utf8Bytes (encodeItems serdeEscaping.escape items) = 1 + (items.map (1 + size ·)).sum := by
  induction items with
  | nil => rfl
  | cons v items ih =>
    simp only [encodeItems, utf8Bytes_cons, utf8Bytes_append, ih, List.map_cons, List.sum_cons, size]
    have hcomma : ','.utf8Size = 1 := rfl
    omega

theorem size_arr {items : List Json} (h : items ≠ []) : size (.arr items) = 1 + (items.map (1 + size ·)).sum := by
  cases items with
  | nil => exact absurd rfl h
  | cons v items =>
    simp only [size, encode, utf8Bytes_cons, utf8Bytes_append, utf8Bytes_encodeItems, List.map_cons, List.sum_cons]
    have hbracket : '['.utf8Size = 1 := rfl
    omega

theorem size_str (text : List Char) : size (.str text) = 2 + jsonStringContentLen text := by
  have hescaped : utf8Bytes (text.flatMap serdeEscaping.escape) = jsonStringContentLen text :=
    utf8Bytes_flatMap_escape serdeJson text
  simp only [size, encode, quoted, utf8Bytes_cons, utf8Bytes_append, hescaped]
  have hquote : '"'.utf8Size = 1 := rfl
  have hnone : utf8Bytes [] = 0 := rfl
  omega

/-- The inputs are a value of their own in the request. -/
theorem size_params (p : TurnStartParams) (a b : List UserInput) :
    size { p with input := a }.toJson + size (.arr (b.map UserInput.toJson)) =
      size { p with input := b }.toJson + size (.arr (a.map UserInput.toJson)) := by
  have hmember : ∀ name v, member name (some v) = [(name.toList, v)] := fun _ _ => rfl
  simp only [TurnStartParams.toJson, hmember, List.cons_append, List.nil_append, size_obj, List.map_cons, List.map_append,
    List.sum_append, List.sum_cons, List.map_nil, List.sum_nil, fieldSize]
  omega

/-! ## Characters of the text -/

/-- The bytes in the request of a character of the user's text. -/
def characterCost (c : Char) : ℕ :=
  if c = '<' ∨ c = '>' ∨ c = '&' then 7
  else if c = '"' ∨ c = '\\' then 4
  else if c ∈ shortEscapes then 3
  else if c.toNat < 0x20 then 7
  else c.utf8Size

theorem jsonStringContentLen_safeEscaping (c : Char) :
    jsonStringContentLen ((safeEscaping serdeEscaping).escape c) = characterCost c := by
  by_cases hmarkup : c = '<' ∨ c = '>' ∨ c = '&'
  · rcases hmarkup with rfl | rfl | rfl <;> decide
  by_cases hshort : c ∈ shortEscapes
  · simp only [shortEscapes, List.mem_cons, List.not_mem_nil, or_false] at hshort
    rcases hshort with rfl | rfl | rfl | rfl | rfl | rfl | rfl <;> decide
  by_cases hcontrol : c.toNat < 0x20
  · have hall : ∀ n < 0x20, jsonStringContentLen ((safeEscaping serdeEscaping).escape (Char.ofNat n)) =
        characterCost (Char.ofNat n) := by decide
    simpa using hall c.toNat hcontrol
  · have hplain : serdeEscaping.escape c = [c] := serdeJson.plain c (Nat.not_lt.1 hcontrol) hshort
    have hself : (safeEscaping serdeEscaping).escape c = [c] := by
      rw [not_or, not_or] at hmarkup
      simp only [safeEscaping, Escaping.replace, hplain, List.flatMap_cons, List.flatMap_nil, List.append_nil,
        replaceChar_of_ne hmarkup.1, replaceChar_of_ne hmarkup.2.1, replaceChar_of_ne hmarkup.2.2]
    have hquote : ¬ (c = '"' ∨ c = '\\') := by
      rintro (rfl | rfl) <;> exact hshort (by decide)
    rw [hself, characterCost, if_neg hmarkup, if_neg hquote, if_neg hshort, if_neg hcontrol]
    simp [jsonStringContentLen, jsonCharacterLen, hshort]
    omega

theorem jsonStringContentLen_append (a b : List Char) :
    jsonStringContentLen (a ++ b) = jsonStringContentLen a + jsonStringContentLen b := by
  simp [jsonStringContentLen]

theorem jsonStringContentLen_flatMap (text : List Char) :
    jsonStringContentLen (text.flatMap (safeEscaping serdeEscaping).escape) = (text.map characterCost).sum := by
  induction text with
  | nil => rfl
  | cons c text ih =>
    rw [List.flatMap_cons, jsonStringContentLen_append, jsonStringContentLen_safeEscaping, ih, List.map_cons, List.sum_cons]

theorem jsonStringContentLen_cons (c : Char) (text : List Char) :
    jsonStringContentLen (c :: text) = jsonCharacterLen c + jsonStringContentLen text := by
  simp [jsonStringContentLen]

theorem jsonStringContentLen_userInput (input : BuildAgentPromptInput) (text : List Char) :
    jsonStringContentLen (safeJsonStringify serdeEscaping (userInputJson { input with userInput := text })) =
      jsonStringContentLen (safeJsonStringify serdeEscaping (userInputJson { input with userInput := [] })) +
        (text.map characterCost).sum := by
  simp only [safeJsonStringify_eq, userInputJson]
  split <;>
    simp only [member, Option.map_some, Option.toList, List.cons_append, List.nil_append, encode, encodeFields, quoted,
      jsonStringContentLen_cons, jsonStringContentLen_append, jsonStringContentLen_flatMap, List.flatMap_nil] <;>
    simp only [jsonStringContentLen, List.map_nil, List.sum_nil] <;> omega

/-- The user's text stands in one place of its prompt. -/
theorem jsonStringContentLen_buildAgentPrompt (input : BuildAgentPromptInput) (text : List Char) :
    jsonStringContentLen (buildAgentPrompt serdeEscaping { input with userInput := text }) =
      jsonStringContentLen (buildAgentPrompt serdeEscaping { input with userInput := [] }) +
        (text.map characterCost).sum := by
  have hvalue := jsonStringContentLen_userInput input text
  simp only [buildAgentPrompt]
  split_ifs <;>
    simp only [List.cons_append, List.nil_append, List.intercalate_cons_cons, List.intercalate_singleton, promptSection,
      jsonStringContentLen_append, jsonStringContentLen_cons] <;> omega

/-- The message without its text. -/
def TurnMessage.blank (m : TurnMessage) : TurnMessage :=
  { m with event := { m.event with text := "" }, transcripts := [] }

def TurnMessage.textCost (m : TurnMessage) : ℕ := (m.userInput.map characterCost).sum

theorem userInput_blank (m : TurnMessage) : m.blank.userInput = [] := by
  simp [TurnMessage.userInput, TurnMessage.blank]

section Request

variable (systemPrompt : List Char) (botOpenId : Option (List Char)) (topicContext : List PromptQuotedMessage)

/-- The bytes of the inputs of a message, each with its comma. -/
def inputsSize (inputs : List UserInput) : ℕ := ((inputs.map UserInput.toJson).map (1 + size ·)).sum

theorem inputsSize_message (m : TurnMessage) : inputsSize (m.inputs systemPrompt botOpenId topicContext) =
    inputsSize (m.blank.inputs systemPrompt botOpenId topicContext) + m.textCost := by
  have hprompt := jsonStringContentLen_buildAgentPrompt (m.promptInput botOpenId topicContext) m.userInput
  have hblank : m.blank.promptInput botOpenId topicContext =
      { m.promptInput botOpenId topicContext with userInput := [] } := by
    rw [TurnMessage.promptInput, userInput_blank]
    rfl
  simp only [inputsSize, TurnMessage.inputs, List.map_append, List.sum_append, List.map_cons, List.map_nil, List.sum_cons,
    List.sum_nil, UserInput.toJson, member, Option.map_some, Option.toList, List.cons_append, List.nil_append, size_obj,
    fieldSize, size_str, prefixBridgeSystemPrompt, jsonStringContentLen_append, hblank, TurnMessage.textCost]
  have hsame : m.blank.attachments = m.attachments := rfl
  rw [hsame]
  change jsonStringContentLen (buildAgentPrompt serdeEscaping (m.promptInput botOpenId topicContext)) = _ at hprompt
  omega

theorem inputsSize_messages (messages : List TurnMessage) :
    inputsSize (assembleTurnInputs systemPrompt botOpenId topicContext messages) =
      inputsSize (assembleTurnInputs systemPrompt botOpenId topicContext (messages.map TurnMessage.blank)) +
        (messages.map TurnMessage.textCost).sum := by
  induction messages with
  | nil => rfl
  | cons m messages ih =>
    have happend : ∀ a b : List UserInput, inputsSize (a ++ b) = inputsSize a + inputsSize b := by simp [inputsSize]
    have hm := inputsSize_message systemPrompt botOpenId topicContext m
    simp only [assembleTurnInputs, List.map_cons, List.flatMap_cons, happend, List.sum_cons] at ih ⊢
    omega

/-- The request is longer than the one without the texts by their characters. -/
theorem size_request (p : TurnStartParams) (messages : List TurnMessage) :
    size { p with input := assembleTurnInputs systemPrompt botOpenId topicContext messages }.toJson =
      size { p with input := assembleTurnInputs systemPrompt botOpenId topicContext (messages.map TurnMessage.blank) }.toJson +
        (messages.map TurnMessage.textCost).sum := by
  have hparams := size_params p (assembleTurnInputs systemPrompt botOpenId topicContext messages)
    (assembleTurnInputs systemPrompt botOpenId topicContext (messages.map TurnMessage.blank))
  have hinputs := inputsSize_messages systemPrompt botOpenId topicContext messages
  cases messages with
  | nil => simp
  | cons m messages =>
    have hne : ∀ m (messages : List TurnMessage),
        (assembleTurnInputs systemPrompt botOpenId topicContext (m :: messages)).map UserInput.toJson ≠ [] := by
      intro m messages
      simp only [assembleTurnInputs, List.flatMap_cons, TurnMessage.inputs, List.map_append, List.map_cons, ne_eq,
        List.append_eq_nil_iff, List.cons_ne_nil, and_false, false_and, not_false_iff]
    rw [size_arr (hne m messages), List.map_cons, size_arr (hne _ _), ← inputsSize, ← inputsSize, ← List.map_cons] at hparams
    omega

theorem request_isSome (p : TurnStartParams) (messages : List TurnMessage) :
    (countSerialized "turn/start"
        { p with input := assembleTurnInputs systemPrompt botOpenId topicContext messages }.toJson).isSome ↔
      size { p with input := assembleTurnInputs systemPrompt botOpenId topicContext (messages.map TurnMessage.blank) }.toJson +
        (messages.map TurnMessage.textCost).sum ≤ 1048310 := by
  have hmaximum : maxOutboundValueWireBytes - ("turn/start".utf8ByteSize + 256) = 1048310 := by decide
  rw [countSerialized_isSome, hmaximum, size_request]

end Request

/-! ## Admitted batches -/

/-- Text, and identifiers that are not long. -/
structure TurnMessage.Plain (m : TurnMessage) : Prop where
  mentions : m.event.mentions = []
  quotedMessages : m.quotedMessages = []
  attachments : m.attachments = []
  transcripts : m.transcripts = []
  identifiers : ∀ id ∈ [m.event.messageId, m.event.chatId, m.event.senderId] ++ m.event.threadId.toList, id.utf8ByteSize ≤ 64

/-- A batch of plain messages that the actor collects. -/
structure Admitted (messages : List TurnMessage) : Prop where
  count : messages.length ≤ turnBatchMaxMessages
  bytes : (messages.map (·.event.text.utf8ByteSize)).sum ≤ turnBatchTextByteBudget
  plain : ∀ m ∈ messages, m.Plain

/-- **A batch is accepted exactly when its request without the texts leaves room for their characters, each with the
bytes of its escapes.** -/
theorem request_accepted_iff (systemPrompt : List Char) (botOpenId : Option (List Char)) (p : TurnStartParams)
    (messages : List TurnMessage) (h : Admitted messages) :
    (countSerialized "turn/start" { p with input := assembleTurnInputs systemPrompt botOpenId [] messages }.toJson).isSome ↔
      size { p with input := assembleTurnInputs systemPrompt botOpenId [] (messages.map TurnMessage.blank) }.toJson +
        (messages.map fun m => (m.event.text.toList.map characterCost).sum).sum ≤ 1048310 := by
  have htexts : messages.map TurnMessage.textCost = messages.map fun m => (m.event.text.toList.map characterCost).sum :=
    List.map_congr_left fun m hm => by rw [TurnMessage.textCost, TurnMessage.userInput, if_pos (h.plain m hm).transcripts]
  rw [← htexts]
  exact request_isSome systemPrompt botOpenId [] p messages

/-- A message of `n` markup characters. -/
def lessThans (n : ℕ) : TurnMessage where
  event := {
    eventId := "evt_1", messageId := "om_1", chatId := "oc_1", senderId := "ou_1", chatType := .p2p, threadId := none,
    rootId := none, replyToMessageId := none, text := String.ofList (List.replicate n '<'), mentionsBot := true,
    mentionAll := false, senderIsHuman := true, mentions := [], parts := [], resources := [], messageType := "text",
    createTimeMs := 0, scope := .chat "oc_1" }
  senderName := none
  quotedMessages := []
  attachments := []
  transcripts := []

theorem admitted_lessThans {n : ℕ} (h : n ≤ turnBatchTextByteBudget) : Admitted [lessThans n] where
  count := by simp [turnBatchMaxMessages]
  bytes := by
    have hlen : String.utf8Len (List.replicate n '<') = n := by
      clear h
      induction n with
      | zero => rfl
      | succ n ih => rw [List.replicate_succ, String.utf8Len, ih]; rfl
    simpa [lessThans, String.utf8ByteSize_ofList, hlen] using h
  plain := by
    simp only [List.mem_singleton, forall_eq]
    exact ⟨rfl, rfl, rfl, rfl, by simp [lessThans]; decide⟩

theorem textCost_lessThans (n : ℕ) : (lessThans n).textCost = n * 7 := by
  have hone : characterCost '<' = 7 := by decide
  simp [TurnMessage.textCost, TurnMessage.userInput, lessThans, hone]

/-- Fewer of these characters are refused than the actor collects. -/
theorem lessThans_refused : Admitted [lessThans 150000] ∧ ∀ systemPrompt botOpenId (p : TurnStartParams),
    countSerialized "turn/start" { p with input := assembleTurnInputs systemPrompt botOpenId [] [lessThans 150000] }.toJson =
      none := by
  refine ⟨admitted_lessThans (by decide), fun systemPrompt botOpenId p => ?_⟩
  have hrefused := (request_isSome systemPrompt botOpenId [] p [lessThans 150000]).not
  rw [List.map_singleton, List.map_singleton, List.sum_singleton, textCost_lessThans] at hrefused
  rw [← Option.not_isSome_iff_eq_none, hrefused]
  omega

set_option maxRecDepth 20000 in
theorem lessThans_accepted : (countSerialized "turn/start" (TurnStartParams.toJson
    { threadId := ['t'], input := assembleTurnInputs [] none [] [lessThans 3], sandboxPolicy := .null,
      approvalPolicy := .null, clientUserMessageId := ['m'], cwd := ['/'], effort := none, model := none })).isSome :=
  (request_accepted_iff [] none ⟨['t'], [], .null, .null, ['m'], ['/'], none, none⟩ [lessThans 3]
    (admitted_lessThans (by decide))).2 (by decide)

end LarkCodexBridge.Runtime.Prompt
