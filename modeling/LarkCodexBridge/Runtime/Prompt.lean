import LarkCodexBridge.Lib.Json
import LarkCodexBridge.Render.Split

/-!
# The prompt of a turn

`buildAgentPrompt` writes the conversation, the quoted messages, the topic and the user's text as sections between tags,
each with its value as JSON in which `<`, `>` and `&` are replaced after encoding. The serializer's escaping is a
parameter; derived structures keep the order of their fields, `json!` maps sort them.

* `safeJsonStringify_eq`: the replacement on the encoded text is a standard escaping of the strings;
* `splitOn_buildAgentPrompt`: the lines of a prompt;
* `prompt_sections`: only the tags start with `<`, each body is one line that decodes to its value, and the prompt
  determines the input.
-/

namespace LarkCodexBridge.Runtime.Prompt

open Json

/-! ## Inputs -/

structure PromptMention where
  openId : Option (List Char)
  name : Option (List Char)
  isBot : Option Bool

/-- Conversation metadata at the top of every user turn. -/
structure PromptContext where
  chatId : List Char
  chatType : List Char
  senderId : List Char
  senderName : Option (List Char)
  senderType : List Char
  botOpenId : Option (List Char)
  mentions : List PromptMention
  threadId : Option (List Char)
  messageIds : List (List Char)
  source : List Char

structure PromptQuotedMessage where
  messageId : List Char
  senderId : Option (List Char)
  senderName : Option (List Char)
  rawContentType : List Char
  content : List Char
  status : List Char

/-- A local attachment already downloaded into the bounded cache. -/
structure PromptAttachment where
  path : List Char
  kind : List Char
  hash : Option (List Char)
  size : Option ℕ

structure BuildAgentPromptInput where
  context : PromptContext
  userInput : List Char
  quotedMessages : List PromptQuotedMessage
  topicContext : List PromptQuotedMessage
  attachments : List PromptAttachment

/-! ## Serialized values -/

def PromptMention.toJson (m : PromptMention) : Json :=
  .obj (member "openId" (m.openId.map .str) ++ member "name" (m.name.map .str) ++ member "isBot" (m.isBot.map .bool))

/-- A list field that is left out when it is empty. -/
def nonempty {α : Type} (toJson : α → Json) (items : List α) : Option Json :=
  if items = [] then none else some (.arr (items.map toJson))

def PromptContext.toJson (c : PromptContext) : Json :=
  .obj (member "chatId" (some (.str c.chatId)) ++ member "chatType" (some (.str c.chatType)) ++
    member "senderId" (some (.str c.senderId)) ++ member "senderName" (c.senderName.map .str) ++
    member "senderType" (some (.str c.senderType)) ++ member "botOpenId" (c.botOpenId.map .str) ++
    member "mentions" (nonempty PromptMention.toJson c.mentions) ++ member "threadId" (c.threadId.map .str) ++
    member "messageIds" (nonempty .str c.messageIds) ++ member "source" (some (.str c.source)))

def PromptQuotedMessage.toJson (m : PromptQuotedMessage) : Json :=
  .obj (member "messageId" (some (.str m.messageId)) ++ member "senderId" (m.senderId.map .str) ++
    member "senderName" (m.senderName.map .str) ++ member "rawContentType" (some (.str m.rawContentType)) ++
    member "content" (some (.str m.content)) ++ member "status" (some (.str m.status)))

/-- An attachment as a value of a `json!` map, its fields sorted. -/
def PromptAttachment.toJson (a : PromptAttachment) : Json :=
  .obj (member "hash" (a.hash.map .str) ++ member "kind" (some (.str a.kind)) ++ member "path" (some (.str a.path)) ++
    member "size" (a.size.map .num))

/-- The `json!` map of the user's text and attachments, its fields sorted. -/
def userInputJson (input : BuildAgentPromptInput) : Json :=
  if input.attachments = [] then .obj (member "text" (some (.str input.userInput)))
  else
    .obj (member "attachments" (some (.arr (input.attachments.map PromptAttachment.toJson))) ++
      member "text" (some (.str input.userInput)))

/-! ## The prompt -/

section Build

variable (E : Escaping)

def safeJsonStringify (value : Json) : List Char :=
  (((encode E.escape value).flatMap (replaceChar '<' "\\u003c".toList)).flatMap
    (replaceChar '>' "\\u003e".toList)).flatMap (replaceChar '&' "\\u0026".toList)

def openTag (tag : String) : List Char := '<' :: (tag.toList ++ ['>'])

def closeTag (tag : String) : List Char := '<' :: '/' :: (tag.toList ++ ['>'])

def promptSection (tag : String) (value : Json) : List Char :=
  openTag tag ++ '\n' :: (safeJsonStringify E value ++ '\n' :: closeTag tag)

def buildAgentPrompt (input : BuildAgentPromptInput) : List Char :=
  let sections := [promptSection E "bridge_context" input.context.toJson]
  let sections := if input.quotedMessages = [] then sections else
    sections ++ [promptSection E "quoted_messages" (.arr (input.quotedMessages.map PromptQuotedMessage.toJson))]
  let sections := if input.topicContext = [] then sections else
    sections ++ [promptSection E "topic_context" (.arr (input.topicContext.map PromptQuotedMessage.toJson))]
  let sections := sections ++ [promptSection E "user_input" (userInputJson input)]
  ['\n', '\n'].intercalate sections

end Build

/-! ## Values determine inputs -/

theorem str_injective : Function.Injective Json.str := fun _ _ => Json.str.inj

theorem nonempty_injective {α : Type} {toJson : α → Json} (h : Function.Injective toJson) :
    Function.Injective (nonempty toJson) := by
  intro a b hab
  unfold nonempty at hab
  split at hab <;> split at hab
  · simp_all
  · cases hab
  · cases hab
  · exact List.map_injective_iff.2 h (Json.arr.inj (Option.some.inj hab))

theorem PromptMention.toJson_injective : Function.Injective PromptMention.toJson := by
  intro a b h
  have hopen := congrArg (get "openId") h
  have hname := congrArg (get "name") h
  have hbot := congrArg (get "isBot") h
  simp [toJson] at hopen hname hbot
  have hopen := Option.map_injective str_injective hopen
  have hname := Option.map_injective str_injective hname
  have hbot := Option.map_injective (fun _ _ => Json.bool.inj) hbot
  cases a
  cases b
  simp_all

theorem PromptContext.toJson_injective : Function.Injective PromptContext.toJson := by
  intro a b h
  have hget := fun name => congrArg (get name) h
  have hchat := hget "chatId"
  have htype := hget "chatType"
  have hsender := hget "senderId"
  have hname := hget "senderName"
  have hsenderType := hget "senderType"
  have hbot := hget "botOpenId"
  have hmentions := hget "mentions"
  have hthread := hget "threadId"
  have hmessages := hget "messageIds"
  have hsource := hget "source"
  simp [toJson] at hchat htype hsender hname hsenderType hbot hmentions hthread hmessages hsource
  have hname := Option.map_injective str_injective hname
  have hbot := Option.map_injective str_injective hbot
  have hmentions := nonempty_injective PromptMention.toJson_injective hmentions
  have hthread := Option.map_injective str_injective hthread
  have hmessages := nonempty_injective str_injective hmessages
  cases a
  cases b
  simp_all

theorem PromptQuotedMessage.toJson_injective : Function.Injective PromptQuotedMessage.toJson := by
  intro a b h
  have hget := fun name => congrArg (get name) h
  have hmessage := hget "messageId"
  have hsender := hget "senderId"
  have hname := hget "senderName"
  have htype := hget "rawContentType"
  have hcontent := hget "content"
  have hstatus := hget "status"
  simp [toJson] at hmessage hsender hname htype hcontent hstatus
  have hsender := Option.map_injective str_injective hsender
  have hname := Option.map_injective str_injective hname
  cases a
  cases b
  simp_all

theorem PromptAttachment.toJson_injective : Function.Injective PromptAttachment.toJson := by
  intro a b h
  have hget := fun name => congrArg (get name) h
  have hpath := hget "path"
  have hkind := hget "kind"
  have hhash := hget "hash"
  have hsize := hget "size"
  simp [toJson] at hpath hkind hhash hsize
  have hhash := Option.map_injective str_injective hhash
  have hsize := Option.map_injective (fun _ _ => Json.num.inj) hsize
  cases a
  cases b
  simp_all

/-- The user's value determines the text and the attachments. -/
theorem userInputJson_injective {a b : BuildAgentPromptInput} (h : userInputJson a = userInputJson b) :
    a.userInput = b.userInput ∧ a.attachments = b.attachments := by
  have htext := congrArg (get "text") h
  have hfiles := congrArg (get "attachments") h
  have hget : ∀ input : BuildAgentPromptInput, get "text" (userInputJson input) = some (.str input.userInput) ∧
      get "attachments" (userInputJson input) = nonempty PromptAttachment.toJson input.attachments := by
    intro input
    unfold userInputJson nonempty
    split <;> simp
  rw [(hget a).1, (hget b).1] at htext
  rw [(hget a).2, (hget b).2] at hfiles
  exact ⟨str_injective (Option.some.inj htext), nonempty_injective PromptAttachment.toJson_injective hfiles⟩

/-! ## The replacement -/

section Escape

variable (E : Escaping)

theorem readChar_less : readChar "\\u003c".toList = some ('<', []) := by decide

theorem readChar_greater : readChar "\\u003e".toList = some ('>', []) := by decide

theorem readChar_ampersand : readChar "\\u0026".toList = some ('&', []) := by decide

/-- The serializer's escaping with the replacements. -/
def safeEscaping : Escaping :=
  ((E.replace '<' "\\u003c".toList (by decide) readChar_less).replace '>' "\\u003e".toList (by decide)
    readChar_greater).replace '&' "\\u0026".toList (by decide) readChar_ampersand

/-- Replacing in the encoded text only changes how strings are written. -/
theorem safeJsonStringify_eq (value : Json) : safeJsonStringify E value = encode (safeEscaping E).escape value := by
  rw [safeJsonStringify, encode_replace _ (by decide), encode_replace _ (by decide), encode_replace _ (by decide)]
  rfl

theorem decode_safeJsonStringify (value : Json) : decode (safeJsonStringify E value) = some value := by
  rw [safeJsonStringify_eq, decode_encode]

/-- A body is one line without the characters of tags. -/
theorem safeJsonStringify_plain {value : Json} {c : Char} (h : c ∈ safeJsonStringify E value) :
    0x20 ≤ c.toNat ∧ c ≠ '<' ∧ c ≠ '>' ∧ c ≠ '&' := by
  refine ⟨encode_printable (safeEscaping E) (safeJsonStringify_eq E value ▸ h), ?_⟩
  obtain ⟨hamp, hmem | hmem⟩ := mem_flatMap_replaceChar (by decide) h
  · obtain ⟨hgreater, hmem | hmem⟩ := mem_flatMap_replaceChar (by decide) hmem
    · exact ⟨(mem_flatMap_replaceChar (by decide) hmem).1, hgreater, hamp⟩
    · refine ⟨?_, hgreater, hamp⟩
      rintro rfl
      revert hmem
      decide
  · refine ⟨?_, ?_, hamp⟩ <;>
      · rintro rfl
        revert hmem
        decide

theorem readChar_control {n : ℕ} (h : n < 0x20) :
    readChar ['\\', 'u', '0', '0', (n / 16).digitChar, (n % 16).digitChar] = some (Char.ofNat n, []) := by
  interval_cases n <;> decide

/-- The escapes of `serde_json` are read back. -/
def serdeEscaping : Escaping where
  escape := Render.Markdown.escapeJson
  reads c := by
    unfold Render.Markdown.escapeJson
    split_ifs with hself hb ht hn hf hr hcontrol
    · rcases hself with rfl | rfl <;> decide
    · exact hb ▸ by decide
    · exact ht ▸ by decide
    · exact hn ▸ by decide
    · exact hf ▸ by decide
    · exact hr ▸ by decide
    · rw [readChar_control hcontrol, Char.ofNat_toNat]
    · rw [not_or] at hself
      have hplain : IsPlain c := ⟨hself.1, hself.2, by omega⟩
      simp [readChar, hself.2, hplain]

example : safeJsonStringify serdeEscaping (.obj [(['x'], .str "<s>&\n".toList)]) =
    "\x7b\"x\":\"\\u003cs\\u003e\\u0026\\n\"\x7d".toList := by decide

end Escape

/-! ## Lines -/

section Lines

variable {α : Type}

theorem intercalate_append (s : α) {a b : List (List α)} (ha : a ≠ []) (hb : b ≠ []) :
    [s].intercalate (a ++ b) = [s].intercalate a ++ s :: [s].intercalate b := by
  induction a with
  | nil => exact absurd rfl ha
  | cons x a ih =>
    cases a with
    | nil => rw [List.singleton_append, List.intercalate_cons_of_ne_nil hb]; simp
    | cons y a =>
      rw [List.cons_append, List.intercalate_cons_of_ne_nil (by simp), ih (by simp), List.intercalate_cons_cons]
      simp

/-- Texts of several lines joined with blank lines. -/
theorem intercalate_blocks (s : α) (blocks : List (List (List α))) (h : ∀ b ∈ blocks, b ≠ []) :
    [s, s].intercalate (blocks.map [s].intercalate) = [s].intercalate ([[]].intercalate blocks) := by
  induction blocks with
  | nil => rfl
  | cons b blocks ih =>
    obtain ⟨hb, hrest⟩ := List.forall_mem_cons.1 h
    cases blocks with
    | nil => simp
    | cons b' blocks =>
      have hne : [[]].intercalate (b' :: blocks) ≠ [] := by
        have hb' := hrest b' List.mem_cons_self
        cases blocks <;> simp [hb']
      rw [List.map_cons, List.intercalate_cons_of_ne_nil (by simp), ih hrest,
        List.intercalate_cons_cons, List.append_assoc b, List.singleton_append, intercalate_append s hb (by simp),
        List.intercalate_cons_of_ne_nil hne]
      simp

end Lines

/-! ## Sections -/

/-- The sections of a prompt: tags and values in their order. -/
def promptSections (input : BuildAgentPromptInput) : List (String × Json) :=
  [("bridge_context", input.context.toJson)] ++
    (if input.quotedMessages = [] then []
      else [("quoted_messages", .arr (input.quotedMessages.map PromptQuotedMessage.toJson))]) ++
    (if input.topicContext = [] then []
      else [("topic_context", .arr (input.topicContext.map PromptQuotedMessage.toJson))]) ++
    [("user_input", userInputJson input)]

def sectionLines (E : Escaping) (s : String × Json) : List (List Char) :=
  [openTag s.1, safeJsonStringify E s.2, closeTag s.1]

theorem tag_of_mem {input : BuildAgentPromptInput} {s : String × Json} (h : s ∈ promptSections input) :
    s.1 ∈ ["bridge_context", "quoted_messages", "topic_context", "user_input"] := by
  unfold promptSections at h
  split at h <;> split at h <;> simp at h <;> grind

variable (E : Escaping)

theorem promptSection_eq (tag : String) (value : Json) :
    promptSection E tag value = ['\n'].intercalate (sectionLines E (tag, value)) := by
  simp [promptSection, sectionLines]

theorem buildAgentPrompt_eq (input : BuildAgentPromptInput) : buildAgentPrompt E input =
    ['\n'].intercalate ([[]].intercalate ((promptSections input).map (sectionLines E))) := by
  have hne : ∀ b ∈ (promptSections input).map (sectionLines E), b ≠ [] := by
    simp only [List.mem_map]
    rintro b ⟨s, -, rfl⟩
    simp [sectionLines]
  rw [← intercalate_blocks _ _ hne, List.map_map]
  unfold buildAgentPrompt promptSections
  split <;> split <;> simp [promptSection_eq]

theorem tag_lines {tag : String} (h : tag ∈ ["bridge_context", "quoted_messages", "topic_context", "user_input"]) :
    '\n' ∉ openTag tag ∧ '\n' ∉ closeTag tag := by
  simp only [List.mem_cons, List.not_mem_nil, or_false] at h
  rcases h with rfl | rfl | rfl | rfl <;> decide

theorem not_mem_safeJsonStringify (value : Json) : '\n' ∉ safeJsonStringify E value := fun h =>
  absurd (safeJsonStringify_plain E h).1 (by decide)

theorem mem_intercalate_nil {α : Type} {x : List α} {blocks : List (List (List α))}
    (h : x ∈ [[]].intercalate blocks) : x = [] ∨ ∃ b ∈ blocks, x ∈ b := by
  induction blocks with
  | nil => cases h
  | cons b blocks ih =>
    cases blocks with
    | nil => exact .inr ⟨b, by simp, by simpa using h⟩
    | cons b' blocks =>
      rw [List.intercalate_cons_cons, List.append_assoc, List.mem_append, List.singleton_append, List.mem_cons] at h
      rcases h with h | h | h
      · exact .inr ⟨b, by simp, h⟩
      · exact .inl h
      · rcases ih h with h | ⟨c, hc, hx⟩
        · exact .inl h
        · exact .inr ⟨c, List.mem_cons_of_mem _ hc, hx⟩

/-- The lines of a prompt are those of its sections, with blank lines between them. -/
theorem splitOn_buildAgentPrompt (input : BuildAgentPromptInput) : (buildAgentPrompt E input).splitOn '\n' =
    [[]].intercalate ((promptSections input).map (sectionLines E)) := by
  rw [buildAgentPrompt_eq, List.splitOn_intercalate]
  · intro l hl
    rcases mem_intercalate_nil hl with rfl | ⟨b, hb, hmem⟩
    · simp
    · obtain ⟨s, hs, rfl⟩ := List.mem_map.1 hb
      obtain ⟨hopen, hclose⟩ := tag_lines (tag_of_mem hs)
      simp only [sectionLines, List.mem_cons, List.not_mem_nil, or_false] at hmem
      rcases hmem with rfl | rfl | rfl
      · exact hopen
      · exact not_mem_safeJsonStringify E s.2
      · exact hclose
  · unfold promptSections
    split <;> split <;> simp [sectionLines]

theorem filter_intercalate_nil {α : Type} {p : List α → Bool} (hp : p [] = false) (blocks : List (List (List α))) :
    ([[]].intercalate blocks).filter p = blocks.flatMap (List.filter p) := by
  induction blocks with
  | nil => rfl
  | cons b blocks ih =>
    cases blocks with
    | nil => simp
    | cons b' blocks =>
      rw [List.intercalate_cons_cons, List.filter_append, List.filter_append, ih, List.flatMap_cons]
      simp [hp]

/-- A line that starts a tag. -/
def isTag (line : List Char) : Bool := line.head? == some '<'

/-- A line that is neither blank nor starts a tag. -/
def isBody (line : List Char) : Bool := line ≠ [] && !isTag line

theorem isBody_safeJsonStringify (value : Json) : isBody (safeJsonStringify E value) = true := by
  obtain ⟨c, t, hc, -⟩ := encode_head (safeEscaping E) value
  have hplain := @safeJsonStringify_plain E value c (by rw [safeJsonStringify_eq, hc]; simp)
  rw [safeJsonStringify_eq, hc]
  simp [isBody, isTag, hplain.2.1]

/-- Tags and bodies are told apart by their first character. -/
theorem filter_sectionLines (s : String × Json) :
    (sectionLines E s).filter isTag = [openTag s.1, closeTag s.1] ∧
      (sectionLines E s).filter isBody = [safeJsonStringify E s.2] := by
  have hbody := isBody_safeJsonStringify E s.2
  have htag : isTag (safeJsonStringify E s.2) = false := by
    simp only [isBody, Bool.and_eq_true, Bool.not_eq_true'] at hbody
    exact hbody.2
  have hopen : isTag (openTag s.1) = true := rfl
  have hclose : isTag (closeTag s.1) = true := rfl
  constructor
  · simp only [sectionLines, List.filter_cons, List.filter_nil, hopen, htag, hclose, if_true, Bool.false_eq_true,
      if_false]
  · have hnone : ∀ line, isTag line = true → isBody line = false := fun line h => by simp [isBody, h]
    simp only [sectionLines, List.filter_cons, List.filter_nil, hbody, hnone _ hopen, hnone _ hclose, if_true,
      Bool.false_eq_true, if_false]

theorem tags_buildAgentPrompt (input : BuildAgentPromptInput) :
    ((buildAgentPrompt E input).splitOn '\n').filter isTag =
      (promptSections input).flatMap fun s => [openTag s.1, closeTag s.1] := by
  rw [splitOn_buildAgentPrompt, filter_intercalate_nil rfl, List.flatMap_map]
  simp only [filter_sectionLines]

theorem bodies_buildAgentPrompt (input : BuildAgentPromptInput) :
    ((buildAgentPrompt E input).splitOn '\n').filter isBody =
      (promptSections input).map fun s => safeJsonStringify E s.2 := by
  rw [splitOn_buildAgentPrompt, filter_intercalate_nil rfl, List.flatMap_map]
  simp only [filter_sectionLines]
  exact List.flatMap_pure_eq_map _ _

theorem openTag_injective : Function.Injective openTag := by
  intro a b h
  simpa [openTag, String.toList_inj] using h

theorem tags_of_flatMap {a b : List (String × Json)}
    (h : (a.flatMap fun s => [openTag s.1, closeTag s.1]) = b.flatMap fun s => [openTag s.1, closeTag s.1]) :
    a.map Prod.fst = b.map Prod.fst := by
  induction a generalizing b with
  | nil =>
    cases b with
    | nil => rfl
    | cons s b => simp at h
  | cons s a ih =>
    cases b with
    | nil => simp at h
    | cons s' b =>
      simp only [List.flatMap_cons, List.cons_append, List.nil_append, List.cons.injEq] at h
      rw [List.map_cons, List.map_cons, openTag_injective h.1, ih h.2.2]

theorem promptSections_of_buildAgentPrompt {a b : BuildAgentPromptInput}
    (h : buildAgentPrompt E a = buildAgentPrompt E b) : promptSections a = promptSections b := by
  have htags := tags_of_flatMap ((tags_buildAgentPrompt E a).symm.trans (h ▸ tags_buildAgentPrompt E b))
  have hbodies := (bodies_buildAgentPrompt E a).symm.trans (h ▸ bodies_buildAgentPrompt E b)
  have hvalues := congrArg (List.map decode) hbodies
  simp only [List.map_map, Function.comp_def, decode_safeJsonStringify] at hvalues
  have hvalues : (promptSections a).map Prod.snd = (promptSections b).map Prod.snd :=
    List.map_injective_iff.2 (Option.some_injective Json) (by simpa [Function.comp_def] using hvalues)
  rw [← List.zip_unzip (promptSections a), ← List.zip_unzip (promptSections b), List.unzip_eq_map, List.unzip_eq_map,
    htags, hvalues]

theorem promptSections_injective : Function.Injective promptSections := by
  intro a b h
  have hget : ∀ input : BuildAgentPromptInput,
      (promptSections input).lookup "bridge_context" = some input.context.toJson ∧
      (promptSections input).lookup "quoted_messages" = nonempty PromptQuotedMessage.toJson input.quotedMessages ∧
      (promptSections input).lookup "topic_context" = nonempty PromptQuotedMessage.toJson input.topicContext ∧
      (promptSections input).lookup "user_input" = some (userInputJson input) := by
    intro input
    unfold promptSections nonempty
    split <;> split <;> simp [List.lookup_cons]
  obtain ⟨hcontext, hquoted, htopic, huser⟩ := hget a
  obtain ⟨hcontext', hquoted', htopic', huser'⟩ := hget b
  rw [h] at hcontext hquoted htopic huser
  have hcontext := PromptContext.toJson_injective (Option.some.inj (hcontext.symm.trans hcontext'))
  have hquoted := nonempty_injective PromptQuotedMessage.toJson_injective (hquoted.symm.trans hquoted')
  have htopic := nonempty_injective PromptQuotedMessage.toJson_injective (htopic.symm.trans htopic')
  obtain ⟨htext, hfiles⟩ := userInputJson_injective (Option.some.inj (huser.symm.trans huser'))
  cases a
  cases b
  simp_all

theorem promptSections_tags (input : BuildAgentPromptInput) :
    ((promptSections input).map Prod.fst).Sublist
      ["bridge_context", "quoted_messages", "topic_context", "user_input"] := by
  unfold promptSections
  split <;> split <;> simp

/-- **Sections cannot be forged.** The lines of a prompt are its sections' tags and bodies in the fixed order, the tags
are the only lines that start with `<`, every body is one line without `<`, `>` and `&` that decodes to the value
serialized, and different inputs have different prompts. -/
theorem prompt_sections :
    (∀ input : BuildAgentPromptInput,
      buildAgentPrompt E input =
          ['\n', '\n'].intercalate ((promptSections input).map fun s => promptSection E s.1 s.2) ∧
        ((promptSections input).map Prod.fst).Sublist
          ["bridge_context", "quoted_messages", "topic_context", "user_input"] ∧
        (buildAgentPrompt E input).splitOn '\n' =
          [[]].intercalate ((promptSections input).map fun s => [openTag s.1, safeJsonStringify E s.2, closeTag s.1]) ∧
        ((buildAgentPrompt E input).splitOn '\n').filter (fun line => line.head? == some '<') =
          ((promptSections input).flatMap fun s => [openTag s.1, closeTag s.1]) ∧
        ∀ s ∈ promptSections input,
          (∀ c ∈ safeJsonStringify E s.2, 0x20 ≤ c.toNat ∧ c ≠ '<' ∧ c ≠ '>' ∧ c ≠ '&') ∧
            decode (safeJsonStringify E s.2) = some s.2) ∧
      Function.Injective (buildAgentPrompt E) := by
  refine ⟨fun input => ⟨?_, promptSections_tags input, splitOn_buildAgentPrompt E input,
    tags_buildAgentPrompt E input, fun s _ => ⟨fun _ => safeJsonStringify_plain E, decode_safeJsonStringify E s.2⟩⟩,
    fun a b h => promptSections_injective (promptSections_of_buildAgentPrompt E h)⟩
  unfold buildAgentPrompt promptSections
  split <;> split <;> simp

end LarkCodexBridge.Runtime.Prompt
