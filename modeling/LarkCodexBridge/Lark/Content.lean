import LarkCodexBridge.Lib.CharBoundary
import LarkCodexBridge.Lib.JsonValue
import LarkCodexBridge.Lark.Normalize
import LarkCodexBridge.Runtime.Live

/-!
# Message content

From the content of a message to its text, its typed parts and its resources (`extractMessageContent`). The kinds of messages
that consist of several texts join them with line feeds up to the bound of the inbound store (`boundJoin`). The reader of JSON
texts is a parameter.

The content of a post may be a JSON text once more. The strings of a document stand in its text between quotes, so every text
that is read from within another one is shorter, and the reading of a post ends.
-/

namespace LarkCodexBridge.Lark

open Limits CharBoundary
open LarkCodexBridge.Runtime (isAsciiControl trimStr)

/-- `serde_json::from_str` on documents. -/
structure JsonReader where
  fromStr : String → Option JsonValue
  /-- The strings of a document stand in its text, each between quotes. -/
  textBytes_lt : ∀ text v, fromStr text = some v → v.textBytes < text.utf8ByteSize

/-! ## Joining texts -/

/-- The loop of `bound_join` on what is already joined. -/
def boundJoinFrom (joined : String) : List String → String
  | [] => joined
  | text :: texts =>
    if text = "" then boundJoinFrom joined texts
    else
      let joined := if joined = "" then joined else joined ++ "\n"
      let remaining := storeInboundTextMaxBytes - joined.utf8ByteSize
      if remaining = 0 then joined
      else if text.utf8ByteSize ≤ remaining then boundJoinFrom (joined ++ text) texts
      else joined ++ sliceTo text (floorBoundary text.toList remaining)

theorem boundJoinFrom_cons (joined text : String) (texts : List String) : boundJoinFrom joined (text :: texts) =
    if text = "" then boundJoinFrom joined texts
    else
      let joined := if joined = "" then joined else joined ++ "\n"
      let remaining := storeInboundTextMaxBytes - joined.utf8ByteSize
      if remaining = 0 then joined
      else if text.utf8ByteSize ≤ remaining then boundJoinFrom (joined ++ text) texts
      else joined ++ sliceTo text (floorBoundary text.toList remaining) := rfl

def boundJoin (texts : List String) : String := boundJoinFrom "" texts

/-! ## Pieces of text -/

/-- What stands before and after the first `pattern`. -/
def breakOn (pattern : List Char) : List Char → Option (List Char × List Char)
  | [] => none
  | c :: rest =>
    match pattern.isPrefixOf? (c :: rest) with
    | some after => some ([], after)
    | none => (breakOn pattern rest).map fun (before, after) => (c :: before, after)

theorem breakOn_length {pattern : List Char} : ∀ {text before after : List Char}, breakOn pattern text = some (before, after) →
    before.length + pattern.length + after.length = text.length
  | c :: rest, before, after, h => by
    rw [breakOn] at h
    split at h
    · next hp =>
      cases h
      have := congrArg List.length (List.isPrefixOf?_eq_some_iff_append_eq.1 hp)
      simpa using this
    · obtain ⟨⟨b, a⟩, hb, hpair⟩ := Option.map_eq_some_iff.1 h
      cases hpair
      have := breakOn_length hb
      simp only [List.length_cons]
      omega

/-- The loop of `strip_mention_tags`: an unterminated tag is left as it is. -/
def stripMentionTagsFrom (rest : List Char) : List Char :=
  match _hopen : breakOn "<at ".toList rest with
  | none => rest
  | some (before, after) =>
    match _hclose : breakOn "</at>".toList ("<at ".toList ++ after) with
    | none => before ++ ("<at ".toList ++ after)
    | some (_, rest) => before ++ stripMentionTagsFrom rest
termination_by rest.length
decreasing_by
  have h₁ := breakOn_length _hopen
  have h₂ := breakOn_length _hclose
  simp only [List.length_append] at h₁ h₂
  have : "</at>".toList.length = 5 := rfl
  omega

def stripMentionTags (text : String) : String := trimStr (String.ofList (stripMentionTagsFrom text.toList))

/-- A string that is not blank, trimmed. -/
def trimmedText (value : Option JsonValue) : Option String := ((value.bind JsonValue.asStr).map trimStr).filter (· ≠ "")

def contentString (value : JsonValue) (key : String) : Option String := (value.getStr key).filter (· ≠ "")

/-- `str::parse::<u64>`. -/
def parseU64 (raw : String) : Option ℕ :=
  let digits := match raw.toList with
    | '+' :: rest => rest
    | all => all
  if digits.isEmpty || !digits.all Char.isDigit then none
  else
    let n := digits.foldl (fun n c => 10 * n + (c.toNat - '0'.toNat)) 0
    if n ≤ u64Max then some n else none

def asU64 : JsonValue → Option ℕ
  | .num (.int n) => if 0 ≤ n ∧ n.toNat ≤ u64Max then some n.toNat else none
  | _ => none

def contentU64 (value : JsonValue) (keys : List String) : Option ℕ :=
  keys.findSome? fun key => (value.get key).bind fun v => (asU64 v).or (v.asStr.bind parseU64)

/-! ## Media -/

def safeFileName (name : String) : Bool :=
  name ≠ "" && name.utf8ByteSize ≤ attachmentFileNameMaxBytes && name ≠ "." && name ≠ ".." &&
    !name.toList.any fun c => isAsciiControl c || c == '/' || c == '\\'

def safeMime (mime : String) : Bool :=
  mime ≠ "" && mime.utf8ByteSize ≤ attachmentMimeMaxBytes && mime.toList.all fun c => 0x20 ≤ c.toNat && c.toNat ≤ 0x7e

/-- `media_part_inner`. -/
def mediaPart (key thumbnailKey : Option String) (value : JsonValue) (transcriptFailure : Option TranscriptFailure) : MediaPart where
  key := key
  thumbnailKey := thumbnailKey
  metadata :=
    { fileName := ((contentString value "file_name").or (contentString value "name")).filter safeFileName
      mimeType := ((contentString value "mime_type").or (contentString value "mime")).filter safeMime
      sizeBytes := contentU64 value ["file_size", "size"]
      durationMs := contentU64 value ["duration_ms", "duration"]
      transcriptFailure := transcriptFailure }
  status := if key.isSome then .available else .unavailable

def resourceDesc (key : Option String) (kind : ResourceKind) : List ResourceDesc :=
  ((key.filter (· ≠ "")).map fun key => ⟨kind, key⟩).toList

def isControl (c : Char) : Bool := c.toNat < 0x20 || (0x7f ≤ c.toNat && c.toNat ≤ 0x9f)

/-- `classify_transcript`, as the failure that is kept: an available text stays in the live handoff. -/
def transcriptFailureOf (text : String) : TranscriptFailure :=
  let trimmed := trimStr text
  if trimmed = "" then .invalid
  else if trimmed.utf8ByteSize > asrTranscriptMaxBytes then .tooLarge
  else if trimmed.toList.any fun c => isControl c && c ≠ '\n' && c ≠ '\t' then .invalid
  else .notRetained

/-- `content_transcript`: the first field that is there decides. -/
def contentTranscript (value : JsonValue) : Option JsonValue :=
  (["text", "transcript", "recognized_text"].findSome? value.get).or
    ((value.get "recognition").map fun recognition => (recognition.get "text").getD recognition)

def audioContent (value : JsonValue) : ExtractedContent where
  text := ""
  mentionsAll := false
  resources := []
  parts := [.audio (mediaPart (contentString value "file_key") none value
    ((contentTranscript value).map fun candidate => candidate.asStr.elim .invalid transcriptFailureOf))]

/-! ## Plain kinds -/

def labeledTextContent (label : String) : ExtractedContent := ⟨label, false, [], [.text label]⟩

/-- The joined texts, or the label where there are none. -/
def joinedOr (texts : List String) (fallback : String) : ExtractedContent :=
  labeledTextContent (if texts.isEmpty then fallback else boundJoin texts)

/-- The texts of `labeled_or_fallback`. -/
def labeledTexts (value : JsonValue) (keys : List String) : List String := keys.filterMap fun key => trimmedText (value.get key)

def labeledOrFallback (value : JsonValue) (keys : List String) (fallback : String) : ExtractedContent :=
  joinedOr (labeledTexts value keys) fallback

def labeledIdOrFallback (value : JsonValue) (fallback : String) (keys : List String) : ExtractedContent :=
  match keys.findSome? fun key => trimmedText (value.get key) with
  | some text => labeledTextContent (fallback ++ ": " ++ text)
  | none => labeledTextContent fallback

/-- The texts of `extract_todo_content`. -/
def todoTexts (value : JsonValue) : List String :=
  let summary := match value.get "summary" with
    | some (.str summary) => (trimmedText (some (.str summary))).toList
    | some (.obj fields) =>
      let summary := JsonValue.obj fields
      (trimmedText (summary.get "title")).toList ++
        (((summary.get "content").bind JsonValue.asArray).getD []).filterMap fun paragraph =>
          paragraph.asArray.bind fun runs =>
            trimmedText (some (.str (String.join (runs.filterMap (·.getStr "text")))))
    | _ => []
  summary ++ (trimmedText (value.get "title")).toList ++ (trimmedText (value.get "text")).toList

/-- The texts of `extract_vote_content`. -/
def voteTexts (value : JsonValue) : List String :=
  (trimmedText (value.get "topic")).toList ++
    (((value.get "options").bind JsonValue.asArray).getD []).filterMap fun option =>
      ((((option.asStr.or (option.getStr "text")).or (option.getStr "name")).map trimStr).filter (· ≠ "")).map ("- " ++ ·)

def unsupportedContent (messageType : String) : ExtractedContent := ⟨"", false, [], [.unsupported messageType .unsupported]⟩

def systemPlaceholder (value : JsonValue) (name : String) : Option String :=
  match value.get name with
  | some (.str text) => some text
  | some (.arr items) =>
    let parts := items.filterMap JsonValue.asStr
    if parts.isEmpty then none else some (", ".intercalate parts)
  | _ => none

def interpolateSystemTemplate (value : JsonValue) (rest : List Char) : List Char :=
  match _hopen : breakOn ['\x7b'] rest with
  | none => rest
  | some (before, after) =>
    match _hclose : breakOn ['\x7d'] after with
    | none => before ++ '\x7b' :: after
    | some (name, rest) =>
      before ++ ((systemPlaceholder value (String.ofList name)).getD "").toList ++ interpolateSystemTemplate value rest
termination_by rest.length
decreasing_by
  have h₁ := breakOn_length _hopen
  have h₂ := breakOn_length _hclose
  simp only [List.length_cons, List.length_nil] at h₁ h₂
  omega

/-- What the template of a system message becomes, unless it is blank. -/
def systemRendered (value : JsonValue) : Option String :=
  ((value.getStr "template").map fun template =>
    trimStr (String.ofList (interpolateSystemTemplate value template.toList))).filter (· ≠ "")

/-! ## Posts -/

/-- What is read of a post so far. -/
structure PostText where
  texts : List String
  line : String
  mentionsAll : Bool
  resources : List ResourceDesc
  extraParts : List MessagePart

namespace PostText

def empty : PostText := ⟨[], "", false, [], []⟩

def append (s : PostText) (text : String) : PostText := { s with line := s.line ++ text }

/-- The line so far becomes a text of its own. -/
def flush (s : PostText) : PostText := if s.line = "" then s else { s with texts := s.texts ++ [s.line], line := "" }

/-- A media run with its key. -/
def media (s : PostText) (key : Option String) (kind : ResourceKind) (part : MessagePart) : PostText :=
  if key.isSome then { s with resources := s.resources ++ resourceDesc key kind, extraParts := s.extraParts ++ [part] } else s

def run (s : PostText) (run : JsonValue) : PostText :=
  let tag := (run.getStr "tag").getD ""
  if tag = "a" then s.append (((run.getStr "text").or (run.getStr "href")).getD "")
  else if tag = "at" then
    let userId := (run.getStr "user_id").getD ""
    if userId = "all" ∨ userId = "all_members" then { s.append "@all" with mentionsAll := true }
    else ((run.getStr "user_name").map ("@" ++ ·)).elim s s.append
  else if tag = "img" then
    let key := contentString run "image_key"
    s.media key .image (.image (mediaPart key none run none))
  else if tag = "media" then
    let key := contentString run "file_key"
    s.media key .file (.file (mediaPart key none run none))
  else if tag = "code_block" then
    (run.getStr "text").elim s fun text => { s.flush with texts := s.flush.texts ++ [text] }
  else if tag = "hr" then s.flush
  else (run.getStr "text").elim s s.append

/-- One paragraph; anything but an array is passed over. -/
def paragraph (s : PostText) (paragraph : JsonValue) : PostText :=
  match paragraph.asArray with
  | none => s
  | some runs =>
    let s := runs.foldl run { s with line := "" }
    let line := stripMentionTags s.line
    if line = "" then s else { s with texts := s.texts ++ [line] }

end PostText

def postLocalePriority : List String := ["zh_cn", "zh-CN", "en_us", "en-US", "ja_jp", "ja-JP"]

def unwrapLocale (value : JsonValue) : Option JsonValue :=
  match value.asObject with
  | none => none
  | some fields =>
    if ["title", "content", "content_v2"].any fun key => (value.get key).isSome then some value
    else
      (postLocalePriority.findSome? fun locale => (value.get locale).filter JsonValue.isObject).or
        ((fields.map (·.2)).find? JsonValue.isObject)

theorem textBytes_unwrapLocale {value body : JsonValue} (h : unwrapLocale value = some body) :
    body.textBytes ≤ value.textBytes := by
  unfold unwrapLocale at h
  split at h
  · cases h
  · next fields hfields =>
    split at h
    · cases h
      exact Nat.le_refl _
    · rcases Option.or_eq_some_iff.1 h with h | ⟨-, h⟩
      · obtain ⟨locale, -, hlocale⟩ := List.exists_of_findSome?_eq_some h
        exact JsonValue.textBytes_get (Option.filter_eq_some_iff.1 hlocale).1
      · obtain ⟨⟨key, v⟩, hmem, rfl⟩ := List.mem_map.1 (List.mem_of_find?_eq_some h)
        exact JsonValue.textBytes_of_mem_fields hfields hmem

variable (R : JsonReader)

/-- `post_paragraphs`: the content may be a JSON text itself. -/
def postParagraphs (body : JsonValue) : List JsonValue :=
  match (body.get "content_v2").bind JsonValue.asArray with
  | some (paragraph :: paragraphs) => paragraph :: paragraphs
  | _ =>
    match _hcontent : body.get "content" with
    | some (.arr paragraphs) => paragraphs
    | some (.str encoded) =>
      match _hnested : R.fromStr encoded with
      | none => []
      | some nested =>
        match nested.asArray with
        | some paragraphs => paragraphs
        | none =>
          match _hbody : unwrapLocale nested with
          | none => []
          | some body => postParagraphs body
    | _ => []
termination_by body.textBytes
decreasing_by
  have h₁ := JsonValue.textBytes_get _hcontent
  have h₂ := R.textBytes_lt _ _ _hnested
  have h₃ := textBytes_unwrapLocale _hbody
  simp only [JsonValue.textBytes] at h₁
  omega

/-- The texts, runs and media of a post body. -/
def postText (body : JsonValue) : PostText :=
  (postParagraphs R body).foldl PostText.paragraph
    { PostText.empty with texts := (trimmedText (body.get "title")).toList }

def extractPostContent (value : JsonValue) : ExtractedContent :=
  match unwrapLocale value with
  | none => labeledTextContent "[rich text message]"
  | some body =>
    let post := postText R body
    let text := boundJoin post.texts
    let parts := (if text = "" then [] else [.text text]) ++ post.extraParts
    if parts.isEmpty then labeledTextContent "[rich text message]"
    else ⟨text, post.mentionsAll, post.resources, parts⟩

/-! ## Cards -/

def plainTextValue (value : Option JsonValue) : Option String :=
  (trimmedText value).or <| value.bind fun v =>
    (((v.getStr "content").or (v.getStr "text")).map trimStr).filter (· ≠ "")

/-- The fields of a card element that hold further elements. -/
def cardChildren : List String :=
  ["header", "body", "elements", "i18n_elements", "children", "fields", "actions", "columns", "label", "placeholder"]

def collectCardText : JsonValue → List String
  | .arr items => items.flatMap collectCardText
  | .obj fields =>
    let map := JsonValue.obj fields
    if (map.getStr "tag").getD "" ∈ ["plain_text", "lark_md", "markdown"] then (trimmedText (map.get "content")).toList
    else
      (["title", "content", "text"].filterMap fun key => plainTextValue (map.get key)) ++
        cardChildren.flatMap fun key =>
          match _hchild : (JsonValue.obj fields).get key with
          | some child => collectCardText child
          | none => []
  | _ => []
termination_by v => sizeOf v
decreasing_by
  · next hmem =>
    have := List.sizeOf_lt_of_mem hmem
    simp only [JsonValue.arr.sizeOf_spec]
    omega
  · exact JsonValue.sizeOf_get _hchild

def cardTexts (value : JsonValue) : List String :=
  let texts := collectCardText value
  (if texts.isEmpty then ((value.get "card").map collectCardText).getD [] else texts).eraseDups

def extractCardContent (value : JsonValue) : ExtractedContent :=
  let text := boundJoin (cardTexts value)
  let text := if text = "" then "[interactive card]" else text
  ⟨text, false, [], [.text text, .card .available]⟩

/-! ## All kinds -/

/-- The texts of `extract_unknown_content`. -/
def unknownTexts (value : JsonValue) : List String := labeledTexts value ["text", "title", "name", "address", "summary"]

def extractUnknownContent (messageType content : String) : ExtractedContent :=
  match R.fromStr content with
  | none => unsupportedContent messageType
  | some value =>
    let texts := unknownTexts value
    if texts.isEmpty then unsupportedContent messageType else labeledTextContent (boundJoin texts)

def calendarTypes : List String := ["share_calendar", "calendar", "general_calendar", "share_calendar_event"]

def knownTypes : List String :=
  ["text", "image", "file", "sticker", "audio", "video", "media", "interactive", "card", "merge_forward", "forward", "post",
    "share_chat", "share_user", "location", "todo", "system", "folder", "hongbao", "vote", "video_chat"] ++ calendarTypes

def extractKnownContent (messageType : String) (value : JsonValue) : ExtractedContent :=
  if messageType = "text" then
    let raw := (value.getStr "text").getD ""
    let text := stripMentionTags raw
    ⟨text, (breakOn "<at user_id=\"all\">".toList raw.toList).isSome, [], [.text text]⟩
  else if messageType = "image" then
    let key := contentString value "image_key"
    ⟨"", false, resourceDesc key .image, [.image (mediaPart key none value none)]⟩
  else if messageType = "file" then
    let key := contentString value "file_key"
    ⟨"", false, resourceDesc key .file, [.file (mediaPart key none value none)]⟩
  else if messageType = "sticker" then
    ⟨"", false, [], [.sticker (mediaPart (contentString value "file_key") none value none)]⟩
  else if messageType = "audio" then audioContent value
  else if messageType = "video" ∨ messageType = "media" then
    ⟨"", false, [], [.video (mediaPart (contentString value "file_key") (contentString value "image_key") value none)]⟩
  else if messageType = "interactive" ∨ messageType = "card" then extractCardContent value
  else if messageType = "post" then extractPostContent R value
  else if messageType = "share_chat" then labeledIdOrFallback value "[shared chat]" ["name", "chat_name", "chat_id"]
  else if messageType = "share_user" then labeledIdOrFallback value "[shared user]" ["name", "user_name", "user_id"]
  else if messageType ∈ calendarTypes then labeledOrFallback value ["summary", "title", "name"] "[shared calendar]"
  else if messageType = "location" then labeledOrFallback value ["name", "address", "title"] "[location]"
  else if messageType = "todo" then joinedOr (todoTexts value) "[todo]"
  else if messageType = "system" then
    (systemRendered value).elim (labeledOrFallback value ["text", "title"] "[system]") labeledTextContent
  else if messageType = "folder" then labeledIdOrFallback value "[shared folder]" ["file_name", "name", "file_key"]
  else if messageType = "hongbao" then labeledOrFallback value ["text", "title"] "[hongbao]"
  else if messageType = "vote" then joinedOr (voteTexts value) "[vote]"
  else if messageType = "video_chat" then labeledOrFallback value ["topic", "meet_number", "title"] "[video chat]"
  else
    let messageId := contentString value "message_id"
    ⟨"", false, [], [.forward messageId (if messageId.isSome then .available else .unavailable)]⟩

def extractMessageContent (messageType content : String) : Except LarkError ExtractedContent :=
  if messageType ∉ knownTypes then .ok (extractUnknownContent R messageType content)
  else
    match R.fromStr content with
    | none => .error (.protocol "message content is not valid JSON")
    | some value => .ok (extractKnownContent R messageType value)

end LarkCodexBridge.Lark
