import LarkCodexBridge.Lark.Content

/-!
# Joined texts and the bound of the inbound store

`boundJoin` writes a line feed before it looks at the room that is left. So a join whose first texts fill the bound exactly is
one byte too long as soon as another text follows (`FillsBound`), and within the bound otherwise.

* `boundJoin_append`: what is joined is the front of the whole join;
* `boundJoin_eq`: it is the whole join where that fits;
* `size_boundJoin_le_iff`: it is within the bound exactly where the texts do not fill it;
* `Carries.textAccepted_iff`: so it is with the checks of the store on the text of a message that carries a join.
-/

namespace LarkCodexBridge.Lark

open Limits CharBoundary
open LarkCodexBridge.Store (validateLength validatePart validateLength_eq_ok)

/-! ## The whole join -/

/-- All texts that are not empty, each on lines of its own. -/
def newlineJoin (texts : List String) : String := "\n".intercalate (texts.filter (· ≠ ""))

/-- The same after what is already joined. -/
def newlineJoinFrom (joined : String) : List String → String
  | [] => joined
  | text :: texts =>
    if text = "" then newlineJoinFrom joined texts
    else newlineJoinFrom ((if joined = "" then joined else joined ++ "\n") ++ text) texts

theorem newlineJoinFrom_cons (joined text : String) (texts : List String) : newlineJoinFrom joined (text :: texts) =
    if text = "" then newlineJoinFrom joined texts
    else newlineJoinFrom ((if joined = "" then joined else joined ++ "\n") ++ text) texts := rfl

/-- The first texts fill the bound to the last byte, and one more follows. -/
def FillsBound (texts : List String) : Prop :=
  ∃ front text back, texts = front ++ text :: back ∧ text ≠ "" ∧ (newlineJoin front).utf8ByteSize = storeInboundTextMaxBytes

def FillsBoundFrom (joined : String) (texts : List String) : Prop :=
  ∃ front text back, texts = front ++ text :: back ∧ text ≠ "" ∧
    (newlineJoinFrom joined front).utf8ByteSize = storeInboundTextMaxBytes

variable {joined text : String} {texts : List String}

theorem filter_ne_empty (h : text ≠ "") : (text :: texts).filter (· ≠ "") = text :: texts.filter (· ≠ "") :=
  List.filter_cons_of_pos (by simpa using h)

theorem newlineJoinFrom_of_ne : ∀ {joined : String} (texts : List String), joined ≠ "" →
    newlineJoinFrom joined texts = "\n".intercalate (joined :: texts.filter (· ≠ ""))
  | _, [], _ => String.intercalate_singleton.symm
  | joined, text :: texts, hne => by
    rw [newlineJoinFrom_cons]
    by_cases hempty : text = ""
    · simpa [hempty] using newlineJoinFrom_of_ne texts hne
    · rw [if_neg hempty, if_neg hne, newlineJoinFrom_of_ne texts (by simp [hempty]),
        filter_ne_empty hempty, String.intercalate_cons_append, String.intercalate_cons_cons]

theorem newlineJoinFrom_empty : ∀ texts, newlineJoinFrom "" texts = newlineJoin texts
  | [] => rfl
  | text :: texts => by
    rw [newlineJoinFrom_cons]
    by_cases hempty : text = ""
    · simpa [hempty, newlineJoin] using newlineJoinFrom_empty texts
    · rw [if_neg hempty, if_pos rfl, String.empty_append, newlineJoinFrom_of_ne texts hempty, newlineJoin,
        filter_ne_empty hempty]

theorem fillsBoundFrom_empty : FillsBoundFrom "" texts ↔ FillsBound texts := by
  simp only [FillsBoundFrom, FillsBound, newlineJoinFrom_empty]

theorem newlineJoinFrom_append (joined : String) : ∀ texts, ∃ rest, newlineJoinFrom joined texts = joined ++ rest
  | [] => ⟨"", String.append_empty.symm⟩
  | text :: texts => by
    rw [newlineJoinFrom_cons]
    split
    · exact newlineJoinFrom_append joined texts
    · obtain ⟨rest, hrest⟩ := newlineJoinFrom_append ((if joined = "" then joined else joined ++ "\n") ++ text) texts
      rw [hrest]
      split
      · exact ⟨text ++ rest, String.append_assoc ..⟩
      · exact ⟨"\n" ++ text ++ rest, by simp only [String.append_assoc]⟩

theorem le_size_newlineJoinFrom (joined : String) (texts : List String) :
    joined.utf8ByteSize ≤ (newlineJoinFrom joined texts).utf8ByteSize := by
  obtain ⟨rest, hrest⟩ := newlineJoinFrom_append joined texts
  rw [hrest, String.utf8ByteSize_append]
  exact Nat.le_add_right ..

theorem size_pos (h : text ≠ "") : 0 < text.utf8ByteSize :=
  Nat.pos_of_ne_zero fun h0 => h (String.utf8ByteSize_eq_zero_iff.1 h0)

/-! ## The bounded join -/

theorem boundJoinFrom_append (joined : String) : ∀ texts, ∃ rest, newlineJoinFrom joined texts = boundJoinFrom joined texts ++ rest
  | [] => ⟨"", String.append_empty.symm⟩
  | text :: texts => by
    rw [newlineJoinFrom_cons, boundJoinFrom_cons]
    split
    · exact boundJoinFrom_append joined texts
    · dsimp only
      generalize (if joined = "" then joined else joined ++ "\n") = joined'
      split
      · obtain ⟨rest, hrest⟩ := newlineJoinFrom_append (joined' ++ text) texts
        exact ⟨text ++ rest, by rw [hrest, String.append_assoc]⟩
      · split
        · exact boundJoinFrom_append _ texts
        · -- the text is cut
          obtain ⟨rest, hrest⟩ := newlineJoinFrom_append (joined' ++ text) texts
          obtain ⟨tail, htail⟩ := sliceTo_append text
            (floorBoundary text.toList (storeInboundTextMaxBytes - joined'.utf8ByteSize))
          refine ⟨tail ++ rest, ?_⟩
          rw [hrest]
          conv_lhs => rw [htail]
          simp only [String.append_assoc]

/-- Where the whole join fits, nothing is left out. -/
theorem boundJoinFrom_eq (joined : String) : ∀ texts, (newlineJoinFrom joined texts).utf8ByteSize ≤ storeInboundTextMaxBytes →
    boundJoinFrom joined texts = newlineJoinFrom joined texts
  | [], _ => rfl
  | text :: texts, h => by
    rw [newlineJoinFrom_cons] at h ⊢
    rw [boundJoinFrom_cons]
    split at h
    · next hempty =>
      rw [if_pos hempty, if_pos hempty]
      exact boundJoinFrom_eq joined texts h
    · next hne =>
      rw [if_neg hne, if_neg hne]
      dsimp only
      generalize (if joined = "" then joined else joined ++ "\n") = joined' at h ⊢
      have hsize := le_size_newlineJoinFrom (joined' ++ text) texts
      have hpos := size_pos hne
      rw [String.utf8ByteSize_append] at hsize
      rw [if_neg (by omega), if_pos (by omega)]
      exact boundJoinFrom_eq _ texts h

/-! ## Filling the bound -/

theorem fillsBoundFrom_cons_empty : FillsBoundFrom joined ("" :: texts) ↔ FillsBoundFrom joined texts := by
  constructor
  · rintro ⟨front, text, back, heq, hne, hsize⟩
    cases front with
    | nil =>
      cases heq
      exact absurd rfl hne
    | cons first front =>
      cases heq
      exact ⟨front, text, back, rfl, hne, by simpa [newlineJoinFrom_cons] using hsize⟩
  · rintro ⟨front, text, back, rfl, hne, hsize⟩
    exact ⟨"" :: front, text, back, rfl, hne, by simpa [newlineJoinFrom_cons] using hsize⟩

/-- A text that is not empty follows what is joined, or is joined itself. -/
theorem fillsBoundFrom_cons (hne : text ≠ "") : FillsBoundFrom joined (text :: texts) ↔
    joined.utf8ByteSize = storeInboundTextMaxBytes ∨
      FillsBoundFrom ((if joined = "" then joined else joined ++ "\n") ++ text) texts := by
  constructor
  · rintro ⟨front, next, back, heq, hnext, hsize⟩
    cases front with
    | nil => exact .inl hsize
    | cons first front =>
      cases heq
      exact .inr ⟨front, next, back, rfl, hnext, by simpa [newlineJoinFrom_cons, hne] using hsize⟩
  · rintro (hsize | ⟨front, next, back, rfl, hnext, hsize⟩)
    · exact ⟨[], text, texts, rfl, hne, hsize⟩
    · exact ⟨text :: front, next, back, rfl, hnext, by simpa [newlineJoinFrom_cons, hne] using hsize⟩

theorem not_fillsBoundFrom (h : storeInboundTextMaxBytes < joined.utf8ByteSize) : ¬ FillsBoundFrom joined texts := by
  rintro ⟨front, text, back, -, -, hsize⟩
  have := le_size_newlineJoinFrom joined front
  omega

theorem size_boundJoinFrom_le_iff : ∀ {texts : List String} {joined : String}, joined.utf8ByteSize ≤ storeInboundTextMaxBytes →
    ((boundJoinFrom joined texts).utf8ByteSize ≤ storeInboundTextMaxBytes ↔ ¬ FillsBoundFrom joined texts)
  | [], joined, h => iff_of_true h (by rintro ⟨front, text, back, heq, -⟩; simp at heq)
  | text :: texts, joined, h => by
    rw [boundJoinFrom_cons]
    by_cases hne : text = ""
    · subst hne
      rw [if_pos rfl, fillsBoundFrom_cons_empty]
      exact size_boundJoinFrom_le_iff h
    · rw [if_neg hne, fillsBoundFrom_cons hne]
      have hpos := size_pos hne
      have hsep : (if joined = "" then joined else joined ++ "\n").utf8ByteSize =
          if joined = "" then 0 else joined.utf8ByteSize + 1 := by
        split
        · next hempty => simp [hempty]
        · rw [String.utf8ByteSize_append]; rfl
      have hempty : joined = "" → joined.utf8ByteSize = 0 := fun h => by simp [h]
      generalize (if joined = "" then joined else joined ++ "\n") = joined' at hsep ⊢
      have hsize : (joined' ++ text).utf8ByteSize = joined'.utf8ByteSize + text.utf8ByteSize := String.utf8ByteSize_append ..
      dsimp only
      split
      · -- no room: one byte too much exactly where the separator came after a full join
        next hroom =>
        rw [or_iff_left (not_fillsBoundFrom (by omega))]
        have : 0 < storeInboundTextMaxBytes := by decide
        split at hsep
        · omega
        · omega
      · split
        · rw [size_boundJoinFrom_le_iff (by omega), not_or]
          refine ⟨fun h => ⟨?_, h⟩, And.right⟩
          split at hsep
          · next hj => have := hempty hj; omega
          · omega
        · -- a text that is cut ends at a boundary within the room
          next hroom hlong =>
          have hfloor := floorBoundary_le text.toList (storeInboundTextMaxBytes - joined'.utf8ByteSize)
          rw [String.utf8ByteSize_append, utf8ByteSize_sliceTo (isCharBoundary_floorBoundary ..)]
          refine iff_of_true (by omega) ?_
          rw [or_iff_left (not_fillsBoundFrom (by omega))]
          split at hsep
          · next hj => have := hempty hj; omega
          · omega

theorem boundJoin_append (texts : List String) : ∃ rest, newlineJoin texts = boundJoin texts ++ rest :=
  newlineJoinFrom_empty texts ▸ boundJoinFrom_append "" texts

theorem boundJoin_eq (h : (newlineJoin texts).utf8ByteSize ≤ storeInboundTextMaxBytes) : boundJoin texts = newlineJoin texts := by
  rw [← newlineJoinFrom_empty] at h ⊢
  exact boundJoinFrom_eq "" texts h

/-- **The join is within the bound exactly where the texts do not fill it.** -/
theorem size_boundJoin_le_iff : (boundJoin texts).utf8ByteSize ≤ storeInboundTextMaxBytes ↔ ¬ FillsBound texts := by
  rw [← fillsBoundFrom_empty]
  exact size_boundJoinFrom_le_iff (Nat.zero_le _)

/-! ## Messages that carry a join -/

variable {R : JsonReader} {content : ExtractedContent} {event : InboundEvent} {messageType raw : String}

/-- The content carries the join of the texts, or a short label in its place, and no other text. -/
structure Carries (content : ExtractedContent) (texts : List String) : Prop where
  text : content.text = boundJoin texts ∨ ¬ FillsBound texts ∧ content.text.utf8ByteSize ≤ storeInboundTextMaxBytes
  parts : ∀ text, .text text ∈ content.parts → text = content.text

/-- The inbound store takes the text of the event: it checks it, and each part that is one. -/
def TextAccepted (event : InboundEvent) : Prop :=
  validateLength event.text storeInboundTextMaxBytes "validating inbound text" = .ok () ∧
    ∀ text, .text text ∈ event.parts → validatePart (.text text) = .ok ()

theorem Carries.textAccepted_iff (h : Carries content texts) (htext : event.text = content.text)
    (hparts : event.parts = content.parts) : TextAccepted event ↔ ¬ FillsBound texts := by
  have haccepted : TextAccepted event ↔ content.text.utf8ByteSize ≤ storeInboundTextMaxBytes := by
    unfold TextAccepted
    rw [htext, hparts, validateLength_eq_ok, and_iff_left_iff_imp]
    intro hle text hmem
    rw [h.parts text hmem]
    exact validateLength_eq_ok.2 hle
  rw [haccepted]
  rcases h.text with htext | ⟨hfills, hle⟩
  · rw [htext, size_boundJoin_le_iff]
  · exact iff_of_true hle hfills

theorem not_fillsBound_nil : ¬ FillsBound [] := by
  rintro ⟨front, text, back, heq, -⟩
  simp at heq

theorem not_fillsBound_of_empty (h : boundJoin texts = "") : ¬ FillsBound texts :=
  size_boundJoin_le_iff.1 (by rw [h]; exact Nat.zero_le _)

theorem carries_label {label : String} (hfills : ¬ FillsBound texts) (hle : label.utf8ByteSize ≤ storeInboundTextMaxBytes) :
    Carries (labeledTextContent label) texts :=
  ⟨.inr ⟨hfills, hle⟩, by simp [labeledTextContent]⟩

theorem carries_boundJoin (texts : List String) : Carries (labeledTextContent (boundJoin texts)) texts :=
  ⟨.inl rfl, by simp [labeledTextContent]⟩

theorem carries_joinedOr {fallback : String} (texts : List String) (hle : fallback.utf8ByteSize ≤ storeInboundTextMaxBytes) :
    Carries (joinedOr texts fallback) texts := by
  unfold joinedOr
  cases texts with
  | nil => exact carries_label not_fillsBound_nil hle
  | cons text texts => exact carries_boundJoin _

theorem carries_unsupported (messageType : String) : Carries (unsupportedContent messageType) [] :=
  ⟨.inl rfl, by simp [unsupportedContent]⟩

theorem carries_extractCardContent (value : JsonValue) : Carries (extractCardContent value) (cardTexts value) := by
  unfold extractCardContent
  dsimp only
  split
  · next hempty => exact ⟨.inr ⟨not_fillsBound_of_empty hempty, by decide⟩, by simp⟩
  · exact ⟨.inl rfl, by simp⟩

/-! ### Posts -/

def PostText.OnlyMedia (s : PostText) : Prop := ∀ text, .text text ∉ s.extraParts

namespace PostText

variable {s : PostText}

theorem OnlyMedia.media {key : Option String} {kind : ResourceKind} {part : MessagePart} (h : s.OnlyMedia)
    (hpart : ∀ text, part ≠ .text text) : (s.media key kind part).OnlyMedia := by
  unfold PostText.media
  split
  · intro text hmem
    rcases List.mem_append.1 hmem with hmem | hmem
    · exact h text hmem
    · exact hpart text (List.mem_singleton.1 hmem).symm
  · exact h

theorem OnlyMedia.flush (h : s.OnlyMedia) : s.flush.OnlyMedia := by
  unfold PostText.flush
  split <;> exact h

theorem OnlyMedia.run (h : s.OnlyMedia) (run : JsonValue) : (s.run run).OnlyMedia := by
  unfold PostText.run
  dsimp only
  split
  · exact h
  split
  · split
    · exact h
    · cases (run.getStr "user_name").map ("@" ++ ·) <;> exact h
  split
  · exact h.media nofun
  split
  · exact h.media nofun
  split
  · cases run.getStr "text"
    · exact h
    · exact h.flush
  split
  · exact h.flush
  · cases run.getStr "text" <;> exact h

theorem onlyMedia_foldl_run : ∀ (runs : List JsonValue) {s : PostText}, s.OnlyMedia → (runs.foldl PostText.run s).OnlyMedia
  | [], _, h => h
  | run :: runs, _, h => onlyMedia_foldl_run runs (h.run run)

theorem OnlyMedia.paragraph (h : s.OnlyMedia) (paragraph : JsonValue) : (s.paragraph paragraph).OnlyMedia := by
  unfold PostText.paragraph
  split
  · exact h
  · next runs _ =>
    have hruns := onlyMedia_foldl_run runs (s := { s with line := "" }) h
    dsimp only
    split <;> exact hruns

theorem onlyMedia_foldl_paragraph : ∀ (paragraphs : List JsonValue) {s : PostText}, s.OnlyMedia →
    (paragraphs.foldl PostText.paragraph s).OnlyMedia
  | [], _, h => h
  | paragraph :: paragraphs, _, h => onlyMedia_foldl_paragraph paragraphs (h.paragraph paragraph)

end PostText

def postTexts (R : JsonReader) (value : JsonValue) : List String := (unwrapLocale value).elim [] fun body => (postText R body).texts

theorem carries_extractPostContent (value : JsonValue) : Carries (extractPostContent R value) (postTexts R value) := by
  unfold extractPostContent postTexts
  split
  · next hbody =>
    rw [hbody]
    exact carries_label not_fillsBound_nil (by decide)
  · next body hbody =>
    rw [hbody]
    have hmedia : (postText R body).OnlyMedia := PostText.onlyMedia_foldl_paragraph _ (by simp [PostText.OnlyMedia, PostText.empty])
    dsimp only [Option.elim]
    by_cases hempty : boundJoin (postText R body).texts = ""
    · rw [if_pos hempty, List.nil_append]
      split
      · exact carries_label (not_fillsBound_of_empty hempty) (by decide)
      · exact ⟨.inl rfl, fun text hmem => absurd hmem (hmedia text)⟩
    · rw [if_neg hempty]
      simp only [List.singleton_append, List.isEmpty_cons, Bool.false_eq_true, if_false]
      refine ⟨.inl rfl, fun text hmem => ?_⟩
      rcases List.mem_cons.1 hmem with heq | hmem
      · exact MessagePart.text.inj heq
      · exact absurd hmem (hmedia text)

/-! ### All joining kinds -/

/-- The known kinds with a text of several. -/
def joiningTypes : List String := ["post", "interactive", "card", "todo", "vote"] ++ calendarTypes

/-- The texts that the content of one of these kinds, or of an unknown one, joins. -/
def joinedTexts (R : JsonReader) (messageType content : String) : List String :=
  (R.fromStr content).elim [] fun value =>
    if messageType = "post" then postTexts R value
    else if messageType = "interactive" ∨ messageType = "card" then cardTexts value
    else if messageType = "todo" then todoTexts value
    else if messageType = "vote" then voteTexts value
    else if messageType ∈ calendarTypes then labeledTexts value ["summary", "title", "name"]
    else unknownTexts value

theorem carries_extractKnownContent (hjoins : messageType ∈ joiningTypes) (value : JsonValue)
    (hvalue : R.fromStr raw = some value) :
    Carries (extractKnownContent R messageType value) (joinedTexts R messageType raw) := by
  unfold joinedTexts
  rw [hvalue]
  simp only [joiningTypes, calendarTypes, List.mem_append, List.mem_cons, List.not_mem_nil, or_false] at hjoins
  rcases hjoins with (rfl | rfl | rfl | rfl | rfl) | rfl | rfl | rfl | rfl
  · exact carries_extractPostContent value
  · exact carries_extractCardContent value
  · exact carries_extractCardContent value
  all_goals exact carries_joinedOr _ (by decide)

theorem carries_extractUnknownContent (hunknown : messageType ∉ knownTypes) (raw : String) :
    Carries (extractUnknownContent R messageType raw) (joinedTexts R messageType raw) := by
  unfold extractUnknownContent joinedTexts
  cases R.fromStr raw with
  | none => exact carries_unsupported messageType
  | some value =>
    have hne : messageType ≠ "post" ∧ ¬(messageType = "interactive" ∨ messageType = "card") ∧ messageType ≠ "todo" ∧
        messageType ≠ "vote" ∧ messageType ∉ calendarTypes := by
      refine ⟨?_, ?_, ?_, ?_, fun h => hunknown (List.mem_append_right _ h)⟩
      · rintro rfl; exact hunknown (by decide)
      · rintro (rfl | rfl) <;> exact hunknown (by decide)
      · rintro rfl; exact hunknown (by decide)
      · rintro rfl; exact hunknown (by decide)
    obtain ⟨hpost, hcard, htodo, hvote, hcalendar⟩ := hne
    simp only [Option.elim, hpost, hcard, htodo, hvote, hcalendar, if_false]
    split
    · next hempty =>
      rw [List.isEmpty_iff.1 hempty]
      exact carries_unsupported messageType
    · exact carries_boundJoin _

/-- **What is extracted** from a message of a joining kind or of an unknown one carries the join of its texts. -/
theorem carries_extractMessageContent (hjoins : messageType ∈ joiningTypes ∨ messageType ∉ knownTypes)
    (h : extractMessageContent R messageType raw = .ok content) : Carries content (joinedTexts R messageType raw) := by
  unfold extractMessageContent at h
  split at h
  · next hunknown =>
    cases h
    exact carries_extractUnknownContent hunknown raw
  · next hknown =>
    split at h
    · cases h
    · next value hvalue =>
      cases h
      exact carries_extractKnownContent (hjoins.resolve_right hknown) value hvalue

/-! ## Normalized messages -/

variable {D : Decoder} {botOpenId context : String} {q : ScopeQueries} {payload : ByteArray}

/-- The decoder whose reader of message contents is the one of this file. -/
def Decoder.reading (D : Decoder) (R : JsonReader) : Decoder := { D with extractMessageContent := Lark.extractMessageContent R }

def Decoder.messageContent (D : Decoder) (payload : ByteArray) : Option String :=
  (((D.fromSlice payload).bind (·.event)).bind (·.message)).bind (·.content)

theorem required_eq_ok {value : Option String} {s : String} (h : required value context = .ok s) : value = some s := by
  unfold required nonEmpty at h
  split at h
  · next s' hs =>
    cases h
    exact (Option.filter_eq_some_iff.1 hs).1
  · cases h

theorem orProtocol_eq_ok {α : Type} {value : Option α} {a : α} (h : orProtocol value context = .ok a) :
    value = some a := by
  unfold orProtocol at h
  split at h
  · cases h; rfl
  · cases h

theorem parseEvent_content {parsed : ParsedEvent} (h : parseEvent D botOpenId payload = .ok (some parsed)) :
    ∃ raw content, D.messageContent payload = some raw ∧ D.extractMessageContent parsed.messageType raw = .ok content ∧
      parsed.text = content.text ∧ parsed.parts = content.parts := by
  unfold parseEvent at h
  split at h
  · cases h
  obtain ⟨envelope, henvelope, h⟩ := Fallible.bind_eq_ok.1 h
  obtain ⟨header, -, h⟩ := Fallible.bind_eq_ok.1 h
  split at h
  · cases h
  obtain ⟨_, -, h⟩ := Fallible.bind_eq_ok.1 h
  obtain ⟨body, hbody, h⟩ := Fallible.bind_eq_ok.1 h
  obtain ⟨_, -, h⟩ := Fallible.bind_eq_ok.1 h
  obtain ⟨message, hmessage, h⟩ := Fallible.bind_eq_ok.1 h
  obtain ⟨_, -, h⟩ := Fallible.bind_eq_ok.1 h
  obtain ⟨raw, hraw, h⟩ := Fallible.bind_eq_ok.1 h
  obtain ⟨_, -, h⟩ := Fallible.bind_eq_ok.1 h
  obtain ⟨_, -, h⟩ := Fallible.bind_eq_ok.1 h
  obtain ⟨content, hcontent, h⟩ := Fallible.bind_eq_ok.1 h
  obtain ⟨_, -, h⟩ := Fallible.bind_eq_ok.1 h
  obtain ⟨_, -, h⟩ := Fallible.bind_eq_ok.1 h
  obtain ⟨_, -, h⟩ := Fallible.bind_eq_ok.1 h
  cases h
  refine ⟨raw, content, ?_, hcontent, rfl, rfl⟩
  rw [Decoder.messageContent, orProtocol_eq_ok henvelope, Option.bind_some, orProtocol_eq_ok hbody, Option.bind_some,
    orProtocol_eq_ok hmessage, Option.bind_some, required_eq_ok hraw]

theorem normalizeCardActionAt_text (h : normalizeCardActionAt D q payload = .ok (.event event)) : event.messageType = "text" := by
  unfold normalizeCardActionAt at h
  split at h
  · cases h
  · split at h
    · cases h
    · cases h
    · cases h
      rfl

theorem normalizeMessageOrCard_content (h : normalizeMessageOrCard D botOpenId q payload = .ok (.event event)) :
    event.messageType = "text" ∨ ∃ raw content, D.messageContent payload = some raw ∧
      D.extractMessageContent event.messageType raw = .ok content ∧ event.text = content.text ∧ event.parts = content.parts := by
  unfold normalizeMessageOrCard at h
  split at h
  · exact .inl (normalizeCardActionAt_text h)
  · split at h
    · split at h
      · exact .inl (normalizeCardActionAt_text h)
      · cases h
    · unfold normalizeAt at h
      obtain ⟨parsed, hparsed, h⟩ := Fallible.bind_eq_ok.1 h
      cases parsed with
      | none => cases h
      | some parsed =>
        cases h
        exact .inr (parseEvent_content hparsed)

/-- The join is within the bound, a front of the whole join, and all of it where that fits. -/
structure BoundedJoin (texts : List String) : Prop where
  size : (boundJoin texts).utf8ByteSize ≤ storeInboundTextMaxBytes
  front : ∃ rest, newlineJoin texts = boundJoin texts ++ rest
  whole : (newlineJoin texts).utf8ByteSize ≤ storeInboundTextMaxBytes → boundJoin texts = newlineJoin texts

/-- **Joined texts respect the bound of the store exactly where they do not fill it** before the last of them, as do the texts of
the messages that are normalized from them. -/
theorem joined_texts_bounded (texts : List String) : (BoundedJoin texts ↔ ¬ FillsBound texts) ∧
    ∀ (D : Decoder) R botOpenId q payload event, normalizeMessageOrCard (D.reading R) botOpenId q payload = .ok (.event event) →
      event.messageType ∈ joiningTypes ∨ event.messageType ∉ knownTypes →
      ∃ raw, D.messageContent payload = some raw ∧ (TextAccepted event ↔ ¬ FillsBound (joinedTexts R event.messageType raw)) := by
  refine ⟨⟨fun h => size_boundJoin_le_iff.1 h.size,
    fun h => ⟨size_boundJoin_le_iff.2 h, boundJoin_append texts, boundJoin_eq⟩⟩, ?_⟩
  intro D R botOpenId q payload event h hjoins
  rcases normalizeMessageOrCard_content h with htext | ⟨raw, content, hraw, hcontent, htext, hparts⟩
  · rw [htext] at hjoins
    exact absurd hjoins (by decide)
  · exact ⟨raw, hraw, (carries_extractMessageContent hjoins hcontent).textAccepted_iff htext hparts⟩

/-! ### A vote, and a join that is too long -/

def voteContent : String := "\x7b\"topic\":\"Lunch\",\"options\":[\"Rice\",\"Noodles\"]\x7d"

def voteValue : JsonValue := .obj [("topic", .str "Lunch"), ("options", .arr [.str "Rice", .str "Noodles"])]

def voteReader : JsonReader where
  fromStr text := if text = voteContent then some voteValue else none
  textBytes_lt := by
    intro text v h
    split at h
    · next htext =>
      cases h
      subst htext
      decide
    · cases h

def voteEnvelope : EventEnvelope where
  header := some ⟨some "evt_1", some "im.message.receive_v1"⟩
  event := some {
    sender := some ⟨some "ou_1", some "user"⟩
    message := some {
      messageId := some "om_1"
      chatId := some "oc_1"
      chatType := some "p2p"
      messageType := some "vote"
      content := some voteContent
      createTime := some "1"
      rootId := none
      parentId := none
      threadId := none
      mentions := none } }

/-- Every payload decodes to the message with the vote. -/
def voteDecoder : Decoder where
  fromSlice _ := some voteEnvelope
  looksLikeCardAction _ := false
  cardAction _ := none
  extractMessageContent _ _ := .ok ⟨"", false, [], []⟩

theorem joined_texts_bounded_vote : ∃ event, normalizeMessageOrCard (voteDecoder.reading voteReader) "ou_bot" ⟨none, none, none⟩
    ⟨#[]⟩ = .ok (.event event) ∧ event.text = "Lunch\n- Rice\n- Noodles" ∧
      (TextAccepted event ↔ ¬ FillsBound ["Lunch", "- Rice", "- Noodles"]) := by
  have hsome : ∃ event, normalizeMessageOrCard (voteDecoder.reading voteReader) "ou_bot" ⟨none, none, none⟩ ⟨#[]⟩ =
      .ok (.event event) ∧ event.messageType = "vote" ∧ event.text = "Lunch\n- Rice\n- Noodles" := by
    refine ⟨_, rfl, rfl, ?_⟩
    decide
  obtain ⟨event, hevent, htype, htext⟩ := hsome
  obtain ⟨raw, hraw, haccepted⟩ := (joined_texts_bounded []).2 _ _ _ _ _ _ hevent (.inl (by rw [htype]; decide))
  cases hraw
  have htexts : joinedTexts voteReader "vote" voteContent = ["Lunch", "- Rice", "- Noodles"] := by decide
  rw [htype, htexts] at haccepted
  exact ⟨event, hevent, htext, haccepted⟩

/-- A text of exactly the bound, and one more. -/
def fullTexts : List String := [String.ofList (List.replicate storeInboundTextMaxBytes 'a'), "b"]

theorem fillsBound_fullTexts : FillsBound fullTexts := by
  have hsize : ∀ n, (String.ofList (List.replicate n 'a')).utf8ByteSize = n := by
    intro n
    rw [String.utf8ByteSize_ofList]
    induction n with
    | zero => rfl
    | succ n ih => rw [List.replicate_succ, String.utf8Len_cons, ih]; rfl
  refine ⟨[_], "b", [], rfl, by decide, ?_⟩
  have hne : String.ofList (List.replicate storeInboundTextMaxBytes 'a') ≠ "" := fun h => by
    have := congrArg String.utf8ByteSize h
    rw [hsize] at this
    exact absurd this (by decide)
  rw [newlineJoin, filter_ne_empty hne]
  exact hsize _

/-- A join may be longer than the bound. -/
theorem fullTexts_not_bounded : ¬ ∀ texts, BoundedJoin texts :=
  fun h => size_boundJoin_le_iff.1 (h fullTexts).size fillsBound_fullTexts

end LarkCodexBridge.Lark
