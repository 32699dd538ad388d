import LarkCodexBridge.Render.Split

/-!
# Sizes on the wire

What the JSON serializer makes of a text, once in a card and twice in a post.

* `utf8Bytes_escape`: the estimate of `jsonCharacterLen` is what the serializer writes;
* `postMarkdownReplyBodyLen_le`: the body of a post is bounded by its characters.
-/

namespace LarkCodexBridge.Render.Markdown

def jsonCharacterLen (character : Char) : ℕ :=
  if character ∈ shortEscapes then 2 else if character.toNat ≤ 0x1f then 6 else character.utf8Size

def jsonStringContentLen (text : List Char) : ℕ := (text.map jsonCharacterLen).sum

/-! ## The estimate is exact -/

theorem utf8Bytes_append (first second : List Char) : utf8Bytes (first ++ second) = utf8Bytes first + utf8Bytes second := by
  rw [utf8Bytes, List.map_append, List.sum_append, utf8Bytes, utf8Bytes]

theorem utf8Bytes_cons (c : Char) (text : List Char) : utf8Bytes (c :: text) = c.utf8Size + utf8Bytes text := by
  rw [utf8Bytes, List.map_cons, List.sum_cons, utf8Bytes]

theorem utf8Size_digitChar : ∀ n < 16, (Nat.digitChar n).utf8Size = 1 := by
  decide

/-- The serializer writes as many bytes for a character as the estimate says. -/
theorem utf8Bytes_escape (J : JsonEscaping) (c : Char) : utf8Bytes (J.escape c) = jsonCharacterLen c := by
  unfold jsonCharacterLen
  split_ifs with hshort hcontrol
  · obtain ⟨d, hd, hescape⟩ := J.short c hshort
    rw [hescape]
    simp only [List.mem_cons, List.not_mem_nil, or_false] at hd
    rcases hd with rfl | rfl | rfl | rfl | rfl | rfl | rfl <;> rfl
  · obtain ⟨a, b, ha, hb, hescape⟩ := J.control c (by omega) hshort
    rw [hescape]
    simp only [utf8Bytes_cons, utf8Size_digitChar a ha, utf8Size_digitChar b hb]
    rfl
  · rw [J.plain c (by omega) hshort, utf8Bytes_cons]
    rfl

theorem utf8Bytes_flatMap_escape (J : JsonEscaping) (text : List Char) :
    utf8Bytes (text.flatMap J.escape) = jsonStringContentLen text := by
  induction text with
  | nil => rfl
  | cons c text ih =>
    rw [List.flatMap_cons, utf8Bytes_append, utf8Bytes_escape, ih, jsonStringContentLen, jsonStringContentLen, List.map_cons,
      List.sum_cons]

theorem utf8Bytes_around (J : JsonEscaping) (before text after : List Char) :
    utf8Bytes (before ++ text.flatMap J.escape ++ after) =
      jsonStringContentLen text + (utf8Bytes before + utf8Bytes after) := by
  rw [utf8Bytes_append, utf8Bytes_append, utf8Bytes_flatMap_escape]
  omega

theorem utf8Size_le_jsonCharacterLen (c : Char) : c.utf8Size ≤ jsonCharacterLen c := by
  unfold jsonCharacterLen
  split_ifs with hshort hcontrol
  · simp only [shortEscapes, List.mem_cons, List.not_mem_nil, or_false] at hshort
    rcases hshort with rfl | rfl | rfl | rfl | rfl | rfl | rfl <;> decide
  · have := c.utf8Size_le_four
    omega
  · exact le_rfl

theorem jsonCharacterLen_le (c : Char) : jsonCharacterLen c ≤ 6 := by
  have := c.utf8Size_le_four
  unfold jsonCharacterLen
  split_ifs <;> omega

theorem utf8Bytes_le_jsonStringContentLen (text : List Char) : utf8Bytes text ≤ jsonStringContentLen text := by
  induction text with
  | nil => exact le_rfl
  | cons c text ih =>
    have := utf8Size_le_jsonCharacterLen c
    rw [utf8Bytes_cons, jsonStringContentLen, List.map_cons, List.sum_cons, ← jsonStringContentLen]
    omega

theorem jsonStringContentLen_le (text : List Char) : jsonStringContentLen text ≤ 6 * text.length := by
  induction text with
  | nil => exact le_rfl
  | cons c text ih =>
    have := jsonCharacterLen_le c
    rw [jsonStringContentLen, List.map_cons, List.sum_cons, ← jsonStringContentLen, List.length_cons]
    omega

/-! ## A post -/

theorem length_around_le (J : JsonEscaping) (before text after : List Char) :
    (before ++ text.flatMap J.escape ++ after).length ≤ 6 * text.length + (before.length + after.length) := by
  have hescaped := length_le_utf8Bytes (text.flatMap J.escape)
  rw [utf8Bytes_flatMap_escape] at hescaped
  have hcontent := jsonStringContentLen_le text
  rw [List.length_append, List.length_append]
  omega

theorem postMarkdownReplyBodyLen_le (J : JsonEscaping) (text : List Char) :
    postMarkdownReplyBodyLen J text true ≤ 36 * text.length + 400 := by
  have hcontent : (postMarkdownContent J text).length ≤ 6 * text.length + 50 := by
    have haround : "\x7b\"zh_cn\":\x7b\"content\":[[\x7b\"tag\":\"md\",\"text\":\"".toList.length +
        "\"\x7d]]\x7d\x7d".toList.length ≤ 50 := by decide
    exact (length_around_le J _ text _).trans (Nat.add_le_add_left haround _)
  have houter : utf8Bytes "\x7b\"msg_type\":\"post\",\"content\":\"".toList +
      utf8Bytes (['"'] ++ (",\"reply_in_thread\":true".toList ++ ['\x7d'])) ≤ 100 := by decide
  have hbody : postMarkdownReplyBodyLen J text true = jsonStringContentLen (postMarkdownContent J text) +
      (utf8Bytes "\x7b\"msg_type\":\"post\",\"content\":\"".toList +
        utf8Bytes (['"'] ++ (",\"reply_in_thread\":true".toList ++ ['\x7d']))) := by
    have hgroup : ∀ first second third fourth fifth : List Char, first ++ second ++ third ++ fourth ++ fifth =
        first ++ second ++ (third ++ (fourth ++ fifth)) := by simp
    exact (congrArg utf8Bytes (hgroup _ _ _ _ _)).trans (utf8Bytes_around J _ _ _)
  have hescaped := jsonStringContentLen_le (postMarkdownContent J text)
  omega

end LarkCodexBridge.Render.Markdown
