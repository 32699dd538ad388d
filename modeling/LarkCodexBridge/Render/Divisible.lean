import LarkCodexBridge.Render.Wire

/-!
# When a rest can be cut

`split_one` finds no boundary exactly when the rest begins with an opening fence that leaves no room behind it.

* `preferredBoundary_spec`: a boundary is the start of a line, or well inside a line that is no delimiter;
* `room_le_part`: a part that reaches beyond an open fence holds its closing line or as many characters;
* `splitBoundary_isSome_iff`: a rest can be cut exactly when it is `Divisible`.
-/

namespace LarkCodexBridge.Render.Markdown

open Lines
open LarkCodexBridge.Runtime (trim trimStart trimEnd)

/-! ## Boundaries -/

variable {text before : List Char} {boundary count : ℕ}

theorem atomicFenceBoundary_of_whole (h : Whole '\n' (text.take boundary)) :
    atomicFenceBoundary text boundary = boundary := by
  have hhead : cutHead text boundary = [] := (finished_of_whole h).2
  unfold atomicFenceBoundary
  split_ifs with hends hhead' hdelim
  · rfl
  · rfl
  · exact absurd (.inl hhead) hhead'
  · rfl

/-- The boundary stays where the line is not divided or is no delimiter. -/
def Stays (text : List Char) (boundary : ℕ) : Prop :=
  boundary = 0 ∨ text.length ≤ boundary ∨ cutHead text boundary = [] ∨ cutTail text boundary = [] ∨
    isDelimiter (openFenceAtEnd (cutFront text boundary)) (cutHead text boundary ++ cutTail text boundary) = false

theorem atomicFenceBoundary_of_stays (h : Stays text boundary) :
    atomicFenceBoundary text boundary = boundary := by
  unfold atomicFenceBoundary
  split_ifs with hends hhead hdelim
  · rfl
  · rfl
  · rcases h with h | h | h | h | h
    · exact absurd (.inl h) hends
    · exact absurd (.inr h) hends
    · exact absurd (.inl h) hhead
    · exact absurd (.inr h) hhead
    · rw [h] at hdelim
      cases hdelim
  · rfl

theorem atomicFenceBoundary_cases (text : List Char) (boundary : ℕ) :
    atomicFenceBoundary text boundary = (cutFront text boundary).length ∨
      (atomicFenceBoundary text boundary = boundary ∧ Stays text boundary) := by
  unfold atomicFenceBoundary Stays
  split_ifs with hends hhead hdelim
  · exact .inr ⟨rfl, hends.elim .inl fun h => .inr (.inl h)⟩
  · exact .inr ⟨rfl, .inr (.inr (hhead.elim .inl fun h => .inr (.inl h)))⟩
  · exact .inl rfl
  · exact .inr ⟨rfl, .inr (.inr (.inr (.inr (by simpa using hdelim))))⟩

theorem take_cutFront (text : List Char) (count : ℕ) : text.take (cutFront text count).length = cutFront text count := by
  have hfront : cutFront text count <+: text := by
    refine List.IsPrefix.trans ?_ (List.take_prefix count text)
    rw [← cutFront_append_cutHead text count]
    exact List.prefix_append _ _
  exact (List.prefix_iff_eq_take.1 hfront).symm

/-- The count is far enough behind the last line break. -/
def Far (text : List Char) (count : ℕ) : Prop := cutFront text count = [] ∨ (cutFront text count).length < count / 2

/-- The boundary for a count is the start of the divided line, or the count itself. -/
theorem preferredBoundary_spec (hcount : count ≤ text.length) :
    preferredBoundary text count = (cutFront text count).length ∨
      (preferredBoundary text count = count ∧ Far text count ∧ Stays text count) := by
  have hnewline : (finished '\n' (text.take count)).length = (cutFront text count).length := rfl
  rw [preferredBoundary, Nat.min_eq_left hcount, hnewline]
  by_cases hfar : (cutFront text count).length ≠ 0 ∧ count / 2 ≤ (cutFront text count).length
  · rw [if_pos hfar]
    exact .inl (atomicFenceBoundary_of_whole (by rw [take_cutFront]; exact whole_finished _))
  · rw [if_neg hfar]
    rcases atomicFenceBoundary_cases text count with h | ⟨h, hstays⟩
    · exact .inl h
    · refine .inr ⟨h, ?_, hstays⟩
      by_cases hzero : cutFront text count = []
      · exact .inl hzero
      · rw [not_and, not_le] at hfar
        exact .inr (hfar (by simpa using hzero))

theorem preferredBoundary_of_whole (hcount : count ≤ text.length) (h : Whole '\n' (text.take count)) :
    preferredBoundary text count = count := by
  have hfront : (finished '\n' (text.take count)).length = count := by
    rw [(finished_of_whole h).1, List.length_take, Nat.min_eq_left hcount]
  rw [preferredBoundary, Nat.min_eq_left hcount, hfront]
  split_ifs <;> exact atomicFenceBoundary_of_whole h

theorem preferredBoundary_of_far (hcount : count ≤ text.length) (hfar : Far text count) (hstays : Stays text count) :
    preferredBoundary text count = count := by
  have hnewline : (finished '\n' (text.take count)).length = (cutFront text count).length := rfl
  have hnot : ¬ ((cutFront text count).length ≠ 0 ∧ count / 2 ≤ (cutFront text count).length) := by
    rintro ⟨hne, hle⟩
    rcases hfar with hfar | hfar
    · exact hne (by rw [hfar]; rfl)
    · omega
  rw [preferredBoundary, Nat.min_eq_left hcount, hnewline, if_neg hnot]
  exact atomicFenceBoundary_of_stays hstays

/-! ## Where a boundary falls -/

/-- Behind complete lines a boundary divides what follows. -/
theorem cut_append (h : Whole '\n' before) (after : List Char) (i : ℕ) :
    cutFront (before ++ after) (before.length + i) = before ++ cutFront after i ∧
      cutHead (before ++ after) (before.length + i) = cutHead after i ∧
      cutTail (before ++ after) (before.length + i) = cutTail after i := by
  rw [cutFront, cutHead, cutTail, List.take_length_add_append, List.drop_length_add_append]
  exact ⟨(finished_whole_append h).1, (finished_whole_append h).2, rfl⟩

/-- A boundary in the first line divides only that line. -/
theorem cut_upcoming {text : List Char} {i : ℕ} (hle : i ≤ (upcoming '\n' text).length) :
    text.take i = (upcoming '\n' text).take i ∧ cutFront text i = [] ∧ cutHead text i = (upcoming '\n' text).take i ∧
      cutTail text i = (upcoming '\n' text).drop i := by
  obtain ⟨rest, htext, hrest⟩ := upcoming_append (s := '\n') text
  have hline := notMem_upcoming (s := '\n') text
  have htake : text.take i = (upcoming '\n' text).take i := by
    conv_lhs => rw [htext, List.take_append_of_le_length hle]
  have hdrop : text.drop i = (upcoming '\n' text).drop i ++ rest := by
    conv_lhs => rw [htext, List.drop_append_of_le_length hle]
  have hhead : '\n' ∉ (upcoming '\n' text).take i := fun h => hline (List.mem_of_mem_take h)
  have htail : '\n' ∉ (upcoming '\n' text).drop i := fun h => hline (List.mem_of_mem_drop h)
  rw [cutFront, cutHead, cutTail, htake, hdrop]
  exact ⟨rfl, (finished_of_line hhead).1, (finished_of_line hhead).2, upcoming_line_append htail hrest⟩

/-- Behind complete lines the boundary is at the start of a line, or well behind them. -/
theorem boundary_behind {front after : List Char} (hfront : Whole '\n' front) (hne : front ≠ []) {i : ℕ}
    (hi : i ≤ after.length) :
    ∃ mid, preferredBoundary (front ++ after) (front.length + i) = front.length + mid.length ∧
      (front ++ after).take (front.length + mid.length) = front ++ mid ∧
      (mid = cutFront after i ∨
        (mid = after.take i ∧ mid.length = i ∧ front.length + 2 ≤ i ∧ Stays (front ++ after) (front.length + i))) := by
  obtain ⟨hcut, -, -⟩ := cut_append hfront after i
  rcases preferredBoundary_spec (show front.length + i ≤ (front ++ after).length by simp [hi]) with hb | ⟨hb, hfar, hstays⟩
  · have htake := take_cutFront (front ++ after) (front.length + i)
    rw [hcut, List.length_append] at hb htake
    exact ⟨cutFront after i, hb, htake, .inl rfl⟩
  · have hlen : (after.take i).length = i := by rw [List.length_take, Nat.min_eq_left hi]
    refine ⟨after.take i, by rw [hb, hlen], by rw [List.take_length_add_append, hlen], .inr ⟨rfl, hlen, ?_, hstays⟩⟩
    rw [Far, hcut] at hfar
    rcases hfar with hfar | hfar
    · exact absurd (List.append_eq_nil_iff.1 hfar).1 hne
    · rw [List.length_append] at hfar
      omega

/-! ## The size of a closing line -/

theorem length_closingLine (fence : OpenFence) :
    fence.closingLine.length = fence.fence.length + if fence.context.quoted then 2 else 0 := by
  have hthree := fence.fence.three_le
  have hlen : fence.fence.closingLine.length = fence.fence.length := List.length_replicate
  have hne : fence.fence.closingLine ≠ [] := fun h => by simp [h] at hlen; omega
  rw [OpenFence.closingLine, quoteLine]
  cases fence.context.quoted with
  | false => simp [hlen]
  | true => simp [hne, hlen]

variable {line : List Char}

theorem length_stripContainerIndentFrom {required columns : ℕ} {rest : List Char}
    (h : stripContainerIndentFrom required columns line = some rest) : rest.length ≤ line.length := by
  induction line generalizing columns with
  | nil => cases h
  | cons c line ih =>
    rw [stripContainerIndentFrom] at h
    simp only [List.length_cons]
    dsimp only at h
    split_ifs at h
    · obtain rfl := Option.some.inj h
      omega
    · have := ih h
      omega
    · obtain rfl := Option.some.inj h
      omega
    · have := ih h
      omega

/-- Each quote of the containers takes a character of the line. -/
theorem length_contentBodyFrom {containers : List FenceContainer} (h : (contentBodyFrom containers line).2 = true) :
    (contentBodyFrom containers line).1.length + (if FenceContainer.quote ∈ containers then 1 else 0) ≤ line.length := by
  induction containers generalizing line with
  | nil => simp [contentBodyFrom]
  | cons container containers ih =>
    cases container with
    | quote =>
      rw [contentBodyFrom] at h ⊢
      rw [if_pos List.mem_cons_self]
      split at h
      · rename_i rest hrest
        have hline : (trimBlanks line).length ≤ line.length := (List.dropWhile_suffix _).length_le
        have hblank : (stripBlank rest).length ≤ rest.length := by
          unfold stripBlank
          split
          · exact le_rfl
          · split_ifs <;> simp
        have := ih h
        rw [hrest, List.length_cons] at hline
        omega
      · cases h
    | indent width =>
      have hmem : FenceContainer.quote ∈ FenceContainer.indent width :: containers ↔ FenceContainer.quote ∈ containers := by
        simp
      rw [contentBodyFrom] at h ⊢
      simp only [hmem]
      cases hstrip : stripContainerIndent line width with
      | none =>
        rw [hstrip] at h
        cases h
      | some rest =>
        rw [hstrip] at h
        have := ih h
        have := length_stripContainerIndentFrom hstrip
        dsimp only
        omega

theorem markerRun_le (marker : Marker) (text : List Char) : markerRun marker text ≤ text.length :=
  (List.takeWhile_prefix _).length_le

theorem length_trimStart_le (text : List Char) : (trimStart text).length ≤ text.length := (List.dropWhile_suffix _).length_le

theorem length_trim_le (text : List Char) : (trim text).length ≤ text.length := by
  have hend : (trim text).length ≤ (trimStart text).length := by
    rw [trim, trimEnd, List.length_reverse]
    exact (List.dropWhile_suffix _).length_le.trans_eq (List.length_reverse)
  exact hend.trans (length_trimStart_le text)

variable {fence : OpenFence} {mid : List Char}

theorem length_closingLine_le_of_closedBy (h : fence.closedBy line = true) :
    fence.closingLine.length ≤ line.length + 1 := by
  rw [OpenFence.closedBy, Bool.and_eq_true] at h
  obtain ⟨hcomplete, hclosing⟩ := h
  have hbody := length_contentBodyFrom hcomplete
  rw [isClosingFence, Bool.and_eq_true, decide_eq_true_eq] at hclosing
  have hrun := hclosing.1.trans (markerRun_le _ _)
  have htrim := length_trim_le (fence.context.contentBody line).1
  have hquoted : fence.context.quoted = true ↔ FenceContainer.quote ∈ fence.context.containers := by
    rw [fence.context.quoted_eq, List.contains_iff_mem]
  rw [length_closingLine]
  simp only [hquoted]
  have hlen : (fence.context.contentBody line).1 = (contentBodyFrom fence.context.containers line).1 := rfl
  rw [hlen] at htrim hrun
  split_ifs at hbody ⊢ with hmem <;> omega

theorem length_le_of_parseOpeningFence {body : List Char} {fence : Fence} (h : parseOpeningFence body = some fence) :
    fence.length ≤ body.length := by
  have htrim := length_trimStart_le body
  unfold parseOpeningFence at h
  split at h
  · cases h
  · rename_i c rest hbody
    rw [hbody] at htrim
    split at h
    · cases h
    · rename_i marker _
      dsimp only at h
      split_ifs at h
      obtain rfl := Option.some.inj h
      exact (markerRun_le marker _).trans htrim

theorem length_stripContainers (body : List Char) :
    (stripContainers body).2.length + (if Container.quote ∈ (stripContainers body).1 then 1 else 0) ≤ body.length := by
  induction body using stripContainers.induct with
  | case1 body hnone =>
    rw [stripContainers_of_none hnone]
    simp
  | case2 body container rest hsome ih =>
    have hlt := length_of_stripContainer hsome
    have hrest := length_trimStart_le rest
    rw [stripContainers_of_some hsome]
    dsimp only
    split_ifs at ih ⊢ <;> omega

theorem length_closingLine_le_of_opening (h : parseFenceOpening line = some fence) :
    fence.closingLine.length ≤ line.length + 1 := by
  rw [parseFenceOpening] at h
  obtain ⟨parsed, hparsed, rfl⟩ := Option.map_eq_some_iff.1 h
  have hbody := length_stripContainers (trimStart line)
  have hline := length_trimStart_le line
  have hlength := length_le_of_parseOpeningFence hparsed
  have hquoted : (FenceContext.of (stripContainers (trimStart line)).1).quoted = true ↔
      Container.quote ∈ (stripContainers (trimStart line)).1 := by
    rw [(FenceContext.of _).quoted_eq, List.contains_iff_mem]
    simp only [FenceContext.of, List.mem_map]
    constructor
    · rintro ⟨container, hmem, hquote⟩
      cases container with
      | quote => exact hmem
      | unordered => cases hquote
      | ordered number => cases hquote
    · exact fun hmem => ⟨.quote, hmem, rfl⟩
  rw [length_closingLine]
  simp only [hquoted]
  split_ifs at hbody ⊢ <;> omega

/-! ## What a part holds -/

theorem closeAndReopen_closed (h : openFenceAtEnd before = none) (after : List Char) :
    closeAndReopen before after = (before, after) := by
  rw [closeAndReopen, h]

theorem closeAndReopen_open (h : openFenceAtEnd before = some fence) (after : List Char) :
    closeAndReopen before after =
      (endLine before ++ fence.closingLine, fence.openingLine ++ '\n' :: stripNewline after) := by
  rw [closeAndReopen, h]

theorem le_length_endLine (text : List Char) : text.length ≤ (endLine text).length := by
  obtain ⟨more, hmore⟩ := endLine_eq text
  rw [hmore, List.length_append]
  exact Nat.le_add_right _ _

theorem length_le_part (before after : List Char) : before.length ≤ (closeAndReopen before after).1.length := by
  cases hopen : openFenceAtEnd before with
  | none => rw [closeAndReopen_closed hopen]
  | some fence =>
    rw [closeAndReopen_open hopen, List.length_append]
    exact (le_length_endLine before).trans (Nat.le_add_right _ _)

/-- Behind complete lines an open fence is still open, or a line as long as its closing line has closed it. -/
theorem openFrom_some_whole (h : Whole '\n' mid) :
    openFrom (some fence) mid = some fence ∨ fence.closingLine.length ≤ mid.length := by
  induction hlen : mid.length using Nat.strong_induction_on generalizing mid with
  | h n ih =>
    by_cases hne : mid = []
    · rw [hne]
      exact .inl rfl
    · obtain ⟨line, rest, hline, hrest, rfl⟩ := h.exists_line hne
      rw [List.length_append, List.length_cons] at hlen
      rw [openFrom_line_append hline, advance]
      by_cases hclosed : fence.closedBy line = true
      · have := length_closingLine_le_of_closedBy hclosed
        exact .inr (by omega)
      · rw [if_neg hclosed]
        rcases ih rest.length (by omega) hrest rfl with hopen | hlong
        · exact .inl hopen
        · exact .inr (by omega)

/-- A part that reaches beyond an open fence holds its closing line or as many characters. -/
theorem room_le_part {front : List Char} (hfront : Whole '\n' front) (hopen : openFenceAtEnd front = some fence)
    (hmid : Whole '\n' mid ∨ fence.closingLine.length ≤ mid.length) (after : List Char) :
    front.length + fence.closingLine.length ≤ (closeAndReopen (front ++ mid) after).1.length := by
  have hpart := length_le_part (front ++ mid) after
  rw [List.length_append] at hpart
  rcases hmid with hmid | hmid
  · rcases openFrom_some_whole hmid with hstill | hlong
    · have hend : openFenceAtEnd (front ++ mid) = some fence := by
        rw [openFenceAtEnd, openFrom_append hfront]
        exact (congrArg (openFrom · mid) hopen).trans hstill
      have := le_length_endLine (front ++ mid)
      rw [List.length_append] at this
      rw [closeAndReopen_open hend, List.length_append]
      omega
    · omega
  · omega

/-! ## The condition -/

/-- A rest of the fence's line `first` and the line `next` has room for a cut: behind `first` where that changes the rest,
else behind or in `next`. -/
def LeavesRoom (maxChars : ℕ) (fence : OpenFence) (first next : List Char) : Prop :=
  if first ≠ fence.openingLine ∨ next = [] then first.length + 1 + fence.closingLine.length ≤ maxChars
  else
    first.length + next.length + 2 + (if fence.closedBy next then 0 else fence.closingLine.length) ≤ maxChars ∨
    ∃ size, first.length + 3 ≤ size ∧ size ≤ next.length ∧ (fence.closedBy next = true → size = next.length) ∧
      first.length + 1 + size + (if fence.closedBy (next.take size) then 0 else fence.closingLine.length + 1) ≤ maxChars

theorem LeavesRoom.length_first {maxChars : ℕ} {first next : List Char} (h : LeavesRoom maxChars fence first next) :
    first.length + 1 ≤ maxChars := by
  rw [LeavesRoom] at h
  split at h
  · omega
  · rcases h with h | ⟨size, -, -, -, h⟩ <;> omega

/-- The rest does not begin with an opening fence, or has room for a cut behind it. -/
def Divisible (maxChars : ℕ) (rest : List Char) : Prop :=
  match parseFenceOpening (upcoming '\n' rest) with
  | none => True
  | some fence =>
    LeavesRoom maxChars fence (upcoming '\n' rest) (upcoming '\n' (rest.drop ((upcoming '\n' rest).length + 1)))

section Splitter

variable {J : JsonEscaping} {maxChars maxWireBytes : ℕ}

theorem openFenceAtEnd_line {line : List Char} (h : '\n' ∉ line) : openFenceAtEnd line = parseFenceOpening line :=
  openFrom_line h none

variable {first : List Char}

theorem openFenceAtEnd_first (h : '\n' ∉ first) (mid : List Char) :
    openFenceAtEnd (first ++ ['\n'] ++ mid) = openFrom (parseFenceOpening first) mid := by
  rw [List.append_assoc, List.singleton_append]
  exact openFrom_line_append h none mid

theorem openFenceAtEnd_opening (h : '\n' ∉ first) (hfence : parseFenceOpening first = some fence) :
    openFenceAtEnd (first ++ ['\n']) = some fence := by
  have := openFenceAtEnd_first h []
  rwa [List.append_nil, openFrom_nil, hfence] at this

/-- A rest that goes on behind its first line. -/
theorem exists_own (h : (upcoming '\n' rest).length < rest.length) : ∃ own, rest = upcoming '\n' rest ++ '\n' :: own := by
  obtain ⟨after, hrest, rfl | hafter⟩ := upcoming_append (s := '\n') rest
  · rw [List.append_nil] at hrest
    exact absurd (congrArg List.length hrest) h.ne'
  · obtain ⟨own, rfl⟩ := List.head?_eq_some_iff.1 hafter
    exact ⟨own, hrest⟩

theorem endLine_of_not_mem {line : List Char} (h : '\n' ∉ line) : endLine line = line ++ ['\n'] :=
  if_neg fun hlast => h (List.mem_of_getLast? hlast)

theorem endLine_append {piece : List Char} (hne : piece ≠ []) (h : '\n' ∉ piece) (front : List Char) :
    endLine (front ++ piece) = front ++ piece ++ ['\n'] := by
  refine if_neg fun hlast => h (List.mem_of_getLast? ?_)
  rwa [List.getLast?_append_of_ne_nil _ hne] at hlast

variable {rest : List Char}

theorem length_part_le {boundary : ℕ} (h : admissible J maxChars maxWireBytes rest boundary = true) :
    (closeAndReopen (rest.take boundary) (rest.drop boundary)).1.length ≤ maxChars := by
  obtain ⟨-, -, -, hfits⟩ := admissible_iff.1 h
  rw [fits, Bool.and_eq_true, decide_eq_true_eq] at hfits
  exact hfits.1

variable {fence : OpenFence} {front after : List Char} {i : ℕ}

/-- An accepted boundary in an opening line at the start is the end of that line, and the line is not written for the fence. -/
theorem leavesRoom_of_first (hfence : parseFenceOpening (upcoming '\n' rest) = some fence) {count : ℕ}
    (hcount : count ≤ (upcoming '\n' rest).length)
    (h : admissible J maxChars maxWireBytes rest (preferredBoundary rest count) = true) :
    upcoming '\n' rest ≠ fence.openingLine ∧ (upcoming '\n' rest).length + 1 + fence.closingLine.length ≤ maxChars := by
  have hpart := length_part_le h
  obtain ⟨hzero, hlt, htail, -⟩ := admissible_iff.1 h
  have hfirst := notMem_upcoming (s := '\n') rest
  obtain ⟨-, hfront, hhead, hcut⟩ := cut_upcoming hcount
  rcases preferredBoundary_spec (hcount.trans (List.takeWhile_prefix _).length_le) with hb | ⟨hb, -, hstays⟩
  · rw [hfront] at hb
    exact absurd hb hzero
  · rw [hb] at hzero hlt htail hpart
    have hend : count = (upcoming '\n' rest).length := by
      rcases hstays with hstays | hstays | hstays | hstays | hstays
      · exact absurd hstays hzero
      · omega
      · rw [hhead, List.take_eq_nil_iff] at hstays
        rcases hstays with hstays | hstays
        · exact absurd hstays hzero
        · rw [hstays] at hcount ⊢
          exact Nat.le_zero.1 hcount
      · rw [hcut, List.drop_eq_nil_iff] at hstays
        omega
      · rw [hfront, hhead, hcut, List.take_append_drop] at hstays
        exact absurd hstays (by simp [isDelimiter, openFenceAtEnd, hfence])
    obtain ⟨own, hrest⟩ := exists_own (hend ▸ hlt)
    have hopen : openFenceAtEnd (upcoming '\n' rest) = some fence := (openFenceAtEnd_line hfirst).trans hfence
    have htake : rest.take count = upcoming '\n' rest := by
      conv_lhs => rw [hrest, hend, List.take_left]
    have hdrop : rest.drop count = '\n' :: own := by
      conv_lhs => rw [hrest, hend, List.drop_left]
    rw [htake, hdrop, closeAndReopen_open hopen] at htail hpart
    constructor
    · intro hown
      refine htail ?_
      conv_rhs => rw [hrest]
      rw [hown]
      rfl
    · rwa [endLine_of_not_mem hfirst, List.length_append, List.length_append, List.length_singleton] at hpart

/-- An accepted boundary behind complete lines that leave a fence open leaves room for its closing line. -/
theorem room_of_admissible (hfront : Whole '\n' front) (hopen : openFenceAtEnd front = some fence)
    (hlong : fence.closingLine.length ≤ front.length) (hi : i ≤ after.length)
    (h : admissible J maxChars maxWireBytes (front ++ after) (preferredBoundary (front ++ after) (front.length + i)) = true) :
    front.length + fence.closingLine.length ≤ maxChars := by
  have hpart := length_part_le h
  have hne : front ≠ [] := by
    rintro rfl
    cases hopen
  obtain ⟨mid, hb, htake, hmid⟩ := boundary_behind hfront hne hi
  rw [hb, htake] at hpart
  refine (room_le_part hfront hopen ?_ _).trans hpart
  rcases hmid with rfl | ⟨-, hlen, hfar, -⟩
  · exact .inl (whole_finished _)
  · exact .inr (by omega)

variable {own next more : List Char}

/-- An accepted boundary in the line behind a line that is written for its fence. -/
theorem leavesRoom_of_next (hfence : parseFenceOpening fence.openingLine = some fence) (hnext : upcoming '\n' own ≠ [])
    (hi : i ≤ (upcoming '\n' own).length) (h : admissible J maxChars maxWireBytes (fence.openingLine ++ ['\n'] ++ own)
      (preferredBoundary (fence.openingLine ++ ['\n'] ++ own) ((fence.openingLine ++ ['\n']).length + i)) = true) :
    fence.openingLine.length + 3 ≤ i ∧ (fence.closedBy (upcoming '\n' own) = true → i = (upcoming '\n' own).length) ∧
      fence.openingLine.length + 1 + i +
        (if fence.closedBy ((upcoming '\n' own).take i) then 0 else fence.closingLine.length + 1) ≤ maxChars := by
  have hpart := length_part_le h
  obtain ⟨-, hlt, htail, -⟩ := admissible_iff.1 h
  have hfirst := (openingLine_no_newline fence).1
  have hlen : (fence.openingLine ++ ['\n']).length = fence.openingLine.length + 1 := by simp
  have hown : i ≤ own.length := hi.trans (List.takeWhile_prefix _).length_le
  obtain ⟨htake, hfront, hhead, hcut⟩ := cut_upcoming hi
  obtain ⟨mid, hb, hbefore, hmid⟩ := boundary_behind (whole_snoc fence.openingLine) (by simp) hown
  rw [hb, hbefore] at htail hpart
  rw [hb] at hlt
  rcases hmid with rfl | ⟨rfl, hmidLen, hfar, hstays⟩
  · -- at the start of the line the rest would not change
    rw [hfront, List.append_nil, List.length_nil, Nat.add_zero, List.drop_left] at htail
    have hopen := openFenceAtEnd_opening hfirst hfence
    have hstrip : stripNewline own = own := by
      refine if_neg fun hhead => hnext ?_
      obtain ⟨rest, rfl⟩ := List.head?_eq_some_iff.1 hhead
      rfl
    rw [closeAndReopen_open hopen, hstrip] at htail
    exact absurd (by simp) htail
  · rw [hmidLen] at hlt
    refine ⟨by omega, ?_, ?_⟩
    · intro hclosed
      rcases hstays with hstays | hstays | hstays | hstays | hstays
      · omega
      · omega
      · rw [(cut_append (whole_snoc _) own i).2.1, hhead, List.take_eq_nil_iff] at hstays
        rcases hstays with hstays | hstays
        · omega
        · exact absurd hstays hnext
      · rw [(cut_append (whole_snoc _) own i).2.2, hcut, List.drop_eq_nil_iff] at hstays
        omega
      · obtain ⟨hfront', hhead', hcut'⟩ := cut_append (whole_snoc fence.openingLine) own i
        have hopen := openFenceAtEnd_opening hfirst hfence
        rw [hfront', hhead', hcut', hfront, hhead, hcut, List.take_append_drop, List.append_nil, hopen] at hstays
        exact absurd hclosed (by simpa [isDelimiter] using hstays)
    · have hpiece : '\n' ∉ (upcoming '\n' own).take i := fun hm => notMem_upcoming own (List.mem_of_mem_take hm)
      have hend := openFenceAtEnd_first hfirst ((upcoming '\n' own).take i)
      rw [hfence, openFrom_line hpiece, advance] at hend
      rw [htake] at hpart hmidLen
      by_cases hclosed : fence.closedBy ((upcoming '\n' own).take i) = true
      · rw [if_pos hclosed] at hend ⊢
        rw [closeAndReopen_closed hend, List.length_append, hlen] at hpart
        omega
      · rw [if_neg hclosed] at hend ⊢
        have hne : (upcoming '\n' own).take i ≠ [] := fun hnil => by
          rw [hnil, List.length_nil] at hmidLen
          omega
        rw [closeAndReopen_open hend, endLine_append hne hpiece, List.length_append, List.length_append, List.length_append, hlen,
          List.length_singleton] at hpart
        omega

/-- An accepted boundary behind the line behind a line that is written for its fence. -/
theorem leavesRoom_of_behind (hfence : parseFenceOpening fence.openingLine = some fence) (hnext : '\n' ∉ next) {j : ℕ}
    (hj : j ≤ more.length)
    (h : admissible J maxChars maxWireBytes (fence.openingLine ++ ['\n'] ++ (next ++ '\n' :: more))
      (preferredBoundary (fence.openingLine ++ ['\n'] ++ (next ++ '\n' :: more))
        ((fence.openingLine ++ ['\n']).length + (next.length + 1 + j))) = true) :
    fence.openingLine.length + next.length + 2 + (if fence.closedBy next then 0 else fence.closingLine.length) ≤ maxChars := by
  have hfirst := (openingLine_no_newline fence).1
  have htext : fence.openingLine ++ ['\n'] ++ (next ++ '\n' :: more) =
      fence.openingLine ++ ['\n'] ++ (next ++ ['\n']) ++ more := by simp
  have hwhole : Whole '\n' (fence.openingLine ++ ['\n'] ++ (next ++ ['\n'])) := (whole_snoc _).append (whole_snoc next)
  have hlen : (fence.openingLine ++ ['\n'] ++ (next ++ ['\n'])).length = fence.openingLine.length + next.length + 2 := by
    simp only [List.length_append, List.length_singleton]
    omega
  have hcount : (fence.openingLine ++ ['\n']).length + (next.length + 1 + j) =
      (fence.openingLine ++ ['\n'] ++ (next ++ ['\n'])).length + j := by
    rw [hlen, List.length_append, List.length_singleton]
    omega
  have hopen := openFenceAtEnd_first hfirst (next ++ ['\n'])
  rw [hfence, openFrom_line_append hnext, advance, openFrom_nil] at hopen
  rw [htext, hcount] at h
  by_cases hclosed : fence.closedBy next = true
  · obtain ⟨mid, hb, htake, -⟩ := boundary_behind hwhole (by simp) hj
    have hpart := (length_le_part _ _).trans (length_part_le h)
    rw [hb, htake, List.length_append, hlen] at hpart
    rw [if_pos hclosed]
    omega
  · rw [if_neg hclosed] at hopen ⊢
    have hlong : fence.closingLine.length ≤ (fence.openingLine ++ ['\n'] ++ (next ++ ['\n'])).length := by
      have := length_closingLine_le_of_opening hfence
      omega
    have hroom := room_of_admissible hwhole hopen hlong hj h
    rwa [hlen] at hroom

/-- An accepted boundary behind an opening line. -/
theorem leavesRoom_of_later (hfirst : '\n' ∉ first) (hfence : parseFenceOpening first = some fence)
    (hi : i ≤ own.length) (h : admissible J maxChars maxWireBytes (first ++ ['\n'] ++ own)
      (preferredBoundary (first ++ ['\n'] ++ own) ((first ++ ['\n']).length + i)) = true) :
    LeavesRoom maxChars fence first (upcoming '\n' own) := by
  have hopen := openFenceAtEnd_opening hfirst hfence
  have hk := length_closingLine_le_of_opening hfence
  have hroom := room_of_admissible (whole_snoc first) hopen (by simpa using hk) hi h
  rw [List.length_append, List.length_singleton] at hroom
  rw [LeavesRoom]
  by_cases hcase : first ≠ fence.openingLine ∨ upcoming '\n' own = []
  · rwa [if_pos hcase]
  · rw [if_neg hcase]
    rw [not_or, not_not] at hcase
    obtain ⟨rfl, hnext⟩ := hcase
    by_cases hle : i ≤ (upcoming '\n' own).length
    · obtain ⟨hfar, hend, hfits⟩ := leavesRoom_of_next hfence hnext hle h
      exact .inr ⟨i, hfar, hle, hend, hfits⟩
    · obtain ⟨more, hown⟩ := exists_own ((not_le.1 hle).trans_le hi)
      have hline := notMem_upcoming (s := '\n') own
      obtain ⟨j, rfl⟩ := Nat.exists_eq_add_of_lt (not_le.1 hle)
      generalize upcoming '\n' own = next at *
      subst hown
      rw [List.length_append, List.length_cons] at hi
      rw [Nat.add_right_comm] at h
      exact .inl (leavesRoom_of_behind hfence hline (by omega) h)

/-- A rest with a line break behind its first line. -/
theorem eq_first_append (h : (upcoming '\n' rest).length < rest.length) :
    rest = upcoming '\n' rest ++ ['\n'] ++ rest.drop ((upcoming '\n' rest).length + 1) := by
  obtain ⟨own, hrest⟩ := exists_own h
  generalize upcoming '\n' rest = first at *
  subst hrest
  rw [List.drop_length_add_append, List.drop_one, List.tail_cons, List.append_assoc, List.singleton_append]

theorem divisible_of_admissible {count : ℕ} (hcount : count ≤ rest.length)
    (h : admissible J maxChars maxWireBytes rest (preferredBoundary rest count) = true) : Divisible maxChars rest := by
  rw [Divisible]
  cases hfence : parseFenceOpening (upcoming '\n' rest) with
  | none => trivial
  | some fence =>
    by_cases hle : count ≤ (upcoming '\n' rest).length
    · obtain ⟨hne, hroom⟩ := leavesRoom_of_first hfence hle h
      dsimp only
      rw [LeavesRoom, if_pos (.inl hne)]
      exact hroom
    · obtain ⟨i, rfl⟩ := Nat.exists_eq_add_of_lt (not_le.1 hle)
      have hrest := eq_first_append (show (upcoming '\n' rest).length < rest.length by omega)
      have hline := notMem_upcoming (s := '\n') rest
      dsimp only
      generalize upcoming '\n' rest = first at *
      generalize rest.drop (first.length + 1) = own at *
      subst hrest
      have hlen : (first ++ ['\n']).length = first.length + 1 := by simp
      rw [List.length_append, hlen] at hcount
      rw [Nat.add_right_comm, ← hlen] at h
      exact leavesRoom_of_later hline hfence (by omega) h

/-! ## Where a divisible rest is cut -/

theorem admissible_of_part {boundary : ℕ} (hwire : ∀ text : List Char, text.length ≤ maxChars →
      postMarkdownReplyBodyLen J text true ≤ maxWireBytes) (hzero : boundary ≠ 0) (hlt : boundary < rest.length)
    (htail : (closeAndReopen (rest.take boundary) (rest.drop boundary)).2 ≠ rest)
    (hpart : (closeAndReopen (rest.take boundary) (rest.drop boundary)).1.length ≤ maxChars) :
    admissible J maxChars maxWireBytes rest boundary = true := by
  refine admissible_iff.2 ⟨hzero, hlt, htail, ?_⟩
  rw [fits, Bool.and_eq_true, decide_eq_true_eq, decide_eq_true_eq]
  exact ⟨hpart, hwire _ hpart⟩

theorem length_stripNewline_le (text : List Char) : (stripNewline text).length ≤ text.length := by
  unfold stripNewline
  split_ifs
  · rw [List.length_tail]
    exact Nat.sub_le _ _
  · exact le_rfl

/-- A rest whose first line opens nothing is cut after a character. -/
theorem admissible_one (hwire : ∀ text : List Char, text.length ≤ maxChars →
      postMarkdownReplyBodyLen J text true ≤ maxWireBytes) (hpos : 0 < maxChars) (hlong : 1 < rest.length)
    (hfirst : parseFenceOpening (upcoming '\n' rest) = none) :
    admissible J maxChars maxWireBytes rest (preferredBoundary rest 1) = true := by
  have hlen : (rest.take 1).length = 1 := by rw [List.length_take, Nat.min_eq_left hlong.le]
  have hboth : preferredBoundary rest 1 = 1 ∧ openFenceAtEnd (rest.take 1) = none := by
    by_cases hnewline : upcoming '\n' rest = []
    · obtain ⟨own, hrest⟩ := @exists_own rest (by simp only [hnewline, List.length_nil]; omega)
      rw [hnewline, List.nil_append] at hrest
      subst hrest
      exact ⟨preferredBoundary_of_whole hlong.le (whole_snoc []), openFrom_newline none []⟩
    · have hone : 1 ≤ (upcoming '\n' rest).length := List.length_pos_iff.2 hnewline
      obtain ⟨htake, hfront, hhead, hcut⟩ := cut_upcoming hone
      have hopen : openFenceAtEnd ((upcoming '\n' rest).take 1) = none := by
        rw [openFenceAtEnd_line fun hm => notMem_upcoming rest (List.mem_of_mem_take hm)]
        by_contra hsome
        have := parseFenceOpening_append (Option.isSome_iff_ne_none.2 hsome) ((upcoming '\n' rest).drop 1)
        rw [List.take_append_drop, hfirst] at this
        cases this
      refine ⟨preferredBoundary_of_far hlong.le (.inl hfront) (.inr (.inr (.inr (.inr ?_)))), by rw [htake]; exact hopen⟩
      rw [hfront, hhead, hcut, List.take_append_drop]
      simp [isDelimiter, openFenceAtEnd, hfirst]
  obtain ⟨hb, hopen⟩ := hboth
  rw [hb]
  refine admissible_of_part hwire Nat.one_ne_zero hlong ?_ ?_
  · rw [closeAndReopen_closed hopen]
    intro h
    have := congrArg List.length h
    rw [List.length_drop] at this
    omega
  · rw [closeAndReopen_closed hopen, hlen]
    exact hpos

/-- A cut in an open fence changes the rest if it moves more than the fence's own line. -/
theorem reopened_ne {before : List Char}
    (h : fence.openingLine.length + 1 < before.length ∨ fence.openingLine.length + 1 = before.length ∧ after.head? = some '\n') :
    fence.openingLine ++ '\n' :: stripNewline after ≠ before ++ after := by
  intro heq
  have hlen := congrArg List.length heq
  rw [List.length_append, List.length_cons, List.length_append] at hlen
  have hle := length_stripNewline_le after
  rcases h with h | ⟨h, hhead⟩
  · omega
  · obtain ⟨rest, rfl⟩ := List.head?_eq_some_iff.1 hhead
    simp only [stripNewline, List.head?_cons, if_true, List.tail_cons, List.length_cons] at hlen
    omega

section

variable (hwire : ∀ text : List Char, text.length ≤ maxChars → postMarkdownReplyBodyLen J text true ≤ maxWireBytes)
include hwire

/-- A rest that begins with an opening line of another form is cut behind that line. -/
theorem admissible_first (hfirst : '\n' ∉ first)
    (hfence : parseFenceOpening first = some fence) (hne : first ≠ fence.openingLine)
    (hroom : first.length + 1 + fence.closingLine.length ≤ maxChars) :
    admissible J maxChars maxWireBytes (first ++ ['\n'] ++ own) (preferredBoundary (first ++ ['\n'] ++ own) first.length) = true := by
  have hopen : openFenceAtEnd first = some fence := (openFenceAtEnd_line hfirst).trans hfence
  have hpos := length_closingLine_le_of_opening hfence
  have hthree := fence.fence.three_le
  rw [length_closingLine] at hpos
  rw [List.append_assoc, List.singleton_append]
  have hline : upcoming '\n' (first ++ '\n' :: own) = first := upcoming_line_append hfirst (.inr rfl)
  obtain ⟨-, hfront, -, hcut⟩ := @cut_upcoming (first ++ '\n' :: own) first.length (by rw [hline])
  have hb : preferredBoundary (first ++ '\n' :: own) first.length = first.length := by
    refine preferredBoundary_of_far (by simp) (.inl hfront) (.inr (.inr (.inr (.inl ?_))))
    rw [hcut, hline, List.drop_length]
  rw [hb]
  refine admissible_of_part hwire (by omega) (by simp) ?_ ?_
  · rw [List.take_left, List.drop_left, closeAndReopen_open hopen]
    intro heq
    have := congrArg (upcoming '\n') heq
    rw [upcoming_line_append (openingLine_no_newline fence).1 (.inr rfl), hline] at this
    exact hne this.symm
  · rw [List.take_left, closeAndReopen_open hopen, endLine_of_not_mem hfirst, List.length_append, List.length_append,
      List.length_singleton]
    exact hroom

/-- Behind complete lines with an open fence a rest is cut if that changes the rest and leaves room. -/
theorem admissible_whole (hfront : Whole '\n' front) (hne : front ≠ [])
    (hafter : after ≠ []) (htail : (closeAndReopen front after).2 ≠ front ++ after)
    (hpart : (closeAndReopen front after).1.length ≤ maxChars) :
    admissible J maxChars maxWireBytes (front ++ after) (preferredBoundary (front ++ after) front.length) = true := by
  have hlen : (front ++ after).length = front.length + after.length := List.length_append
  have hpos := List.length_pos_iff.2 hafter
  rw [preferredBoundary_of_whole (by omega) (by rwa [List.take_left])]
  refine admissible_of_part hwire (fun h => hne (List.length_eq_zero_iff.1 h)) (by omega) ?_ ?_
  · rwa [List.take_left, List.drop_left]
  · rwa [List.take_left, List.drop_left]

end

theorem endLine_whole (h : front.getLast? = some '\n') : endLine front = front := if_pos h

section

variable (hwire : ∀ text : List Char, text.length ≤ maxChars → postMarkdownReplyBodyLen J text true ≤ maxWireBytes)
include hwire

/-- In the line behind a line that is written for its fence a rest is cut far enough from the start of that line. -/
theorem admissible_next {size : ℕ} (hfence : parseFenceOpening fence.openingLine = some fence)
    (hlong : maxChars < (fence.openingLine ++ ['\n'] ++ own).length) (hfar : fence.openingLine.length + 3 ≤ size)
    (hsize : size ≤ (upcoming '\n' own).length)
    (hend : fence.closedBy (upcoming '\n' own) = true → size = (upcoming '\n' own).length)
    (hroom : fence.openingLine.length + 1 + size +
      (if fence.closedBy ((upcoming '\n' own).take size) then 0 else fence.closingLine.length + 1) ≤ maxChars) :
    admissible J maxChars maxWireBytes (fence.openingLine ++ ['\n'] ++ own)
      (preferredBoundary (fence.openingLine ++ ['\n'] ++ own) ((fence.openingLine ++ ['\n']).length + size)) = true := by
  have hfirst := (openingLine_no_newline fence).1
  have hlen : (fence.openingLine ++ ['\n']).length = fence.openingLine.length + 1 := by simp
  have hopen := openFenceAtEnd_opening hfirst hfence
  obtain ⟨htake, hfront, hhead, hcut⟩ := cut_upcoming hsize
  obtain ⟨hfront', hhead', hcut'⟩ := cut_append (whole_snoc fence.openingLine) own size
  have hle : (fence.openingLine ++ ['\n']).length + size ≤ (fence.openingLine ++ ['\n'] ++ own).length := by
    rw [hlen]
    omega
  have hb : preferredBoundary (fence.openingLine ++ ['\n'] ++ own) ((fence.openingLine ++ ['\n']).length + size) =
      (fence.openingLine ++ ['\n']).length + size := by
    refine preferredBoundary_of_far hle (.inr ?_) (.inr (.inr (.inr ?_)))
    · rw [hfront', hfront, List.append_nil, hlen]
      omega
    · rw [hfront', hhead', hcut', hfront, hhead, hcut, List.take_append_drop, List.append_nil, hopen]
      by_cases hclosed : fence.closedBy (upcoming '\n' own) = true
      · exact .inl (by rw [hend hclosed, List.drop_length])
      · exact .inr (by simpa [isDelimiter] using hclosed)
  have hpiece : '\n' ∉ (upcoming '\n' own).take size := fun hm => notMem_upcoming own (List.mem_of_mem_take hm)
  have hpieceLen : ((upcoming '\n' own).take size).length = size := by rw [List.length_take, Nat.min_eq_left hsize]
  have hbefore : (fence.openingLine ++ ['\n'] ++ own).take ((fence.openingLine ++ ['\n']).length + size) =
      fence.openingLine ++ ['\n'] ++ (upcoming '\n' own).take size := by
    rw [List.take_length_add_append, htake]
  have hafter := List.take_append_drop ((fence.openingLine ++ ['\n']).length + size) (fence.openingLine ++ ['\n'] ++ own)
  have hstate := openFenceAtEnd_first hfirst ((upcoming '\n' own).take size)
  rw [hfence, openFrom_line hpiece, advance] at hstate
  have hbeforeLen : (fence.openingLine ++ ['\n'] ++ (upcoming '\n' own).take size).length =
      fence.openingLine.length + 1 + size := by rw [List.length_append, hlen, hpieceLen]
  rw [hb]
  refine admissible_of_part hwire (by omega) (by omega) ?_ ?_
  · rw [hbefore] at hafter ⊢
    by_cases hclosed : fence.closedBy ((upcoming '\n' own).take size) = true
    · rw [if_pos hclosed] at hstate
      rw [closeAndReopen_closed hstate]
      intro heq
      have := congrArg List.length heq
      rw [List.length_drop] at this
      omega
    · rw [if_neg hclosed] at hstate
      rw [closeAndReopen_open hstate]
      conv_rhs => rw [← hafter]
      exact reopened_ne (.inl (by omega))
  · rw [hbefore]
    by_cases hclosed : fence.closedBy ((upcoming '\n' own).take size) = true
    · rw [if_pos hclosed] at hstate hroom
      rw [closeAndReopen_closed hstate, hbeforeLen]
      exact hroom
    · rw [if_neg hclosed] at hstate hroom
      have hne : (upcoming '\n' own).take size ≠ [] := fun hnil => by
        rw [hnil, List.length_nil] at hpieceLen
        omega
      rw [closeAndReopen_open hstate, endLine_append hne hpiece, List.length_append, List.length_append, hbeforeLen,
        List.length_singleton]
      omega

/-- Behind the line behind a line that is written for its fence a rest is cut if that leaves room. -/
theorem admissible_behind (hfence : parseFenceOpening fence.openingLine = some fence)
    (hnext : '\n' ∉ next) (hmore : more ≠ [])
    (hroom : fence.openingLine.length + next.length + 2 + (if fence.closedBy next then 0 else fence.closingLine.length) ≤ maxChars) :
    admissible J maxChars maxWireBytes (fence.openingLine ++ ['\n'] ++ (next ++ '\n' :: more))
      (preferredBoundary (fence.openingLine ++ ['\n'] ++ (next ++ '\n' :: more))
        (fence.openingLine.length + next.length + 2)) = true := by
  have hwhole : Whole '\n' (fence.openingLine ++ ['\n'] ++ (next ++ ['\n'])) := (whole_snoc _).append (whole_snoc next)
  have hlen : (fence.openingLine ++ ['\n'] ++ (next ++ ['\n'])).length = fence.openingLine.length + next.length + 2 := by
    simp only [List.length_append, List.length_singleton]
    omega
  have htext : fence.openingLine ++ ['\n'] ++ (next ++ '\n' :: more) =
      fence.openingLine ++ ['\n'] ++ (next ++ ['\n']) ++ more := by simp
  have hstate := openFenceAtEnd_first (openingLine_no_newline fence).1 (next ++ ['\n'])
  rw [hfence, openFrom_line_append hnext, advance, openFrom_nil] at hstate
  rw [htext, ← hlen]
  refine admissible_whole hwire hwhole (by simp) hmore ?_ ?_
  · by_cases hclosed : fence.closedBy next = true
    · rw [if_pos hclosed] at hstate
      rw [closeAndReopen_closed hstate]
      intro heq
      have hsame : more.length = _ := congrArg List.length heq
      rw [List.length_append, hlen] at hsame
      omega
    · rw [if_neg hclosed] at hstate
      rw [closeAndReopen_open hstate]
      exact reopened_ne (.inl (by omega))
  · by_cases hclosed : fence.closedBy next = true
    · rw [if_pos hclosed] at hstate hroom
      rw [closeAndReopen_closed hstate, hlen]
      exact hroom
    · rw [if_neg hclosed] at hstate hroom
      rw [closeAndReopen_open hstate, endLine_whole (by rw [← List.append_assoc]; exact List.getLast?_concat), List.length_append,
        hlen]
      exact hroom

theorem admissible_of_leavesRoom (hfirst : '\n' ∉ first)
    (hfence : parseFenceOpening first = some fence) (hlong : maxChars < (first ++ ['\n'] ++ own).length)
    (h : LeavesRoom maxChars fence first (upcoming '\n' own)) :
    ∃ count, 1 ≤ count ∧ count ≤ maxChars ∧ admissible J maxChars maxWireBytes (first ++ ['\n'] ++ own)
      (preferredBoundary (first ++ ['\n'] ++ own) count) = true := by
  have hk := length_closingLine_le_of_opening hfence
  have hthree := fence.fence.three_le
  rw [length_closingLine] at hk
  have hlen : (first ++ ['\n']).length = first.length + 1 := by simp
  have hopen := openFenceAtEnd_opening hfirst hfence
  rw [LeavesRoom] at h
  by_cases hne : first ≠ fence.openingLine
  · rw [if_pos (.inl hne)] at h
    exact ⟨first.length, by omega, by omega, admissible_first hwire hfirst hfence hne h⟩
  · rw [not_not] at hne
    subst hne
    by_cases hnext : upcoming '\n' own = []
    · rw [if_pos (.inr hnext)] at h
      have hhead : own.head? = some '\n' := by
        rw [List.length_append, hlen] at hlong
        obtain ⟨more, hown⟩ := @exists_own own (by simp only [hnext, List.length_nil]; omega)
        rw [hown, hnext]
        rfl
      refine ⟨(fence.openingLine ++ ['\n']).length, by omega, by omega,
        admissible_whole hwire (whole_snoc _) (by simp) (fun hnil => by simp [hnil] at hhead) ?_ ?_⟩
      · rw [closeAndReopen_open hopen]
        exact reopened_ne (.inr ⟨hlen.symm, hhead⟩)
      · rw [closeAndReopen_open hopen, endLine_whole (by simp), List.length_append, hlen]
        exact h
    · rw [if_neg (by simp [hnext])] at h
      rcases h with h | ⟨size, hfar, hsize, hend, hroom⟩
      · rw [List.length_append, hlen] at hlong
        obtain ⟨more, hown⟩ := @exists_own own (by omega)
        have hline := notMem_upcoming (s := '\n') own
        generalize upcoming '\n' own = next at *
        subst hown
        have hne : more ≠ [] := by
          rintro rfl
          simp only [List.length_append, List.length_singleton] at hlong
          omega
        exact ⟨fence.openingLine.length + next.length + 2, by omega, by omega, admissible_behind hwire hfence hline hne h⟩
      · exact ⟨(fence.openingLine ++ ['\n']).length + size, by omega, by rw [hlen]; omega,
          admissible_next hwire hfence hlong hfar hsize hend hroom⟩

/-! ## When `split_one` finds a boundary -/

end

theorem splitBoundaryFrom_isSome_iff {bound : ℕ} :
    (splitBoundaryFrom J maxChars maxWireBytes rest bound).isSome ↔
      ∃ count, 1 ≤ count ∧ count ≤ bound ∧
        admissible J maxChars maxWireBytes rest (preferredBoundary rest count) = true := by
  induction bound with
  | zero => simp [splitBoundaryFrom]
  | succ bound ih =>
    rw [splitBoundaryFrom]
    split_ifs with hadm
    · exact ⟨fun _ => ⟨bound + 1, by omega, le_rfl, hadm⟩, fun _ => rfl⟩
    · rw [ih]
      constructor
      · rintro ⟨count, hone, hle, hcount⟩
        exact ⟨count, hone, by omega, hcount⟩
      · rintro ⟨count, hone, hle, hcount⟩
        rcases Nat.lt_or_eq_of_le hle with hlt | rfl
        · exact ⟨count, hone, by omega, hcount⟩
        · exact absurd hcount hadm

/-- **A rest that is too long can be cut exactly when it is divisible.** -/
theorem splitBoundary_isSome_iff (hwire : ∀ text : List Char, text.length ≤ maxChars →
      postMarkdownReplyBodyLen J text true ≤ maxWireBytes) (hpos : 0 < maxChars) (hlong : maxChars < rest.length) :
    (splitBoundary J maxChars maxWireBytes rest).isSome ↔ Divisible maxChars rest := by
  rw [splitBoundary, splitBoundaryFrom_isSome_iff, Nat.min_eq_right hlong.le]
  constructor
  · rintro ⟨count, -, hle, hadm⟩
    exact divisible_of_admissible (hle.trans hlong.le) hadm
  · intro h
    rw [Divisible] at h
    cases hfence : parseFenceOpening (upcoming '\n' rest) with
    | none => exact ⟨1, le_rfl, hpos, admissible_one hwire hpos (by omega) hfence⟩
    | some fence =>
      rw [hfence] at h
      have hlt : (upcoming '\n' rest).length < rest.length := (Nat.lt_of_succ_le h.length_first).trans hlong
      have hline := notMem_upcoming (s := '\n') rest
      have hrest := eq_first_append hlt
      dsimp only at h
      generalize upcoming '\n' rest = first at *
      generalize rest.drop (first.length + 1) = own at *
      subst hrest
      exact admissible_of_leavesRoom hwire hline hfence hlong h

end Splitter

end LarkCodexBridge.Render.Markdown
