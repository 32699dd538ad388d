import Mathlib
import LarkCodexBridge.Lib.Lines
import LarkCodexBridge.Render.Projector

/-!
# Fenced code blocks

The line syntax that the Markdown projection and the splitter share: containers, opening and closing fences, and the
fence that is open at the end of a text.

* `parseFenceOpening`, `OpenFence.closedBy`: what opens and what closes a fence;
* `openFrom`: the open fence after more lines, `openFrom_append`, `openFrom_line_append`: line by line;
* `parseFenceOpening_append`: a line that begins like an opening fence is one;
* `parseFenceOpening_openingLine`, `closedBy_closingLine`: the lines written for a fence are read back.
-/

namespace LarkCodexBridge.Render.Markdown

open LarkCodexBridge.Runtime (isWhitespace trim trimStart trimEnd)

/-! ## Lines -/

/-- A chunk without its line ending. -/
def chomp (chunk : List Char) : List Char :=
  if chunk.getLast? = some '\n' then
    if chunk.dropLast.getLast? = some '\r' then chunk.dropLast.dropLast else chunk.dropLast
  else chunk

def lines (text : List Char) : List (List Char) := (Lines.chunks '\n' text).map chomp

/-- `str::trim_start_matches([' ', '\t'])`. -/
def trimBlanks (text : List Char) : List Char := text.dropWhile fun c => c = ' ' || c = '\t'

/-! ## Containers -/

/-- The block containers a line can stand in. -/
inductive Container where
  | quote
  | unordered
  | ordered (number : List Char)
  deriving DecidableEq

/-- The number of an ordered list item. -/
def stripNumber (body : List Char) : Option (Container × List Char) :=
  let number := body.takeWhile Char.isDigit
  if number = [] then none
  else
    match body.dropWhile Char.isDigit with
    | '.' :: ' ' :: rest => some (.ordered number, rest)
    | ')' :: ' ' :: rest => some (.ordered number, rest)
    | _ => none

/-- The first container marker of the body, and the text after it. -/
def stripContainer (body : List Char) : Option (Container × List Char) :=
  match body with
  | '>' :: rest => some (.quote, rest)
  | '-' :: ' ' :: rest => some (.unordered, rest)
  | '*' :: ' ' :: rest => some (.unordered, rest)
  | '+' :: ' ' :: rest => some (.unordered, rest)
  | body => stripNumber body

variable {body rest text : List Char} {container : Container} {c : Char}

/-- What a number of a list item looks like. -/
theorem stripNumber_eq_some :
    stripNumber body = some (container, rest) ↔
      ∃ number mark, number ≠ [] ∧ (∀ d ∈ number, d.isDigit = true) ∧ (mark = '.' ∨ mark = ')') ∧
        body = number ++ mark :: ' ' :: rest ∧ container = .ordered number := by
  constructor
  · intro h
    have hsplit := List.takeWhile_append_dropWhile (p := Char.isDigit) (l := body)
    have hdigits : ∀ d ∈ body.takeWhile Char.isDigit, d.isDigit = true := fun d hd => List.mem_takeWhile_imp hd
    unfold stripNumber at h
    dsimp only at h
    split at h
    · cases h
    · rename_i hnumber
      split at h
      · rename_i hdrop
        obtain ⟨rfl, rfl⟩ := Prod.mk.inj (Option.some.inj h)
        exact ⟨_, '.', hnumber, hdigits, .inl rfl, by rw [← hdrop, hsplit], rfl⟩
      · rename_i hdrop
        obtain ⟨rfl, rfl⟩ := Prod.mk.inj (Option.some.inj h)
        exact ⟨_, ')', hnumber, hdigits, .inr rfl, by rw [← hdrop, hsplit], rfl⟩
      · cases h
  · rintro ⟨number, mark, hne, hdigits, hmark, rfl, rfl⟩
    have hend : mark.isDigit = false := by rcases hmark with rfl | rfl <;> decide
    have htake : (number ++ mark :: ' ' :: rest).takeWhile Char.isDigit = number := by
      rw [List.takeWhile_append_of_pos hdigits, List.takeWhile_cons_of_neg (by simp [hend]), List.append_nil]
    have hdrop : (number ++ mark :: ' ' :: rest).dropWhile Char.isDigit = mark :: ' ' :: rest := by
      rw [List.dropWhile_append_of_pos hdigits, List.dropWhile_cons_of_neg (by simp [hend])]
    simp only [stripNumber, htake, hdrop, if_neg hne]
    rcases hmark with rfl | rfl <;> rfl

/-- A container marker is a quote, a bullet or a number, and is read from any text that begins with it. -/
theorem stripContainer_eq_some :
    stripContainer body = some (container, rest) ↔
      (body = '>' :: rest ∧ container = .quote) ∨
      ((∃ bullet, (bullet = '-' ∨ bullet = '*' ∨ bullet = '+') ∧ body = bullet :: ' ' :: rest) ∧ container = .unordered) ∨
      ∃ number mark, number ≠ [] ∧ (∀ d ∈ number, d.isDigit = true) ∧ (mark = '.' ∨ mark = ')') ∧
        body = number ++ mark :: ' ' :: rest ∧ container = .ordered number := by
  constructor
  · intro h
    unfold stripContainer at h
    split at h
    · obtain ⟨rfl, rfl⟩ := Prod.mk.inj (Option.some.inj h)
      exact .inl ⟨rfl, rfl⟩
    · obtain ⟨rfl, rfl⟩ := Prod.mk.inj (Option.some.inj h)
      exact .inr (.inl ⟨⟨'-', by simp, rfl⟩, rfl⟩)
    · obtain ⟨rfl, rfl⟩ := Prod.mk.inj (Option.some.inj h)
      exact .inr (.inl ⟨⟨'*', by simp, rfl⟩, rfl⟩)
    · obtain ⟨rfl, rfl⟩ := Prod.mk.inj (Option.some.inj h)
      exact .inr (.inl ⟨⟨'+', by simp, rfl⟩, rfl⟩)
    · exact .inr (.inr (stripNumber_eq_some.1 h))
  · rintro (⟨rfl, rfl⟩ | ⟨⟨bullet, hbullet, rfl⟩, rfl⟩ | h)
    · rfl
    · rcases hbullet with rfl | rfl | rfl <;> rfl
    · have hnumber := stripNumber_eq_some.2 h
      obtain ⟨number, mark, hne, hdigits, -, rfl, -⟩ := h
      obtain ⟨d, digits, rfl⟩ := List.exists_cons_of_ne_nil hne
      have hd : d.isDigit = true := hdigits d List.mem_cons_self
      unfold stripContainer
      split
      · rename_i heq
        cases heq
        exact absurd hd (by decide)
      iterate 3
        · rename_i heq
          rw [List.cons_append] at heq
          rw [(List.cons.inj heq).1] at hd
          exact absurd hd (by decide)
      · exact hnumber

theorem length_of_stripContainer (h : stripContainer body = some (container, rest)) : rest.length < body.length := by
  rcases stripContainer_eq_some.1 h with ⟨rfl, -⟩ | ⟨⟨bullet, -, rfl⟩, -⟩ | ⟨number, mark, -, -, -, rfl, -⟩
  · simp
  · simp only [List.length_cons]
    omega
  · simp only [List.length_append, List.length_cons]
    omega

/-- What follows the marker does not matter. -/
theorem stripContainer_append (h : stripContainer body = some (container, rest)) (more : List Char) :
    stripContainer (body ++ more) = some (container, rest ++ more) := by
  rw [stripContainer_eq_some] at h ⊢
  rcases h with ⟨rfl, rfl⟩ | ⟨⟨bullet, hbullet, rfl⟩, rfl⟩ | ⟨number, mark, hne, hdigits, hmark, rfl, rfl⟩
  · exact .inl ⟨rfl, rfl⟩
  · exact .inr (.inl ⟨⟨bullet, hbullet, rfl⟩, rfl⟩)
  · exact .inr (.inr ⟨number, mark, hne, hdigits, hmark, by simp, rfl⟩)

/-- All container markers at the start of the body, which has no leading whitespace, and the text after them. -/
def stripContainers (body : List Char) : List Container × List Char :=
  match _h : stripContainer body with
  | none => ([], body)
  | some (container, rest) =>
    let inner := stripContainers (trimStart rest)
    (container :: inner.1, inner.2)
termination_by body.length
decreasing_by
  have := length_of_stripContainer _h
  have := (List.dropWhile_suffix (l := rest) isWhitespace).length_le
  rw [trimStart]
  omega

/-- What an opening fence requires of the lines of its block. -/
inductive FenceContainer where
  | quote
  | indent (width : ℕ)
  deriving DecidableEq

def Container.fenceContainer : Container → FenceContainer
  | .quote => .quote
  | .unordered => .indent 2
  | .ordered number => .indent (number.length + 2)

/-- The containers of an opening fence, and whether a quote is among them. -/
structure FenceContext where
  containers : List FenceContainer
  quoted : Bool
  quoted_eq : quoted = containers.contains .quote
  deriving DecidableEq

def FenceContext.of (containers : List Container) : FenceContext :=
  ⟨containers.map Container.fenceContainer, _, rfl⟩

/-- Removes an indentation of `required` columns, of which `columns` are passed. -/
def stripContainerIndentFrom (required columns : ℕ) : List Char → Option (List Char)
  | [] => none
  | character :: rest =>
    if character = ' ' then
      if required ≤ columns + 1 then some rest else stripContainerIndentFrom required (columns + 1) rest
    else if character = '\t' then
      let next := columns + (4 - columns % 4)
      if required ≤ next then some rest else stripContainerIndentFrom required next rest
    else none

def stripContainerIndent (line : List Char) (required : ℕ) : Option (List Char) :=
  stripContainerIndentFrom required 0 line

/-- The text after a quote marker, without one blank. -/
def stripBlank : List Char → List Char
  | [] => []
  | c :: rest => if c = ' ' ∨ c = '\t' then rest else c :: rest

/-- The line without the containers, and whether it has all of them. -/
def contentBodyFrom : List FenceContainer → List Char → List Char × Bool
  | [], body => (body, true)
  | .quote :: containers, body =>
    match trimBlanks body with
    | '>' :: rest => contentBodyFrom containers (stripBlank rest)
    | _ => (body, false)
  | .indent width :: containers, body =>
    match stripContainerIndent body width with
    | some rest => contentBodyFrom containers rest
    | none => (body, false)

def FenceContext.contentBody (context : FenceContext) (line : List Char) : List Char × Bool :=
  contentBodyFrom context.containers line

/-! ## Fences -/

inductive Marker where
  | backtick
  | tilde
  deriving DecidableEq

namespace Marker

def char : Marker → Char
  | .backtick => '`'
  | .tilde => '~'

def ofChar (c : Char) : Option Marker := if c = '`' then some .backtick else if c = '~' then some .tilde else none

@[simp] theorem ofChar_char (m : Marker) : ofChar m.char = some m := by cases m <;> rfl

theorem char_of_ofChar {c : Char} {m : Marker} (h : ofChar c = some m) : c = m.char := by
  unfold ofChar at h
  split_ifs at h with hb ht
  · rw [hb, ← Option.some.inj h, char]
  · rw [ht, ← Option.some.inj h, char]

@[simp] theorem isWhitespace_char (m : Marker) : isWhitespace m.char = false := by cases m <;> decide

end Marker

def isLanguageChar (c : Char) : Bool := c.isAlphanum || c = '_' || c = '-' || c = '+' || c = '#' || c = '.'

/-- The info string of a fence that is kept as it is. -/
def admissibleLanguage (info : List Char) : Bool :=
  utf8Bytes info ≤ 32 && !info.any isWhitespace && info.all isLanguageChar

/-- A fence: at least three markers and a language that needs no replacement. -/
@[ext] structure Fence where
  marker : Marker
  length : ℕ
  language : List Char
  three_le : 3 ≤ length
  admissible : admissibleLanguage language = true
  deriving DecidableEq

/-- The language of an info string. -/
def languageOf (info : List Char) : { language : List Char // admissibleLanguage language = true } :=
  if h : admissibleLanguage info then ⟨info, h⟩ else ⟨['t', 'e', 'x', 't'], by decide⟩

/-- The markers at the start of the text. -/
def markerRun (marker : Marker) (text : List Char) : ℕ := (text.takeWhile (· = marker.char)).length

def parseOpeningFence (line : List Char) : Option Fence :=
  match trimStart line with
  | [] => none
  | character :: rest =>
    match Marker.ofChar character with
    | none => none
    | some marker =>
      let length := markerRun marker (character :: rest)
      if h : 3 ≤ length then
        let language := languageOf (trim ((character :: rest).drop length))
        some ⟨marker, length, language.1, h, language.2⟩
      else none

def isClosingFence (line : List Char) (fence : Fence) : Bool :=
  let trimmed := trim line
  let count := markerRun fence.marker trimmed
  fence.length ≤ count && (trimmed.drop count).all isWhitespace

namespace Fence

/-- The line of markers alone. -/
def closingLine (fence : Fence) : List Char := List.replicate fence.length fence.marker.char

def openingLine (fence : Fence) : List Char := fence.closingLine ++ fence.language

end Fence

def quoteLine (quoted : Bool) (line : List Char) : List Char :=
  if !quoted then line else if line = [] then ['>'] else '>' :: ' ' :: line

structure OpenFence where
  fence : Fence
  context : FenceContext
  deriving DecidableEq

namespace OpenFence

def openingLine (fence : OpenFence) : List Char := quoteLine fence.context.quoted fence.fence.openingLine

def closingLine (fence : OpenFence) : List Char := quoteLine fence.context.quoted fence.fence.closingLine

/-- The line closes the fence. -/
def closedBy (fence : OpenFence) (line : List Char) : Bool :=
  let (body, complete) := fence.context.contentBody line
  complete && isClosingFence body fence.fence

end OpenFence

def parseFenceOpening (line : List Char) : Option OpenFence :=
  let (containers, body) := stripContainers (trimStart line)
  (parseOpeningFence body).map fun fence => ⟨fence, .of containers⟩

/-- The open fence after the line. -/
def advance (current : Option OpenFence) (line : List Char) : Option OpenFence :=
  match current with
  | some fence => if fence.closedBy line then none else some fence
  | none => parseFenceOpening line

/-- The open fence after the text. -/
def openFrom (current : Option OpenFence) (text : List Char) : Option OpenFence := (lines text).foldl advance current

def openFenceAtEnd (text : List Char) : Option OpenFence := openFrom none text

example : (openFenceAtEnd "> ```rust\n> fn\n".toList).map OpenFence.closingLine = some "> ```".toList := by with_unfolding_all decide

/-! ## What opens a fence -/

theorem isWhitespace_of_isDigit (h : c.isDigit = true) : isWhitespace c = false := by
  simp only [Char.isDigit, Bool.and_eq_true, decide_eq_true_eq, UInt32.le_iff_toNat_le] at h
  simp only [isWhitespace, Char.toNat]
  have h0 : '0'.val.toNat = 48 := rfl
  have h9 : '9'.val.toNat = 57 := rfl
  simp only [Bool.or_eq_false_iff, Bool.and_eq_false_iff, decide_eq_false_iff_not, beq_eq_false_iff_ne]
  omega

theorem isWhitespace_of_isLanguageChar (h : isLanguageChar c = true) : c ≠ '`' ∧ c ≠ '~' := by
  constructor <;> rintro rfl <;> exact absurd h (by decide)

theorem trimStart_append (h : trimStart text ≠ []) (more : List Char) :
    trimStart (text ++ more) = trimStart text ++ more := by
  rw [trimStart, List.dropWhile_append, ← trimStart, if_neg (by simpa using h)]

theorem trimStart_cons_of_not (h : isWhitespace c = false) (rest : List Char) :
    trimStart (c :: rest) = c :: rest := by
  rw [trimStart, List.dropWhile_cons_of_neg (by simp [h])]

theorem markerRun_cons (m : Marker) (rest : List Char) : markerRun m (m.char :: rest) = markerRun m rest + 1 := by
  simp [markerRun]

theorem parseOpeningFence_isSome :
    (parseOpeningFence body).isSome ↔ ∃ (m : Marker) (more : List Char), trimStart body = m.char :: m.char :: m.char :: more := by
  unfold parseOpeningFence
  split
  · rename_i heq
    simp [heq]
  · rename_i c rest heq
    split
    · rename_i hnone
      rw [heq]
      refine ⟨fun h => by simp at h, ?_⟩
      rintro ⟨m, more, h⟩
      rw [(List.cons.inj h).1, Marker.ofChar_char] at hnone
      cases hnone
    · rename_i m hsome
      obtain rfl := Marker.char_of_ofChar hsome
      dsimp only
      split
      · rename_i hrun
        refine ⟨fun _ => ⟨m, ?_⟩, fun _ => rfl⟩
        rw [heq]
        rw [markerRun_cons] at hrun
        match rest, hrun with
        | [], hrun => simp [markerRun] at hrun
        | [a], hrun =>
          simp only [markerRun, List.takeWhile] at hrun
          split at hrun <;> simp at hrun
        | a :: b :: more, hrun =>
          have ha : a = m.char := by
            by_contra hne
            simp [markerRun, hne] at hrun
          subst ha
          rw [markerRun_cons] at hrun
          have hb : b = m.char := by
            by_contra hne
            simp [markerRun, hne] at hrun
          exact ⟨more, by rw [hb]⟩
      · rename_i hrun
        refine ⟨fun h => by simp at h, ?_⟩
        rintro ⟨m', more, h⟩
        rw [heq] at h
        obtain ⟨hm, rfl⟩ := List.cons.inj h
        obtain rfl : m = m' := by simpa using congrArg Marker.ofChar hm
        rw [markerRun_cons, markerRun_cons, markerRun_cons] at hrun
        omega

theorem parseOpeningFence_append (h : (parseOpeningFence body).isSome) (more : List Char) :
    (parseOpeningFence (body ++ more)).isSome := by
  rw [parseOpeningFence_isSome] at h ⊢
  obtain ⟨m, rest, hbody⟩ := h
  exact ⟨m, rest ++ more, by rw [trimStart_append (by rw [hbody]; simp), hbody]; rfl⟩

theorem stripContainers_of_none (h : stripContainer body = none) : stripContainers body = ([], body) := by
  rw [stripContainers]
  split
  · rfl
  · rename_i heq
    rw [h] at heq
    cases heq

theorem stripContainers_of_some (h : stripContainer body = some (container, rest)) :
    stripContainers body = (container :: (stripContainers (trimStart rest)).1, (stripContainers (trimStart rest)).2) := by
  rw [stripContainers]
  split
  · rename_i heq
    rw [h] at heq
    cases heq
  · rename_i heq
    rw [h] at heq
    cases heq
    rfl

theorem stripContainer_marker (m : Marker) (rest : List Char) : stripContainer (m.char :: rest) = none := by
  cases h : stripContainer (m.char :: rest) with
  | none => rfl
  | some found =>
    obtain ⟨container, after⟩ := found
    rcases stripContainer_eq_some.1 h with ⟨h, -⟩ | ⟨⟨bullet, hbullet, h⟩, -⟩ | ⟨number, mark, hne, hdigits, -, h, -⟩
    · exact absurd (List.cons.inj h).1 (by cases m <;> decide)
    · have hm := (List.cons.inj h).1
      rcases hbullet with rfl | rfl | rfl <;> exact absurd hm (by cases m <;> decide)
    · obtain ⟨d, digits, rfl⟩ := List.exists_cons_of_ne_nil hne
      have hd := hdigits d List.mem_cons_self
      rw [← (List.cons.inj h).1] at hd
      exact absurd hd (by cases m <;> decide)

/-- A body that opens a fence begins with whitespace or with a marker. -/
theorem stripContainer_opening (h : (parseOpeningFence body).isSome) (more : List Char)
    (hbody : stripContainer body = none) : stripContainer (body ++ more) = none := by
  obtain ⟨m, rest, htrim⟩ := parseOpeningFence_isSome.1 h
  cases body with
  | nil => simp [trimStart] at htrim
  | cons c body =>
    by_cases hc : isWhitespace c
    · cases hs : stripContainer (c :: body ++ more) with
      | none => rfl
      | some found =>
        obtain ⟨container, after⟩ := found
        rcases stripContainer_eq_some.1 hs with ⟨hs, -⟩ | ⟨⟨bullet, hbullet, hs⟩, -⟩ | ⟨number, mark, hne, hdigits, -, hs, -⟩
        · rw [(List.cons.inj hs).1] at hc
          exact absurd hc (by decide)
        · rw [(List.cons.inj hs).1] at hc
          rcases hbullet with rfl | rfl | rfl <;> exact absurd hc (by decide)
        · obtain ⟨d, digits, rfl⟩ := List.exists_cons_of_ne_nil hne
          have hd := isWhitespace_of_isDigit (hdigits d List.mem_cons_self)
          rw [← (List.cons.inj hs).1, hc] at hd
          cases hd
    · rw [trimStart_cons_of_not (by simpa using hc)] at htrim
      rw [(List.cons.inj htrim).1]
      exact stripContainer_marker _ _

theorem stripContainers_append (h : (parseOpeningFence (stripContainers body).2).isSome) (more : List Char) :
    stripContainers (body ++ more) = ((stripContainers body).1, (stripContainers body).2 ++ more) := by
  induction body using stripContainers.induct with
  | case1 body hnone =>
    rw [stripContainers_of_none hnone] at h ⊢
    exact stripContainers_of_none (stripContainer_opening h more hnone)
  | case2 body container rest hsome ih =>
    rw [stripContainers_of_some hsome] at h ⊢
    have hrest : trimStart rest ≠ [] := by
      intro hnil
      rw [hnil, stripContainers_of_none rfl, parseOpeningFence_isSome] at h
      obtain ⟨m, more, h⟩ := h
      simp [trimStart] at h
    rw [stripContainers_of_some (stripContainer_append hsome more), trimStart_append hrest, ih h]

variable {line : List Char}

theorem parseFenceOpening_append (h : (parseFenceOpening line).isSome) (more : List Char) :
    (parseFenceOpening (line ++ more)).isSome := by
  simp only [parseFenceOpening, Option.isSome_map] at h ⊢
  have hline : trimStart line ≠ [] := by
    intro hnil
    rw [hnil, stripContainers_of_none rfl, parseOpeningFence_isSome] at h
    obtain ⟨m, more, h⟩ := h
    simp [trimStart] at h
  rw [trimStart_append hline, stripContainers_append h]
  exact parseOpeningFence_append h more

/-! ## The end of a line does not matter -/

theorem trim_cr (text : List Char) : trim (text ++ ['\r']) = trim text := by
  have hcr : isWhitespace '\r' = true := by decide
  by_cases h : trimStart text = []
  · have hall : trimStart (text ++ ['\r']) = [] := by
      rw [trimStart] at h
      rw [trimStart, List.dropWhile_append, h]
      simp [hcr]
    rw [trim, trim, h, hall]
  · rw [trim, trim, trimStart_append h, trimEnd, trimEnd, List.reverse_append, List.reverse_singleton,
      List.singleton_append, List.dropWhile_cons_of_pos hcr]

theorem isClosingFence_cr (body : List Char) (fence : Fence) :
    isClosingFence (body ++ ['\r']) fence = isClosingFence body fence := by
  rw [isClosingFence, isClosingFence, trim_cr]

theorem stripContainerIndentFrom_cr (required columns : ℕ) (body : List Char) :
    stripContainerIndentFrom required columns (body ++ ['\r']) =
      (stripContainerIndentFrom required columns body).map (· ++ ['\r']) := by
  induction body generalizing columns with
  | nil => rfl
  | cons c rest ih =>
    simp only [List.cons_append, stripContainerIndentFrom]
    split_ifs
    · rfl
    · exact ih _
    · rfl
    · exact ih _
    · rfl

/-- A carriage return at the end of a line changes neither its containers nor the rest of its content. -/
theorem contentBodyFrom_cr (containers : List FenceContainer) (body : List Char) :
    contentBodyFrom containers (body ++ ['\r']) =
      ((contentBodyFrom containers body).1 ++ ['\r'], (contentBodyFrom containers body).2) := by
  induction containers generalizing body with
  | nil => rfl
  | cons container containers ih =>
    cases container with
    | quote =>
      by_cases hblank : trimBlanks body = []
      · have hblank' : trimBlanks (body ++ ['\r']) = ['\r'] := by
          rw [trimBlanks] at hblank
          rw [trimBlanks, List.dropWhile_append, hblank]
          rfl
        rw [contentBodyFrom, contentBodyFrom, hblank, hblank']
        rfl
      · have happend : trimBlanks (body ++ ['\r']) = trimBlanks body ++ ['\r'] := by
          rw [trimBlanks, List.dropWhile_append, if_neg (by simpa [trimBlanks] using hblank), trimBlanks]
        rw [contentBodyFrom, contentBodyFrom, happend]
        obtain ⟨c, rest, hcons⟩ := List.exists_cons_of_ne_nil hblank
        rw [hcons]
        by_cases hc : c = '>'
        · subst hc
          have hstrip : stripBlank (rest ++ ['\r']) = stripBlank rest ++ ['\r'] := by
            cases rest with
            | nil => rfl
            | cons d rest =>
              simp only [List.cons_append, stripBlank]
              split_ifs <;> rfl
          exact (congrArg (contentBodyFrom containers) hstrip).trans (ih _)
        · simp [hc]
    | indent width =>
      rw [contentBodyFrom, contentBodyFrom, stripContainerIndent, stripContainerIndentFrom_cr, ← stripContainerIndent]
      cases stripContainerIndent body width with
      | none => rfl
      | some rest => exact ih rest

theorem closedBy_cr (fence : OpenFence) (line : List Char) : fence.closedBy (line ++ ['\r']) = fence.closedBy line := by
  simp only [OpenFence.closedBy, FenceContext.contentBody, contentBodyFrom_cr, isClosingFence_cr]

theorem parseOpeningFence_cr (body : List Char) : parseOpeningFence (body ++ ['\r']) = parseOpeningFence body := by
  by_cases h : trimStart body = []
  · have hall : trimStart (body ++ ['\r']) = [] := by
      rw [trimStart] at h
      rw [trimStart, List.dropWhile_append, h]
      decide
    rw [parseOpeningFence, parseOpeningFence, h, hall]
  · obtain ⟨c, rest, hcons⟩ := List.exists_cons_of_ne_nil h
    rw [parseOpeningFence, parseOpeningFence, trimStart_append h, hcons, List.cons_append]
    dsimp only
    cases Marker.ofChar c with
    | none => rfl
    | some m =>
      have hrun : markerRun m (c :: (rest ++ ['\r'])) = markerRun m (c :: rest) := by
        rw [← List.cons_append, markerRun, markerRun, List.takeWhile_append]
        split
        · rename_i hall
          rw [List.takeWhile_cons_of_neg (by cases m <;> decide), List.append_nil]
          exact hall.symm
        · rfl
      have hle : markerRun m (c :: rest) ≤ (c :: rest).length := (List.takeWhile_prefix _).length_le
      have hinfo : trim ((c :: (rest ++ ['\r'])).drop (markerRun m (c :: rest))) =
          trim ((c :: rest).drop (markerRun m (c :: rest))) := by
        rw [← List.cons_append, List.drop_append_of_le_length hle, trim_cr]
      simp only [hrun, hinfo]

theorem stripContainer_cr (h : stripContainer body = none) : stripContainer (body ++ ['\r']) = none := by
  cases hs : stripContainer (body ++ ['\r']) with
  | none => rfl
  | some found =>
    obtain ⟨container, after⟩ := found
    -- the text after a marker cannot be empty here, so it ends with the carriage return
    have hcut : ∀ front : List Char, front ≠ [] → front.getLast? ≠ some '\r' → body ++ ['\r'] = front ++ after →
        ∃ rest, body = front ++ rest := by
      intro front hne hlast heq
      cases hafter : after.reverse with
      | nil =>
        rw [List.reverse_eq_nil_iff.1 hafter, List.append_nil] at heq
        rw [← heq, List.getLast?_append] at hlast
        exact absurd rfl hlast
      | cons c rest =>
        rw [List.reverse_eq_cons_iff.1 hafter, ← List.append_assoc] at heq
        exact ⟨rest.reverse, (List.append_inj' heq rfl).1⟩
    rcases stripContainer_eq_some.1 hs with ⟨heq, -⟩ | ⟨⟨bullet, hbullet, heq⟩, -⟩ | ⟨number, mark, hne, hdigits, hmark, heq, -⟩
    · obtain ⟨rest, rfl⟩ := hcut ['>'] (by simp) (by decide) heq
      have hsome : stripContainer (['>'] ++ rest) = some (.quote, rest) := stripContainer_eq_some.2 (.inl ⟨rfl, rfl⟩)
      rw [hsome] at h
      cases h
    · obtain ⟨rest, rfl⟩ := hcut [bullet, ' '] (by simp) (by simp) heq
      have hsome : stripContainer ([bullet, ' '] ++ rest) = some (.unordered, rest) :=
        stripContainer_eq_some.2 (.inr (.inl ⟨⟨bullet, hbullet, rfl⟩, rfl⟩))
      rw [hsome] at h
      cases h
    · obtain ⟨rest, rfl⟩ := hcut (number ++ [mark, ' ']) (by simp) (by simp) (by simpa using heq)
      have hsome : stripContainer (number ++ [mark, ' '] ++ rest) = some (.ordered number, rest) :=
        stripContainer_eq_some.2 (.inr (.inr ⟨number, mark, hne, hdigits, hmark, by simp, rfl⟩))
      rw [hsome] at h
      cases h

theorem stripContainers_cr (body : List Char) : (stripContainers (body ++ ['\r'])).1 = (stripContainers body).1 ∧
    parseOpeningFence (stripContainers (body ++ ['\r'])).2 = parseOpeningFence (stripContainers body).2 := by
  induction body using stripContainers.induct with
  | case1 body hnone =>
    rw [stripContainers_of_none hnone, stripContainers_of_none (stripContainer_cr hnone)]
    exact ⟨rfl, parseOpeningFence_cr body⟩
  | case2 body container rest hsome ih =>
    rw [stripContainers_of_some hsome, stripContainers_of_some (stripContainer_append hsome _)]
    by_cases hrest : trimStart rest = []
    · have hall : trimStart (rest ++ ['\r']) = [] := by
        rw [trimStart] at hrest
        rw [trimStart, List.dropWhile_append, hrest]
        decide
      rw [hrest, hall]
      exact ⟨rfl, rfl⟩
    · rw [trimStart_append hrest]
      exact ⟨congrArg (container :: ·) ih.1, ih.2⟩

theorem parseFenceOpening_cr (line : List Char) : parseFenceOpening (line ++ ['\r']) = parseFenceOpening line := by
  simp only [parseFenceOpening]
  by_cases h : trimStart line = []
  · have hall : trimStart (line ++ ['\r']) = [] := by
      rw [trimStart] at h
      rw [trimStart, List.dropWhile_append, h]
      decide
    rw [h, hall]
  · rw [trimStart_append h, (stripContainers_cr _).1, (stripContainers_cr _).2]

theorem advance_cr (current : Option OpenFence) (line : List Char) : advance current (line ++ ['\r']) = advance current line := by
  cases current with
  | none => exact parseFenceOpening_cr line
  | some fence => simp only [advance, closedBy_cr]

theorem contentBodyFrom_nil (containers : List FenceContainer) : (contentBodyFrom containers []).1 = [] := by
  cases containers with
  | nil => rfl
  | cons container containers => cases container <;> rfl

theorem closedBy_nil (fence : OpenFence) : fence.closedBy [] = false := by
  have hclosing : isClosingFence [] fence.fence = false := by
    have := fence.fence.three_le
    simp [isClosingFence, trim, trimStart, trimEnd, markerRun]
    omega
  simp [OpenFence.closedBy, FenceContext.contentBody, contentBodyFrom_nil, hclosing]

@[simp] theorem advance_nil (current : Option OpenFence) : advance current [] = current := by
  cases current with
  | none => rw [advance, parseFenceOpening, trimStart, List.dropWhile_nil, stripContainers_of_none rfl]; rfl
  | some fence => simp [advance, closedBy_nil]

theorem advance_chomp (current : Option OpenFence) (h : '\n' ∉ line) :
    advance current (chomp (line ++ ['\n'])) = advance current line := by
  rw [chomp, if_pos (by simp), List.dropLast_concat]
  split
  · rename_i hcr
    obtain ⟨front, rfl⟩ := List.getLast?_eq_some_iff.1 hcr
    rw [List.dropLast_concat, advance_cr]
  · rfl

/-! ## The open fence, line by line -/

@[simp] theorem openFrom_nil (current : Option OpenFence) : openFrom current [] = current := rfl

theorem openFrom_append {before : List Char} (h : Lines.Whole '\n' before) (current : Option OpenFence) (after : List Char) :
    openFrom current (before ++ after) = openFrom (openFrom current before) after := by
  rw [openFrom, lines, Lines.chunks_append h, List.map_append, List.foldl_append]
  rfl

theorem openFrom_line (h : '\n' ∉ line) (current : Option OpenFence) :
    openFrom current line = advance current line := by
  by_cases hne : line = []
  · rw [hne, openFrom_nil, advance_nil]
  · have hlast : line.getLast? ≠ some '\n' := fun hl => h (List.mem_of_getLast? hl)
    rw [openFrom, lines, Lines.chunks_line h hne, List.map_singleton, List.foldl_cons, List.foldl_nil, chomp, if_neg hlast]

theorem openFrom_line_append (h : '\n' ∉ line) (current : Option OpenFence) (rest : List Char) :
    openFrom current (line ++ '\n' :: rest) = openFrom (advance current line) rest := by
  rw [openFrom, lines, Lines.chunks_line_append h, List.map_cons, List.foldl_cons, advance_chomp current h]
  rfl

/-- A blank line changes nothing. -/
theorem openFrom_newline (current : Option OpenFence) (rest : List Char) :
    openFrom current ('\n' :: rest) = openFrom current rest := by
  have hblank := openFrom_line_append (List.not_mem_nil : '\n' ∉ []) current rest
  rwa [List.nil_append, advance_nil] at hblank

/-! ## Written fences are read back -/

theorem markerRun_replicate (m : Marker) (n : ℕ) {more : List Char} (h : ∀ c ∈ more.head?, c ≠ m.char) :
    markerRun m (List.replicate n m.char ++ more) = n := by
  have htail : more.takeWhile (fun c => decide (c = m.char)) = [] := by
    cases more with
    | nil => rfl
    | cons c rest => exact List.takeWhile_cons_of_neg (by simpa using h c rfl)
  rw [markerRun, List.takeWhile_append_of_pos (by simp), htail]
  simp

theorem trim_of_not (h : ∀ c ∈ text, isWhitespace c = false) : trim text = text := by
  have hdrop : ∀ l : List Char, (∀ c ∈ l, isWhitespace c = false) → l.dropWhile isWhitespace = l := by
    intro l hl
    cases l with
    | nil => rfl
    | cons c rest => exact List.dropWhile_cons_of_neg (by simp [hl c List.mem_cons_self])
  rw [trim, trimEnd, trimStart, hdrop _ h, hdrop _ (by simpa using h), List.reverse_reverse]

theorem languageOf_admissible {language : List Char} (h : admissibleLanguage language = true) :
    (languageOf (trim language)).1 = language ∧ ∀ c ∈ language, c ≠ '`' ∧ c ≠ '~' := by
  have hparts := h
  simp only [admissibleLanguage, Bool.and_eq_true, Bool.not_eq_true', List.any_eq_false, List.all_eq_true] at hparts
  refine ⟨?_, fun c hc => isWhitespace_of_isLanguageChar (hparts.2 c hc)⟩
  rw [trim_of_not fun c hc => by simpa using hparts.1.2 c hc, languageOf, dif_pos h]

theorem parseOpeningFence_of_run {m : Marker} (h : trimStart body = m.char :: rest)
    (hrun : 3 ≤ markerRun m (m.char :: rest)) :
    ∃ fence, parseOpeningFence body = some fence ∧ fence.marker = m ∧ fence.length = markerRun m (m.char :: rest) ∧
      fence.language = languageOf (trim ((m.char :: rest).drop (markerRun m (m.char :: rest)))) := by
  refine ⟨⟨m, _, _, hrun, (languageOf _).2⟩, ?_, rfl, rfl, rfl⟩
  rw [parseOpeningFence, h]
  dsimp only
  rw [Marker.ofChar_char]
  dsimp only
  rw [dif_pos hrun]

theorem parseOpeningFence_openingLine (fence : Fence) : parseOpeningFence fence.openingLine = some fence := by
  obtain ⟨hlanguage, hfree⟩ := languageOf_admissible fence.admissible
  have hthree := fence.three_le
  obtain ⟨rest, hrest⟩ : ∃ rest, fence.openingLine = fence.marker.char :: rest := by
    obtain ⟨k, hk⟩ := Nat.exists_eq_add_of_le' (show 1 ≤ fence.length by omega)
    exact ⟨_, by rw [Fence.openingLine, Fence.closingLine, hk, List.replicate_succ, List.cons_append]⟩
  have hrun : markerRun fence.marker fence.openingLine = fence.length := by
    refine markerRun_replicate _ _ fun c hc => ?_
    have := hfree c (List.mem_of_mem_head? hc)
    cases fence.marker
    · exact this.1
    · exact this.2
  have hdrop : fence.openingLine.drop fence.length = fence.language := by
    rw [Fence.openingLine, List.drop_append_of_le_length (by simp [Fence.closingLine])]
    simp [Fence.closingLine]
  have htrim : trimStart fence.openingLine = fence.marker.char :: rest := by
    rw [hrest, trimStart_cons_of_not fence.marker.isWhitespace_char]
  rw [hrest] at hrun hdrop
  obtain ⟨read, hread, hmarker, hlength, hread'⟩ := parseOpeningFence_of_run htrim (by omega)
  rw [hrun, hdrop] at hread'
  rw [hread, Fence.ext hmarker (hlength.trans hrun) (hread'.trans hlanguage)]

/-- The context of a fence written by itself or in one quote. -/
def FenceContext.plain (quoted : Bool) : FenceContext := .of (if quoted then [.quote] else [])

@[simp] theorem FenceContext.plain_quoted (quoted : Bool) : (FenceContext.plain quoted).quoted = quoted := by
  cases quoted <;> rfl

theorem parseFenceOpening_openingLine (fence : OpenFence) :
    parseFenceOpening fence.openingLine = some ⟨fence.fence, .plain fence.context.quoted⟩ := by
  obtain ⟨k, hk⟩ := Nat.exists_eq_add_of_le' (show 1 ≤ fence.fence.length by have := fence.fence.three_le; omega)
  have hfirst : ∃ rest, fence.fence.openingLine = fence.fence.marker.char :: rest :=
    ⟨_, by rw [Fence.openingLine, Fence.closingLine, hk, List.replicate_succ, List.cons_append]⟩
  have hparse := parseOpeningFence_openingLine fence.fence
  obtain ⟨rest, hrest⟩ := hfirst
  have hbare : stripContainers (trimStart fence.fence.openingLine) = ([], fence.fence.openingLine) := by
    rw [hrest, trimStart_cons_of_not fence.fence.marker.isWhitespace_char]
    exact stripContainers_of_none (stripContainer_marker _ _)
  simp only [OpenFence.openingLine, quoteLine, parseFenceOpening]
  cases fence.context.quoted with
  | false => simp [hbare, hparse, FenceContext.plain]
  | true =>
    have hquote : stripContainer ('>' :: ' ' :: fence.fence.openingLine) = some (.quote, ' ' :: fence.fence.openingLine) := rfl
    have hblank : trimStart (' ' :: fence.fence.openingLine) = trimStart fence.fence.openingLine := by
      rw [trimStart, List.dropWhile_cons_of_pos (by decide), trimStart]
    have hne : fence.fence.openingLine ≠ [] := by rw [hrest]; simp
    rw [Bool.not_true, if_neg (by simp), if_neg hne, trimStart_cons_of_not (by decide), stripContainers_of_some hquote,
      hblank, hbare]
    simp [hparse, FenceContext.plain]

/-- At most one quote level and no other container. -/
def OpenFence.Plain (fence : OpenFence) : Prop := fence.context = .plain fence.context.quoted

instance (fence : OpenFence) : Decidable fence.Plain := decEq _ _

theorem isClosingFence_closingLine (fence : Fence) : isClosingFence fence.closingLine fence = true := by
  have hthree := fence.three_le
  have htrim : trim fence.closingLine = fence.closingLine :=
    trim_of_not fun c hc => by rw [List.eq_of_mem_replicate hc]; exact fence.marker.isWhitespace_char
  have hrun : markerRun fence.marker fence.closingLine = fence.length := by
    rw [Fence.closingLine, ← List.append_nil (List.replicate _ _)]
    exact markerRun_replicate fence.marker fence.length (by simp)
  rw [isClosingFence, htrim, hrun]
  simp [Fence.closingLine]

theorem closedBy_closingLine {fence : OpenFence} (h : fence.Plain) : fence.closedBy fence.closingLine = true := by
  have hne : fence.fence.closingLine ≠ [] := by
    have := fence.fence.three_le
    simp [Fence.closingLine]
    omega
  rw [OpenFence.closedBy, FenceContext.contentBody, h, OpenFence.closingLine, quoteLine]
  cases fence.context.quoted with
  | false => simp [FenceContext.plain, FenceContext.of, contentBodyFrom, isClosingFence_closingLine]
  | true =>
    simp [hne, FenceContext.plain, FenceContext.of, Container.fenceContainer, contentBodyFrom, trimBlanks, stripBlank,
      isClosingFence_closingLine]

theorem openingLine_no_newline (fence : OpenFence) : '\n' ∉ fence.openingLine ∧ '\n' ∉ fence.closingLine := by
  have hmarkers : '\n' ∉ fence.fence.closingLine := by
    intro h
    have := List.eq_of_mem_replicate h
    cases hm : fence.fence.marker <;> rw [hm] at this <;> exact absurd this (by decide)
  have hlanguage : '\n' ∉ fence.fence.language := by
    intro h
    have hall := fence.fence.admissible
    simp only [admissibleLanguage, Bool.and_eq_true, List.all_eq_true] at hall
    exact absurd (hall.2 _ h) (by decide)
  have hquote : ∀ line : List Char, '\n' ∉ line → '\n' ∉ quoteLine fence.context.quoted line := by
    intro line hline
    rw [quoteLine]
    split_ifs
    · exact hline
    · decide
    · simpa using hline
  exact ⟨hquote _ (by simp [Fence.openingLine, hmarkers, hlanguage]), hquote _ hmarkers⟩

end LarkCodexBridge.Render.Markdown
