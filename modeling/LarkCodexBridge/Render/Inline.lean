import LarkCodexBridge.Render.Projector

/-!
# Inline sanitizing

`sanitizeInline` rewrites one fragment of text: code spans stay, links and images are kept or degraded, HTML and entities
are made inert. Every scan is paid for from one budget; when it is spent the whole fragment becomes inert.

* `Work`: a computation that spends the budget;
* `sanitizeFrom`: the loop, by recursion on a bound of the budget;
* `sanitizeInline_plain`: text without a character of the inline syntax stays as it is.
-/

namespace LarkCodexBridge.Render.Markdown

open LarkCodexBridge.Runtime (isWhitespace trim)

/-! ## The work budget -/

/-- A computation that spends units of the budget; `none` is exhaustion. -/
abbrev Work := StateT ℕ Option

def charge (units : ℕ) : Work Unit := fun remaining => if remaining < units then none else some ((), remaining - units)

def inlineWorkPerInputByte : ℕ := 64

def inlineWorkBase : ℕ := 256

/-- `InlineWorkBudget::new`. -/
def inlineWorkBudget (inputBytes : ℕ) : ℕ := inputBytes * inlineWorkPerInputByte + inlineWorkBase

/-! ## Characters -/

/-- Which of the two renderings a text is for. -/
inductive MarkdownCarrier where
  | post
  | card2

def isControl (c : Char) : Bool := c.toNat < 0x20 || (0x7f ≤ c.toNat && c.toNat ≤ 0x9f)

def isUnicodeFormatControl (c : Char) : Bool :=
  let n := c.toNat
  n == 0xad || n == 0x61c || n == 0x70f || (0x890 ≤ n && n ≤ 0x891) || n == 0x8e2 || n == 0x180e ||
    (0x200b ≤ n && n ≤ 0x200f) || (0x202a ≤ n && n ≤ 0x202e) || (0x2060 ≤ n && n ≤ 0x2064) ||
    (0x2066 ≤ n && n ≤ 0x206f) || n == 0xfeff || (0xfff9 ≤ n && n ≤ 0xfffb) || (0x1bca0 ≤ n && n ≤ 0x1bca3) ||
    (0x1d173 ≤ n && n ≤ 0x1d17a) || n == 0xe0001 || (0xe0020 ≤ n && n ≤ 0xe007f)

def isFootnoteIdentifier (c : Char) : Bool := c.isAlphanum || c = '_' || c = '-'

def isAsciiGraphic (c : Char) : Bool := 0x21 ≤ c.toNat && c.toNat ≤ 0x7e

/-- The inert form of a character: full-width, or a visible picture of whitespace. -/
def inertCharacter (c : Char) : Char :=
  if c = '\n' ∨ c = '\r' ∨ c = '\u0085' ∨ c = '\u2028' ∨ c = '\u2029' then '␤'
  else if c = '\t' then '␉'
  else if isWhitespace c then '␠'
  else if c = '<' then '‹'
  else if c = '>' then '›'
  else if isAsciiGraphic c then Char.ofNat (c.toNat - '!'.toNat + '！'.toNat)
  else c

def inertInlineText (text : List Char) : List Char := text.map inertCharacter

def looksLikeHtmlTag (inner : List Char) : Bool :=
  match inner with
  | [] => false
  | first :: rest =>
    (if first = '/' ∨ first = '!' ∨ first = '?' then rest.head?.getD '>' else first).isAlpha

/-! ## Scans -/

/-- The search for the next unescaped closing bracket. It never goes back. -/
structure UnescapedBracketSearch where
  unscanned : List Char
  scannedTo : ℕ
  cached : Option ℕ
  precedingBackslashes : ℕ
  deriving DecidableEq

namespace UnescapedBracketSearch

def new (text : List Char) : UnescapedBracketSearch := ⟨text, 0, none, 0⟩

/-- The scan from the first character that was not looked at. -/
def scan (start : ℕ) : List Char → ℕ → ℕ → Work (Option ℕ × UnescapedBracketSearch)
  | [], scannedTo, backslashes => pure (none, ⟨[], scannedTo, none, backslashes⟩)
  | c :: rest, cursor, backslashes => do
    charge c.utf8Size
    if c = '\\' then scan start rest (cursor + 1) (backslashes + 1)
    else if start ≤ cursor ∧ c = ']' ∧ backslashes % 2 = 0 then
      pure (some cursor, ⟨rest, cursor + 1, some cursor, 0⟩)
    else scan start rest (cursor + 1) 0

def find (search : UnescapedBracketSearch) (start : ℕ) : Work (Option ℕ × UnescapedBracketSearch) :=
  match search.cached with
  | some cached =>
    if start ≤ cached then pure (some cached, search)
    else scan start search.unscanned search.scannedTo search.precedingBackslashes
  | none => scan start search.unscanned search.scannedTo search.precedingBackslashes

end UnescapedBracketSearch

/-- `count_byte_run` for backticks. -/
def backtickRun (text : List Char) : Work ℕ := do
  let run := (text.takeWhile (· = '`')).length
  charge run
  return run

def findCodeSpanEnd (run : ℕ) (text : List Char) (cursor : ℕ) : Work (Option ℕ) :=
  match text with
  | [] => pure none
  | c :: rest => do
    charge 1
    if c = '`' then
      let candidate ← backtickRun (c :: rest)
      if candidate = run then return some (cursor + run)
      findCodeSpanEnd run (rest.dropWhile (· = '`')) (cursor + candidate)
    else findCodeSpanEnd run rest (cursor + 1)
termination_by text.length
decreasing_by
  · have := (List.dropWhile_suffix (l := rest) (· = '`')).length_le
    simp only [List.length_cons]
    omega
  · simp

/-- The offset of the character. -/
def findByte (needle : Char) : List Char → Work (Option ℕ)
  | [] => pure none
  | c :: rest => do
    charge c.utf8Size
    if c = needle then return some 0
    return (← findByte needle rest).map (· + 1)

/-- The offset of the end of a comment. A place with fewer than three bytes after it is not looked at. -/
def findCommentEnd : List Char → Work (Option ℕ)
  | [] => pure none
  | c :: rest => do
    let left := utf8Bytes (c :: rest)
    if left < 3 then return none
    charge (min c.utf8Size (left - 2))
    if (c :: rest).take 3 = ['-', '-', '>'] then return some 0
    return (← findCommentEnd rest).map (· + 1)

def findClosingParen : List Char → ℕ → ℕ → Work (Option ℕ)
  | [], _, _ => pure none
  | c :: rest, depth, backslashes => do
    charge c.utf8Size
    if c = '\\' then return (← findClosingParen rest depth (backslashes + 1)).map (· + 1)
    if backslashes % 2 = 0 ∧ c = '(' then return (← findClosingParen rest (depth + 1) 0).map (· + 1)
    if backslashes % 2 = 0 ∧ c = ')' then
      if depth - 1 = 0 then return some 0
      return (← findClosingParen rest (depth - 1) 0).map (· + 1)
    return (← findClosingParen rest depth 0).map (· + 1)

/-! ## Entities -/

/-- The value of digits in the base, as `from_str_radix` reads them. -/
def parseRadix (base : ℕ) (digits : List Char) : Option ℕ :=
  let digits := if digits.head? = some '+' ∧ digits.length ≠ 1 then digits.tail else digits
  if digits = [] then none
  else
    digits.foldl (fun value c =>
      value.bind fun value =>
        let digit :=
          if c.isDigit then some (c.toNat - '0'.toNat)
          else if 'a' ≤ c ∧ c ≤ 'f' then some (c.toNat - 'a'.toNat + 10)
          else if 'A' ≤ c ∧ c ≤ 'F' then some (c.toNat - 'A'.toNat + 10)
          else none
        (digit.filter (· < base)).map (value * base + ·)) (some 0)

/-- `char::from_u32`. -/
def charOfNat (n : ℕ) : Option Char := if h : n.isValidChar then some (Char.ofNatAux n h) else none

/-- The characters between `&` and `;`, of which `end` bytes of the entity are passed. At most 32 bytes are looked at. -/
def entityBody : ℕ → List Char → Work (Option (List Char))
  | _, [] => pure none
  | passed, c :: rest =>
    if 32 < passed then pure none
    else do
      charge (min c.utf8Size (33 - passed))
      if c = ';' then return some []
      return (← entityBody (passed + c.utf8Size) rest).map (c :: ·)

def namedEntity (body : List Char) : Option Char :=
  match String.ofList body with
  | "lt" | "LT" => some '<'
  | "gt" | "GT" => some '>'
  | "amp" | "AMP" => some '&'
  | "quot" | "QUOT" => some '"'
  | "apos" => some '\''
  | "shy" => some '\u00ad'
  | "lrm" => some '\u200e'
  | "rlm" => some '\u200f'
  | "zwnj" => some '\u200c'
  | "zwj" => some '\u200d'
  | "ZeroWidthSpace" | "NegativeMediumSpace" | "NegativeThickSpace" | "NegativeThinSpace" | "NegativeVeryThinSpace" =>
    some '\u200b'
  | "NoBreak" => some '\u2060'
  | "ApplyFunction" => some '\u2061'
  | "InvisibleTimes" => some '\u2062'
  | "InvisibleComma" => some '\u2063'
  | "Tab" => some '\t'
  | "NewLine" => some '\n'
  | _ =>
    match body with
    | '#' :: 'x' :: digits => (parseRadix 16 digits).bind charOfNat
    | '#' :: 'X' :: digits => (parseRadix 16 digits).bind charOfNat
    | '#' :: digits => (parseRadix 10 digits).bind charOfNat
    | _ => none

/-- The entity that the text begins with, and its characters. -/
def decodeEntity (text : List Char) : Work (Option (Char × ℕ)) :=
  match text with
  | '&' :: rest => do
    match ← entityBody 1 rest with
    | none => return none
    | some body => return (namedEntity body).map fun decoded => (decoded, body.length + 2)
  | _ => pure none

def hasDecodableEntity : List Char → Work Bool
  | [] => pure false
  | c :: rest => do
    charge c.utf8Size
    if c = '&' then
      if (← decodeEntity (c :: rest)).isSome then return true
    hasDecodableEntity rest

/-- The text up to the raw or encoded closing bracket, and the characters read. -/
def encodedTag : List Char → Work (Option (List Char × ℕ))
  | [] => pure none
  | c :: rest => do
    charge 1
    if c = '>' then return some ([], 1)
    if c = '&' then
      match ← decodeEntity (c :: rest) with
      | some ('>', consumed) => return some ([], consumed)
      | _ => pure ()
    return (← encodedTag rest).map fun (inner, consumed) => (c :: inner, consumed + 1)

/-! ## Link targets -/

/-- The bytes of a target after percent decoding. -/
def percentDecode : List UInt8 → Option (List UInt8)
  | [] => some []
  | byte :: rest =>
    if byte = 37 then
      match rest with
      | high :: low :: rest =>
        match String.fromUTF8? ⟨#[high, low]⟩ with
        | none => none
        | some hex => (parseRadix 16 hex.toList).bind fun byte => (percentDecode rest).map (UInt8.ofNat byte :: ·)
      | _ => none
    else (percentDecode rest).map (byte :: ·)

def decodedUrlHasUnsafeControls (target : List Char) : Bool :=
  match percentDecode (target.flatMap String.utf8EncodeChar) with
  | none => true
  | some decoded =>
    match String.fromUTF8? ⟨decoded.toArray⟩ with
    | none => true
    | some decoded => decoded.toList.any fun c => isControl c || isUnicodeFormatControl c

section Inline

/- `urlScheme` is the scheme of a target that the URL parser accepts. -/
variable (urlScheme : List Char → Option String) (carrier : MarkdownCarrier)

def safeLinkTarget (target : List Char) : Work Bool := do
  charge (utf8Bytes target * 8 + 16)
  let target := trim target
  let refused := target.any fun c =>
    isControl c || isUnicodeFormatControl c || ['<', '>', '"', '\'', '\\'].contains c || isWhitespace c
  if target = [] ∨ refused ∨ decodedUrlHasUnsafeControls target then return false
  if ← hasDecodableEntity target then return false
  match urlScheme target with
  | none => return false
  | some scheme =>
    match carrier with
    | .post => return scheme = "https" || scheme = "http" || scheme = "mailto"
    | .card2 => return scheme = "https"

def looksLikeUrlTarget (target : List Char) : Work Bool := do
  charge (utf8Bytes target * 2 + 4)
  if !target.contains ':' then return false
  match target.takeWhile (· ≠ ':') with
  | [] => return false
  | first :: rest => return first.isAlpha && rest.all fun c => c.isAlphanum || c = '+' || c = '-' || c = '.'

/-! ## Constructs -/

/- `sanitize` is the sanitizer of the fragments inside a construct. A construct gives its output and the characters it
takes. -/
variable (sanitize : List Char → Work (List Char)) {text : List Char}

def sanitizeEntity (text : List Char) : Work (Option (List Char × ℕ)) := do
  match ← decodeEntity text with
  | none => return none
  | some (decoded, consumed) =>
    if decoded = '<' then
      match ← encodedTag (text.drop consumed) with
      | some (inner, read) =>
        if looksLikeHtmlTag inner then return some ([], consumed + read)
        return some ('‹' :: (← sanitize inner) ++ ['›'], consumed + read)
      | none => return some (['‹'], consumed)
    if isUnicodeFormatControl decoded || (isControl decoded && !isWhitespace decoded) then return some ([], consumed)
    return some ([inertCharacter decoded], consumed)

def codeSpan (text : List Char) (cursor : ℕ) : Work (Option (List Char × ℕ)) := do
  let run ← backtickRun text
  match ← findCodeSpanEnd run (text.drop run) (cursor + run) with
  | none => return none
  | some stop => return some (text.take (stop - cursor), stop - cursor)

/-- The characters of the text from position `start` to `stop`, where the text begins at `opening`. -/
def between (text : List Char) (opening start stop : ℕ) : List Char := (text.drop (start - opening)).take (stop - start)

def degradeImage (text : List Char) (opening : ℕ) (brackets : UnescapedBracketSearch) :
    Work (Option (List Char × ℕ) × UnescapedBracketSearch) := do
  match ← brackets.find (opening + 2) with
  | (none, brackets) => return (none, brackets)
  | (some labelEnd, brackets) =>
    let label := between text opening (opening + 2) labelEnd
    let alt ← sanitize label
    let after := labelEnd + 1
    let output := if alt = [] then "Image".toList else "Image: ".toList ++ alt
    match text.drop (after - opening) with
    | '(' :: _ =>
      match ← findClosingParen (text.drop (after - opening)) 0 0 with
      | some offset =>
        let target := trim (between text opening (after + 1) (after + offset))
        let shown ←
          if ← safeLinkTarget urlScheme carrier target then pure (" (".toList ++ target ++ [')'])
          else pure (if target ≠ [] then " (unsafe image target)".toList else [])
        return (some (output ++ shown, after + offset + 1 - opening), brackets)
      | none => return (some (output ++ " (invalid image target) ".toList, after + 1 - opening), brackets)
    | '[' :: _ =>
      match ← brackets.find (after + 1) with
      | (some referenceEnd, brackets) =>
        let identifier := between text opening (after + 1) referenceEnd
        let shown ← sanitize (if identifier = [] then label else identifier)
        return (some (output ++ " (reference ".toList ++ shown ++ [')'], referenceEnd + 1 - opening), brackets)
      | (none, brackets) => return (some (output, after - opening), brackets)
    | _ => return (some (output, after - opening), brackets)

def preserveOrDegradeLink (text : List Char) (opening : ℕ) (brackets : UnescapedBracketSearch) :
    Work (Option (List Char × ℕ) × UnescapedBracketSearch) := do
  match ← brackets.find (opening + 1) with
  | (none, brackets) => return (none, brackets)
  | (some labelEnd, brackets) =>
    let source := between text opening (opening + 1) labelEnd
    let label ← sanitize source
    let after := labelEnd + 1
    match text.drop (after - opening) with
    | '(' :: _ =>
      match ← findClosingParen (text.drop (after - opening)) 0 0 with
      | some offset =>
        let target := between text opening (after + 1) (after + offset)
        let consumed := after + offset + 1 - opening
        if ← safeLinkTarget urlScheme carrier target then
          return (some ('[' :: label ++ "](".toList ++ target ++ [')'], consumed), brackets)
        let shown ← sanitize target
        return (some (label ++ " (".toList ++ shown ++ ") (unsafe link target)".toList, consumed), brackets)
      | none => return (some ('[' :: label ++ "] (invalid link target) ".toList, after + 1 - opening), brackets)
    | '[' :: _ =>
      match ← brackets.find (after + 1) with
      | (some referenceEnd, brackets) =>
        let identifier := between text opening (after + 1) referenceEnd
        let shown ← sanitize (if identifier = [] then source else identifier)
        return (some (label ++ " (reference ".toList ++ shown ++ [')'], referenceEnd + 1 - opening), brackets)
      | (none, brackets) => return (some ('[' :: label ++ [']'], after - opening), brackets)
    | _ => return (some ('[' :: label ++ [']'], after - opening), brackets)

/-- A footnote reference `[^identifier]` at the start of the text. -/
def footnoteReference (text : List Char) (opening : ℕ) (brackets : UnescapedBracketSearch) :
    Work (Option (List Char × ℕ) × UnescapedBracketSearch) := do
  match ← brackets.find (opening + 2) with
  | (none, brackets) => return (none, brackets)
  | (some stop, brackets) =>
    let identifier := between text opening (opening + 2) stop
    charge (utf8Bytes identifier)
    if identifier ≠ [] ∧ identifier.all isFootnoteIdentifier then
      let output := match carrier with
        | .post => "(footnote ".toList ++ identifier ++ [')']
        | .card2 => "[footnote ".toList ++ identifier ++ [']']
      return (some (output, stop + 1 - opening), brackets)
    return (none, brackets)

/-- An angle bracket at the start of the text: an autolink, a tag or neither. -/
def angleBracket (text : List Char) : Work (List Char × ℕ) := do
  match ← findByte '>' text.tail with
  | none => return (['‹'], 1)
  | some offset =>
    let inner := text.tail.take offset
    if ← safeLinkTarget urlScheme carrier inner then
      return ('[' :: inner ++ "](".toList ++ inner ++ [')'], offset + 2)
    if ← looksLikeUrlTarget inner then return ((← sanitize inner) ++ " (unsafe link target)".toList, offset + 2)
    return (if looksLikeHtmlTag inner then [] else '‹' :: inner ++ ['›'], offset + 2)

/-- A comment after its opening. -/
def comment (text : List Char) : Work (List Char × ℕ) := do
  match ← findCommentEnd (text.drop 4) with
  | some offset => return ([], offset + 7)
  | none => return ("‹!--".toList, 4)

/-- What one turn of the loop writes for the text, and the characters it takes. -/
def inlineStep (text : List Char) (cursor : ℕ) (brackets : UnescapedBracketSearch) :
    Work (List Char × ℕ × UnescapedBracketSearch) := do
  let plain (brackets : UnescapedBracketSearch) := (text.take 1, 1, brackets)
  match text with
  | '`' :: _ =>
    match ← codeSpan text cursor with
    | some (output, consumed) => return (output, consumed, brackets)
    | none => return plain brackets
  | '!' :: '[' :: _ =>
    match ← degradeImage urlScheme carrier sanitize text cursor brackets with
    | (some (output, consumed), brackets) => return (output, consumed, brackets)
    | (none, brackets) => return plain brackets
  | '[' :: rest =>
    let (footnote, brackets) ←
      if rest.head? = some '^' then footnoteReference carrier text cursor brackets else pure (none, brackets)
    match footnote with
    | some (output, consumed) => return (output, consumed, brackets)
    | none =>
      match ← preserveOrDegradeLink urlScheme carrier sanitize text cursor brackets with
      | (some (output, consumed), brackets) => return (output, consumed, brackets)
      | (none, brackets) => return plain brackets
  | '<' :: '!' :: '-' :: '-' :: _ =>
    let (output, consumed) ← comment text
    return (output, consumed, brackets)
  | '&' :: _ =>
    match ← sanitizeEntity sanitize text with
    | some (output, consumed) => return (output, consumed, brackets)
    | none => return plain brackets
  | '<' :: _ =>
    let (output, consumed) ← angleBracket urlScheme carrier sanitize text
    return (output, consumed, brackets)
  | _ => return plain brackets

/-- The loop of `sanitize_inline_bounded` from the cursor on. `bound` is at least the remaining budget, and every turn spends
a unit, so that at 0 the budget is spent. -/
def sanitizeFrom : ℕ → List Char → ℕ → UnescapedBracketSearch → Work (List Char)
  | _, [], _, _ => pure []
  | 0, _ :: _, _, _ => fun _ => none
  | bound + 1, text, cursor, brackets => do
    charge 1
    let (output, consumed, brackets) ←
      inlineStep urlScheme carrier (fun inner => sanitizeFrom bound inner 0 (.new inner)) text cursor brackets
    return output ++ (← sanitizeFrom bound (text.drop consumed) (cursor + consumed) brackets)

/-- Sanitizes one fragment, or makes it inert when the budget is spent. -/
def sanitizeInline (text : List Char) : List Char :=
  let budget := inlineWorkBudget (utf8Bytes text)
  match sanitizeFrom urlScheme carrier budget text 0 (.new text) budget with
  | some (output, _) => output
  | none => inertInlineText text

/-! ## Plain text -/

/-- The characters that begin a construct. -/
def isInlineSyntax (c : Char) : Bool := c = '`' || c = '!' || c = '[' || c = '&' || c = '<'

theorem inlineStep_plain {c : Char} (h : isInlineSyntax c = false) (rest : List Char) (cursor : ℕ)
    (brackets : UnescapedBracketSearch) :
    inlineStep urlScheme carrier sanitize (c :: rest) cursor brackets = pure ([c], 1, brackets) := by
  have hne : ∀ d, isInlineSyntax d = true → c ≠ d := by
    rintro d hd rfl
    rw [h] at hd
    cases hd
  unfold inlineStep
  split
  iterate 6
    · rename_i heq
      exact absurd (List.cons.inj heq).1 (hne _ (by decide))
  · rfl

theorem sanitizeFrom_plain (h : ∀ c ∈ text, isInlineSyntax c = false) {bound remaining : ℕ}
    (hbound : text.length ≤ bound) (hremaining : text.length ≤ remaining) (cursor : ℕ)
    (brackets : UnescapedBracketSearch) :
    sanitizeFrom urlScheme carrier bound text cursor brackets remaining = some (text, remaining - text.length) := by
  induction text generalizing bound remaining cursor with
  | nil => cases bound <;> rfl
  | cons c rest ih =>
    obtain ⟨bound, rfl⟩ := Nat.exists_eq_succ_of_ne_zero (show bound ≠ 0 by simp at hbound; omega)
    simp only [List.length_cons] at hbound hremaining
    have hrest := @ih (fun d hd => h d (List.mem_cons_of_mem _ hd)) bound (remaining - 1) (by omega) (by omega) (cursor + 1)
    have hone : ¬ remaining < 1 := by omega
    have hsub : remaining - 1 - rest.length = remaining - (rest.length + 1) := by omega
    rw [hsub] at hrest
    simp [sanitizeFrom, inlineStep_plain urlScheme carrier _ (h c List.mem_cons_self), charge, bind, StateT.bind, hone, pure,
      StateT.pure, hrest]

/-- Text without a character that begins a construct stays as it is. -/
theorem sanitizeInline_plain (h : ∀ c ∈ text, isInlineSyntax c = false) :
    sanitizeInline urlScheme carrier text = text := by
  have hlen := length_le_utf8Bytes text
  have hbudget : text.length ≤ inlineWorkBudget (utf8Bytes text) := by
    unfold inlineWorkBudget inlineWorkPerInputByte
    omega
  rw [sanitizeInline, sanitizeFrom_plain urlScheme carrier h hbudget hbudget]

end Inline

end LarkCodexBridge.Render.Markdown
