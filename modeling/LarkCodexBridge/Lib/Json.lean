import Mathlib

/-!
# JSON texts

Values with natural numbers, the compact encoder of a serializer that writes each character of a string in a way of its
own, and a decoder of the standard texts (spaces, escapes, surrogate pairs).

* `decode_encode`: the decoder gives back what a standard serializer wrote;
* `Escaping.replace`: putting another spelling in place of a character that only strings hold gives a standard
  serializer again, also when it is done on the text already encoded (`encode_replace`).
-/

/-- A JSON value. The fields of an object are in the order of the text. -/
inductive Json where
  | null
  | bool (b : Bool)
  | num (n : ℕ)
  | str (s : List Char)
  | arr (items : List Json)
  | obj (fields : List (List Char × Json))

namespace Json

/-! ## Fields of an object -/

/-- A field that is there with a value. -/
def member (name : String) (v : Option Json) : List (List Char × Json) := (v.map fun v => (name.toList, v)).toList

/-- The value of a field. -/
def get (name : String) : Json → Option Json
  | .obj fields => fields.lookup name.toList
  | _ => none

@[simp] theorem get_member (name k : String) (v : Option Json) :
    get k (.obj (member name v)) = if k = name then v else none := by
  cases v with
  | none => simp [get, member]
  | some v =>
    have hkey : (k.toList == name.toList) = (k == name) := by
      rw [Bool.eq_iff_iff, beq_iff_eq, beq_iff_eq, String.toList_inj]
    simp only [get, member, Option.map_some, Option.toList_some, List.lookup_cons, List.lookup_nil, hkey]
    by_cases h : k = name
    · rw [beq_iff_eq.2 h, if_pos h]
    · rw [beq_false_of_ne h, if_neg h]

@[simp] theorem get_append (k : String) (a b : List (List Char × Json)) :
    get k (.obj (a ++ b)) = (get k (.obj a)).or (get k (.obj b)) := List.lookup_append

/-! ## Characters of a string -/

def lowerHex : List Char := ['0', '1', '2', '3', '4', '5', '6', '7', '8', '9', 'a', 'b', 'c', 'd', 'e', 'f']

def upperHex : List Char := ['0', '1', '2', '3', '4', '5', '6', '7', '8', '9', 'A', 'B', 'C', 'D', 'E', 'F']

def hexValue (c : Char) : Option ℕ := (lowerHex.idxOf? c).or (upperHex.idxOf? c)

/-- Four hexadecimal digits. -/
def hex4 : List Char → Option (ℕ × List Char)
  | a :: b :: c :: d :: rest =>
    match hexValue a, hexValue b, hexValue c, hexValue d with
    | some a, some b, some c, some d => some (((a * 16 + b) * 16 + c) * 16 + d, rest)
    | _, _, _, _ => none
  | _ => none

/-- The character of a two-character escape. -/
def shortEscape : Char → Option Char
  | '"' => some '"'
  | '\\' => some '\\'
  | '/' => some '/'
  | 'b' => some '\x08'
  | 'f' => some '\x0c'
  | 'n' => some '\n'
  | 'r' => some '\r'
  | 't' => some '\t'
  | _ => none

/-- What follows the start of a numeric escape: a unit, or a pair of surrogates. -/
def unicodeEscape (text : List Char) : Option (Char × List Char) :=
  match hex4 text with
  | none => none
  | some (unit, rest) =>
    if unit < 0xd800 ∨ 0xdfff < unit then some (Char.ofNat unit, rest)
    else if 0xdbff < unit then none
    else
      match rest with
      | '\\' :: 'u' :: low =>
        match hex4 low with
        | none => none
        | some (second, rest) =>
          if 0xdc00 ≤ second ∧ second ≤ 0xdfff then
            some (Char.ofNat (0x10000 + (unit - 0xd800) * 0x400 + (second - 0xdc00)), rest)
          else none
      | _ => none

/-- A character that stands for itself in a string. -/
def IsPlain (c : Char) : Prop := c ≠ '"' ∧ c ≠ '\\' ∧ 0x20 ≤ c.toNat

instance (c : Char) : Decidable (IsPlain c) := inferInstanceAs (Decidable (_ ∧ _))

def readChar : List Char → Option (Char × List Char)
  | [] => none
  | c :: rest =>
    if c = '\\' then
      match rest with
      | [] => none
      | d :: rest => if d = 'u' then unicodeEscape rest else (shortEscape d).map fun e => (e, rest)
    else if IsPlain c then some (c, rest) else none

def escapeChars : List Char := ['\\', '"', '/', 'b', 'f', 'n', 'r', 't', 'u'] ++ (lowerHex ++ upperHex)

variable {c : Char} {n : ℕ}

theorem mem_of_hexValue (h : hexValue c = some n) : c ∈ escapeChars := by
  refine List.mem_append_right _ (List.mem_append.2 ?_)
  rcases Option.or_eq_some_iff.1 h with h | ⟨-, h⟩
  · have : (lowerHex.idxOf? c).isSome := by rw [h]; rfl
    exact .inl (List.isSome_idxOf?.1 this)
  · have : (upperHex.idxOf? c).isSome := by rw [h]; rfl
    exact .inr (List.isSome_idxOf?.1 this)

variable {text rest : List Char}

theorem hex4_eq_some (h : hex4 text = some (n, rest)) :
    ∃ digits, text = digits ++ rest ∧ (∀ d ∈ digits, d ∈ escapeChars) ∧
      ∀ more, hex4 (digits ++ more) = some (n, more) := by
  match text with
  | a :: b :: c :: d :: tail =>
    simp only [hex4] at h
    split at h
    next ha hb hc hd =>
      obtain ⟨rfl, rfl⟩ := Prod.mk.inj (Option.some.inj h)
      refine ⟨[a, b, c, d], rfl, ?_, fun more => by simp [hex4, ha, hb, hc, hd]⟩
      simp only [List.mem_cons, List.not_mem_nil, or_false, forall_eq_or_imp, forall_eq]
      exact ⟨mem_of_hexValue ha, mem_of_hexValue hb, mem_of_hexValue hc, mem_of_hexValue hd⟩
    next => cases h
  | [] | [_] | [_, _] | [_, _, _] => simp [hex4] at h

theorem mem_of_shortEscape {e : Char} (h : shortEscape c = some e) : c ∈ escapeChars := by
  unfold shortEscape at h
  split at h <;> first | decide | cases h

theorem unicodeEscape_eq_some (h : unicodeEscape text = some (c, rest)) :
    ∃ item, text = item ++ rest ∧ (∀ d ∈ item, d ∈ escapeChars) ∧
      ∀ more, unicodeEscape (item ++ more) = some (c, more) := by
  unfold unicodeEscape at h
  split at h
  next => cases h
  next unit after hunit =>
    obtain ⟨digits, rfl, hdigits, hread⟩ := hex4_eq_some hunit
    split at h
    next hbmp =>
      obtain ⟨rfl, rfl⟩ := Prod.mk.inj (Option.some.inj h)
      exact ⟨digits, rfl, hdigits, fun more => by rw [unicodeEscape, hread]; simp [hbmp]⟩
    next hsurrogate =>
      split at h
      next => cases h
      next hhigh =>
        split at h
        next low =>
          split at h
          next => cases h
          next second tail hsecond =>
            obtain ⟨digits', rfl, hdigits', hread'⟩ := hex4_eq_some hsecond
            split at h
            next hlow =>
              obtain ⟨rfl, rfl⟩ := Prod.mk.inj (Option.some.inj h)
              refine ⟨digits ++ '\\' :: 'u' :: digits', by simp, ?_, fun more => ?_⟩
              · simp only [List.mem_append, List.mem_cons]
                rintro d (hd | rfl | rfl | hd)
                · exact hdigits d hd
                · decide
                · decide
                · exact hdigits' d hd
              · rw [List.append_assoc, List.cons_append, List.cons_append, unicodeEscape, hread]
                simp only [hsurrogate, hhigh, if_false]
                rw [hread']
                simp [hlow]
            next => cases h
        next => cases h

theorem readChar_eq_some (h : readChar text = some (c, rest)) :
    ∃ item, text = item ++ rest ∧ (item = [c] ∧ IsPlain c ∨ ∀ d ∈ item, d ∈ escapeChars) ∧
      ∀ more, readChar (item ++ more) = some (c, more) := by
  match text with
  | [] => simp [readChar] at h
  | a :: tail =>
    simp only [readChar] at h
    split at h
    next ha =>
      subst ha
      match tail with
      | [] => cases h
      | d :: tail =>
        simp only at h
        split at h
        next hd =>
          subst hd
          obtain ⟨item, rfl, hitem, hread⟩ := unicodeEscape_eq_some h
          refine ⟨'\\' :: 'u' :: item, rfl, .inr ?_, fun more => by simp [readChar, hread]⟩
          simp only [List.mem_cons]
          rintro x (rfl | rfl | hx)
          · decide
          · decide
          · exact hitem x hx
        next hd =>
          obtain ⟨e, he, heq⟩ := Option.map_eq_some_iff.1 h
          obtain ⟨rfl, rfl⟩ := Prod.mk.inj heq
          refine ⟨['\\', d], rfl, .inr ?_, fun more => by simp [readChar, hd, he]⟩
          simp only [List.mem_cons, List.not_mem_nil, or_false]
          rintro x (rfl | rfl)
          · decide
          · exact mem_of_shortEscape he
    next ha =>
      split at h
      next hplain =>
        obtain ⟨rfl, rfl⟩ := Prod.mk.inj (Option.some.inj h)
        exact ⟨[a], rfl, .inl ⟨rfl, hplain⟩, fun more => by simp [readChar, ha, hplain]⟩
      next => cases h

/-! ## The decoder -/

/-- The characters of a string up to its closing quote. -/
def readString : ℕ → List Char → Option (List Char × List Char)
  | 0, _ => none
  | n + 1, text =>
    if text.head? = some '"' then some ([], text.tail)
    else
      match readChar text with
      | none => none
      | some (c, rest) => (readString n rest).map fun (s, rest) => (c :: s, rest)

def isSpace (c : Char) : Bool := c == ' ' || c == '\t' || c == '\n' || c == '\r'

def skip (text : List Char) : List Char := text.dropWhile isSpace

/-- The text behind a word. -/
def after (word text : List Char) : Option (List Char) :=
  if word <+: text then some (text.drop word.length) else none

/-- A number ends here: no digit, fraction or exponent follows. -/
def Ends (rest : List Char) : Prop := ∀ c ∈ rest.head?, c.isDigit = false ∧ c ≠ '.' ∧ c ≠ 'e' ∧ c ≠ 'E'

instance (rest : List Char) : Decidable (Ends rest) := inferInstanceAs (Decidable (∀ c ∈ rest.head?, _))

/-- A natural number without leading zeros. -/
def readNumber (text : List Char) : Option (ℕ × List Char) :=
  let digits := text.takeWhile Char.isDigit
  let rest := text.dropWhile Char.isDigit
  if digits ≠ [] ∧ (digits.head? = some '0' → digits.length = 1) ∧ Ends rest then
    some (Nat.ofDigitChars 10 digits 0, rest)
  else none

/-- A word or a number. -/
def readPlain (text : List Char) : Option (Json × List Char) :=
  match after ['n', 'u', 'l', 'l'] text, after ['t', 'r', 'u', 'e'] text, after ['f', 'a', 'l', 's', 'e'] text with
  | some rest, _, _ => some (.null, rest)
  | _, some rest, _ => some (.bool true, rest)
  | _, _, some rest => some (.bool false, rest)
  | _, _, _ => (readNumber text).map fun (n, rest) => (.num n, rest)

mutual

/-- A value at the start of the text. -/
def readValue : ℕ → List Char → Option (Json × List Char)
  | 0, _ => none
  | n + 1, text =>
    match skip text with
    | '"' :: rest => (readString n rest).map fun (s, rest) => (.str s, rest)
    | '[' :: rest =>
      if (skip rest).head? = some ']' then some (.arr [], (skip rest).tail)
      else
        match readValue n rest with
        | none => none
        | some (v, rest) => (readItems n rest).map fun (vs, rest) => (.arr (v :: vs), rest)
    | '\x7b' :: rest =>
      if (skip rest).head? = some '\x7d' then some (.obj [], (skip rest).tail)
      else
        match readMember n rest with
        | none => none
        | some (f, rest) => (readFields n rest).map fun (fs, rest) => (.obj (f :: fs), rest)
    | text => readPlain text

/-- The items after the first and the closing bracket. -/
def readItems : ℕ → List Char → Option (List Json × List Char)
  | 0, _ => none
  | n + 1, text =>
    match skip text with
    | ']' :: rest => some ([], rest)
    | ',' :: rest =>
      match readValue n rest with
      | none => none
      | some (v, rest) => (readItems n rest).map fun (vs, rest) => (v :: vs, rest)
    | _ => none

/-- A field: its name, a colon and its value. -/
def readMember : ℕ → List Char → Option ((List Char × Json) × List Char)
  | 0, _ => none
  | n + 1, text =>
    match skip text with
    | '"' :: rest =>
      match readString n rest with
      | none => none
      | some (k, rest) =>
        match skip rest with
        | ':' :: rest => (readValue n rest).map fun (v, rest) => ((k, v), rest)
        | _ => none
    | _ => none

/-- The fields after the first and the closing brace. -/
def readFields : ℕ → List Char → Option (List (List Char × Json) × List Char)
  | 0, _ => none
  | n + 1, text =>
    match skip text with
    | '\x7d' :: rest => some ([], rest)
    | ',' :: rest =>
      match readMember n rest with
      | none => none
      | some (f, rest) => (readFields n rest).map fun (fs, rest) => (f :: fs, rest)
    | _ => none

end

/-- The value of a JSON text. -/
def decode (text : List Char) : Option Json :=
  match readValue (text.length + 1) text with
  | some (v, rest) => if skip rest = [] then some v else none
  | none => none

/-! ## The encoder -/

section Encode

variable (escape : Char → List Char)

def quoted (s : List Char) : List Char := '"' :: (s.flatMap escape ++ ['"'])

mutual

/-- The compact text of a value. -/
def encode : Json → List Char
  | .null => ['n', 'u', 'l', 'l']
  | .bool true => ['t', 'r', 'u', 'e']
  | .bool false => ['f', 'a', 'l', 's', 'e']
  | .num n => Nat.toDigits 10 n
  | .str s => quoted escape s
  | .arr [] => ['[', ']']
  | .arr (v :: vs) => '[' :: (encode v ++ encodeItems vs)
  | .obj [] => ['\x7b', '\x7d']
  | .obj ((k, v) :: fs) => '\x7b' :: (quoted escape k ++ ':' :: (encode v ++ encodeFields fs))

/-- The items after the first and the closing bracket. -/
def encodeItems : List Json → List Char
  | [] => [']']
  | v :: vs => ',' :: (encode v ++ encodeItems vs)

/-- The fields after the first and the closing brace. -/
def encodeFields : List (List Char × Json) → List Char
  | [] => ['\x7d']
  | (k, v) :: fs => ',' :: (quoted escape k ++ ':' :: (encode v ++ encodeFields fs))

end

end Encode

/-- A serializer's way to write the characters of strings, each read back as itself. -/
structure Escaping where
  escape : Char → List Char
  reads : ∀ c, readChar (escape c) = some (c, [])

variable (E : Escaping) {v : Json}

/-! ## The round trip -/

/-- A character is written as itself or with characters of escapes. -/
theorem Escaping.cases (c : Char) :
    E.escape c = [c] ∧ IsPlain c ∨ ∀ d ∈ E.escape c, d ∈ escapeChars := by
  obtain ⟨item, h, hitem, -⟩ := readChar_eq_some (E.reads c)
  rwa [h, List.append_nil]

theorem Escaping.reads_append (c : Char) (rest : List Char) : readChar (E.escape c ++ rest) = some (c, rest) := by
  obtain ⟨item, h, -, hread⟩ := readChar_eq_some (E.reads c)
  rw [h, List.append_nil, hread]

theorem Escaping.head_ne (c : Char) (rest : List Char) : (E.escape c ++ rest).head? ≠ some '"' := by
  intro h
  obtain ⟨more, h⟩ := List.head?_eq_some_iff.1 h
  have hread := E.reads_append c rest
  rw [h] at hread
  simp [readChar, IsPlain] at hread

theorem Escaping.length_pos (c : Char) : 0 < (E.escape c).length := by
  refine List.length_pos_iff.2 fun h => ?_
  have := E.reads c
  rw [h] at this
  simp [readChar] at this

theorem readString_escape (s rest : List Char) (n : ℕ) (h : (s.flatMap E.escape).length < n) :
    readString n (s.flatMap E.escape ++ '"' :: rest) = some (s, rest) := by
  induction s generalizing n with
  | nil =>
    obtain ⟨n, rfl⟩ := Nat.exists_eq_succ_of_ne_zero (Nat.ne_zero_of_lt h)
    simp [readString]
  | cons c s ih =>
    obtain ⟨n, rfl⟩ := Nat.exists_eq_succ_of_ne_zero (Nat.ne_zero_of_lt h)
    simp only [List.flatMap_cons, List.length_append] at h
    have hpos := E.length_pos c
    rw [List.flatMap_cons, List.append_assoc, readString, if_neg (E.head_ne c _), E.reads_append]
    simp only
    rw [ih n (by omega)]
    rfl

theorem skip_cons (h : isSpace c = false) (rest : List Char) : skip (c :: rest) = c :: rest := by
  simp [skip, h]

theorem isDigit_of_toDigits {t : List Char} (h : Nat.toDigits 10 n = c :: t) : c.isDigit = true :=
  Nat.isDigit_of_mem_toDigits (by decide) (by decide) (show c ∈ Nat.toDigits 10 n by rw [h]; exact List.mem_cons_self)

theorem not_space_of_isDigit (h : c.isDigit = true) : isSpace c = false := by
  rw [Bool.eq_false_iff]
  intro hspace
  simp only [isSpace, Bool.or_eq_true, beq_iff_eq] at hspace
  rcases hspace with ((rfl | rfl) | rfl) | rfl <;> cases h

theorem eq_zero_of_head_toDigits (h : (Nat.toDigits 10 n).head? = some '0') : n = 0 := by
  induction n using Nat.strong_induction_on with
  | _ n ih =>
    by_cases hlt : n < 10
    · rw [Nat.toDigits_of_lt_base hlt, List.head?_cons, Option.some_inj] at h
      interval_cases n <;> first | rfl | cases h
    · rw [Nat.toDigits_of_base_le (by decide) (by omega), List.head?_append_of_ne_nil _ Nat.toDigits_ne_nil] at h
      have := ih (n / 10) (by omega) h
      omega

/-- The first character of a value. -/
theorem encode_head (v : Json) : ∃ c t, encode E.escape v = c :: t ∧ isSpace c = false ∧ c ≠ ']' := by
  match v with
  | .null => exact ⟨_, _, rfl, rfl, by decide⟩
  | .bool true => exact ⟨_, _, rfl, rfl, by decide⟩
  | .bool false => exact ⟨_, _, rfl, rfl, by decide⟩
  | .str s => exact ⟨_, _, rfl, rfl, by decide⟩
  | .arr [] => exact ⟨_, _, rfl, rfl, by decide⟩
  | .arr (_ :: _) => exact ⟨_, _, rfl, rfl, by decide⟩
  | .obj [] => exact ⟨_, _, rfl, rfl, by decide⟩
  | .obj ((_, _) :: _) => exact ⟨_, _, rfl, rfl, by decide⟩
  | .num n =>
    obtain ⟨c, t, h⟩ := List.exists_cons_of_ne_nil (Nat.toDigits_ne_nil (b := 10) (n := n))
    have hdigit := isDigit_of_toDigits h
    refine ⟨c, t, h, not_space_of_isDigit hdigit, ?_⟩
    rintro rfl
    cases hdigit

theorem ends_encodeItems (vs : List Json) (rest : List Char) : Ends (encodeItems E.escape vs ++ rest) := by
  cases vs <;> simp [encodeItems, Ends, Char.isDigit]

theorem ends_encodeFields (fs : List (List Char × Json)) (rest : List Char) :
    Ends (encodeFields E.escape fs ++ rest) := by
  cases fs <;> simp [encodeFields, Ends, Char.isDigit]

theorem readNumber_toDigits (n : ℕ) (h : Ends rest) :
    readNumber (Nat.toDigits 10 n ++ rest) = some (n, rest) := by
  have hdigits : ∀ c ∈ Nat.toDigits 10 n, c.isDigit = true := fun c hc =>
    Nat.isDigit_of_mem_toDigits (by decide) (by decide) hc
  have hrest : rest.takeWhile Char.isDigit = [] ∧ rest.dropWhile Char.isDigit = rest := by
    cases rest with
    | nil => exact ⟨rfl, rfl⟩
    | cons c rest => simp [(h c (by simp)).1]
  have hzero : (Nat.toDigits 10 n).head? = some '0' → (Nat.toDigits 10 n).length = 1 := by
    intro h0
    rw [eq_zero_of_head_toDigits h0]
    rfl
  simp only [readNumber, List.takeWhile_append_of_pos hdigits, List.dropWhile_append_of_pos hdigits, hrest.1, hrest.2,
    List.append_nil]
  rw [if_pos ⟨Nat.toDigits_ne_nil, hzero, h⟩, Nat.ofDigitChars_ten_toDigits]

theorem after_cons_of_ne {a : Char} (h : a ≠ c) (word rest : List Char) : after (a :: word) (c :: rest) = none := by
  simp [after, h]

/-- A number is no word. -/
theorem readPlain_toDigits (n : ℕ) (h : Ends rest) :
    readPlain (Nat.toDigits 10 n ++ rest) = some (.num n, rest) := by
  obtain ⟨c, t, hc⟩ := List.exists_cons_of_ne_nil (Nat.toDigits_ne_nil (b := 10) (n := n))
  have hdigit : c.isDigit = true := isDigit_of_toDigits hc
  have hword : ∀ a : Char, a.isDigit = false → a ≠ c := by
    rintro a ha rfl
    simp [hdigit] at ha
  have hread := readNumber_toDigits n h
  rw [hc, List.cons_append] at hread ⊢
  rw [readPlain, after_cons_of_ne (hword 'n' rfl), after_cons_of_ne (hword 't' rfl), after_cons_of_ne (hword 'f' rfl),
    hread]
  rfl

theorem readMember_encode {k : List Char}
    (hv : ∀ n, (encode E.escape v).length < n → readValue n (encode E.escape v ++ rest) = some (v, rest))
    (h : (quoted E.escape k).length + (encode E.escape v).length < n) :
    readMember n (quoted E.escape k ++ ':' :: (encode E.escape v ++ rest)) = some ((k, v), rest) := by
  obtain ⟨n, rfl⟩ := Nat.exists_eq_succ_of_ne_zero (Nat.ne_zero_of_lt h)
  simp only [quoted, List.length_cons, List.length_append, List.length_nil] at h
  have hs := readString_escape E k (':' :: (encode E.escape v ++ rest)) n (by omega)
  rw [quoted, List.cons_append, List.append_assoc, readMember, skip_cons rfl]
  simp only [List.cons_append, List.nil_append]
  rw [hs]
  simp only
  rw [skip_cons rfl]
  simp only
  rw [hv n (by omega)]
  rfl

mutual

theorem readValue_encode : ∀ (v : Json) (n : ℕ) (rest : List Char), (encode E.escape v).length < n → Ends rest →
    readValue n (encode E.escape v ++ rest) = some (v, rest)
  | _, 0, _, h, _ => absurd h (Nat.not_lt_zero _)
  | .null, _ + 1, _, _, _ => rfl
  | .bool true, _ + 1, _, _, _ => rfl
  | .bool false, _ + 1, _, _, _ => rfl
  | .num k, n + 1, rest, _, hrest => by
    have hread := readPlain_toDigits k hrest
    obtain ⟨c, t, hc⟩ := List.exists_cons_of_ne_nil (Nat.toDigits_ne_nil (b := 10) (n := k))
    have hdigit : c.isDigit = true := isDigit_of_toDigits hc
    have hspace : isSpace c = false := not_space_of_isDigit hdigit
    rw [hc, List.cons_append] at hread
    rw [encode, hc, List.cons_append, readValue, skip_cons hspace]
    split
    next h => rw [(List.cons.inj h).1] at hdigit; cases hdigit
    next h => rw [(List.cons.inj h).1] at hdigit; cases hdigit
    next h => rw [(List.cons.inj h).1] at hdigit; cases hdigit
    next => exact hread
  | .str s, n + 1, rest, h, _ => by
    simp only [encode, quoted, List.length_cons, List.length_append, List.length_nil] at h
    rw [encode, quoted, List.cons_append, List.append_assoc, readValue, skip_cons rfl]
    simp only [List.cons_append, List.nil_append]
    rw [readString_escape E s rest n (by omega)]
    rfl
  | .arr [], _ + 1, _, _, _ => rfl
  | .arr (v :: vs), n + 1, rest, h, _ => by
    simp only [encode, List.length_cons, List.length_append] at h
    obtain ⟨c, t, hc, hspace, hclose⟩ := encode_head E v
    have hv := readValue_encode v n (encodeItems E.escape vs ++ rest) (by omega) (ends_encodeItems E vs rest)
    have hvs := readItems_encode vs n rest (by omega)
    rw [encode, List.cons_append, List.append_assoc, readValue, skip_cons rfl]
    simp only
    rw [hc, List.cons_append] at hv ⊢
    rw [if_neg (by rw [skip_cons hspace]; simpa using hclose), hv]
    simp only
    rw [hvs]
    rfl
  | .obj [], _ + 1, _, _, _ => rfl
  | .obj ((k, v) :: fs), n + 1, rest, h, _ => by
    simp only [encode, List.length_cons, List.length_append] at h
    have hf := readMember_encode E (k := k) (n := n) (fun n hn =>
      readValue_encode v n (encodeFields E.escape fs ++ rest) hn (ends_encodeFields E fs rest)) (by omega)
    have hfs := readFields_encode fs n rest (by omega)
    rw [encode, List.cons_append, List.append_assoc, List.cons_append, List.append_assoc, readValue, skip_cons rfl]
    simp only
    rw [if_neg (by rw [quoted, List.cons_append, skip_cons rfl]; simp), hf]
    simp only
    rw [hfs]
    rfl

theorem readItems_encode : ∀ (vs : List Json) (n : ℕ) (rest : List Char), (encodeItems E.escape vs).length < n →
    readItems n (encodeItems E.escape vs ++ rest) = some (vs, rest)
  | _, 0, _, h => absurd h (Nat.not_lt_zero _)
  | [], _ + 1, _, _ => rfl
  | v :: vs, n + 1, rest, h => by
    simp only [encodeItems, List.length_cons, List.length_append] at h
    have hv := readValue_encode v n (encodeItems E.escape vs ++ rest) (by omega) (ends_encodeItems E vs rest)
    have hvs := readItems_encode vs n rest (by omega)
    rw [encodeItems, List.cons_append, List.append_assoc, readItems, skip_cons rfl]
    simp only
    rw [hv]
    simp only
    rw [hvs]
    rfl

theorem readFields_encode : ∀ (fs : List (List Char × Json)) (n : ℕ) (rest : List Char),
    (encodeFields E.escape fs).length < n → readFields n (encodeFields E.escape fs ++ rest) = some (fs, rest)
  | _, 0, _, h => absurd h (Nat.not_lt_zero _)
  | [], _ + 1, _, _ => rfl
  | (k, v) :: fs, n + 1, rest, h => by
    simp only [encodeFields, List.length_cons, List.length_append] at h
    have hf := readMember_encode E (k := k) (n := n) (fun n hn =>
      readValue_encode v n (encodeFields E.escape fs ++ rest) hn (ends_encodeFields E fs rest)) (by omega)
    have hfs := readFields_encode fs n rest (by omega)
    rw [encodeFields, List.cons_append, List.append_assoc, List.cons_append, List.append_assoc, readFields,
      skip_cons rfl]
    simp only
    rw [hf]
    simp only
    rw [hfs]
    rfl

end

/-- **A standard serializer's text is read back as the value it was written for.** -/
theorem decode_encode (v : Json) : decode (encode E.escape v) = some v := by
  have h := readValue_encode E v ((encode E.escape v).length + 1) [] (Nat.lt_succ_self _) (by simp [Ends])
  rw [List.append_nil] at h
  rw [decode, h]
  rfl

/-! ## Replacing characters -/

/-- The characters of a text outside its strings. -/
def IsStructural (c : Char) : Prop :=
  c.isDigit = true ∨ c ∈ ['"', '[', ']', '\x7b', '\x7d', ',', ':', 'n', 'u', 'l', 't', 'r', 'e', 'f', 'a', 's']

instance (c : Char) : Decidable (IsStructural c) := inferInstanceAs (Decidable (_ ∨ _))

/-- `spelling` in place of each `x`. -/
def replaceChar (x : Char) (spelling : List Char) (c : Char) : List Char := if c = x then spelling else [c]

theorem replaceChar_self (x : Char) (spelling : List Char) : replaceChar x spelling x = spelling := if_pos rfl

theorem replaceChar_of_ne {x : Char} (h : c ≠ x) (spelling : List Char) : replaceChar x spelling c = [c] := if_neg h

theorem flatMap_replaceChar_of_not_mem {x : Char} (h : x ∉ text) (spelling : List Char) :
    text.flatMap (replaceChar x spelling) = text := by
  induction text with
  | nil => rfl
  | cons c text ih =>
    rw [List.mem_cons, not_or] at h
    rw [List.flatMap_cons, replaceChar_of_ne (Ne.symm h.1), ih h.2]
    rfl

theorem mem_flatMap_replaceChar {x : Char} {spelling : List Char} (hx : x ∉ spelling)
    (h : c ∈ text.flatMap (replaceChar x spelling)) : c ≠ x ∧ (c ∈ text ∨ c ∈ spelling) := by
  obtain ⟨d, hd, hc⟩ := List.mem_flatMap.1 h
  by_cases heq : d = x
  · rw [heq, replaceChar_self] at hc
    exact ⟨fun h => hx (h ▸ hc), .inr hc⟩
  · rw [replaceChar_of_ne heq, List.mem_singleton] at hc
    exact ⟨hc ▸ heq, .inl (hc ▸ hd)⟩

section Replace

variable {x : Char} {spelling : List Char}

/-- With another spelling of a character that no escape consists of, the strings are still read back. -/
def Escaping.replace (x : Char) (spelling : List Char) (hx : x ∉ escapeChars)
    (hread : readChar spelling = some (x, [])) : Escaping where
  escape c := (E.escape c).flatMap (replaceChar x spelling)
  reads c := by
    rcases E.cases c with ⟨hself, -⟩ | hescape
    · rw [hself, List.flatMap_singleton]
      by_cases hc : c = x
      · rw [hc, replaceChar_self, hread]
      · rw [replaceChar_of_ne hc, ← hself, E.reads]
    · rw [flatMap_replaceChar_of_not_mem fun hmem => hx (hescape x hmem), E.reads]

theorem flatMap_quoted (escape : Char → List Char) (hx : ¬ IsStructural x) (s : List Char) :
    (quoted escape s).flatMap (replaceChar x spelling) =
      quoted (fun c => (escape c).flatMap (replaceChar x spelling)) s := by
  have hquote : '"' ≠ x := fun h => hx (h ▸ by decide)
  simp only [quoted, List.flatMap_cons, List.flatMap_append, List.flatMap_nil, replaceChar_of_ne hquote,
    List.flatMap_assoc, List.append_nil, List.cons_append, List.nil_append]

theorem structural_toDigits (n : ℕ) : (Nat.toDigits 10 n).all (IsStructural ·) :=
  List.all_eq_true.2 fun _ h => decide_eq_true (.inl (Nat.isDigit_of_mem_toDigits (by decide) (by decide) h))

theorem flatMap_of_structural (text : List Char) (hx : ¬ IsStructural x) (h : text.all (IsStructural ·)) :
    text.flatMap (replaceChar x spelling) = text :=
  flatMap_replaceChar_of_not_mem (fun hmem => hx (of_decide_eq_true (List.all_eq_true.1 h x hmem))) _

section

variable (escape : Char → List Char) (hx : ¬ IsStructural x)

include hx

mutual

theorem encode_replace : ∀ v : Json, (encode escape v).flatMap (replaceChar x spelling) =
    encode (fun c => (escape c).flatMap (replaceChar x spelling)) v
  | .null => flatMap_of_structural ['n', 'u', 'l', 'l'] hx (by decide)
  | .bool true => flatMap_of_structural ['t', 'r', 'u', 'e'] hx (by decide)
  | .bool false => flatMap_of_structural ['f', 'a', 'l', 's', 'e'] hx (by decide)
  | .num n => flatMap_of_structural _ hx (structural_toDigits n)
  | .str s => flatMap_quoted escape hx s
  | .arr [] => flatMap_of_structural ['[', ']'] hx (by decide)
  | .arr (v :: vs) => by
    have hopen : '[' ≠ x := fun h => hx (h ▸ by decide)
    rw [encode, encode, List.flatMap_cons, replaceChar_of_ne hopen, List.flatMap_append, encode_replace v,
      encodeItems_replace vs]
    rfl
  | .obj [] => flatMap_of_structural ['\x7b', '\x7d'] hx (by decide)
  | .obj ((k, v) :: fs) => by
    have hopen : '\x7b' ≠ x := fun h => hx (h ▸ by decide)
    have hcolon : ':' ≠ x := fun h => hx (h ▸ by decide)
    rw [encode, encode, List.flatMap_cons, replaceChar_of_ne hopen, List.flatMap_append, flatMap_quoted escape hx,
      List.flatMap_cons, replaceChar_of_ne hcolon, List.flatMap_append, encode_replace v, encodeFields_replace fs]
    rfl

theorem encodeItems_replace : ∀ vs : List Json, (encodeItems escape vs).flatMap (replaceChar x spelling) =
    encodeItems (fun c => (escape c).flatMap (replaceChar x spelling)) vs
  | [] => flatMap_of_structural [']'] hx (by decide)
  | v :: vs => by
    have hcomma : ',' ≠ x := fun h => hx (h ▸ by decide)
    rw [encodeItems, encodeItems, List.flatMap_cons, replaceChar_of_ne hcomma, List.flatMap_append, encode_replace v,
      encodeItems_replace vs]
    rfl

theorem encodeFields_replace : ∀ fs : List (List Char × Json),
    (encodeFields escape fs).flatMap (replaceChar x spelling) =
      encodeFields (fun c => (escape c).flatMap (replaceChar x spelling)) fs
  | [] => flatMap_of_structural ['\x7d'] hx (by decide)
  | (k, v) :: fs => by
    have hcomma : ',' ≠ x := fun h => hx (h ▸ by decide)
    have hcolon : ':' ≠ x := fun h => hx (h ▸ by decide)
    rw [encodeFields, encodeFields, List.flatMap_cons, replaceChar_of_ne hcomma, List.flatMap_append,
      flatMap_quoted escape hx, List.flatMap_cons, replaceChar_of_ne hcolon, List.flatMap_append, encode_replace v,
      encodeFields_replace fs]
    rfl

end

end

end Replace

/-! ## The characters of a text -/

/-- A character that texts are written with. -/
def IsWritten (escape : Char → List Char) (c : Char) : Prop := IsStructural c ∨ ∃ d, c ∈ escape d

section Characters

variable {escape : Char → List Char}

theorem written_of_structural (text : List Char) (h : text.all (IsStructural ·)) : ∀ c ∈ text, IsWritten escape c :=
  fun c hc => .inl (of_decide_eq_true (List.all_eq_true.1 h c hc))

theorem mem_quoted (s : List Char) : ∀ c ∈ quoted escape s, IsWritten escape c := by
  simp only [quoted, List.mem_cons, List.mem_append, List.not_mem_nil, or_false, List.mem_flatMap]
  rintro c (rfl | ⟨d, -, hc⟩ | rfl)
  · exact .inl (by decide)
  · exact .inr ⟨d, hc⟩
  · exact .inl (by decide)

mutual

/-- Every character of a text is structural or from a string. -/
theorem mem_encode : ∀ v : Json, ∀ c ∈ encode escape v, IsWritten escape c
  | .null => written_of_structural ['n', 'u', 'l', 'l'] (by decide)
  | .bool true => written_of_structural ['t', 'r', 'u', 'e'] (by decide)
  | .bool false => written_of_structural ['f', 'a', 'l', 's', 'e'] (by decide)
  | .num n => written_of_structural _ (structural_toDigits n)
  | .str s => mem_quoted s
  | .arr [] => written_of_structural ['[', ']'] (by decide)
  | .arr (v :: vs) => by
    simp only [encode, List.mem_cons, List.mem_append]
    rintro c (rfl | hc | hc)
    · exact .inl (by decide)
    · exact mem_encode v c hc
    · exact mem_encodeItems vs c hc
  | .obj [] => written_of_structural ['\x7b', '\x7d'] (by decide)
  | .obj ((k, v) :: fs) => by
    simp only [encode, List.mem_cons, List.mem_append]
    rintro c (rfl | hc | rfl | hc | hc)
    · exact .inl (by decide)
    · exact mem_quoted k c hc
    · exact .inl (by decide)
    · exact mem_encode v c hc
    · exact mem_encodeFields fs c hc

theorem mem_encodeItems : ∀ vs : List Json, ∀ c ∈ encodeItems escape vs, IsWritten escape c
  | [] => written_of_structural [']'] (by decide)
  | v :: vs => by
    simp only [encodeItems, List.mem_cons, List.mem_append]
    rintro c (rfl | hc | hc)
    · exact .inl (by decide)
    · exact mem_encode v c hc
    · exact mem_encodeItems vs c hc

theorem mem_encodeFields : ∀ fs : List (List Char × Json), ∀ c ∈ encodeFields escape fs, IsWritten escape c
  | [] => written_of_structural ['\x7d'] (by decide)
  | (k, v) :: fs => by
    simp only [encodeFields, List.mem_cons, List.mem_append]
    rintro c (rfl | hc | rfl | hc | hc)
    · exact .inl (by decide)
    · exact mem_quoted k c hc
    · exact .inl (by decide)
    · exact mem_encode v c hc
    · exact mem_encodeFields fs c hc

end

end Characters

/-- A standard serializer writes no control character. -/
theorem Escaping.printable {d : Char} (h : c ∈ E.escape d) : 0x20 ≤ c.toNat := by
  rcases E.cases d with ⟨hself, hplain⟩ | hescape
  · rw [hself, List.mem_singleton] at h
    exact h ▸ hplain.2.2
  · have : escapeChars.all (0x20 ≤ ·.toNat) := by decide
    exact of_decide_eq_true (List.all_eq_true.1 this c (hescape c h))

theorem printable_of_structural (h : IsStructural c) : 0x20 ≤ c.toNat := by
  rcases h with hdigit | hmem
  · simp only [Char.isDigit, Bool.and_eq_true, decide_eq_true_eq] at hdigit
    have := UInt32.le_iff_toNat_le.1 hdigit.1
    exact le_trans (by decide) this
  · simp only [List.mem_cons, List.not_mem_nil, or_false] at hmem
    rcases hmem with rfl | rfl | rfl | rfl | rfl | rfl | rfl | rfl | rfl | rfl | rfl | rfl | rfl | rfl | rfl | rfl <;>
      decide

/-- The text of a value has no control character, so it is one line. -/
theorem encode_printable (h : c ∈ encode E.escape v) : 0x20 ≤ c.toNat := by
  rcases mem_encode v c h with hstructural | ⟨d, hd⟩
  · exact printable_of_structural hstructural
  · exact E.printable hd

end Json
