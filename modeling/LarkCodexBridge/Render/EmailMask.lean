import Mathlib
import LarkCodexBridge.Render.Projector

/-!
# The rule of the email mask

`emailMask` reads a text once and decides about the candidates of a token when the token ends. `masked` decides about a
character from what follows it in its token; both write the same.

* `emailMask_eq_masked`: the scan writes what the rule says, `masked_eq`: position by position;
* `lastLabel_masked`: a token ends the same after masking;
* `emailMask_rule`: the rule, and that masking twice is masking once.
-/

namespace LarkCodexBridge.Render

open LarkCodexBridge.Runtime (isWhitespace)

/-! ## The rule -/

/-- The characters of the local part of an address. -/
def isLocal (c : Char) : Bool := c.isAlphanum || c = '.' || c = '_' || c = '%' || c = '+' || c = '-'

/-- What follows the last dot. -/
def lastLabel : List Char → Option (List Char)
  | [] => none
  | c :: rest => (lastLabel rest).or (if c = '.' then some rest else none)

def isDomainLabel (label : List Char) : Bool := label.all Char.isAlpha && 2 ≤ label.length && label.length ≤ 24

/-- What follows an `@` in its token, when the `@` is one of an address. -/
def isDomain (right : List Char) : Bool := (lastLabel right).any isDomainLabel && !right.head?.any Char.isDigit

def tokenOf (text : List Char) : List Char := text.takeWhile fun c => !isWhitespace c

/-- A character, with what it is preceded by and what follows it. -/
def maskChar (previousIsLocal : Bool) (c : Char) (rest : List Char) : List Char :=
  if c = '@' ∧ previousIsLocal ∧ isDomain (tokenOf rest) then ['[', 'a', 't', ']'] else [c]

/-- The text, masked character by character. -/
def masked : Bool → List Char → List Char
  | _, [] => []
  | previousIsLocal, c :: rest => maskChar previousIsLocal c rest ++ masked (isLocal c) rest

variable {c : Char} {token front rest text label : List Char} {b : Bool}

/-! ## The last label -/

theorem lastLabel_append (front rest : List Char) :
    lastLabel (front ++ rest) = (lastLabel rest).or ((lastLabel front).map (· ++ rest)) := by
  induction front with
  | nil => exact Option.or_none.symm
  | cons c front ih =>
    rw [List.cons_append, lastLabel, lastLabel, ih]
    cases lastLabel rest <;> cases lastLabel front <;> by_cases hc : c = '.' <;> simp [hc]

theorem lastLabel_eq_none : lastLabel token = none ↔ '.' ∉ token := by
  induction token with
  | nil => simp [lastLabel]
  | cons c token ih =>
    rw [lastLabel, Option.or_eq_none_iff, ih, List.mem_cons, not_or, and_comm]
    by_cases hc : c = '.' <;> simp [hc, eq_comm]

theorem lastLabel_eq_some : lastLabel token = some label ↔ ∃ body, token = body ++ '.' :: label ∧ '.' ∉ label := by
  constructor
  · induction token with
    | nil => simp [lastLabel]
    | cons c token ih =>
      rw [lastLabel]
      intro h
      cases hrest : lastLabel token with
      | some l =>
        rw [hrest, Option.some_or] at h
        obtain ⟨body, hbody, hdot⟩ := ih (hrest.trans h)
        exact ⟨c :: body, by rw [hbody, List.cons_append], hdot⟩
      | none =>
        rw [hrest, Option.none_or] at h
        split at h
        · next hc =>
          obtain rfl := Option.some.inj h
          exact ⟨[], by rw [hc, List.nil_append], lastLabel_eq_none.1 hrest⟩
        · cases h
  · rintro ⟨body, rfl, hdot⟩
    rw [lastLabel_append, lastLabel, lastLabel_eq_none.2 hdot]
    rfl

theorem length_lt_of_lastLabel (h : lastLabel token = some label) : label.length < token.length := by
  obtain ⟨body, rfl, -⟩ := lastLabel_eq_some.1 h
  simp only [List.length_append, List.length_cons]
  omega

/-! ## The scan of a token -/

namespace EmailToken

/-- The token after the characters from position `start` on. -/
def scan (start : ℕ) (read : List Char) : EmailToken :=
  (read.zipIdx start).foldl (fun token p => token.observe p.2 p.1) (.reset start)

/-- The positions of the candidates among the characters from `index` on. -/
def candidatesFrom : ℕ → Bool → List Char → List ℕ
  | _, _, [] => []
  | index, previousIsLocal, c :: rest =>
    (if c = '@' ∧ previousIsLocal then [index] else []) ++ candidatesFrom (index + 1) (isLocal c) rest

theorem scan_concat (start : ℕ) (read : List Char) (c : Char) :
    scan start (read ++ [c]) = (scan start read).observe (start + read.length) c := by
  unfold scan
  rw [List.zipIdx_append, List.foldl_append]
  rfl

theorem candidatesFrom_append (index : ℕ) (front rest : List Char) : candidatesFrom index b (front ++ rest) =
    candidatesFrom index b front ++
      candidatesFrom (index + front.length) ((front.getLast?.map isLocal).getD b) rest := by
  induction front generalizing index b with
  | nil => rfl
  | cons c front ih =>
    rw [List.cons_append, candidatesFrom, candidatesFrom, ih, List.append_assoc, List.length_cons, List.getLast?_cons,
      show index + 1 + front.length = index + (front.length + 1) by omega]
    cases front.getLast? <;> rfl

theorem scan_spec (start : ℕ) (read : List Char) :
    (scan start read).start = start ∧
    (scan start read).previousIsLocal = (read.getLast?.map isLocal).getD false ∧
    (scan start read).candidates = candidatesFrom start false read ∧
    match lastLabel read with
    | none => (scan start read).lastDot = none
    | some label => (scan start read).lastDot = some (start + (read.length - label.length - 1)) ∧
        (scan start read).terminalLabelChars = label.length ∧
        (scan start read).terminalLabelIsAsciiAlpha = label.all Char.isAlpha := by
  induction read using List.reverseRecOn with
  | nil => exact ⟨rfl, rfl, rfl, rfl⟩
  | append_singleton read c ih =>
    obtain ⟨hstart, hlocal, hcandidates, hlabel⟩ := ih
    rw [scan_concat]
    refine ⟨hstart, ?_, ?_, ?_⟩
    · rw [List.getLast?_concat]
      rfl
    · rw [candidatesFrom_append, ← hlocal, ← hcandidates]
      show (if c = '@' ∧ (scan start read).previousIsLocal then _ else _) = _
      rw [candidatesFrom, candidatesFrom, List.append_nil]
      split <;> simp
    · rw [lastLabel_append]
      by_cases hc : c = '.'
      · subst hc
        simp [lastLabel, observe]
      · cases hread : lastLabel read with
        | none =>
          rw [hread] at hlabel
          simpa [lastLabel, hc, observe] using hlabel
        | some label =>
          rw [hread] at hlabel
          obtain ⟨hdot, hchars, halpha⟩ := hlabel
          have hlt := length_lt_of_lastLabel hread
          simp [lastLabel, hc, observe, hdot, hchars, halpha]

/-! ## What is emitted -/

variable {stop cursor start : ℕ} {read : List Char}

theorem drop_of_slice (h : slice text cursor stop = c :: rest) : ∃ more, text.drop cursor = c :: more := by
  unfold slice at h
  cases hdrop : text.drop cursor with
  | nil => simp [hdrop] at h
  | cons c' more =>
    rw [hdrop] at h
    cases hn : stop - cursor with
    | zero => simp [hn] at h
    | succ n =>
      rw [hn, List.take_succ_cons] at h
      obtain ⟨rfl, -⟩ := List.cons.inj h
      exact ⟨more, rfl⟩

theorem slice_add (n : ℕ) : slice text (cursor + n) stop = (slice text cursor stop).drop n := by
  unfold slice
  rw [List.drop_take, List.drop_drop, Nat.sub_sub]

theorem slice_succ (h : slice text cursor stop = c :: rest) : slice text (cursor + 1) stop = rest := by
  rw [slice_add, h, List.drop_one, List.tail_cons]

/-- A character that is no candidate is copied. -/
theorem emitFrom_copy {token : EmailToken} {candidates : List ℕ} (h : slice text cursor stop = c :: rest)
    (hcandidates : ∀ x ∈ candidates, cursor < x) :
    token.emitFrom text stop cursor candidates = c :: token.emitFrom text stop (cursor + 1) candidates := by
  cases candidates with
  | nil => rw [emitFrom, emitFrom, h, slice_succ h]
  | cons candidate others =>
    obtain ⟨more, hmore⟩ := drop_of_slice h
    have hlt := hcandidates candidate List.mem_cons_self
    have hslice : slice text cursor candidate = c :: slice text (cursor + 1) candidate := by
      unfold slice
      rw [← List.drop_drop, hmore, List.drop_one, List.tail_cons,
        show candidate - cursor = candidate - (cursor + 1) + 1 by omega, List.take_succ_cons]
    rw [emitFrom, emitFrom, hslice]
    rfl

theorem lt_of_mem_candidatesFrom {index x : ℕ} (h : x ∈ candidatesFrom index b read) : index ≤ x := by
  induction read generalizing index b with
  | nil => cases h
  | cons c read ih =>
    rcases List.mem_append.1 h with h | h
    · split at h
      · exact (List.mem_singleton.1 h).ge
      · cases h
    · exact (Nat.le_succ index).trans (ih h)

/-- Every candidate is decided as the rule says if the token knows its domain. -/
theorem emitFrom_eq {token : EmailToken} (hword : ∀ c ∈ read, isWhitespace c = false)
    (hslice : slice text cursor stop = read)
    (hmasks : ∀ front rest, read = front ++ '@' :: rest → token.masks text stop (cursor + front.length) = isDomain rest) :
    token.emitFrom text stop cursor (candidatesFrom cursor b read) = masked b read := by
  induction read generalizing cursor b with
  | nil => exact hslice
  | cons c read ih =>
    have hwords : ∀ c ∈ read, isWhitespace c = false := fun c hc => hword c (List.mem_cons_of_mem _ hc)
    have htoken : tokenOf read = read := List.takeWhile_eq_self_iff.2 fun c hc => by simp [hwords c hc]
    have hrest : token.emitFrom text stop (cursor + 1) (candidatesFrom (cursor + 1) (isLocal c) read) =
        masked (isLocal c) read :=
      ih hwords (slice_succ hslice) fun front rest heq => by
        rw [← hmasks (c :: front) rest (by rw [heq, List.cons_append]), List.length_cons]
        congr 1
        omega
    rw [masked, maskChar, htoken, ← hrest, candidatesFrom]
    by_cases hcandidate : c = '@' ∧ b = true
    · obtain ⟨rfl, rfl⟩ := hcandidate
      have hmask := hmasks [] read rfl
      rw [if_pos ⟨rfl, rfl⟩, List.singleton_append, emitFrom, show token.masks text stop cursor = isDomain read from hmask]
      have hnone : slice text cursor cursor = [] := by simp [slice]
      rw [hnone, List.nil_append]
      by_cases hdomain : isDomain read = true <;> simp [hdomain]
    · rw [if_neg hcandidate, List.nil_append, emitFrom_copy hslice fun x hx => lt_of_mem_candidatesFrom hx,
        if_neg fun h => hcandidate ⟨h.1, h.2.1⟩, List.singleton_append]

/-- The scanned token decides as the rule says. -/
theorem scan_masks (hslice : slice text start stop = read) {front rest : List Char} (hread : read = front ++ '@' :: rest) :
    (scan start read).masks text stop (start + front.length) = isDomain rest := by
  obtain ⟨-, -, -, hlabel⟩ := scan_spec start read
  have hright : slice text (start + front.length + 1) stop = rest := by
    rw [Nat.add_assoc, slice_add, hslice, hread, ← List.drop_drop, List.drop_left, List.drop_one, List.tail_cons]
  have hlast : lastLabel read = (lastLabel rest).or ((lastLabel front).map (· ++ '@' :: rest)) := by
    rw [hread, lastLabel_append, lastLabel, if_neg (by decide), Option.or_none]
  have hlength : read.length = front.length + 1 + rest.length := by
    rw [hread, List.length_append, List.length_cons]
    omega
  unfold masks isDomain
  rw [hright]
  cases hrest : lastLabel rest with
  | some label =>
    -- the last dot of the token lies after the candidate
    rw [hrest, Option.some_or] at hlast
    rw [hlast] at hlabel
    obtain ⟨hdot, hchars, halpha⟩ := hlabel
    have hlt := length_lt_of_lastLabel hrest
    have hafter : start + front.length < start + (read.length - label.length - 1) := by omega
    rw [hdot, hchars, halpha]
    simp [hafter, isDomainLabel]
  | none =>
    have hbefore : (scan start read).lastDot.any (start + front.length < ·) = false := by
      rw [hrest, Option.none_or] at hlast
      cases hfront : lastLabel front with
      | none =>
        rw [hlast, hfront] at hlabel
        rw [show (scan start read).lastDot = none from hlabel]
        rfl
      | some label =>
        rw [hlast, hfront] at hlabel
        have hlt := length_lt_of_lastLabel hfront
        rw [show (scan start read).lastDot = _ from hlabel.1, Option.any_some, List.length_append, List.length_cons]
        refine decide_eq_false ?_
        omega
    rw [hbefore]
    simp

theorem emit_scan (hword : ∀ c ∈ read, isWhitespace c = false) (hslice : slice text start stop = read) (output : List Char) :
    (scan start read).emit text stop output = output ++ masked false read := by
  obtain ⟨hstart, -, hcandidates, -⟩ := scan_spec start read
  rw [emit, hstart, hcandidates, emitFrom_eq hword hslice fun front rest heq => scan_masks hslice heq]

end EmailToken

/-! ## The scan of a text -/

theorem toNat_le_of_isAlphanum (h : c.isAlphanum = true) : 48 ≤ c.toNat ∧ c.toNat ≤ 122 := by
  simp only [Char.isAlphanum, Char.isAlpha, Char.isUpper, Char.isLower, Char.isDigit, Bool.or_eq_true, Bool.and_eq_true,
    decide_eq_true_eq, UInt32.le_iff_toNat_le, ge_iff_le] at h
  change (((65 ≤ c.toNat ∧ c.toNat ≤ 90) ∨ (97 ≤ c.toNat ∧ c.toNat ≤ 122)) ∨ (48 ≤ c.toNat ∧ c.toNat ≤ 57)) at h
  omega

theorem isLocal_of_whitespace (h : isWhitespace c = true) : isLocal c = false := by
  by_contra hlocal
  simp only [isLocal, Bool.or_eq_true, decide_eq_true_eq, Bool.not_eq_false] at hlocal
  rcases hlocal with ((((hc | rfl) | rfl) | rfl) | rfl) | rfl
  · have hrange := toNat_le_of_isAlphanum hc
    simp only [isWhitespace, Bool.or_eq_true, Bool.and_eq_true, decide_eq_true_eq, beq_iff_eq] at h
    omega
  all_goals exact absurd h (by decide)

theorem tokenOf_append_whitespace (hc : isWhitespace c = true) : tokenOf (text ++ c :: rest) = tokenOf text := by
  unfold tokenOf
  induction text with
  | nil => exact List.takeWhile_cons_of_neg (by simp [hc])
  | cons d text ih => rw [List.cons_append, List.takeWhile_cons, List.takeWhile_cons, ih]

theorem maskChar_of_whitespace (hc : isWhitespace c = true) : maskChar b c rest = [c] := by
  refine if_neg fun h => ?_
  rw [h.1] at hc
  exact absurd hc (by decide)

theorem masked_append_whitespace (hc : isWhitespace c = true) :
    masked b (text ++ c :: rest) = masked b text ++ c :: masked false rest := by
  induction text generalizing b with
  | nil =>
    show maskChar b c rest ++ masked (isLocal c) rest = c :: masked false rest
    rw [maskChar_of_whitespace hc, isLocal_of_whitespace hc]
    rfl
  | cons d text ih =>
    rw [List.cons_append, masked, masked, ih, maskChar, maskChar, tokenOf_append_whitespace hc, List.append_assoc]

open EmailToken in
/-- **The scan writes what the rule says,** from any position of a token. -/
theorem emailMaskFrom_eq {front token rest output : List Char} (hword : ∀ c ∈ token, isWhitespace c = false) :
    emailMaskFrom (front ++ token ++ rest) (front.length + token.length) rest (scan front.length token) output =
      output ++ masked false (token ++ rest) := by
  have hslice : ∀ front token rest : List Char,
      slice (front ++ token ++ rest) front.length (front.length + token.length) = token := fun front token rest => by
    rw [slice, List.append_assoc, List.drop_left, Nat.add_sub_cancel_left, List.take_left]
  induction rest generalizing front token output with
  | nil =>
    have hstop : (front ++ token ++ []).length = front.length + token.length := by simp
    rw [emailMaskFrom, hstop, emit_scan hword (hslice _ _ _), List.append_nil]
  | cons c rest ih =>
    rw [emailMaskFrom]
    split
    · next hc =>
      rw [emit_scan hword (hslice _ _ _), masked_append_whitespace hc]
      have hnext := @ih (front ++ token ++ [c]) [] (output ++ masked false token ++ [c]) (by simp)
      simp only [List.length_append, List.length_singleton, List.append_nil, List.length_nil, Nat.add_zero,
        List.append_assoc, List.singleton_append, List.nil_append] at hnext ⊢
      exact hnext
    · next hc =>
      have hword' : ∀ x ∈ token ++ [c], isWhitespace x = false := by
        intro x hx
        rcases List.mem_append.1 hx with hx | hx
        · exact hword x hx
        · rw [List.mem_singleton.1 hx]
          simpa using hc
      have hnext := @ih front (token ++ [c]) output hword'
      rw [scan_concat] at hnext
      simpa [Nat.add_assoc] using hnext

/-- **The scan writes what the rule says.** -/
theorem emailMask_eq_masked (text : List Char) : emailMask text = masked false text :=
  @emailMaskFrom_eq [] [] text [] nofun

/-! ## Position by position -/

/-- The characters of its token before and after a position. -/
def leftOf (text : List Char) (i : ℕ) : List Char := (text.take i).rtakeWhile fun c => !isWhitespace c

def rightOf (text : List Char) (i : ℕ) : List Char := tokenOf (text.drop (i + 1))

/-- The `@` at the position is masked: after a character of a local part, before no digit, and its token ends with a dot
after it and 2 to 24 letters. -/
def Masks (text : List Char) (i : ℕ) : Prop :=
  text[i]? = some '@' ∧ (∃ c, (leftOf text i).getLast? = some c ∧ isLocal c = true) ∧
    (∀ c, (rightOf text i).head? = some c → c.isDigit = false) ∧
    ∃ body label, rightOf text i = body ++ '.' :: label ∧ (∀ c ∈ label, c.isAlpha = true) ∧ 2 ≤ label.length ∧
      label.length ≤ 24

theorem isDomain_iff : isDomain token = true ↔ (∀ c, token.head? = some c → c.isDigit = false) ∧
    ∃ body label, token = body ++ '.' :: label ∧ (∀ c ∈ label, c.isAlpha = true) ∧ 2 ≤ label.length ∧ label.length ≤ 24 := by
  have hlabel : (lastLabel token).any isDomainLabel = true ↔ ∃ body label, token = body ++ '.' :: label ∧
      (∀ c ∈ label, c.isAlpha = true) ∧ 2 ≤ label.length ∧ label.length ≤ 24 := by
    rw [Option.any_eq_true]
    constructor
    · rintro ⟨label, hlast, hdomain⟩
      obtain ⟨body, hbody, -⟩ := lastLabel_eq_some.1 hlast
      simp only [isDomainLabel, Bool.and_eq_true, List.all_eq_true, decide_eq_true_eq] at hdomain
      exact ⟨body, label, hbody, hdomain.1.1, hdomain.1.2, hdomain.2⟩
    · rintro ⟨body, label, hbody, halpha, hlo, hhi⟩
      have hdot : '.' ∉ label := fun hmem => absurd (halpha _ hmem) (by decide)
      refine ⟨label, lastLabel_eq_some.2 ⟨body, hbody, hdot⟩, ?_⟩
      simp [isDomainLabel, hlo, hhi, List.all_eq_true.2 halpha]
  rw [isDomain, Bool.and_eq_true, hlabel, and_comm]
  cases token.head? <;> simp

instance (text : List Char) (i : ℕ) : Decidable (Masks text i) :=
  decidable_of_iff (text[i]? = some '@' ∧ (leftOf text i).getLast?.any isLocal = true ∧ isDomain (rightOf text i) = true) <| by
    rw [isDomain_iff, Option.any_eq_true]
    rfl

/-- The previous character is one of the same token if it is one of a local part. -/
theorem leftOf_local (front rest : List Char) :
    (∃ c, (leftOf (front ++ rest) front.length).getLast? = some c ∧ isLocal c = true) ↔
      (front.getLast?.map isLocal).getD false = true := by
  unfold leftOf
  rw [List.take_left]
  cases front using List.reverseRecOn with
  | nil => simp
  | append_singleton front c =>
    rw [List.rtakeWhile_concat, List.getLast?_concat]
    by_cases hc : isWhitespace c = true
    · simp [hc, isLocal_of_whitespace hc]
    · simp [hc]

theorem masks_iff (front : List Char) (c : Char) (rest : List Char) : Masks (front ++ c :: rest) front.length ↔
    c = '@' ∧ (front.getLast?.map isLocal).getD false = true ∧ isDomain (tokenOf rest) = true := by
  have hright : rightOf (front ++ c :: rest) front.length = tokenOf rest := by
    rw [rightOf, ← List.drop_drop, List.drop_left, List.drop_one, List.tail_cons]
  unfold Masks
  rw [leftOf_local, hright, isDomain_iff]
  simp

theorem masked_eq (front rest : List Char) : masked ((front.getLast?.map isLocal).getD false) rest =
    (rest.zipIdx front.length).flatMap fun p => if Masks (front ++ rest) p.2 then ['[', 'a', 't', ']'] else [p.1] := by
  induction rest generalizing front with
  | nil => rfl
  | cons c rest ih =>
    have hnext := ih (front ++ [c])
    rw [List.getLast?_concat, List.append_assoc, List.singleton_append, List.length_append, List.length_singleton] at hnext
    rw [masked, List.zipIdx_cons, List.flatMap_cons, maskChar]
    simp only [masks_iff]
    congr 1

/-! ## Masking twice -/

theorem maskChar_cases (b : Bool) (c : Char) (rest : List Char) : maskChar b c rest = [c] ∨
    (c = '@' ∧ b = true ∧ isDomain (tokenOf rest) = true) ∧ maskChar b c rest = ['[', 'a', 't', ']'] := by
  unfold maskChar
  split
  · next h => exact .inr ⟨h, rfl⟩
  · exact .inl rfl

theorem maskChar_of_not_domain (h : isDomain (tokenOf rest) = false) : maskChar b c rest = [c] :=
  if_neg fun hmask => by rw [h] at hmask; exact Bool.false_ne_true hmask.2.2

theorem isDomain_of_no_dot (h : '.' ∉ text) : isDomain (tokenOf text) = false := by
  have htoken : '.' ∉ tokenOf text := fun hmem => h ((List.takeWhile_prefix _).subset hmem)
  rw [isDomain, lastLabel_eq_none.2 htoken]
  rfl

theorem masked_of_no_dot (h : '.' ∉ text) : masked b text = text := by
  induction text generalizing b with
  | nil => rfl
  | cons c text ih =>
    have hrest : '.' ∉ text := fun hmem => h (List.mem_cons_of_mem _ hmem)
    rw [masked, maskChar_of_not_domain (isDomain_of_no_dot hrest), ih hrest, List.singleton_append]

theorem lastLabel_masked : lastLabel (masked b text) = lastLabel text := by
  induction text generalizing b with
  | nil => rfl
  | cons c text ih =>
    cases hrest : lastLabel text with
    | some label => rw [masked, lastLabel_append, ih, lastLabel, hrest, Option.some_or, Option.some_or]
    | none =>
      have hdot := lastLabel_eq_none.1 hrest
      rw [masked, masked_of_no_dot hdot, maskChar_of_not_domain (isDomain_of_no_dot hdot), List.singleton_append]

theorem head_masked : (masked b text).head?.any Char.isDigit = text.head?.any Char.isDigit := by
  cases text with
  | nil => rfl
  | cons c text =>
    rcases maskChar_cases b c text with hcopy | ⟨⟨rfl, -⟩, hmask⟩
    · rw [masked, hcopy]
      rfl
    · rw [masked, hmask]
      rfl

theorem tokenOf_tokenOf : tokenOf (tokenOf text) = tokenOf text :=
  List.takeWhile_eq_self_iff.2 fun _ hc => List.mem_takeWhile_imp (p := fun c => !isWhitespace c) hc

theorem tokenOf_masked : tokenOf (masked b text) = masked b (tokenOf text) := by
  induction text generalizing b with
  | nil => rfl
  | cons c text ih =>
    have hsame : maskChar b c (tokenOf text) = maskChar b c text := by unfold maskChar; rw [tokenOf_tokenOf]
    by_cases hc : isWhitespace c = true
    · rw [masked, maskChar_of_whitespace hc]
      simp [tokenOf, hc, masked]
    · have hkept : ∀ d ∈ maskChar b c text, (!isWhitespace d) = true := by
        rcases maskChar_cases b c text with hcopy | ⟨-, hmask⟩
        · rw [hcopy]
          simpa using hc
        · rw [hmask]
          simp only [List.forall_mem_cons, List.not_mem_nil, false_implies, implies_true, and_true]
          exact ⟨rfl, rfl, rfl, rfl⟩
      have htoken : tokenOf (c :: text) = c :: tokenOf text := List.takeWhile_cons_of_pos (by simpa using hc)
      rw [masked, htoken, masked, hsame, ← ih]
      exact List.takeWhile_append_of_pos hkept

theorem isDomain_masked : isDomain (tokenOf (masked b text)) = isDomain (tokenOf text) := by
  rw [tokenOf_masked, isDomain, isDomain, lastLabel_masked, head_masked]

theorem masked_masked : masked b (masked b text) = masked b text := by
  induction text generalizing b with
  | nil => rfl
  | cons c text ih =>
    rcases maskChar_cases b c text with hcopy | ⟨⟨rfl, -⟩, hmask⟩
    · have hagain : maskChar b c (masked (isLocal c) text) = [c] := by
        rw [← hcopy, maskChar, maskChar, isDomain_masked]
      rw [masked, hcopy, List.singleton_append, masked, hagain, ih, List.singleton_append]
    · -- the characters of the mark are copied, and no `@` follows a character of a local part
      rw [masked, hmask]
      show masked b ('[' :: 'a' :: 't' :: ']' :: masked (isLocal '@') text) = _
      have hcopy : ∀ (b : Bool) (c : Char) (rest : List Char), c ≠ '@' → masked b (c :: rest) = c :: masked (isLocal c) rest :=
        fun b c rest hne => by rw [masked, maskChar, if_neg fun h => hne h.1, List.singleton_append]
      rw [hcopy _ _ _ (by decide), hcopy _ _ _ (by decide), hcopy _ _ _ (by decide), hcopy _ _ _ (by decide),
        show isLocal ']' = isLocal '@' by decide, ih]
      rfl

/-- **The mask follows its rule, and masking twice is masking once.** -/
theorem emailMask_rule (text : List Char) :
    emailMask text = (text.zipIdx.flatMap fun p => if Masks text p.2 then ['[', 'a', 't', ']'] else [p.1]) ∧
      emailMask (emailMask text) = emailMask text := by
  refine ⟨?_, ?_⟩
  · rw [emailMask_eq_masked]
    exact masked_eq [] text
  · rw [emailMask_eq_masked, emailMask_eq_masked, masked_masked]

end LarkCodexBridge.Render
