import Mathlib

/-!
# Lines of the sidecar wire

`boundedLines` cuts the chunks of a stream into lines, `encodeFrame` writes one. The bound is the same for all lines.

* `readFrame`: the line of a frame that arrives in several chunks; `Torn`: the frames that read otherwise in one chunk;
* `boundedLines_eq_scan`: where no frame is torn, the lines are those of the stream;
* `lines_chunk_free`: and only there; a written line comes back, with a carriage return as long as there is room for it.
-/

namespace LarkCodexBridge.Sidecar

def maxFrameChunks : ℕ := 4096

inductive FrameError where
  | frameTooLarge | frameFragmented | emptyFrame | unterminatedFrame
  deriving DecidableEq

/-- The pieces of a frame whose end has not come, and their length. -/
structure Pending where
  pieces : List (List UInt8)
  length : ℕ

def Pending.none : Pending := ⟨[], 0⟩

/-- Without the carriage return at the end. -/
def stripCr (line : List UInt8) : List UInt8 := if line.getLast? = some 0x0d then line.dropLast else line

/-- The newline of a frame, behind its last piece. -/
def finishFrame (maximum : ℕ) (pending : Pending) (piece : List UInt8) : Except FrameError (List UInt8) :=
  let piece := if pending.length = 0 ∧ pending.pieces = [] then stripCr piece else piece
  if maximum < pending.length + piece.length then .error .frameTooLarge
  else if maxFrameChunks < (pending.pieces ++ [piece]).length then .error .frameFragmented
  else
    let line := stripCr (pending.pieces ++ [piece]).flatten
    if line = [] then .error .emptyFrame else .ok line

/-- What a chunk leaves behind its last newline. -/
def keepPiece (maximum : ℕ) (pending : Pending) (remainder : List UInt8) : Except FrameError Pending :=
  if remainder = [] then .ok pending
  else if maximum < pending.length + remainder.length then .error .frameTooLarge
  else if maxFrameChunks < (pending.pieces ++ [remainder]).length then .error .frameFragmented
  else .ok ⟨pending.pieces ++ [remainder], pending.length + remainder.length⟩

/-- The bytes of a chunk, `piece` those behind its last newline so far: the lines, and what is left. -/
def feed (maximum : ℕ) (piece : List UInt8) : List UInt8 → Pending → List (List UInt8) × Except FrameError Pending
  | [], pending => ([], keepPiece maximum pending piece)
  | byte :: rest, pending =>
    if byte = 0x0a then
      match finishFrame maximum pending piece with
      | .error e => ([], .error e)
      | .ok line => (line :: (feed maximum [] rest .none).1, (feed maximum [] rest .none).2)
    else feed maximum (piece ++ [byte]) rest pending

/-- The lines of a chunk, and those that come behind it if no error ends them. -/
def followedBy (next : Pending → List (List UInt8) × Option FrameError) :
    List (List UInt8) × Except FrameError Pending → List (List UInt8) × Option FrameError
  | (lines, .error e) => (lines, some e)
  | (lines, .ok pending) => (lines ++ (next pending).1, (next pending).2)

theorem followedBy_cons (next : Pending → List (List UInt8) × Option FrameError) (line : List UInt8)
    (r : List (List UInt8) × Except FrameError Pending) :
    followedBy next (line :: r.1, r.2) = (line :: (followedBy next r).1, (followedBy next r).2) := by
  obtain ⟨lines, e | pending⟩ := r <;> rfl

theorem followedBy_newline (next : Pending → List (List UInt8) × Option FrameError) (maximum : ℕ)
    (piece rest : List UInt8) (pending : Pending) :
    followedBy next (feed maximum piece (0x0a :: rest) pending) =
      match finishFrame maximum pending piece with
      | .error e => ([], some e)
      | .ok line => (line :: (followedBy next (feed maximum [] rest .none)).1,
          (followedBy next (feed maximum [] rest .none)).2) := by
  rw [feed, if_pos rfl]
  cases finishFrame maximum pending piece with
  | error e => rfl
  | ok line => exact followedBy_cons next line _

def boundedLinesFrom (maximum : ℕ) : List (List UInt8) → Pending → List (List UInt8) × Option FrameError
  | [], pending => ([], if 0 < pending.length then some .unterminatedFrame else none)
  | chunk :: chunks, pending => followedBy (boundedLinesFrom maximum chunks) (feed maximum [] chunk pending)

/-- The lines of the chunks, and the error that ends them, if one does. -/
def boundedLines (maximum : ℕ) (chunks : List (List UInt8)) : List (List UInt8) × Option FrameError :=
  boundedLinesFrom maximum chunks .none

/-- `encodeFrame`; `stringify` is `JSON.stringify` with the bytes of its text, and fails where that throws. -/
def encodeFrame {V : Type} (stringify : V → Option (List UInt8)) (maximum : ℕ) (value : V) : Option (List UInt8) :=
  match stringify value with
  | none => none
  | some text => if maximum < (text ++ [0x0a]).length - 1 then none else some (text ++ [0x0a])

/-! ## The lines of a stream -/

/-- The line of a frame that lies in several chunks. -/
def readFrame (maximum : ℕ) (frame : List UInt8) : Except FrameError (List UInt8) :=
  if maximum < frame.length then .error .frameTooLarge
  else if stripCr frame = [] then .error .emptyFrame
  else .ok (stripCr frame)

/-- The lines of a stream behind the bytes `frame` of a line. -/
def scan (maximum : ℕ) : List UInt8 → List UInt8 → List (List UInt8) × Option FrameError
  | frame, [] =>
    ([], if frame = [] then none else some (if maximum < frame.length then .frameTooLarge else .unterminatedFrame))
  | frame, byte :: rest =>
    if byte = 0x0a then
      match readFrame maximum frame with
      | .error e => ([], some e)
      | .ok line => (line :: (scan maximum [] rest).1, (scan maximum [] rest).2)
    else scan maximum (frame ++ [byte]) rest

/-- A frame that reads otherwise when it lies in one chunk: a carriage return does not count there, and two of them go. -/
def torn (maximum : ℕ) (frame : List UInt8) : Bool :=
  frame.getLast? = some 0x0d ∧ frame.length ≤ maximum + 1 ∧
    (frame.length = maximum + 1 ∨ frame.dropLast.getLast? = some 0x0d)

/-- No frame up to the first one that is refused is torn; the first one may be when it is known to be `split`. -/
def calm (maximum : ℕ) : Bool → List UInt8 → List UInt8 → Bool
  | _, _, [] => true
  | split, frame, byte :: rest =>
    if byte = 0x0a then
      (split || !torn maximum frame) &&
        match readFrame maximum frame with
        | .error _ => true
        | .ok _ => calm maximum false [] rest
    else calm maximum split (frame ++ [byte]) rest

/-- No frame, with its newline, is spread over more than `maxFrameChunks` chunks; `n` chunks have bytes of the first. -/
def fits : ℕ → List (List UInt8) → Prop
  | n, [] => n ≤ maxFrameChunks
  | n, chunk :: chunks =>
    if 0x0a ∈ chunk then n < maxFrameChunks ∧ fits (if chunk.getLast? = some 0x0a then 0 else 1) chunks
    else fits (if chunk = [] then n else n + 1) chunks

variable {chunks : List (List UInt8)} {piece : List UInt8}

theorem fits_le {n : ℕ} (h : fits n chunks) : n ≤ maxFrameChunks := by
  induction chunks generalizing n with
  | nil => exact h
  | cons chunk chunks ih =>
    unfold fits at h
    split at h
    · exact Nat.le_of_lt h.1
    · have hle := ih h
      split at hle
      · exact hle
      · omega

/-- Few chunks are no concern. -/
theorem fits_of_length {n : ℕ} (h : n + chunks.length ≤ maxFrameChunks) : fits n chunks := by
  induction chunks generalizing n with
  | nil => exact h
  | cons chunk chunks ih =>
    rw [List.length_cons] at h
    unfold fits
    split
    · refine ⟨by omega, ih ?_⟩
      split <;> omega
    · apply ih
      split <;> omega

/-- Behind a newline the next frame begins. -/
theorem fits_behind {n : ℕ} {rest : List UInt8} (h : fits n ((piece ++ 0x0a :: rest) :: chunks)) :
    n < maxFrameChunks ∧ fits 0 (rest :: chunks) := by
  unfold fits at h
  rw [if_pos (by simp)] at h
  obtain ⟨hn, h⟩ := h
  refine ⟨hn, ?_⟩
  unfold fits
  cases hlast : rest.getLast? with
  | none =>
    obtain rfl : rest = [] := by simpa using hlast
    simpa using h
  | some last =>
    have hne : rest ≠ [] := by
      rintro rfl
      cases hlast
    rw [List.getLast?_append, List.getLast?_cons, hlast] at h
    simp only [Option.getD_some, Option.some_or, Option.some.injEq] at h
    split
    · exact ⟨by decide, by simpa using h⟩
    · next hmem =>
      have hlast' : last ≠ 0x0a := fun heq => hmem (heq ▸ List.mem_of_getLast? hlast)
      simpa [hlast', hne] using h

variable {frame bytes : List UInt8}

theorem calm_split {maximum : ℕ} (h : calm maximum false frame bytes = true) :
    calm maximum true frame bytes = true := by
  induction bytes generalizing frame with
  | nil => rfl
  | cons byte rest ih =>
    unfold calm at h ⊢
    split
    · next hb =>
      rw [if_pos hb] at h
      simpa using (Bool.and_eq_true _ _ ▸ h).2
    · next hb =>
      rw [if_neg hb] at h
      exact ih h

/-- A line that has grown too long stays refused. -/
theorem scan_long {maximum : ℕ} (h : maximum < frame.length) (bytes : List UInt8) :
    scan maximum frame bytes = ([], some .frameTooLarge) := by
  induction bytes generalizing frame with
  | nil =>
    have hne : frame ≠ [] := by
      rintro rfl
      cases h
    simp [scan, hne, h]
  | cons byte rest ih =>
    unfold scan
    split
    · rw [readFrame, if_pos h]
    · apply ih
      rw [List.length_append]
      omega

/-! ## The reader -/

/-- The pieces are those of `n` chunks. -/
structure Pending.Holds (pending : Pending) (n : ℕ) : Prop where
  length : pending.length = pending.pieces.flatten.length
  nonempty : ∀ piece ∈ pending.pieces, piece ≠ []
  count : pending.pieces.length = n

theorem Pending.holds_none : Pending.none.Holds 0 := ⟨rfl, by simp [Pending.none], rfl⟩

variable {maximum n : ℕ} {pending : Pending}

/-- Unless the frame is torn, its line does not depend on the chunks. -/
theorem finishFrame_eq (h : pending.Holds n) (hn : n < maxFrameChunks)
    (hcalm : pending.pieces = [] → torn maximum piece = false) :
    finishFrame maximum pending piece = readFrame maximum (pending.pieces.flatten ++ piece) := by
  obtain ⟨pieces, length⟩ := pending
  obtain ⟨hlength, -, hcount⟩ := h
  dsimp only at hlength hcount hcalm ⊢
  subst hlength
  have hcount : ∀ last : List UInt8, ¬ maxFrameChunks < (pieces ++ [last]).length := by
    intro last
    rw [List.length_append, List.length_singleton]
    omega
  have hflat : ∀ last : List UInt8, (pieces ++ [last]).flatten = pieces.flatten ++ last := by simp
  simp only [finishFrame, hcount, if_false, hflat, readFrame, ← List.length_append]
  by_cases hp : pieces = []
  · subst hp
    have hcalm := hcalm rfl
    simp only [List.flatten_nil, List.length_nil, and_self, if_true, List.nil_append]
    by_cases hcr : piece.getLast? = some 0x0d
    · have hstrip : stripCr piece = piece.dropLast := if_pos hcr
      have hne : piece ≠ [] := by
        rintro rfl
        cases hcr
      have hpos := List.length_pos_iff.2 hne
      have hlength : (stripCr piece).length = piece.length - 1 := by rw [hstrip, List.length_dropLast]
      simp only [torn, hcr, true_and, decide_eq_false_iff_not, not_and, not_or] at hcalm
      by_cases hlong : maximum < piece.length
      · have hlong' : maximum < (stripCr piece).length := by
          by_contra hle
          exact (hcalm (by omega)).1 (by omega)
        rw [if_pos hlong, if_pos hlong']
      · have htwice : stripCr (stripCr piece) = stripCr piece := by
          rw [hstrip]
          exact if_neg (hcalm (by omega)).2
        rw [if_neg hlong, if_neg (by omega), htwice]
    · rw [show stripCr piece = piece from if_neg hcr, show stripCr piece = piece from if_neg hcr]
  · simp only [hp, and_false, if_false]

/-- **Where no frame is torn, the lines are those of the stream.** -/
theorem boundedLinesFrom_eq_scan (h : pending.Holds n) (hfits : fits n chunks) (hlong : pending.length ≤ maximum)
    (hcalm : calm maximum (pending.pieces ≠ []) pending.pieces.flatten chunks.flatten = true) :
    boundedLinesFrom maximum chunks pending = scan maximum pending.pieces.flatten chunks.flatten := by
  induction chunks generalizing pending n with
  | nil =>
    rw [h.length] at hlong
    have hempty : (0 < pending.length) ↔ pending.pieces.flatten ≠ [] := by rw [h.length, List.length_pos_iff]
    simp only [boundedLinesFrom, List.flatten_nil, scan, hempty, Nat.not_lt.2 hlong, if_false, ite_not]
  | cons chunk chunks ih =>
    rw [List.flatten_cons] at hcalm ⊢
    rw [boundedLinesFrom]
    -- the bytes of the chunk, with those behind its last newline
    suffices hbytes : ∀ (bytes piece : List UInt8) {pending : Pending} {n : ℕ}, pending.Holds n → 0x0a ∉ piece →
        pending.length ≤ maximum → fits n ((piece ++ bytes) :: chunks) →
        calm maximum (pending.pieces ≠ []) (pending.pieces.flatten ++ piece) (bytes ++ chunks.flatten) = true →
        followedBy (boundedLinesFrom maximum chunks) (feed maximum piece bytes pending) =
          scan maximum (pending.pieces.flatten ++ piece) (bytes ++ chunks.flatten) by
      simpa using hbytes chunk [] h (by simp) hlong (by simpa using hfits) (by simpa using hcalm)
    clear hcalm hfits hlong h
    intro bytes
    induction bytes with
    | nil =>
      intro piece pending n h hpiece hlong hfits hcalm
      rw [List.append_nil] at hfits
      rw [List.nil_append] at hcalm ⊢
      unfold fits at hfits
      rw [if_neg hpiece] at hfits
      rw [feed, keepPiece]
      by_cases hempty : piece = []
      · subst hempty
        simp only [if_true, List.append_nil] at hfits hcalm ⊢
        simpa [followedBy] using ih h hfits hlong hcalm
      · simp only [hempty, if_false] at hfits ⊢
        have hcount : ¬ maxFrameChunks < (pending.pieces ++ [piece]).length := by
          have hle := fits_le hfits
          rw [List.length_append, List.length_singleton, h.count]
          omega
        have hflat : (pending.pieces ++ [piece]).flatten = pending.pieces.flatten ++ piece := by simp
        by_cases htoo : maximum < pending.length + piece.length
        · rw [if_pos htoo, scan_long (by rw [List.length_append, ← h.length]; exact htoo)]
          rfl
        · rw [if_neg htoo, if_neg hcount]
          have hholds : Pending.Holds ⟨pending.pieces ++ [piece], pending.length + piece.length⟩ (n + 1) := by
            refine ⟨?_, ?_, by simp [h.count]⟩
            · simp [h.length]
            · intro other hother
              rcases List.mem_append.1 hother with hother | hother
              · exact h.nonempty other hother
              · rwa [List.mem_singleton.1 hother]
          have hcalm' : calm maximum true (pending.pieces.flatten ++ piece) chunks.flatten = true := by
            by_cases hp : pending.pieces = []
            · exact calm_split (by simpa [hp] using hcalm)
            · simpa [hp] using hcalm
          have hrest := ih hholds hfits (Nat.not_lt.1 htoo) (by simpa [hflat] using hcalm')
          rw [hflat] at hrest
          simpa [followedBy] using hrest
    | cons byte bytes ihb =>
      intro piece pending n h hpiece hlong hfits hcalm
      rw [List.cons_append] at hcalm ⊢
      unfold calm at hcalm
      conv_rhs => rw [scan]
      by_cases hb : byte = 0x0a
      · subst hb
        rw [if_pos rfl, Bool.and_eq_true] at hcalm
        obtain ⟨hframe, hcalm⟩ := hcalm
        obtain ⟨hn, hfits⟩ := fits_behind hfits
        rw [followedBy_newline, if_pos rfl, finishFrame_eq h hn fun hp => by simpa [hp] using hframe]
        cases hread : readFrame maximum (pending.pieces.flatten ++ piece) with
        | error e => rfl
        | ok line =>
          rw [hread] at hcalm
          have hrest := ihb [] Pending.holds_none (by simp) (Nat.zero_le _) (by simpa using hfits)
            (by simpa [Pending.none] using hcalm)
          rw [show Pending.none.pieces.flatten ++ ([] : List UInt8) = [] from rfl] at hrest
          rw [← hrest]
      · rw [if_neg hb] at hcalm
        rw [feed, if_neg hb, if_neg hb, List.append_assoc]
        exact ihb (piece ++ [byte]) h (by simpa [hpiece] using Ne.symm hb) hlong (by simpa using hfits)
          (by simpa using hcalm)

theorem boundedLines_eq_scan (hfits : fits 0 chunks) (hcalm : calm maximum false [] chunks.flatten = true) :
    boundedLines maximum chunks = scan maximum [] chunks.flatten :=
  boundedLinesFrom_eq_scan Pending.holds_none hfits (Nat.zero_le _) hcalm

/-- In one chunk the carriage return is gone before the line is measured, and another one goes with it. -/
theorem finishFrame_torn (h : torn maximum frame = true) : finishFrame maximum .none frame =
    if stripCr frame.dropLast = [] then .error .emptyFrame else .ok (stripCr frame.dropLast) := by
  simp only [torn, decide_eq_true_eq] at h
  obtain ⟨hcr, hshort, -⟩ := h
  have hstrip : stripCr frame = frame.dropLast := if_pos hcr
  have hfit : ¬ maximum < Pending.none.length + frame.dropLast.length := by
    rw [List.length_dropLast]
    simp only [Pending.none]
    omega
  have hone : ¬ maxFrameChunks < (Pending.none.pieces ++ [frame.dropLast]).length := by
    simp [Pending.none, maxFrameChunks]
  simp only [finishFrame, Pending.none, and_self, if_true, hstrip] at hfit hone ⊢
  rw [if_neg hfit, if_neg hone, List.nil_append, List.flatten_singleton]

theorem keepPiece_none (hne : piece ≠ []) : keepPiece maximum .none piece =
    if maximum < piece.length then .error .frameTooLarge else .ok ⟨[piece], piece.length⟩ := by
  simp [keepPiece, hne, Pending.none, maxFrameChunks]

theorem torn_apart (h : torn maximum frame = true) (rest : List UInt8) :
    followedBy (boundedLinesFrom maximum []) (feed maximum frame (0x0a :: rest) .none) ≠
      followedBy (boundedLinesFrom maximum [0x0a :: rest]) (feed maximum frame [] .none) := by
  have hwhole := finishFrame_torn h
  simp only [torn, decide_eq_true_eq] at h
  obtain ⟨hcr, -, hcase⟩ := h
  have hne : frame ≠ [] := by
    rintro rfl
    cases hcr
  rw [followedBy_newline, hwhole, feed]
  by_cases hlong : maximum < frame.length
  · -- the second reader refuses the line for its length
    rw [keepPiece_none hne, if_pos hlong]
    by_cases hnil : stripCr frame.dropLast = [] <;> simp [hnil, followedBy]
  · have htwo : frame.dropLast.getLast? = some 0x0d := hcase.resolve_left (by omega)
    have hkept : frame.dropLast ≠ [] := by
      intro hnil
      rw [hnil] at htwo
      cases htwo
    have hread : finishFrame maximum ⟨[frame], frame.length⟩ [] = .ok frame.dropLast := by
      have hholds : Pending.Holds ⟨[frame], frame.length⟩ 1 := ⟨by simp, by simpa using hne, rfl⟩
      rw [finishFrame_eq hholds (by decide) (by simp), readFrame]
      simp [hlong, stripCr, hcr, hkept]
    have hshorter : stripCr frame.dropLast ≠ frame.dropLast := by
      rw [stripCr, if_pos htwo]
      intro hsame
      have hlengths := congrArg List.length hsame
      have hpos := List.length_pos_iff.2 hkept
      rw [List.length_dropLast] at hlengths
      omega
    have hsecond : followedBy (boundedLinesFrom maximum [0x0a :: rest]) ([], keepPiece maximum .none frame) =
        boundedLinesFrom maximum [0x0a :: rest] ⟨[frame], frame.length⟩ := by
      rw [keepPiece_none hne, if_neg hlong]
      rfl
    rw [hsecond, boundedLinesFrom, followedBy_newline, hread]
    by_cases hnil : stripCr frame.dropLast = [] <;> simp [hnil, hshorter]

/-- A torn frame reads one way in one chunk, and another way when its newline comes in the next chunk. -/
theorem exists_apart (h : calm maximum false frame bytes = false) :
    ∃ front back, bytes = front ++ back ∧
      followedBy (boundedLinesFrom maximum []) (feed maximum frame bytes .none) ≠
        followedBy (boundedLinesFrom maximum [back]) (feed maximum frame front .none) := by
  induction bytes generalizing frame with
  | nil => cases h
  | cons byte rest ih =>
    unfold calm at h
    by_cases hb : byte = 0x0a
    · subst hb
      rw [if_pos rfl] at h
      cases htorn : torn maximum frame with
      | true => exact ⟨[], 0x0a :: rest, rfl, torn_apart htorn rest⟩
      | false =>
        have hfinish : finishFrame maximum .none frame = readFrame maximum frame :=
          finishFrame_eq Pending.holds_none (by decide) fun _ => htorn
        cases hread : readFrame maximum frame with
        | error e => simp [htorn, hread] at h
        | ok line =>
          obtain ⟨front, back, hsplit, hne⟩ := ih (by simpa [htorn, hread] using h)
          refine ⟨0x0a :: front, back, by rw [hsplit, List.cons_append], fun heq => hne ?_⟩
          simp only [followedBy_newline, hfinish, hread, Prod.mk.injEq, List.cons.injEq] at heq
          exact Prod.ext heq.1.2 heq.2
    · rw [if_neg hb] at h
      obtain ⟨front, back, hsplit, hne⟩ := ih h
      refine ⟨byte :: front, back, by rw [hsplit, List.cons_append], ?_⟩
      simpa only [feed, hb, if_false] using hne

/-! ## Written lines -/

variable {line : List UInt8}

theorem calm_append {split : Bool} (h : 0x0a ∉ line) (frame bytes : List UInt8) :
    calm maximum split frame (line ++ bytes) = calm maximum split (frame ++ line) bytes := by
  induction line generalizing frame with
  | nil => simp
  | cons byte rest ih =>
    have hb : byte ≠ 0x0a := fun heq => h (heq ▸ List.mem_cons_self)
    rw [List.cons_append, calm, if_neg hb, ih fun hmem => h (List.mem_cons_of_mem _ hmem)]
    simp

theorem scan_append (h : 0x0a ∉ line) (frame bytes : List UInt8) :
    scan maximum frame (line ++ bytes) = scan maximum (frame ++ line) bytes := by
  induction line generalizing frame with
  | nil => simp
  | cons byte rest ih =>
    have hb : byte ≠ 0x0a := fun heq => h (heq ▸ List.mem_cons_self)
    rw [List.cons_append, scan, if_neg hb, ih fun hmem => h (List.mem_cons_of_mem _ hmem)]
    simp

theorem feed_append (h : 0x0a ∉ line) (piece bytes : List UInt8) :
    feed maximum piece (line ++ bytes) pending = feed maximum (piece ++ line) bytes pending := by
  induction line generalizing piece with
  | nil => simp
  | cons byte rest ih =>
    have hb : byte ≠ 0x0a := fun heq => h (heq ▸ List.mem_cons_self)
    rw [List.cons_append, feed, if_neg hb, ih fun hmem => h (List.mem_cons_of_mem _ hmem)]
    simp

/-- One line, whole. -/
theorem boundedLines_line (hfits : fits 0 chunks) (hflat : chunks.flatten = line ++ [0x0a]) (hnl : 0x0a ∉ line)
    (hwhole : torn maximum line = false) (hlong : line.length ≤ maximum) (hne : stripCr line ≠ []) :
    boundedLines maximum chunks = ([stripCr line], none) := by
  have hread : readFrame maximum line = .ok (stripCr line) := by
    rw [readFrame, if_neg (Nat.not_lt.2 hlong), if_neg hne]
  rw [boundedLines_eq_scan hfits, hflat, scan_append hnl, List.nil_append, scan, if_pos rfl, hread]
  · rfl
  · rw [hflat, calm_append hnl, List.nil_append, calm, if_pos rfl, hwhole, hread]
    rfl

/-- A frame that is too long is refused when it does not come at once. -/
theorem boundedLines_tooLong {chunk : List UInt8} (hfits : fits 0 (chunk :: chunks))
    (hflat : (chunk :: chunks).flatten = line ++ [0x0a]) (hnl : 0x0a ∉ line) (hchunk : 0x0a ∉ chunk) (hne : chunk ≠ [])
    (hlong : maximum < line.length) : boundedLines maximum (chunk :: chunks) = ([], some .frameTooLarge) := by
  have hkept : feed maximum [] chunk .none = ([], keepPiece maximum .none chunk) := by
    have happend : feed maximum [] (chunk ++ []) .none = feed maximum chunk [] .none := feed_append hchunk [] []
    rw [List.append_nil] at happend
    rw [happend]
    rfl
  have hread : readFrame maximum line = .error .frameTooLarge := if_pos hlong
  rw [List.flatten_cons] at hflat
  unfold fits at hfits
  rw [if_neg hchunk, if_neg hne] at hfits
  rw [boundedLines, boundedLinesFrom, hkept, keepPiece_none hne]
  split
  · rfl
  · next hshort =>
    have hholds : Pending.Holds ⟨[chunk], chunk.length⟩ 1 := ⟨by simp, by simpa using hne, rfl⟩
    have hcalm : calm maximum true chunk chunks.flatten = true := by
      have happend : calm maximum true [] (chunk ++ chunks.flatten) = calm maximum true chunk chunks.flatten :=
        calm_append hchunk [] chunks.flatten
      rw [hflat, calm_append hnl, calm, if_pos rfl, List.nil_append, hread] at happend
      exact happend.symm
    have hscan : scan maximum chunk chunks.flatten = ([], some .frameTooLarge) := by
      have happend : scan maximum [] (chunk ++ chunks.flatten) = scan maximum chunk chunks.flatten :=
        scan_append hchunk [] chunks.flatten
      rw [hflat, scan_append hnl, scan, if_pos rfl, List.nil_append, hread] at happend
      exact happend.symm
    have hrest := boundedLinesFrom_eq_scan hholds hfits (Nat.not_lt.1 hshort) (by simpa using hcalm)
    rw [show (Pending.mk [chunk] chunk.length).pieces.flatten = chunk by simp, hscan] at hrest
    simp only [followedBy, hrest, List.nil_append]

/-- A line as long as the maximum, with a carriage return: it is read from one chunk only. -/
theorem boundedLines_full {text : List UInt8} (hfits : fits 0 chunks) (hflat : chunks.flatten = text ++ [0x0d, 0x0a])
    (hnl : 0x0a ∉ text) (hcr : 0x0d ∉ text) (hne : text ≠ []) (hlong : text.length = maximum) :
    boundedLines maximum chunks = ([text], none) ↔ text ++ [0x0d, 0x0a] ∈ chunks := by
  have hframe : 0x0a ∉ text ++ [0x0d] := by simp [hnl]
  induction chunks with
  | nil => simp at hflat
  | cons chunk chunks ih =>
    by_cases hempty : chunk = []
    · subst hempty
      have hrest := ih (by simpa [fits] using hfits) (by simpa using hflat)
      have hsame : boundedLines maximum ([] :: chunks) = boundedLines maximum chunks := by
        simp [boundedLines, boundedLinesFrom, feed, keepPiece, followedBy]
      rw [hsame]
      simpa using hrest
    · by_cases hwhole : chunk = text ++ [0x0d, 0x0a]
      · -- the line comes at once, and behind it nothing
        have hnone : chunks.flatten = [] := by simpa [hwhole] using hflat
        refine iff_of_true ?_ (hwhole ▸ List.mem_cons_self)
        have hchunk : chunk = (text ++ [0x0d]) ++ [0x0a] := by simp [hwhole]
        have hfinish : finishFrame maximum .none (text ++ [0x0d]) = .ok text := by
          have hstrip : stripCr text = text := if_neg fun hlast => hcr (List.mem_of_getLast? hlast)
          rw [finishFrame_torn (by simp [torn, hlong]), List.dropLast_concat, hstrip, if_neg hne]
        have hbehind : boundedLines maximum ([] :: chunks) = ([], none) := by
          rw [hchunk] at hfits
          rw [boundedLines_eq_scan (fits_behind hfits).2 (by simp [hnone, calm]), List.flatten_cons, hnone]
          rfl
        rw [boundedLines, boundedLinesFrom, hchunk, feed_append hframe, followedBy_newline, List.nil_append, hfinish]
        exact congrArg (fun r : List (List UInt8) × Option FrameError => (text :: r.1, r.2)) hbehind
      · -- it does not: the first piece ends before the newline
        have hchunk : 0x0a ∉ chunk := by
          have hsplit : chunk ++ chunks.flatten = (text ++ [0x0d]) ++ [0x0a] := by simpa using hflat
          rcases List.append_eq_append_iff.1 hsplit with ⟨rest, hrest, -⟩ | ⟨rest, hrest, hlast⟩
          · exact fun hmem => hframe (hrest ▸ List.mem_append_left _ hmem)
          · rcases List.singleton_eq_append_iff.1 hlast with ⟨rfl, -⟩ | ⟨rfl, -⟩
            · simpa [hrest] using hframe
            · exact absurd (by simpa using hrest) hwhole
        have herror : boundedLines maximum (chunk :: chunks) = ([], some .frameTooLarge) :=
          boundedLines_tooLong hfits (by simpa using hflat) hframe hchunk hempty (by simp [hlong])
        rw [herror]
        refine iff_of_false (by simp) fun hmem => ?_
        have hmem' := (List.mem_cons.1 hmem).resolve_left fun heq => hwhole heq.symm
        have hle := (List.sublist_flatten_of_mem hmem').length_le
        have hpos := List.length_pos_iff.2 hempty
        have htotal := congrArg List.length hflat
        rw [List.flatten_cons, List.length_append] at htotal
        omega

/-- **The lines of a stream depend on its chunks exactly when a frame is torn. A written line comes back; behind a
carriage return it does where there is room for it, or when it all comes at once.** -/
theorem lines_chunk_free {V : Type} (stringify : V → Option (List UInt8)) (maximum : ℕ)
    (hjson : ∀ value text, stringify value = some text → text ≠ [] ∧ 0x0a ∉ text ∧ 0x0d ∉ text) :
    (∀ bytes, (∀ a b : List (List UInt8), a.flatten = bytes → b.flatten = bytes → fits 0 a → fits 0 b →
        boundedLines maximum a = boundedLines maximum b) ↔ calm maximum false [] bytes = true) ∧
    ∀ value out, encodeFrame stringify maximum value = some out →
      (∀ chunks, chunks.flatten = out → fits 0 chunks → boundedLines maximum chunks = ([out.dropLast], none)) ∧
      ∀ chunks, chunks.flatten = out.dropLast ++ [0x0d, 0x0a] → fits 0 chunks →
        (boundedLines maximum chunks = ([out.dropLast], none) ↔
          out.length ≤ maximum ∨ out.dropLast ++ [0x0d, 0x0a] ∈ chunks) := by
  refine ⟨fun bytes => ⟨?_, ?_⟩, ?_⟩
  · intro hfree
    by_contra hcalm
    obtain ⟨front, back, hsplit, hne⟩ := exists_apart (by simpa using hcalm)
    exact hne (hfree [bytes] [front, back] (by simp) (by simp [hsplit]) (fits_of_length (by simp [maxFrameChunks]))
      (fits_of_length (by simp [maxFrameChunks])))
  · rintro hcalm a b rfl hb ha hb'
    rw [boundedLines_eq_scan ha hcalm, boundedLines_eq_scan hb' (hb ▸ hcalm), hb]
  · intro value out hout
    unfold encodeFrame at hout
    cases htext : stringify value with
    | none => simp [htext] at hout
    | some text =>
      obtain ⟨hne, hnl, hcr⟩ := hjson value text htext
      simp only [htext, List.length_append, List.length_singleton, Nat.add_sub_cancel] at hout
      split at hout
      · cases hout
      · next hlong =>
        obtain rfl := Option.some.inj hout
        have hstrip : stripCr text = text := if_neg fun hlast => hcr (List.mem_of_getLast? hlast)
        have hlast : text.getLast? ≠ some 0x0d := fun hlast => hcr (List.mem_of_getLast? hlast)
        rw [List.dropLast_concat]
        refine ⟨fun chunks hflat hfits => ?_, fun chunks hflat hfits => ?_⟩
        · have hline := boundedLines_line hfits hflat hnl (by simp [torn, hlast]) (Nat.not_lt.1 hlong) (hstrip.symm ▸ hne)
          rwa [hstrip] at hline
        · by_cases hroom : (text ++ [0x0a]).length ≤ maximum
          · have hroom' : text.length + 1 ≤ maximum := by simpa using hroom
            have hcut : stripCr (text ++ [0x0d]) = text := by simp [stripCr]
            have hline : boundedLines maximum chunks = ([stripCr (text ++ [0x0d])], none) :=
              boundedLines_line hfits (by simpa using hflat) (by simp [hnl]) (by simp [torn, hlast, Nat.ne_of_lt hroom'])
                (by simpa using hroom') (hcut.symm ▸ hne)
            rw [hcut] at hline
            exact iff_of_true hline (.inl hroom)
          · have hfull : text.length = maximum := by
              simp only [List.length_append, List.length_singleton] at hroom
              omega
            rw [boundedLines_full hfits hflat hnl hcr hne hfull]
            simp only [hroom, false_or]

theorem lines_chunk_free_braces : boundedLines 4 [[0x7b], [0x7d, 0x0d], [0x0a]] = ([[0x7b, 0x7d]], none) :=
  (((lines_chunk_free (fun _ : Unit => some [0x7b, 0x7d]) 4 (by rintro - text ⟨⟩; decide)).2 () [0x7b, 0x7d, 0x0a] rfl).2
    [[0x7b], [0x7d, 0x0d], [0x0a]] rfl (fits_of_length (by decide))).2 (.inl (by decide))

/-- Two carriage returns: both go when they come with the newline. -/
theorem lines_torn : ∃ a b : List (List UInt8), a.flatten = b.flatten ∧ fits 0 a ∧ fits 0 b ∧
    boundedLines 33554432 a ≠ boundedLines 33554432 b :=
  ⟨[[0x7b, 0x7d, 0x0d, 0x0d, 0x0a]], [[0x7b, 0x7d, 0x0d], [0x0d, 0x0a]], rfl, fits_of_length (by decide),
    fits_of_length (by decide), by decide⟩

end LarkCodexBridge.Sidecar
