import Mathlib
import LarkCodexBridge.Lark.Event
import LarkCodexBridge.Store.Attachments

/-!
# The files of the attachment cache

The cache directory and the jobs that change it on the blocking pool. A job is a machine with one step for each
operation on the file system, so that a crash can come between any two of them.

* `Disk`: content files by name and the temp files there are;
* `Install`: `install_file`, with the check `verify_existing` that the second use of it starts with;
* `ScanCandidates`, `Apply`: what a directory scan collects and how reconciliation applies it.

The digest of SHA-256 is a parameter. Nothing but the cache writes into the directory, so a file is either one that was
installed or a temp file, and unrecognized entries are left out.
-/

namespace LarkCodexBridge.Runtime.Attachments

open Lark Store Limits

/-! ## Limits, errors and names -/

/-- The bounds that `fetch`, `gc` and `reconcile` read. -/
structure AttachmentLimits where
  maxAttachmentBytes : ℕ := attachmentMaxBytes
  maxCacheFiles : ℕ := attachmentCacheMaxFiles
  maxCacheBytes : ℕ := attachmentCacheMaxBytes
  maxResourceKeyBytes : ℕ := attachmentResourceKeyMaxBytes
  gcAgeMs : ℤ := attachmentGcAgeMs
  gcBatch : ℕ := attachmentGcBatch
  reconcileBatch : ℕ := attachmentReconcileBatch

def AttachmentLimits.clamped (limits : AttachmentLimits) : AttachmentLimits :=
  { limits with
    gcBatch := max 1 (min limits.gcBatch attachmentGcBatch)
    reconcileBatch := max 1 (min limits.reconcileBatch attachmentReconcileBatch) }

inductive DownloadKind where
  | permanentAuth | retryable | protocol | exhausted

inductive AttachError where
  | cancelled (context : String)
  | download (kind : DownloadKind)
  | tooLarge (context : String) (limit : ℕ)
  | invalidResourceKey (context : String)
  | hashMismatch (context : String)
  | io (context : String)
  | store (context : String) (source : StoreError)

/-- `check_resource_key`. A byte of a character outside ASCII is refused, so the characters decide. -/
def AttachmentLimits.checkResourceKey (limits : AttachmentLimits) (key : String) : Except AttachError Unit :=
  if key.isEmpty || limits.maxResourceKeyBytes < key.utf8ByteSize then
    .error (.invalidResourceKey "checking a resource key")
  else if !key.toList.all (fun c => c.isAlphanum || c = '_' || c = '-' || c = '.') then
    .error (.invalidResourceKey "checking a resource key")
  else .ok ()

def AttachmentLimits.checkAttachmentBytes (limits : AttachmentLimits) (len : ℕ) : Except AttachError Unit :=
  if limits.maxAttachmentBytes < len then
    .error (.tooLarge "downloading an attachment" limits.maxAttachmentBytes)
  else .ok ()

abbrev Digest := { digest : List UInt8 // digest.length = 32 }

structure Params where
  limits : AttachmentLimits
  /-- `Sha256::digest`. -/
  digest : List UInt8 → Digest

variable (P : Params)

def Params.sha256Hex (data : List UInt8) : String :=
  String.ofList ((P.digest data).1.flatMap fun byte => [hexChar (byte.toNat / 16), hexChar (byte.toNat % 16)])

/-- `is_valid_sha256_name`. A byte of a character outside ASCII is no digit, so the characters decide. -/
def isValidSha256Name (name : String) : Bool := name.utf8ByteSize == 64 && name.toList.all hexDigit

theorem isValidSha256Name_sha256Hex (data : List UInt8) : isValidSha256Name (P.sha256Hex data) = true :=
  TenantNamespace.isTenantNamespace_asHex ⟨(P.digest data).1, (P.digest data).2⟩

/-! ## Files -/

/-- The cache directory: content files and temp files. -/
structure Disk where
  files : String → Option (List UInt8)
  temps : List ℕ
  nextTemp : ℕ

/-- Writes or removes one content file. -/
def Disk.setFile (d : Disk) (name : String) (data : Option (List UInt8)) : Disk :=
  { d with files := Function.update d.files name data }

def Disk.dropTemp (d : Disk) (temp : ℕ) : Disk := { d with temps := d.temps.erase temp }

@[simp] theorem Disk.dropTemp_files (d : Disk) (temp : ℕ) : (d.dropTemp temp).files = d.files := rfl

@[simp] theorem Disk.setFile_files (d : Disk) (name : String) (data : Option (List UInt8)) :
    (d.setFile name data).files = Function.update d.files name data := rfl

/-- `verify_existing`: what it hashes in the end is the digest of the content. -/
def verifyExisting (file : Option (List UInt8)) (expectedSha : String) (expectedLen : ℕ) : Except AttachError Unit :=
  match file with
  | none => .error (.io "opening a cached file for verification")
  | some data =>
    if data.length ≠ expectedLen then .error (.hashMismatch "cached file size")
    else if P.sha256Hex (P.digest data).1 ≠ expectedSha then .error (.hashMismatch "cached file content")
    else .ok ()

/-- Where an `install_file` is: the operation it does next. -/
inductive InstallPoint where
  | verify
  | createTemp
  | writeTemp (temp : ℕ)
  | flushTemp (temp : ℕ)
  | syncTemp (temp : ℕ)
  | examine (temp : ℕ)
  | removeCorrupt (temp : ℕ)
  | rename (temp : ℕ)
  | removeRaced (temp : ℕ)
  | openDir
  | syncDir

/-- An `install_file` on the blocking pool; one that starts at `verify` is the job of the second check. -/
structure Install where
  sha : String
  content : List UInt8
  attempt : ℕ
  point : InstallPoint

/-- The job of the first use, and the job of the second. -/
def Install.first (sha : String) (content : List UInt8) : Install := ⟨sha, content, 0, .createTemp⟩
def Install.again (sha : String) (content : List UInt8) : Install := ⟨sha, content, 0, .verify⟩

namespace Install

variable (job : Install)

/-- `verify_existing` of the file in place. -/
def verified (d : Disk) (fault : Bool) : Bool :=
  !fault && (verifyExisting P (d.files job.sha) job.sha job.content.length).isOk

/-- A failure: the guard of the temp file removes it. -/
def failWith (d : Disk) (temp : ℕ) (context : String) : Disk × (Install ⊕ Except AttachError Unit) :=
  (d.dropTemp temp, .inr (.error (.io context)))

/-- One operation; with `fault`, it fails. -/
def work (d : Disk) (fault : Bool) : Disk × (Install ⊕ Except AttachError Unit) :=
  match job.point with
  | .verify => if job.verified P d fault then (d, .inr (.ok ())) else (d, .inl { job with point := .createTemp })
  | .createTemp =>
    if fault then (d, .inr (.error (.io "creating a temp file")))
    else ({ d with temps := d.nextTemp :: d.temps, nextTemp := d.nextTemp + 1 },
      .inl { job with point := .writeTemp d.nextTemp })
  | .writeTemp t =>
    if fault then failWith d t "writing a temp file" else (d, .inl { job with point := .flushTemp t })
  | .flushTemp t =>
    if fault then failWith d t "flushing a temp file" else (d, .inl { job with point := .syncTemp t })
  | .syncTemp t =>
    if fault then failWith d t "syncing a temp file" else (d, .inl { job with point := .examine t })
  | .examine t =>
    if (d.files job.sha).isNone then (d, .inl { job with point := .rename t })
    else if job.verified P d fault then (d.dropTemp t, .inr (.ok ()))
    else (d, .inl { job with point := .removeCorrupt t })
  | .removeCorrupt t =>
    if fault then failWith d t "removing a corrupt cached file"
    else (d.setFile job.sha none, .inl { job with point := .rename t })
  | .rename t =>
    if !fault then ((d.setFile job.sha (some job.content)).dropTemp t, .inl { job with point := .openDir })
    else if (d.files job.sha).isNone then failWith d t "renaming a temp file into the cache"
    else if job.verified P d false then (d.dropTemp t, .inr (.ok ()))
    else (d, .inl { job with point := .removeRaced t })
  | .removeRaced t =>
    if fault then failWith d t "removing a corrupt cached file"
    else if job.attempt = 0 then
      ((d.setFile job.sha none).dropTemp t, .inl { job with attempt := 1, point := .createTemp })
    else ((d.setFile job.sha none).dropTemp t, .inr (.error (.io "installing a cached file after retries")))
  | .openDir =>
    if fault then (d, .inr (.error (.io "opening the cache directory for sync")))
    else (d, .inl { job with point := .syncDir })
  | .syncDir =>
    if fault then (d, .inr (.error (.io "syncing the cache directory"))) else (d, .inr (.ok ()))

end Install

/-- `remove_direct_child` of a content file: whether there was one. -/
def removeFile (d : Disk) (name : String) (fault : Bool) (context : String) : Disk × Except AttachError Bool :=
  if fault then (d, .error (.io context)) else (d.setFile name none, .ok (d.files name).isSome)

/-! ## Reconciliation -/

/-- What an entry of the directory is. -/
inductive Entry where
  | unreadable
  | owned
  | temp (id : ℕ)
  | content (name : String)

/-- Candidates of one scan, and whether it came to the end of the directory. -/
structure ScanCandidates where
  scannedEntries : ℕ := 0
  temp : List ℕ := []
  orphan : List String := []
  corrupt : List String := []
  errors : ℕ := 0
  completedCycle : Bool := false

/-- `rows_by_sha`: the size of the row of a hash. -/
def sizeOfRow (rows : List AttachmentRow) (name : String) : Option ℕ :=
  ((rows.filter fun row => isValidSha256Name row.sha256).find? (·.sha256 = name)).map (·.bytes)

/-- One entry of `scan_directory_batch`. -/
def ScanCandidates.scan (c : ScanCandidates) (snapshot : List AttachmentRow) (d : Disk) (entry : Entry) :
    ScanCandidates :=
  let c := { c with scannedEntries := c.scannedEntries + 1 }
  match entry with
  | .unreadable => { c with errors := c.errors + 1 }
  | .owned => c
  | .temp t => if t ∈ d.temps then { c with temp := c.temp ++ [t] } else { c with errors := c.errors + 1 }
  | .content name =>
    match d.files name with
    | none => { c with errors := c.errors + 1 }
    | some data =>
      match sizeOfRow snapshot name with
      | some expected => if data.length ≠ expected then { c with corrupt := c.corrupt ++ [name] } else c
      | none => { c with orphan := c.orphan ++ [name] }

structure GcStats where
  inspected : ℕ := 0
  evicted : ℕ := 0
  skippedLeased : ℕ := 0
  freedBytes : ℕ := 0

structure ReconcileStats where
  scannedEntries : ℕ := 0
  tempFiles : ℕ := 0
  orphanFiles : ℕ := 0
  corruptFiles : ℕ := 0
  droppedRows : ℕ := 0
  staleLeases : ℕ := 0
  errors : ℕ := 0
  completedCycle : Bool := false
  gc : GcStats := {}

/-- `apply_scan_candidates` on the blocking pool: the candidates left, the rows, and the deletions so far. -/
structure Apply where
  temp : List ℕ
  orphan : List String
  corrupt : List String
  rows : List AttachmentRow
  deletions : ℕ
  stats : ReconcileStats

/-- The rows to drop, those whose file goes after them, and the counts so far. -/
structure AppliedCandidates where
  stats : ReconcileStats
  dropRows : List String
  deleteAfterDrop : List String

/-- The corrupt candidates that are still corrupt, as far as the batch allows. -/
def pickCorrupt (batch : ℕ) (d : Disk) (rows : List AttachmentRow) : ℕ → List String → List String
  | _, [] => []
  | deletions, sha :: rest =>
    if batch ≤ deletions then []
    else
      match sizeOfRow rows sha with
      | none => pickCorrupt batch d rows deletions rest
      | some expected =>
        if ((d.files sha).map (·.length)).getD u64Max = expected then pickCorrupt batch d rows deletions rest
        else sha :: pickCorrupt batch d rows (deletions + 1) rest

namespace Apply

variable (job : Apply)

/-- The end of `apply_scan_candidates`: malformed rows, corrupt files and rows without a file. -/
def finish (batch : ℕ) (d : Disk) : AppliedCandidates :=
  let malformed := (job.rows.filter fun row => !isValidSha256Name row.sha256).map (·.sha256)
  let corrupt := pickCorrupt batch d job.rows job.deletions job.corrupt
  let missing := (job.rows.filter fun row => isValidSha256Name row.sha256 && (d.files row.sha256).isNone &&
    !(malformed ++ corrupt).contains row.sha256).map (·.sha256)
  ⟨job.stats, malformed ++ corrupt.filter (fun sha => !malformed.contains sha) ++ missing, corrupt⟩

/-- One candidate. -/
def work (batch : ℕ) (d : Disk) (fault : Bool) : Disk × (Apply ⊕ Except AttachError AppliedCandidates) :=
  match job.temp with
  | t :: rest =>
    if batch ≤ job.deletions then (d, .inl { job with temp := [] })
    else if fault then (d, .inr (.error (.io "removing an orphan temp file")))
    else if t ∈ d.temps then
      (d.dropTemp t, .inl { job with
        temp := rest, deletions := job.deletions + 1
        stats := { job.stats with tempFiles := job.stats.tempFiles + 1 } })
    else (d, .inl { job with temp := rest })
  | [] =>
    match job.orphan with
    | sha :: rest =>
      if batch ≤ job.deletions then (d, .inl { job with orphan := [] })
      else if (sizeOfRow job.rows sha).isSome then (d, .inl { job with orphan := rest })
      else
        match removeFile d sha fault "removing an orphan cached file" with
        | (d, .error e) => (d, .inr (.error e))
        | (d, .ok false) => (d, .inl { job with orphan := rest })
        | (d, .ok true) =>
          (d, .inl { job with
            orphan := rest, deletions := job.deletions + 1
            stats := { job.stats with orphanFiles := job.stats.orphanFiles + 1 } })
    | [] => (d, .inr (.ok (job.finish batch d)))

end Apply

/-! ## What an operation does to the files -/

/-- Every content file has the content it is named after, one of `C`. -/
def Disk.Intact (C : List (List UInt8)) (d : Disk) : Prop :=
  ∀ name data, d.files name = some data → data ∈ C ∧ P.sha256Hex data = name

variable {d : Disk} {C : List (List UInt8)}

theorem Disk.Intact.remove (h : d.Intact P C) (name : String) :
    (d.setFile name none).Intact P C := by
  intro n data hn
  rw [setFile_files, Function.update_apply] at hn
  split at hn
  · cases hn
  · exact h n data hn

theorem Disk.Intact.put (h : d.Intact P C) {data : List UInt8} (hdata : data ∈ C) :
    (d.setFile (P.sha256Hex data) (some data)).Intact P C := by
  intro n data' hn
  rw [setFile_files, Function.update_apply] at hn
  split at hn
  · next heq => cases hn; exact ⟨hdata, heq.symm⟩
  · exact h n data' hn

/-- The file of an install job at its point: there is none when the job renames, and there is one after that. -/
structure Install.Placed (d : Disk) (job : Install) : Prop where
  rename : ∀ t, job.point = .rename t → d.files job.sha = none
  placed : job.point = .openDir ∨ job.point = .syncDir → (d.files job.sha).isSome = true
  raced : ∀ t, job.point ≠ .removeRaced t

/-- What one operation of an install job does. -/
inductive Install.Effect (job : Install) (d : Disk) (fault : Bool) : Disk → Install ⊕ Except AttachError Unit → Prop
  /-- The job goes on and leaves the files; it comes to `rename` only when there is no file. -/
  | moves {d' : Disk} {point : InstallPoint} (hfiles : d'.files = d.files)
      (hplaced : Install.Placed d' { job with point := point }) (hpoint : ∀ t, job.point ≠ .rename t) :
      Effect job d fault d' (.inl { job with point := point })
  /-- The file in place is taken away. -/
  | removes {t : ℕ} (hpoint : job.point = .removeCorrupt t) (hfault : fault = false) :
      Effect job d fault (d.setFile job.sha none) (.inl { job with point := .rename t })
  /-- The content is put in place. -/
  | renames {t : ℕ} (hpoint : job.point = .rename t) (hfault : fault = false) :
      Effect job d fault ((d.setFile job.sha (some job.content)).dropTemp t) (.inl { job with point := .openDir })
  /-- The job is done, with the file in place. -/
  | ends {d' : Disk} (hfiles : d'.files = d.files) (hplaced : (d.files job.sha).isSome = true)
      (hpoint : ∀ t, job.point ≠ .rename t) : Effect job d fault d' (.inr (.ok ()))
  /-- The job fails and leaves the files. -/
  | fails {d' : Disk} {e : AttachError} (hfiles : d'.files = d.files) (hfault : fault = true) :
      Effect job d fault d' (.inr (.error e))

variable {P} in
theorem Install.verified_isSome {job : Install} {fault : Bool} (h : job.verified P d fault = true) :
    (d.files job.sha).isSome = true := by
  simp only [verified, verifyExisting, Bool.and_eq_true] at h
  cases hf : d.files job.sha with
  | none => simp [hf, Except.isOk, Except.toBool] at h
  | some data => rfl

variable {P} in
/-- **One operation of an install job.** -/
theorem Install.work_effect {job : Install} (fault : Bool) (h : Install.Placed d job) :
    Install.Effect job d fault (job.work P d fault).1 (job.work P d fault).2 := by
  have hmove : ∀ {d' : Disk} {point : InstallPoint}, d'.files = d.files → (∀ t, point ≠ .rename t) →
      point ≠ .openDir → point ≠ .syncDir → (∀ t, point ≠ .removeRaced t) → (∀ t, job.point ≠ .rename t) →
      Install.Effect job d fault d' (.inl { job with point := point }) :=
    fun hf hr ho hs hx hp => .moves hf ⟨fun t ht => absurd ht (hr t), fun hp => by
      rcases hp with hp | hp
      · exact absurd hp ho
      · exact absurd hp hs, hx⟩ hp
  unfold Install.work
  cases hp : job.point with
  | verify =>
    by_cases hv : job.verified P d fault = true
    · simp only [hv, if_true]
      exact .ends rfl (verified_isSome hv) (by simp [hp])
    · simp only [hv]
      exact hmove rfl nofun nofun nofun nofun (by simp [hp])
  | createTemp | writeTemp t | flushTemp t | syncTemp t =>
    cases fault with
    | true => exact .fails rfl rfl
    | false => exact hmove rfl nofun nofun nofun nofun (by simp [hp])
  | examine t =>
    cases hf : d.files job.sha with
    | none =>
      simp only [Option.isNone_none, if_true]
      exact .moves rfl ⟨fun _ _ => hf, by simp, by simp⟩ (by simp [hp])
    | some data =>
      simp only [Option.isNone_some, Bool.false_eq_true, if_false]
      by_cases hv : job.verified P d fault = true
      · simp only [hv, if_true]
        exact .ends rfl (verified_isSome hv) (by simp [hp])
      · simp only [hv]
        exact hmove rfl nofun nofun nofun nofun (by simp [hp])
  | removeCorrupt t =>
    cases fault with
    | true => exact .fails rfl rfl
    | false => exact .removes hp rfl
  | rename t =>
    cases fault with
    | true =>
      simp only [h.rename t hp, Bool.not_true, Bool.false_eq_true, if_false, Option.isNone_none, if_true]
      exact .fails rfl rfl
    | false => exact .renames hp rfl
  | removeRaced t => exact absurd hp (h.raced t)
  | openDir =>
    cases fault with
    | true => exact .fails rfl rfl
    | false =>
      exact .moves rfl ⟨by simp, fun _ => h.placed (.inl hp), by simp⟩ (by simp [hp])
  | syncDir =>
    cases fault with
    | true => exact .fails rfl rfl
    | false => exact .ends rfl (h.placed (.inr hp)) (by simp [hp])

/-- Rows that are as the table was and whose files are there. -/
def Fresh (d : Disk) (db rows : List AttachmentRow) : Prop :=
  (∀ row ∈ db, ∃ r ∈ rows, r.sha256 = row.sha256) ∧
    ∀ r ∈ rows, isValidSha256Name r.sha256 = true ∧ ∃ data, d.files r.sha256 = some data ∧ data.length = r.bytes

variable {db rows : List AttachmentRow}

theorem Fresh.sizeOfRow (h : Fresh d db rows) {r : AttachmentRow} (hr : r ∈ rows) :
    (sizeOfRow rows r.sha256).isSome = true := by
  simp only [Attachments.sizeOfRow, Option.isSome_map, List.find?_isSome, decide_eq_true_eq]
  exact ⟨r, List.mem_filter.2 ⟨hr, (h.2 r hr).1⟩, rfl⟩

/-- The table may lose rows, and files that no row names may go. -/
theorem Fresh.mono {d' : Disk} {db' : List AttachmentRow} (h : Fresh d db rows) (hdb : ∀ row ∈ db', row ∈ db)
    (hd : ∀ r ∈ rows, d'.files r.sha256 = d.files r.sha256) : Fresh d' db' rows :=
  ⟨fun row hrow => h.1 row (hdb row hrow), fun r hr => by rw [hd r hr]; exact h.2 r hr⟩

theorem Fresh.pickCorrupt (h : Fresh d db rows) (batch : ℕ) :
    ∀ (n : ℕ) (shas : List String), pickCorrupt batch d rows n shas = []
  | _, [] => rfl
  | n, sha :: rest => by
    unfold Attachments.pickCorrupt
    split
    · rfl
    · split
      · exact h.pickCorrupt batch n rest
      · next expected hsize =>
        obtain ⟨r, hfind, rfl⟩ := Option.map_eq_some_iff.1 hsize
        have hr := (List.mem_filter.1 (List.mem_of_find?_eq_some hfind)).1
        have heq : r.sha256 = sha := by simpa using List.find?_some hfind
        obtain ⟨-, data, hdata, hlen⟩ := h.2 r hr
        rw [heq] at hdata
        rw [if_pos (by simp [hdata, hlen])]
        exact h.pickCorrupt batch n rest

/-- Nothing is dropped when every row has its file. -/
theorem Fresh.finish {job : Apply} (h : Fresh d db job.rows) (batch : ℕ) :
    (job.finish batch d).dropRows = [] := by
  have hvalid : (job.rows.filter fun row => !isValidSha256Name row.sha256) = [] :=
    List.filter_eq_nil_iff.2 fun r hr => by simp [(h.2 r hr).1]
  have hplaced : ∀ r ∈ job.rows, d.files r.sha256 ≠ none := fun r hr => by
    obtain ⟨-, data, hdata, -⟩ := h.2 r hr
    simp [hdata]
  simpa [Apply.finish, hvalid, h.pickCorrupt] using fun r hr _ => hplaced r hr

/-- What one candidate does: no file of a row goes, and the pass drops no row in the end. -/
theorem Apply.work_effect {job : Apply} (batch : ℕ) (fault : Bool) (h : Fresh d db job.rows) :
    (∀ name, (job.work batch d fault).1.files name = d.files name ∨
      (job.work batch d fault).1.files name = none ∧ ∀ r ∈ job.rows, r.sha256 ≠ name) ∧
    (∀ job', (job.work batch d fault).2 = .inl job' → job'.rows = job.rows) ∧
    ∀ found, (job.work batch d fault).2 = .inr (.ok found) → found.dropRows = [] := by
  have hsame : ∀ name, d.files name = d.files name ∨ d.files name = none ∧ ∀ r ∈ job.rows, r.sha256 ≠ name :=
    fun _ => .inl rfl
  unfold Apply.work
  cases job.temp with
  | cons t rest =>
    dsimp only
    split_ifs
    · exact ⟨hsame, by rintro _ ⟨⟩; rfl, nofun⟩
    · exact ⟨hsame, nofun, nofun⟩
    · exact ⟨hsame, by rintro _ ⟨⟩; rfl, nofun⟩
    · exact ⟨hsame, by rintro _ ⟨⟩; rfl, nofun⟩
  | nil =>
    cases job.orphan with
    | nil => exact ⟨hsame, nofun, by rintro _ ⟨⟩; exact h.finish batch⟩
    | cons sha rest =>
      dsimp only
      split_ifs with _ hsome
      · exact ⟨hsame, by rintro _ ⟨⟩; rfl, nofun⟩
      · exact ⟨hsame, by rintro _ ⟨⟩; rfl, nofun⟩
      · have hgone : ∀ name, (d.setFile sha none).files name = d.files name ∨
            (d.setFile sha none).files name = none ∧ ∀ r ∈ job.rows, r.sha256 ≠ name := by
          intro name
          rw [Disk.setFile_files, Function.update_apply]
          split
          · next heq => exact .inr ⟨rfl, fun r hr hrn => hsome (by rw [← heq, ← hrn]; exact h.sizeOfRow hr)⟩
          · exact .inl rfl
        unfold removeFile
        cases fault with
        | true => exact ⟨hsame, nofun, nofun⟩
        | false =>
          cases (d.files sha).isSome with
          | true | false => exact ⟨hgone, by rintro _ ⟨⟩; rfl, nofun⟩

end LarkCodexBridge.Runtime.Attachments
