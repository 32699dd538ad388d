import Mathlib
import LarkCodexBridge.Store.Writer

/-!
# Attachment rows and leases

The tables `attachments` and `attachment_leases`, with what the leases need of `turns`: which rows there are and whether
`delete_stale_attachment_leases` counts them as over. A lease disappears with its attachment row.

* `AttachmentRequest`: the requests of the cache to the store writer; `AttachmentRequest.job`: what each does.

Lease tokens are numbers that the caller draws. `released` records the tokens whose leases a release deleted; no job
reads it.
-/

namespace LarkCodexBridge.Store

open Limits

/-- One row of `attachments`. -/
structure AttachmentRow where
  sha256 : String
  bytes : ℕ
  kind : String
  createdMs : ℤ
  lastUsedMs : ℤ

/-- `ORDER BY last_used_ms, sha256`. -/
def AttachmentRow.olderThan (a b : AttachmentRow) : Prop :=
  a.lastUsedMs < b.lastUsedMs ∨ a.lastUsedMs = b.lastUsedMs ∧ a.sha256 ≤ b.sha256

instance : DecidableRel AttachmentRow.olderThan := fun a b =>
  inferInstanceAs (Decidable (a.lastUsedMs < b.lastUsedMs ∨ a.lastUsedMs = b.lastUsedMs ∧ a.sha256 ≤ b.sha256))

/-- One row of `attachment_leases`. -/
structure AttachmentLeaseRow where
  leaseToken : ℕ
  sha256 : String
  turnRowId : ℕ
  createdMs : ℤ

/-- The attachment tables; `turns` is `none` where there is no turn row, else whether the turn is over. -/
structure AttachmentDb where
  attachments : List AttachmentRow
  leases : List AttachmentLeaseRow
  turns : ℕ → Option Bool
  released : List ℕ

/-- A request of the attachment cache. -/
inductive AttachmentRequest where
  | putAttachmentAndLease (token : ℕ) (sha256 : String) (bytes : ℕ) (kind : String) (turnRowId : ℕ)
  | releaseAttachmentLease (token : ℕ)
  | releaseTurnAttachmentLeases (turnRowId : ℕ)
  | listAttachments
  | attachmentRow (sha256 : String)
  | deleteAttachment (sha256 : String)
  | deleteAttachmentForce (sha256 : String)
  | deleteStaleAttachmentLeases

/-- What a request answers: each fills the field it returns. -/
structure AttachmentAnswer where
  token : ℕ := 0
  changed : Bool := false
  count : ℕ := 0
  rows : List AttachmentRow := []
  row : Option AttachmentRow := none

namespace AttachmentDb

variable (db : AttachmentDb)

/-- Whether there is a row of this hash. -/
def has (sha256 : String) : Bool := db.attachments.any (·.sha256 = sha256)

/-- Whether there is a lease on this hash. -/
def leased (sha256 : String) : Bool := db.leases.any (·.sha256 = sha256)

/-- `INSERT INTO attachments … ON CONFLICT (sha256) DO UPDATE SET last_used_ms`. -/
def upsert (sha256 : String) (bytes : ℕ) (kind : String) (now : ℤ) : List AttachmentRow :=
  if db.has sha256 then
    db.attachments.map fun row => if row.sha256 = sha256 then { row with lastUsedMs := now } else row
  else db.attachments ++ [⟨sha256, bytes, kind, now, now⟩]

def putAttachmentAndLease (token : ℕ) (sha256 : String) (bytes : ℕ) (kind : String) (turnRowId : ℕ) (now : ℤ) :
    Except StoreError (AttachmentAnswer × AttachmentDb) :=
  if !db.has sha256 && (storeAttachmentMaxRows ≤ db.attachments.length ||
      storeAttachmentMaxBytes < (db.attachments.map (·.bytes)).sum + bytes) then
    .error (.capacityExceeded "recording an attachment")
  else if storeAttachmentLeaseMaxRows ≤ db.leases.length then
    .error (.capacityExceeded "adding an attachment lease")
  else if (db.turns turnRowId).isNone || db.leases.any (·.leaseToken = token) then
    .error (.sqlite "adding an attachment lease" none)
  else .ok ({ token := token }, { db with
    attachments := db.upsert sha256 bytes kind now
    leases := db.leases ++ [⟨token, sha256, turnRowId, now⟩] })

/-- Deletes the leases that `p` selects, which end by a release. -/
def release (p : AttachmentLeaseRow → Bool) : AttachmentDb :=
  { db with
    leases := db.leases.filter fun lease => !p lease
    released := db.released ++ (db.leases.filter p).map (·.leaseToken) }

/-- Deletes one attachment row with its leases. -/
def remove (sha256 : String) : AttachmentDb :=
  { db with
    attachments := db.attachments.filter (·.sha256 ≠ sha256)
    leases := db.leases.filter (·.sha256 ≠ sha256) }

/-- Whether `delete_stale_attachment_leases` deletes a lease. -/
def stale (lease : AttachmentLeaseRow) : Bool := db.turns lease.turnRowId = some true

end AttachmentDb

/-- What the writer does for each request. -/
def AttachmentRequest.job (now : ℤ) : AttachmentRequest → Job AttachmentDb AttachmentAnswer
  | .putAttachmentAndLease token sha256 bytes kind turnRowId, db =>
    db.putAttachmentAndLease token sha256 bytes kind turnRowId now
  | .releaseAttachmentLease token, db =>
    .ok ({ changed := db.leases.any (·.leaseToken = token) }, db.release (·.leaseToken = token))
  | .releaseTurnAttachmentLeases turnRowId, db =>
    .ok ({ count := db.leases.countP (·.turnRowId = turnRowId) }, db.release (·.turnRowId = turnRowId))
  | .listAttachments, db =>
    if storeAttachmentMaxRows < db.attachments.length then .error (.capacityExceeded "listing attachments")
    else .ok ({ rows := db.attachments.insertionSort AttachmentRow.olderThan }, db)
  | .attachmentRow sha256, db => .ok ({ row := db.attachments.find? (·.sha256 = sha256) }, db)
  | .deleteAttachment sha256, db =>
    if db.has sha256 && !db.leased sha256 then .ok ({ changed := true }, db.remove sha256) else .ok ({}, db)
  | .deleteAttachmentForce sha256, db => .ok ({ changed := db.has sha256 }, db.remove sha256)
  | .deleteStaleAttachmentLeases, db =>
    .ok ({ count := db.leases.countP db.stale }, { db with leases := db.leases.filter fun lease => !db.stale lease })

/-! ## What a request may change -/

variable {db : AttachmentDb} {sha256 : String}

theorem AttachmentDb.has_iff :
    db.has sha256 = true ↔ ∃ row ∈ db.attachments, row.sha256 = sha256 := by
  simp [has]

variable {now : ℤ} {bytes : ℕ} {kind : String} {a : AttachmentAnswer}

/-- An upsert keeps hash and size of every row and adds at most the row it is given. -/
theorem AttachmentDb.mem_upsert {row : AttachmentRow} (h : row ∈ db.upsert sha256 bytes kind now) :
    (∃ old ∈ db.attachments, row.sha256 = old.sha256 ∧ row.bytes = old.bytes) ∨
      row.sha256 = sha256 ∧ row.bytes = bytes := by
  unfold upsert at h
  split at h
  · obtain ⟨old, hold, rfl⟩ := List.mem_map.1 h
    refine .inl ⟨old, hold, ?_⟩
    split <;> exact ⟨rfl, rfl⟩
  · rcases List.mem_append.1 h with h | h
    · exact .inl ⟨row, h, rfl, rfl⟩
    · rw [List.mem_singleton.1 h]
      exact .inr ⟨rfl, rfl⟩

theorem AttachmentDb.upsert_has {name : String} (h : (∃ row ∈ db.attachments, row.sha256 = name) ∨ name = sha256) :
    ∃ row ∈ db.upsert sha256 bytes kind now, row.sha256 = name := by
  unfold upsert
  split
  · next hhas =>
    obtain ⟨row, hrow, rfl⟩ : ∃ row ∈ db.attachments, row.sha256 = name := by
      rcases h with h | rfl
      · exact h
      · exact has_iff.1 hhas
    refine ⟨_, List.mem_map_of_mem hrow, ?_⟩
    split <;> rfl
  · rcases h with ⟨row, hrow, rfl⟩ | rfl
    · exact ⟨row, List.mem_append_left _ hrow, rfl⟩
    · exact ⟨_, List.mem_append_right _ (List.mem_singleton_self _), rfl⟩

/-- What every request but a `put` and a forced deletion does: rows and leases only disappear, a lease only by a release
or because its turn is over, and a lease that stays keeps its row. -/
structure AttachmentDb.Shrinks (db db' : AttachmentDb) : Prop where
  rows : ∀ row ∈ db'.attachments, row ∈ db.attachments
  leases : ∀ lease ∈ db'.leases, lease ∈ db.leases
  kept : ∀ lease ∈ db.leases,
    lease ∈ db'.leases ∨ lease.leaseToken ∈ db'.released ∨ db.turns lease.turnRowId = some true
  backed : ∀ lease ∈ db'.leases, ∀ row ∈ db.attachments, row.sha256 = lease.sha256 → row ∈ db'.attachments
  turns : db'.turns = db.turns
  released : db.released ⊆ db'.released

namespace AttachmentDb

variable {db : AttachmentDb}

theorem shrinks_refl (db : AttachmentDb) : db.Shrinks db :=
  ⟨fun _ h => h, fun _ h => h, fun _ h => .inl h, fun _ _ _ h _ => h, rfl, fun _ h => h⟩

theorem release_shrinks (p : AttachmentLeaseRow → Bool) : db.Shrinks (db.release p) where
  rows _ h := h
  leases _ h := (List.mem_filter.1 h).1
  kept lease h := by
    cases hp : p lease with
    | true =>
      exact .inr (.inl (List.mem_append_right _ (List.mem_map_of_mem (List.mem_filter.2 ⟨h, hp⟩))))
    | false => exact .inl (List.mem_filter.2 ⟨h, by simp [hp]⟩)
  backed _ _ _ h _ := h
  turns := rfl
  released := List.subset_append_left _ _

/-- A row without leases takes no lease with it. -/
theorem remove_shrinks {sha256 : String} (h : db.leased sha256 = false) : db.Shrinks (db.remove sha256) := by
  have hne : ∀ lease ∈ db.leases, lease.sha256 ≠ sha256 := by simpa [leased] using h
  refine ⟨fun _ hr => (List.mem_filter.1 hr).1, fun _ hl => (List.mem_filter.1 hl).1, fun lease hl => ?_,
    fun lease hl row hr heq => ?_, rfl, fun _ ht => ht⟩
  · exact .inl (List.mem_filter.2 ⟨hl, by simpa using hne lease hl⟩)
  · refine List.mem_filter.2 ⟨hr, ?_⟩
    simpa [heq] using hne lease (List.mem_filter.1 hl).1

theorem stale_shrinks : db.Shrinks { db with leases := db.leases.filter fun lease => !db.stale lease } where
  rows _ h := h
  leases _ h := (List.mem_filter.1 h).1
  kept lease h := by
    by_cases hover : db.turns lease.turnRowId = some true
    · exact .inr (.inr hover)
    · exact .inl (List.mem_filter.2 ⟨h, by simp [stale, hover]⟩)
  backed _ _ _ h _ := h
  turns := rfl
  released _ h := h

theorem put_eq_ok {token bytes turnRowId : ℕ} {sha256 kind : String} {now : ℤ} {a : AttachmentAnswer}
    {db' : AttachmentDb} (h : db.putAttachmentAndLease token sha256 bytes kind turnRowId now = .ok (a, db')) :
    a.token = token ∧ db' = { db with
      attachments := db.upsert sha256 bytes kind now
      leases := db.leases ++ [⟨token, sha256, turnRowId, now⟩] } := by
  unfold putAttachmentAndLease at h
  split_ifs at h
  cases h
  exact ⟨rfl, rfl⟩

end AttachmentDb

/-- A request that stores the lease with this token. -/
def AttachmentRequest.Puts (r : AttachmentRequest) (token : ℕ) (sha256 : String) (bytes : ℕ) : Prop :=
  ∃ kind turnRowId, r = .putAttachmentAndLease token sha256 bytes kind turnRowId

variable {db' : AttachmentDb}

theorem AttachmentRequest.job_shrinks {r : AttachmentRequest} (h : r.job now db = .ok (a, db'))
    (hput : ∀ token sha256 bytes, ¬r.Puts token sha256 bytes) (hforce : ∀ sha256, r ≠ .deleteAttachmentForce sha256) :
    db.Shrinks db' := by
  cases r with
  | putAttachmentAndLease token sha256 bytes kind turnRowId => exact absurd ⟨_, _, rfl⟩ (hput token sha256 bytes)
  | releaseAttachmentLease token | releaseTurnAttachmentLeases turnRowId => cases h; exact AttachmentDb.release_shrinks _
  | listAttachments =>
    simp only [job] at h
    split at h
    · cases h
    · cases h; exact AttachmentDb.shrinks_refl db
  | attachmentRow sha256 => cases h; exact AttachmentDb.shrinks_refl db
  | deleteAttachment sha256 =>
    simp only [job] at h
    split at h
    · next hc =>
      cases h
      simp only [Bool.and_eq_true, Bool.not_eq_true'] at hc
      exact AttachmentDb.remove_shrinks hc.2
    · cases h; exact AttachmentDb.shrinks_refl db
  | deleteAttachmentForce sha256 => exact absurd rfl (hforce sha256)
  | deleteStaleAttachmentLeases => cases h; exact AttachmentDb.stale_shrinks

theorem AttachmentRequest.list_rows (h : AttachmentRequest.listAttachments.job now db = .ok (a, db')) :
    db' = db ∧ ∀ row, row ∈ a.rows ↔ row ∈ db.attachments := by
  simp only [job] at h
  split at h
  · cases h
  · cases h
    exact ⟨rfl, fun _ => (List.perm_insertionSort _ _).mem_iff⟩

theorem AttachmentRequest.row_eq_none (h : (AttachmentRequest.attachmentRow sha256).job now db = .ok (a, db')) :
    db' = db ∧ (a.row = none → ∀ row ∈ db.attachments, row.sha256 ≠ sha256) := by
  cases h
  exact ⟨rfl, fun hnone row hrow => by simpa using List.find?_eq_none.1 hnone row hrow⟩

theorem AttachmentRequest.release_gone {now : ℤ} {token : ℕ} {db db' : AttachmentDb} {a : AttachmentAnswer}
    (h : (AttachmentRequest.releaseAttachmentLease token).job now db = .ok (a, db')) :
    ∀ lease ∈ db'.leases, lease.leaseToken ≠ token := by
  cases h
  intro lease hl
  simpa using (List.mem_filter.1 hl).2

end LarkCodexBridge.Store
