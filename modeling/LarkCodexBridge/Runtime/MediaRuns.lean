import Mathlib
import LarkCodexBridge.Runtime.System

/-!
# Runs of the pending media

The queue of a scope actor with its reservations and with where each staged item went. Reservations move items out of the
queue and back while others are staged, expire or are cleared.

* `MediaLedger`: the queue, the reservations that are held, and the items that were committed, expired or evicted;
* `Kept`: every staged item is in one place, and the queue keeps its bounds and the order of the expiry times
  (`Kept.step`);
* `Ordered`: equal expiry times keep the order of staging and nothing comes back after a reset, if the steps are `Tidy`;
* `media_used_once`, and `restore_reorders`: reservations put back in the order they were made.
-/

namespace LarkCodexBridge.Runtime

open Lark Store StepSystem

/-! ## The ledger -/

/-- An item with its number among the staged ones and the resets before it. -/
structure StagedMedia where
  serial : ℕ
  resets : ℕ
  item : PendingMediaItem
  deriving DecidableEq

/-- A reservation that is neither committed nor put back. -/
structure HeldMedia where
  reservation : PendingMediaReservation
  resets : ℕ
  media : List StagedMedia
  deriving DecidableEq

structure MediaLedger where
  queue : PendingMediaQueue
  clock : ℕ
  held : List HeldMedia
  /-- The items of the queue. -/
  shelf : List StagedMedia
  committed : List StagedMedia
  expired : List StagedMedia
  /-- Taken from the queue for its bounds, or gone with a reset. -/
  evicted : List StagedMedia
  staged : List StagedMedia
  resets : ℕ

/-- An operation, and how long it comes after the one before. -/
inductive MediaEvent where
  /-- `later` lies between the two readings of the clock. -/
  | stage (event : InboundEvent) (wait later : ℕ)
  | reserve (wait : ℕ)
  | commit (i : ℕ)
  /-- The reservation is dropped. -/
  | restore (i wait : ℕ)
  | expire (wait : ℕ)
  | clear

namespace PendingMediaQueue

/-- `stage`, with the clock that it reads for the new item. -/
def stageAt (q : PendingMediaQueue) (now later : ℕ) (event : InboundEvent) : PendingMediaQueue :=
  let q := q.expire now
  let added := pendingMetadataBytes event
  if added > q.maxMetadataBytes then q
  else
    let (items, bytes) :=
      evictWhile (fun count bytes => count ≥ q.maxCount || bytes + added > q.maxMetadataBytes) q.items q.metadataBytes
    { q with items := items ++ [⟨event, added, later + q.ttl⟩], metadataBytes := bytes + added }

end PendingMediaQueue

namespace MediaLedger

/-- `expire`: the queue loses the front of the shelf. -/
def expireAt (s : MediaLedger) (now : ℕ) : MediaLedger :=
  let queue := s.queue.expire now
  let gone := s.shelf.length - queue.items.length
  { s with queue, clock := now, shelf := s.shelf.drop gone, expired := s.expired ++ s.shelf.take gone }

def stage (s : MediaLedger) (event : InboundEvent) (now later : ℕ) : MediaLedger :=
  let queue := s.queue.stageAt now later event
  let s := s.expireAt now
  if pendingMetadataBytes event > s.queue.maxMetadataBytes then { s with queue, clock := later }
  else
    let gone := s.shelf.length + 1 - queue.items.length
    let staged : StagedMedia := ⟨s.staged.length, s.resets, ⟨event, pendingMetadataBytes event, later + s.queue.ttl⟩⟩
    { s with
      queue
      clock := later
      shelf := s.shelf.drop gone ++ [staged]
      evicted := s.evicted ++ s.shelf.take gone
      staged := s.staged ++ [staged] }

def reserve (s : MediaLedger) (now : ℕ) : MediaLedger :=
  let (reservation, queue) := s.queue.reserveAll now
  let s := s.expireAt now
  { s with queue, held := s.held ++ [⟨reservation, s.resets, s.shelf⟩], shelf := [] }

def commit (s : MediaLedger) (i : ℕ) : MediaLedger :=
  match s.held[i]? with
  | none => s
  | some h => { s with held := s.held.eraseIdx i, committed := s.committed ++ h.media }

/-- The items of a reservation and of the shelf in the order in which they are put back. -/
def merged (now : ℕ) (media shelf : List StagedMedia) : List StagedMedia :=
  ((media ++ shelf).filter fun t => t.item.expiresAt > now).mergeSort fun a b => a.item.expiresAt ≤ b.item.expiresAt

def restore (s : MediaLedger) (i now : ℕ) : MediaLedger :=
  match s.held[i]? with
  | none => s
  | some h =>
    let queue := s.queue.restore now h.reservation
    if h.reservation.generation ≠ s.queue.generation then
      { s with queue, clock := now, held := s.held.eraseIdx i, evicted := s.evicted ++ h.media }
    else
      let s := s.expireAt now
      let merged := merged now h.media s.shelf
      let gone := merged.length - queue.items.length
      { s with
        queue
        held := s.held.eraseIdx i
        shelf := merged.drop gone
        evicted := s.evicted ++ merged.take gone
        expired := s.expired ++ (h.media ++ s.shelf).filter fun t => !decide (t.item.expiresAt > now) }

def clear (s : MediaLedger) : MediaLedger :=
  { s with queue := s.queue.clear, shelf := [], evicted := s.evicted ++ s.shelf, resets := s.resets + 1 }

def step (s : MediaLedger) : MediaEvent → MediaLedger
  | .stage event wait later => s.stage event (s.clock + wait) (s.clock + wait + later)
  | .reserve wait => s.reserve (s.clock + wait)
  | .commit i => s.commit i
  | .restore i wait => s.restore i (s.clock + wait)
  | .expire wait => s.expireAt (s.clock + wait)
  | .clear => s.clear

def start (settings : RouterSettings) : MediaLedger := ⟨.new settings, 0, [], [], [], [], [], [], 0⟩

def after (settings : RouterSettings) (es : List MediaEvent) : MediaLedger := exec step (start settings) es

/-- How often the item is in one of its places. -/
def places (s : MediaLedger) (t : StagedMedia) : ℕ :=
  s.shelf.count t + (s.held.flatMap (·.media)).count t + s.committed.count t + s.expired.count t + s.evicted.count t

end MediaLedger

/-! ## The front of the queue -/

namespace PendingMediaQueue

def bytesOf (items : List PendingMediaItem) : ℕ := (items.map (·.metadataBytes)).sum

theorem dropFront_eq (p : PendingMediaItem → Bool) (items : List PendingMediaItem) :
    dropFront p items (bytesOf items) = (items.dropWhile p, bytesOf (items.dropWhile p)) := by
  induction items with
  | nil => rfl
  | cons item items ih =>
    rw [dropFront, List.dropWhile_cons]
    split
    · rw [show bytesOf (item :: items) - item.metadataBytes = bytesOf items by simp [bytesOf], ih]
    · rfl

/-- What is evicted is the front, and the rest is within the bounds or empty. -/
theorem evictWhile_eq (full : ℕ → ℕ → Bool) (items : List PendingMediaItem) : ∃ kept, kept <:+ items ∧
    evictWhile full items (bytesOf items) = (kept, bytesOf kept) ∧ (kept = [] ∨ full kept.length (bytesOf kept) = false) := by
  induction items with
  | nil => exact ⟨[], List.suffix_rfl, rfl, .inl rfl⟩
  | cons item items ih =>
    rw [evictWhile]
    split
    · rw [show bytesOf (item :: items) - item.metadataBytes = bytesOf items by simp [bytesOf]]
      obtain ⟨kept, hsuffix, heq, hfull⟩ := ih
      exact ⟨kept, hsuffix.trans (List.suffix_cons _ _), heq, hfull⟩
    · next hroom => exact ⟨item :: items, List.suffix_rfl, rfl, .inr (Bool.eq_false_iff.2 hroom)⟩

theorem evictWhile_of_fits {full : ℕ → ℕ → Bool} {items : List PendingMediaItem} {bytes : ℕ}
    (h : full items.length bytes = false) : evictWhile full items bytes = (items, bytes) := by
  cases items with
  | nil => rfl
  | cons item items => exact if_neg (Bool.eq_false_iff.1 h)

/-- The bounds of the queue. -/
structure Bounded (q : PendingMediaQueue) : Prop where
  bytes : q.metadataBytes = bytesOf q.items
  count : q.items.length ≤ q.maxCount
  total : q.metadataBytes ≤ q.maxMetadataBytes
  sorted : q.items.Pairwise fun a b => a.expiresAt ≤ b.expiresAt

variable {q : PendingMediaQueue} {now later : ℕ} {event : InboundEvent}

theorem bytesOf_le_of_suffix {kept items : List PendingMediaItem} (h : kept <:+ items) : bytesOf kept ≤ bytesOf items := by
  obtain ⟨front, rfl⟩ := h
  simp [bytesOf]

theorem expire_eq (h : q.Bounded) (now : ℕ) :
    q.expire now = { q with
      items := q.items.dropWhile fun item => now ≥ item.expiresAt
      metadataBytes := bytesOf (q.items.dropWhile fun item => now ≥ item.expiresAt) } := by
  rw [expire, h.bytes, dropFront_eq]

theorem Bounded.expire (h : q.Bounded) (now : ℕ) : (q.expire now).Bounded := by
  rw [expire_eq h]
  have hsuffix := List.dropWhile_suffix (fun item : PendingMediaItem => decide (now ≥ item.expiresAt)) (l := q.items)
  exact ⟨rfl, hsuffix.length_le.trans h.count, (bytesOf_le_of_suffix hsuffix).trans (h.bytes ▸ h.total),
    h.sorted.sublist hsuffix.sublist⟩

theorem expire_suffix (h : q.Bounded) (now : ℕ) : (q.expire now).items <:+ q.items := by
  rw [expire_eq h]
  exact List.dropWhile_suffix _

/-- An item that fits is staged behind what is kept of the queue. -/
theorem stageAt_eq (h : q.Bounded) (hpos : 0 < q.maxCount) (hfits : pendingMetadataBytes event ≤ q.maxMetadataBytes)
    (hlater : ∀ item ∈ q.items, item.expiresAt ≤ later + q.ttl) :
    ∃ kept, kept <:+ (q.expire now).items ∧ (q.stageAt now later event).Bounded ∧ q.stageAt now later event =
      { q with
        items := kept ++ [⟨event, pendingMetadataBytes event, later + q.ttl⟩]
        metadataBytes := bytesOf kept + pendingMetadataBytes event } := by
  have hexpired := h.expire now
  obtain ⟨kept, hsuffix, heq, hroom⟩ := evictWhile_eq (fun count bytes =>
    count ≥ q.maxCount || bytes + pendingMetadataBytes event > q.maxMetadataBytes) (q.expire now).items
  have hstage : q.stageAt now later event = { q with
      items := kept ++ [⟨event, pendingMetadataBytes event, later + q.ttl⟩]
      metadataBytes := bytesOf kept + pendingMetadataBytes event } := by
    have hmax : ¬pendingMetadataBytes event > (q.expire now).maxMetadataBytes := not_lt.2 hfits
    rw [stageAt]
    dsimp only
    rw [if_neg hmax, hexpired.bytes]
    exact congrArg (fun kept : List PendingMediaItem × ℕ => { q with
      items := kept.1 ++ [(⟨event, pendingMetadataBytes event, later + q.ttl⟩ : PendingMediaItem)]
      metadataBytes := kept.2 + pendingMetadataBytes event }) heq
  have hcount : kept.length < q.maxCount ∧ bytesOf kept + pendingMetadataBytes event ≤ q.maxMetadataBytes := by
    rcases hroom with rfl | hroom
    · exact ⟨hpos, by simpa [bytesOf] using hfits⟩
    · simpa using hroom
  refine ⟨kept, hsuffix, ?_, hstage⟩
  rw [hstage]
  refine ⟨by simp [bytesOf], by simpa using Nat.succ_le_of_lt hcount.1, hcount.2, ?_⟩
  rw [List.pairwise_append]
  refine ⟨hexpired.sorted.sublist hsuffix.sublist, List.pairwise_singleton _ _, fun a ha b hb => ?_⟩
  rw [List.mem_singleton.1 hb]
  exact hlater a ((expire_suffix h now).subset (hsuffix.subset ha))

theorem stageAt_of_large (hlarge : pendingMetadataBytes event > q.maxMetadataBytes) :
    q.stageAt now later event = q.expire now := if_pos hlarge

/-- The reserved items and the queue in the order in which they are put back. -/
def mergedItems (now : ℕ) (items queued : List PendingMediaItem) : List PendingMediaItem :=
  ((items ++ queued).filter fun item => item.expiresAt > now).mergeSort fun a b => a.expiresAt ≤ b.expiresAt

theorem pairwise_mergeSort_expiresAt {α : Type*} (f : α → ℕ) (items : List α) :
    (items.mergeSort fun a b => f a ≤ f b).Pairwise fun a b => f a ≤ f b :=
  (List.pairwise_mergeSort (fun _ _ _ hab hbc => by simp at *; omega) (fun _ _ => by simp; omega) items).imp fun h => by
    simpa using h

/-- What is put back is the back of the merged items, within the bounds. -/
theorem restore_eq {r : PendingMediaReservation} (hgeneration : r.generation = q.generation) :
    ∃ kept, kept <:+ mergedItems now r.items (q.expire now).items ∧ (q.restore now r).Bounded ∧
      q.restore now r = { q with items := kept, metadataBytes := bytesOf kept } := by
  obtain ⟨kept, hsuffix, heq, hroom⟩ := evictWhile_eq (fun count bytes => count > q.maxCount || bytes > q.maxMetadataBytes)
    (mergedItems now r.items (q.expire now).items)
  have hrestore : q.restore now r = { q with items := kept, metadataBytes := bytesOf kept } := by
    rw [restore, if_neg (not_not.2 hgeneration)]
    dsimp only
    exact congrArg (fun kept : List PendingMediaItem × ℕ => { q with items := kept.1, metadataBytes := kept.2 }) heq
  refine ⟨kept, hsuffix, ?_, hrestore⟩
  rw [hrestore]
  have hsorted : kept.Pairwise fun a b => a.expiresAt ≤ b.expiresAt :=
    (pairwise_mergeSort_expiresAt PendingMediaItem.expiresAt _).sublist hsuffix.sublist
  rcases hroom with rfl | hroom
  · exact ⟨rfl, Nat.zero_le _, Nat.zero_le _, hsorted⟩
  · have hbounds : kept.length ≤ q.maxCount ∧ bytesOf kept ≤ q.maxMetadataBytes := by simpa using hroom
    exact ⟨rfl, hbounds.1, hbounds.2, hsorted⟩

theorem restore_of_stale {r : PendingMediaReservation} (hgeneration : r.generation ≠ q.generation) : q.restore now r = q :=
  if_pos hgeneration

end PendingMediaQueue

/-! ## Items and their numbers -/

namespace MediaLedger

open PendingMediaQueue

def itemsOf (media : List StagedMedia) : List PendingMediaItem := media.map (·.item)

theorem itemsOf_merged (now : ℕ) (media shelf : List StagedMedia) :
    itemsOf (merged now media shelf) = mergedItems now (itemsOf media) (itemsOf shelf) := by
  have hsort := @List.map_mergeSort _ _ (fun a b : StagedMedia => decide (a.item.expiresAt ≤ b.item.expiresAt))
    (fun a b : PendingMediaItem => decide (a.expiresAt ≤ b.expiresAt)) StagedMedia.item
    ((media ++ shelf).filter fun t => t.item.expiresAt > now) fun _ _ _ _ => rfl
  refine hsort.trans ?_
  rw [mergedItems, itemsOf, itemsOf, ← List.map_append, List.filter_map]
  rfl

/-- What the queue keeps from its back is what the shelf keeps. -/
theorem itemsOf_drop {media : List StagedMedia} {kept : List PendingMediaItem} (h : kept <:+ itemsOf media) :
    itemsOf (media.drop (media.length - kept.length)) = kept := by
  rw [itemsOf, List.map_drop]
  have hdrop := List.suffix_iff_eq_drop.1 h
  rw [itemsOf, List.length_map] at hdrop
  exact hdrop.symm

/-! ## One place for every item -/

/-- Every staged item is in exactly one place, the shelf is the queue, and the queue keeps to its bounds. -/
structure Kept (settings : RouterSettings) (s : MediaLedger) : Prop where
  ttl : s.queue.ttl = settings.pendingMediaTtl
  maxCount : s.queue.maxCount = settings.pendingMediaMaxCount
  maxBytes : s.queue.maxMetadataBytes = settings.pendingMediaMaxMetadataBytes
  bounded : s.queue.Bounded
  shelf : itemsOf s.shelf = s.queue.items
  held : ∀ h ∈ s.held, itemsOf h.media = h.reservation.items
  places : ∀ t, s.places t = s.staged.count t
  serials : s.staged.map StagedMedia.serial = List.range s.staged.length
  times : ∀ t ∈ s.staged, t.item.expiresAt ≤ s.clock + s.queue.ttl

variable {settings : RouterSettings} {s : MediaLedger} {now later i : ℕ} {event : InboundEvent} {t : StagedMedia}

theorem kept_start (settings : RouterSettings) : (start settings).Kept settings where
  ttl := rfl
  maxCount := rfl
  maxBytes := rfl
  bounded := ⟨rfl, Nat.zero_le _, Nat.zero_le _, List.Pairwise.nil⟩
  shelf := rfl
  held := List.forall_mem_nil _
  places _ := rfl
  serials := rfl
  times := List.forall_mem_nil _

theorem count_split (n : ℕ) (media : List StagedMedia) (t : StagedMedia) :
    (media.take n).count t + (media.drop n).count t = media.count t := by
  rw [← List.count_append, List.take_append_drop]

section

variable (h : s.Kept settings)
include h

theorem Kept.staged (ht : 0 < s.places t) : t ∈ s.staged :=
  List.count_pos_iff.1 (h.places t ▸ ht)

theorem Kept.staged_shelf (ht : t ∈ s.shelf) : t ∈ s.staged := by
  have hpos := List.count_pos_iff.2 ht
  refine h.staged ?_
  rw [MediaLedger.places]
  omega

theorem Kept.queued_times {item : PendingMediaItem} (hitem : item ∈ s.queue.items) :
    item.expiresAt ≤ s.clock + s.queue.ttl := by
  rw [← h.shelf] at hitem
  obtain ⟨t, ht, rfl⟩ := List.mem_map.1 hitem
  exact h.times t (h.staged_shelf ht)

theorem Kept.expireAt (hnow : s.clock ≤ now) : (s.expireAt now).Kept settings where
  ttl := h.ttl
  maxCount := h.maxCount
  maxBytes := h.maxBytes
  bounded := h.bounded.expire now
  shelf := itemsOf_drop (h.shelf ▸ expire_suffix h.bounded now)
  held := h.held
  places t := by
    have hsplit := count_split (s.shelf.length - (s.queue.expire now).items.length) s.shelf t
    have hplaces := h.places t
    rw [MediaLedger.places] at hplaces ⊢
    unfold MediaLedger.expireAt
    dsimp only
    rw [List.count_append]
    omega
  serials := h.serials
  times t ht := (h.times t ht).trans (Nat.add_le_add_right hnow _)

theorem Kept.stage (hpos : 0 < settings.pendingMediaMaxCount) (hnow : s.clock ≤ now) (hlater : now ≤ later) :
    (s.stage event now later).Kept settings := by
  have hexpired := h.expireAt hnow
  unfold MediaLedger.stage
  dsimp only
  split
  · next hlarge =>
    rw [stageAt_of_large (q := s.queue) hlarge]
    exact { hexpired with times := fun t ht => (hexpired.times t ht).trans (Nat.add_le_add_right hlater _) }
  · next hfits =>
    obtain ⟨kept, hsuffix, hbounded, heq⟩ := @stageAt_eq _ now later event h.bounded (h.maxCount ▸ hpos) (not_lt.1 hfits)
      fun item hitem => (h.queued_times hitem).trans (Nat.add_le_add_right (hnow.trans hlater) _)
    have hlen : (s.queue.stageAt now later event).items.length = kept.length + 1 := by
      rw [heq, List.length_append, List.length_singleton]
    have hkept : kept <:+ itemsOf (s.expireAt now).shelf := hexpired.shelf ▸ hsuffix
    rw [hlen, Nat.add_sub_add_right]
    refine ⟨?_, ?_, ?_, hbounded, ?_, h.held, fun t => ?_, ?_, fun t ht => ?_⟩
    · rw [heq]
      exact h.ttl
    · rw [heq]
      exact h.maxCount
    · rw [heq]
      exact h.maxBytes
    · rw [heq, itemsOf, List.map_append, ← itemsOf, itemsOf_drop hkept]
      rfl
    · have hsplit := count_split ((s.expireAt now).shelf.length - kept.length) (s.expireAt now).shelf t
      have hplaces := hexpired.places t
      rw [MediaLedger.places] at hplaces
      rw [MediaLedger.places]
      dsimp only
      rw [List.count_append, List.count_append, List.count_append]
      omega
    · rw [List.map_append, hexpired.serials, List.length_append, List.length_singleton, List.range_succ]
      rfl
    · have hqueue : (s.queue.stageAt now later event).ttl = s.queue.ttl := by rw [heq]
      rw [hqueue]
      rcases List.mem_append.1 ht with ht | ht
      · exact (hexpired.times t ht).trans (Nat.add_le_add_right hlater _)
      · rw [List.mem_singleton.1 ht]
        exact le_rfl

theorem Kept.reserve (hnow : s.clock ≤ now) : (s.reserve now).Kept settings := by
  have hexpired := h.expireAt hnow
  refine ⟨h.ttl, h.maxCount, h.maxBytes, ⟨rfl, Nat.zero_le _, Nat.zero_le _, List.Pairwise.nil⟩, rfl, ?_, fun t => ?_,
    h.serials, hexpired.times⟩
  · refine List.forall_mem_append.2 ⟨h.held, fun held hheld => ?_⟩
    rw [List.mem_singleton.1 hheld]
    exact hexpired.shelf
  · have hplaces := hexpired.places t
    rw [MediaLedger.places] at hplaces ⊢
    unfold MediaLedger.reserve
    dsimp only
    rw [List.flatMap_append, List.count_append, List.flatMap_singleton, List.count_nil]
    dsimp only
    omega

end

/-- A reservation that is taken out of those that are held. -/
theorem count_eraseIdx {held : List HeldMedia} {h : HeldMedia} (hi : held[i]? = some h) (t : StagedMedia) :
    (held.flatMap (·.media)).count t = h.media.count t + ((held.eraseIdx i).flatMap (·.media)).count t := by
  obtain ⟨hlt, rfl⟩ := List.getElem?_eq_some_iff.1 hi
  have hperm := (List.getElem_cons_eraseIdx_perm hlt).flatMap_right (·.media)
  rw [← hperm.count_eq t, List.flatMap_cons, List.count_append]

theorem Kept.commit (h : s.Kept settings) (i : ℕ) : (s.commit i).Kept settings := by
  unfold MediaLedger.commit
  split
  · exact h
  · next held hi =>
    refine ⟨h.ttl, h.maxCount, h.maxBytes, h.bounded, h.shelf, fun other hother => h.held other (List.mem_of_mem_eraseIdx hother),
      fun t => ?_, h.serials, h.times⟩
    have hplaces := h.places t
    have herase := count_eraseIdx hi t
    rw [MediaLedger.places] at hplaces ⊢
    dsimp only
    rw [List.count_append]
    omega

theorem Kept.clear (h : s.Kept settings) : s.clear.Kept settings := by
  refine ⟨h.ttl, h.maxCount, h.maxBytes, ⟨rfl, Nat.zero_le _, Nat.zero_le _, List.Pairwise.nil⟩, rfl, h.held, fun t => ?_,
    h.serials, h.times⟩
  have hplaces := h.places t
  rw [MediaLedger.places] at hplaces ⊢
  unfold MediaLedger.clear
  dsimp only
  rw [List.count_append, List.count_nil]
  omega

theorem count_merged (now : ℕ) (media shelf : List StagedMedia) (t : StagedMedia) :
    (merged now media shelf).count t + ((media ++ shelf).filter fun t => !decide (t.item.expiresAt > now)).count t =
      media.count t + shelf.count t := by
  rw [merged, (List.mergeSort_perm _ _).count_eq t, ← List.count_append, ← List.count_append]
  exact (List.filter_append_perm _ _).count_eq t

theorem Kept.restore (h : s.Kept settings) (hnow : s.clock ≤ now) (i : ℕ) : (s.restore i now).Kept settings := by
  unfold MediaLedger.restore
  split
  · exact h
  · next held hi =>
    have herase := count_eraseIdx hi
    have hmem := List.mem_of_getElem? hi
    dsimp only
    split
    · next hstale =>
      rw [restore_of_stale hstale]
      refine ⟨h.ttl, h.maxCount, h.maxBytes, h.bounded, h.shelf,
        fun other hother => h.held other (List.mem_of_mem_eraseIdx hother), fun t => ?_, h.serials,
        fun t ht => (h.times t ht).trans (Nat.add_le_add_right hnow _)⟩
      have hplaces := h.places t
      have := herase t
      rw [MediaLedger.places] at hplaces ⊢
      dsimp only
      rw [List.count_append]
      omega
    · next hgeneration =>
      have hexpired := h.expireAt hnow
      obtain ⟨kept, hsuffix, hbounded, heq⟩ := @restore_eq _ now _ (not_not.1 hgeneration)
      have hkept : kept <:+ itemsOf (merged now held.media (s.expireAt now).shelf) := by
        rw [itemsOf_merged, hexpired.shelf, h.held held hmem]
        exact hsuffix
      have hlen : (s.queue.restore now held.reservation).items.length = kept.length := by rw [heq]
      rw [hlen]
      refine ⟨?_, ?_, ?_, hbounded, ?_, fun other hother => h.held other (List.mem_of_mem_eraseIdx hother), fun t => ?_,
        h.serials, fun t ht => ?_⟩
      · rw [heq]
        exact h.ttl
      · rw [heq]
        exact h.maxCount
      · rw [heq]
        exact h.maxBytes
      · rw [heq]
        exact itemsOf_drop hkept
      · have hplaces := hexpired.places t
        have := herase t
        have hsplit := count_split ((merged now held.media (s.expireAt now).shelf).length - kept.length)
          (merged now held.media (s.expireAt now).shelf) t
        have hmerged := count_merged now held.media (s.expireAt now).shelf t
        rw [MediaLedger.places] at hplaces ⊢
        dsimp only
        rw [List.count_append, List.count_append]
        have hheld : (s.expireAt now).held = s.held := rfl
        rw [hheld] at hplaces
        rw [hheld]
        omega
      · rw [heq]
        exact hexpired.times t ht

/-- **One operation.** -/
theorem Kept.step (h : s.Kept settings) (hpos : 0 < settings.pendingMediaMaxCount) (e : MediaEvent) :
    (s.step e).Kept settings := by
  cases e with
  | stage event wait later => exact h.stage hpos (Nat.le_add_right _ _) (Nat.le_add_right _ _)
  | reserve wait => exact h.reserve (Nat.le_add_right _ _)
  | commit i => exact h.commit i
  | restore i wait => exact h.restore (Nat.le_add_right _ _) i
  | expire wait => exact h.expireAt (Nat.le_add_right _ _)
  | clear => exact h.clear

/-! ## Order and resets -/

/-- Items that expire together are in the order in which they were staged. -/
def InLine (a b : StagedMedia) : Prop := a.item.expiresAt = b.item.expiresAt → a.serial < b.serial

instance (a b : StagedMedia) : Decidable (InLine a b) := inferInstanceAs (Decidable (_ → _))

/-- The items of a reservation that is put back are older than those of the shelf that expire with them, and a reset does not
bring the generation around to that of a reservation. -/
def Tidy (s : MediaLedger) : MediaEvent → Prop
  | .restore i wait => ∀ h, s.held[i]? = some h → h.reservation.generation = s.queue.generation →
      ∀ a ∈ h.media, ∀ b ∈ s.shelf, s.clock + wait < a.item.expiresAt → InLine a b
  | .clear => ∀ h ∈ s.held, h.reservation.generation ≠ (s.queue.generation + 1) % 2 ^ 64
  | _ => True

/-- The shelf and the reservations are in line, and what is on the shelf or may come back was staged after the last reset. -/
structure Ordered (s : MediaLedger) : Prop where
  shelf : s.shelf.Pairwise InLine
  held : ∀ h ∈ s.held, h.media.Pairwise InLine
  fresh : ∀ t ∈ s.shelf, t.resets = s.resets
  reserved : ∀ h ∈ s.held, ∀ t ∈ h.media, t.resets = h.resets
  generations : ∀ h ∈ s.held, h.reservation.generation = s.queue.generation → h.resets = s.resets

theorem ordered_start (settings : RouterSettings) : (start settings).Ordered :=
  ⟨List.Pairwise.nil, List.forall_mem_nil _, List.forall_mem_nil _, List.forall_mem_nil _, List.forall_mem_nil _⟩

theorem pair_sublist {α : Type*} {a b : α} (hne : a ≠ b) : ∀ {items : List α}, a ∈ items → b ∈ items →
    [a, b].Sublist items ∨ [b, a].Sublist items
  | c :: items, ha, hb => by
    rcases List.mem_cons.1 ha with rfl | hbehind
    · exact .inl ((List.singleton_sublist.2 ((List.mem_cons.1 hb).resolve_left hne.symm)).cons_cons a)
    · rcases List.mem_cons.1 hb with rfl | hb
      · exact .inr ((List.singleton_sublist.2 hbehind).cons_cons b)
      · exact (pair_sublist hne hbehind hb).imp (·.cons c) (·.cons c)

theorem pair_not_both {α : Type*} {a b : α} : ∀ {items : List α}, items.Nodup → [a, b].Sublist items → ¬[b, a].Sublist items
  | c :: items, hnodup, hab, hba => by
    obtain ⟨hc, hnodup⟩ := List.nodup_cons.1 hnodup
    cases hab with
    | cons _ hab =>
      cases hba with
      | cons _ hba => exact pair_not_both hnodup hab hba
      | cons_cons _ hba => exact hc (hab.subset (by simp))
    | cons_cons _ hb =>
      cases hba with
      | cons _ hba | cons_cons _ hba => exact hc (hba.subset (by simp))

theorem inLine_mergeSort {media : List StagedMedia} (hnodup : media.Nodup) (h : media.Pairwise InLine) :
    (media.mergeSort fun a b => a.item.expiresAt ≤ b.item.expiresAt).Pairwise InLine := by
  have hsorted : (media.mergeSort fun a b => a.item.expiresAt ≤ b.item.expiresAt).Nodup :=
    (List.mergeSort_perm _ _).nodup_iff.2 hnodup
  rw [List.pairwise_iff_forall_sublist]
  intro a b hab heq
  have hne : a ≠ b := fun hsame => by
    have hpair := hsorted.sublist hab
    simp [hsame] at hpair
  have ha : a ∈ media := List.mem_mergeSort.1 (hab.subset (by simp))
  have hb : b ∈ media := List.mem_mergeSort.1 (hab.subset (by simp))
  rcases pair_sublist hne ha hb with hsub | hsub
  · exact List.pairwise_iff_forall_sublist.1 h hsub heq
  · -- the pair would be in the sorted list in both orders
    have hrev := @List.pair_sublist_mergeSort _ (fun a b : StagedMedia => decide (a.item.expiresAt ≤ b.item.expiresAt)) _ _ _
      (fun _ _ _ hab hbc => by simp at *; omega) (fun _ _ => by simp; omega) (by simp [heq]) hsub
    exact absurd hrev fun hrev => pair_not_both hsorted hab hrev

variable {h : HeldMedia}

theorem Kept.staged_nodup (h : s.Kept settings) : s.staged.Nodup :=
  List.Nodup.of_map StagedMedia.serial (h.serials ▸ List.nodup_range)

/-- A new number is larger than those before. -/
theorem Kept.serial_lt (h : s.Kept settings) (ht : t ∈ s.staged) : t.serial < s.staged.length := by
  have hmem := List.mem_map_of_mem (f := StagedMedia.serial) ht
  rw [h.serials] at hmem
  exact List.mem_range.1 hmem

theorem Ordered.expireAt (h : s.Ordered) (now : ℕ) : (s.expireAt now).Ordered :=
  ⟨h.shelf.drop, h.held, fun t ht => h.fresh t (List.mem_of_mem_drop ht), h.reserved, h.generations⟩

theorem Ordered.stage (h : s.Ordered) (hkept : s.Kept settings) (hnow : s.clock ≤ now) :
    (s.stage event now later).Ordered := by
  have hexpired := h.expireAt now
  have hknown := hkept.expireAt hnow
  unfold MediaLedger.stage
  dsimp only
  split
  · next hlarge =>
    rw [stageAt_of_large (q := s.queue) hlarge]
    exact ⟨hexpired.shelf, hexpired.held, hexpired.fresh, hexpired.reserved, hexpired.generations⟩
  · have hgeneration : (s.queue.stageAt now later event).generation = s.queue.generation := by
      unfold PendingMediaQueue.stageAt
      dsimp only
      split <;> rfl
    refine ⟨?_, hexpired.held, ?_, hexpired.reserved, fun held hheld heq => ?_⟩
    · refine List.pairwise_append.2 ⟨hexpired.shelf.drop, List.pairwise_singleton _ _, fun a ha b hb _ => ?_⟩
      rw [List.mem_singleton.1 hb]
      exact hknown.serial_lt (hknown.staged_shelf (List.mem_of_mem_drop ha))
    · refine List.forall_mem_append.2 ⟨fun t ht => hexpired.fresh t (List.mem_of_mem_drop ht), fun t ht => ?_⟩
      rw [List.mem_singleton.1 ht]
    · exact hexpired.generations held hheld (heq.trans hgeneration)

theorem Ordered.reserve (h : s.Ordered) (now : ℕ) : (s.reserve now).Ordered := by
  have hexpired := h.expireAt now
  refine ⟨List.Pairwise.nil, ?_, List.forall_mem_nil _, ?_, ?_⟩
  · refine List.forall_mem_append.2 ⟨h.held, fun held hheld => ?_⟩
    rw [List.mem_singleton.1 hheld]
    exact hexpired.shelf
  · refine List.forall_mem_append.2 ⟨h.reserved, fun held hheld => ?_⟩
    rw [List.mem_singleton.1 hheld]
    exact hexpired.fresh
  · refine List.forall_mem_append.2 ⟨h.generations, fun held hheld _ => ?_⟩
    rw [List.mem_singleton.1 hheld]
    rfl

theorem Ordered.commit (h : s.Ordered) (i : ℕ) : (s.commit i).Ordered := by
  unfold MediaLedger.commit
  split
  · exact h
  · exact ⟨h.shelf, fun held hheld => h.held held (List.mem_of_mem_eraseIdx hheld), h.fresh,
      fun held hheld => h.reserved held (List.mem_of_mem_eraseIdx hheld),
      fun held hheld => h.generations held (List.mem_of_mem_eraseIdx hheld)⟩

theorem Ordered.clear (h : s.Ordered) (htidy : s.Tidy .clear) : s.clear.Ordered :=
  ⟨List.Pairwise.nil, h.held, List.forall_mem_nil _, h.reserved, fun held hheld heq => absurd heq (htidy held hheld)⟩

/-- The items of a reservation and of the shelf are different. -/
theorem Kept.merged_nodup (h : s.Kept settings) {held : HeldMedia} (hi : s.held[i]? = some held) :
    ((held.media ++ s.shelf).filter fun t => t.item.expiresAt > now).Nodup := by
  refine List.Nodup.sublist List.filter_sublist (List.nodup_iff_count_le_one.2 fun t => ?_)
  have hone := List.nodup_iff_count_le_one.1 h.staged_nodup t
  have herase := count_eraseIdx hi t
  rw [← h.places t, MediaLedger.places] at hone
  rw [List.count_append]
  omega

theorem Ordered.restore (h : s.Ordered) (hkept : s.Kept settings) {wait : ℕ} (htidy : s.Tidy (.restore i wait)) :
    (s.restore i (s.clock + wait)).Ordered := by
  unfold MediaLedger.restore
  split
  · exact h
  · next held hi =>
    have hmem := List.mem_of_getElem? hi
    dsimp only
    split
    · next hstale =>
      rw [restore_of_stale hstale]
      exact ⟨h.shelf, fun other hother => h.held other (List.mem_of_mem_eraseIdx hother), h.fresh,
        fun other hother => h.reserved other (List.mem_of_mem_eraseIdx hother),
        fun other hother => h.generations other (List.mem_of_mem_eraseIdx hother)⟩
    · next hgeneration =>
      have hsame := not_not.1 hgeneration
      have hexpired := h.expireAt (s.clock + wait)
      have hknown := hkept.expireAt (Nat.le_add_right s.clock wait)
      have hqueue : (s.queue.restore (s.clock + wait) held.reservation).generation = s.queue.generation := by
        unfold PendingMediaQueue.restore
        rw [if_neg hgeneration]
        rfl
      have hline : ((held.media ++ (s.expireAt (s.clock + wait)).shelf).filter
          fun t => t.item.expiresAt > s.clock + wait).Pairwise InLine := by
        rw [List.filter_append]
        refine List.pairwise_append.2 ⟨(h.held held hmem).filter _, hexpired.shelf.filter _, fun a ha b hb => ?_⟩
        obtain ⟨ha, hunexpired⟩ := List.mem_filter.1 ha
        exact htidy held hi hsame a ha b (List.mem_of_mem_drop (List.mem_filter.1 hb).1) (of_decide_eq_true hunexpired)
      refine ⟨(inLine_mergeSort (hknown.merged_nodup hi) hline).drop,
        fun other hother => h.held other (List.mem_of_mem_eraseIdx hother), fun t ht => ?_,
        fun other hother => h.reserved other (List.mem_of_mem_eraseIdx hother), fun other hother heq =>
          h.generations other (List.mem_of_mem_eraseIdx hother) (heq.trans hqueue)⟩
      have hmerged := (List.mem_filter.1 (List.mem_mergeSort.1 (List.mem_of_mem_drop ht))).1
      rcases List.mem_append.1 hmerged with ht | ht
      · exact (h.reserved held hmem t ht).trans (h.generations held hmem hsame)
      · exact hexpired.fresh t ht

/-- **One tidy operation.** -/
theorem Ordered.step (h : s.Ordered) (hkept : s.Kept settings) {e : MediaEvent} (htidy : s.Tidy e) : (s.step e).Ordered := by
  cases e with
  | stage event wait later => exact h.stage hkept (Nat.le_add_right _ _)
  | reserve wait => exact h.reserve _
  | commit i => exact h.commit i
  | restore i wait => exact h.restore hkept htidy
  | expire wait => exact h.expireAt _
  | clear => exact h.clear htidy

/-! ## Runs -/

theorem kept_after (hpos : 0 < settings.pendingMediaMaxCount) (es : List MediaEvent) : (after settings es).Kept settings :=
  @exec_invariant' _ _ _ (Kept settings) (fun _ e h => h.step hpos e) _ es (kept_start settings)

theorem ordered_after (hpos : 0 < settings.pendingMediaMaxCount) {es : List MediaEvent}
    (htidy : Along step Tidy (start settings) es) : (after settings es).Ordered :=
  (@exec_invariant _ _ _ Tidy (fun s => s.Kept settings ∧ s.Ordered)
    (fun _ e h hc => ⟨h.1.step hpos e, h.2.step h.1 hc⟩) _ es ⟨kept_start settings, ordered_start settings⟩ htidy).2

theorem committed_step (s : MediaLedger) (e : MediaEvent) : s.committed ⊆ (s.step e).committed := by
  cases e with
  | stage event wait later =>
    unfold step MediaLedger.stage
    dsimp only
    split <;> exact fun _ h => h
  | commit i =>
    unfold step MediaLedger.commit
    dsimp only
    split
    · exact fun _ h => h
    · exact List.subset_append_left _ _
  | restore i wait =>
    unfold step MediaLedger.restore
    dsimp only
    split
    · exact fun _ h => h
    · split <;> exact fun _ h => h
  | _ => exact fun _ h => h

theorem committed_exec (s : MediaLedger) (es : List MediaEvent) : s.committed ⊆ (exec step s es).committed := by
  induction es generalizing s with
  | nil => exact fun _ h => h
  | cons e es ih => exact List.Subset.trans (committed_step s e) (ih (s.step e))

/-- **Pending media is used at most once:** in every run each staged item is in exactly one place and a committed one stays
committed, and the queue keeps its count, its bytes and the order of the expiry times. If the steps are tidy, items that
expire together are in the order of staging, and neither the queue nor the drafts of a reservation hold an item from before
the last reset. -/
theorem media_used_once (settings : RouterSettings) (hpos : 0 < settings.pendingMediaMaxCount) (es : List MediaEvent) :
    ((after settings es).staged.map StagedMedia.serial = List.range (after settings es).staged.length ∧
      (∀ t, (after settings es).places t = if t ∈ (after settings es).staged then 1 else 0) ∧
      itemsOf (after settings es).shelf = (after settings es).queue.items ∧
      (∀ h ∈ (after settings es).held, itemsOf h.media = h.reservation.items) ∧
      (after settings es).queue.metadataBytes = bytesOf (after settings es).queue.items ∧
      (after settings es).queue.items.length ≤ settings.pendingMediaMaxCount ∧
      (after settings es).queue.metadataBytes ≤ settings.pendingMediaMaxMetadataBytes ∧
      (after settings es).queue.items.Pairwise (fun a b => a.expiresAt ≤ b.expiresAt) ∧
      ∀ later, (after settings es).committed ⊆ (after settings (es ++ later)).committed) ∧
    (Along step Tidy (start settings) es →
      (after settings es).shelf.Pairwise InLine ∧
      (∀ t ∈ (after settings es).shelf, t.resets = (after settings es).resets) ∧
      ∀ h ∈ (after settings es).held, ∀ now, (after settings es).queue.drafts now h.reservation ≠ [] →
        ∀ t ∈ h.media, t.resets = (after settings es).resets) := by
  have hkept := kept_after hpos es
  refine ⟨⟨hkept.serials, fun t => ?_, hkept.shelf, hkept.held, hkept.bounded.bytes, hkept.maxCount ▸ hkept.bounded.count,
    hkept.maxBytes ▸ hkept.bounded.total, hkept.bounded.sorted, fun later => ?_⟩, fun htidy => ?_⟩
  · rw [hkept.places t]
    exact hkept.staged_nodup.count
  · rw [after, after, exec_append]
    exact committed_exec _ later
  · have hordered := ordered_after hpos htidy
    refine ⟨hordered.shelf, hordered.fresh, fun h hheld now hdrafts t ht => ?_⟩
    have hsame : h.reservation.generation = (after settings es).queue.generation := by
      by_contra hne
      exact hdrafts (if_pos hne)
    exact (hordered.reserved h hheld t ht).trans (hordered.generations h hheld hsame)

/-- Two images for two messages. The first message is put back before the second is committed. -/
def imagesRun : List MediaEvent :=
  [.stage (sampleEvent "evt_1" "image" "" []) 0 0, .reserve 1, .stage (sampleEvent "evt_2" "image" "" []) 0 0, .reserve 1,
    .restore 0 0, .commit 0]

theorem media_used_once_imagesRun :
    (after (.fromConfig sampleConfig) imagesRun).committed.map StagedMedia.serial = [1] ∧
    (∀ t, (after (.fromConfig sampleConfig) imagesRun).places t =
      if t ∈ (after (.fromConfig sampleConfig) imagesRun).staged then 1 else 0) ∧
    (after (.fromConfig sampleConfig) imagesRun).queue.items.length ≤ 16 := by
  obtain ⟨⟨-, hplaces, -, -, -, hcount, -⟩, -⟩ := media_used_once (.fromConfig sampleConfig) (by decide) imagesRun
  exact ⟨by decide, hplaces, hcount⟩

/-- Within the bounds, and if they expire in this order, the items of a reservation are put back in front of the shelf. -/
theorem restore_of_sorted {held : HeldMedia} (hkept : s.Kept settings) (hnow : s.clock ≤ now) (hi : s.held[i]? = some held)
    (hgeneration : held.reservation.generation = s.queue.generation)
    (hsorted : ((held.media ++ (s.expireAt now).shelf).filter fun t => t.item.expiresAt > now).Pairwise
      fun a b => a.item.expiresAt ≤ b.item.expiresAt)
    (hcount : ((held.media ++ (s.expireAt now).shelf).filter fun t => t.item.expiresAt > now).length ≤ s.queue.maxCount)
    (hbytes : bytesOf (itemsOf ((held.media ++ (s.expireAt now).shelf).filter fun t => t.item.expiresAt > now)) ≤
      s.queue.maxMetadataBytes) :
    (s.restore i now).shelf = (held.media ++ (s.expireAt now).shelf).filter fun t => t.item.expiresAt > now := by
  have hmerged : merged now held.media (s.expireAt now).shelf =
      (held.media ++ (s.expireAt now).shelf).filter fun t => t.item.expiresAt > now :=
    List.mergeSort_of_pairwise (hsorted.imp fun h => decide_eq_true h)
  have hitems : mergedItems now held.reservation.items (s.queue.expire now).items =
      itemsOf (merged now held.media (s.expireAt now).shelf) := by
    rw [itemsOf_merged, hkept.held held (List.mem_of_getElem? hi), (hkept.expireAt hnow).shelf]
    rfl
  have hlen : (s.queue.restore now held.reservation).items.length = (merged now held.media (s.expireAt now).shelf).length := by
    rw [← hmerged] at hcount hbytes
    rw [← List.length_map (f := StagedMedia.item), ← itemsOf, ← hitems] at hcount ⊢
    rw [← hitems] at hbytes
    rw [PendingMediaQueue.restore, if_neg (not_not.2 hgeneration)]
    dsimp only
    exact congrArg (fun kept : List PendingMediaItem × ℕ => kept.1.length)
      (evictWhile_of_fits (Bool.or_eq_false_iff.2 ⟨decide_eq_false (not_lt.2 hcount), decide_eq_false (not_lt.2 hbytes)⟩))
  unfold MediaLedger.restore
  rw [hi]
  dsimp only
  rw [if_neg (not_not.2 hgeneration), hlen, Nat.sub_self, List.drop_zero, hmerged]

/-- Two images that are staged at one instant and reserved for two messages, the first of which is dropped. -/
def firstDropped : List MediaEvent :=
  [.stage (sampleEvent "evt_1" "image" "" []) 0 0, .reserve 0, .stage (sampleEvent "evt_2" "image" "" []) 0 0, .reserve 0,
    .restore 0 0]

/-- What the second message has reserved. -/
def secondHeld : HeldMedia :=
  let image : PendingMediaItem := ⟨sampleEvent "evt_2" "image" "" [], pendingMetadataBytes (sampleEvent "evt_2" "image" "" []),
    Limits.pendingMediaTtl⟩
  ⟨⟨0, [image]⟩, 0, [⟨1, 0, image⟩]⟩

theorem restore_reorders :
    ¬(after (.fromConfig sampleConfig) (firstDropped ++ [.restore 0 0])).shelf.Pairwise InLine := by
  have hclock : (after (.fromConfig sampleConfig) firstDropped).clock = 0 := by decide
  have hshelf := @restore_of_sorted _ _ 0 0 secondHeld (@kept_after (.fromConfig sampleConfig) (by decide) firstDropped)
    hclock.le (by decide) (by decide) (by with_unfolding_all decide) (by with_unfolding_all decide) (by with_unfolding_all decide)
  have hlast : after (.fromConfig sampleConfig) (firstDropped ++ [.restore 0 0]) =
      (after (.fromConfig sampleConfig) firstDropped).restore 0 ((after (.fromConfig sampleConfig) firstDropped).clock + 0) :=
    exec_append _ _ _ _
  rw [hlast, hclock, hshelf]
  with_unfolding_all decide

end MediaLedger

end LarkCodexBridge.Runtime
