import LarkCodexBridge.Runtime.Adoptions

/-!
# Sagas and mappings agree

Runs of the operations on sagas, scopes and threads, with reservations that callers make up or have read at any time
(`adoptionStep`).

* `Remaps`: the active threads of one scope are replaced, at most by one;
* `Agree`: an active adopted mapping belongs to a live saga of its generation, and a committed saga has its mapping;
* `adoptions_agree`: both tables agree along every run, and the check on startup never fails.
-/

namespace LarkCodexBridge.Runtime.Adoptions

open Limits SqlTable Store StepSystem

/-! ## Runs -/

inductive AdoptionEvent where
  | call (fate : Fate) (now : ℤ) (op : AdoptionOp)
  /-- The process ends and starts again on the same files. -/
  | restart

def adoptionStep (w : Writer AdoptionDb) : AdoptionEvent → Writer AdoptionDb
  | .call fate now op => (w.runSized fate (op.job now)).2
  | .restart => { w with alive := true }

def emptyAdoptions : Writer AdoptionDb := ⟨.empty, true⟩

def adoptionsAfter (es : List AdoptionEvent) : AdoptionDb := (exec adoptionStep emptyAdoptions es).db

/-- An event leaves the tables as they are, or has the effect of its job. -/
theorem adoptionStep_db (w : Writer AdoptionDb) (e : AdoptionEvent) : (adoptionStep w e).db = w.db ∨
    ∃ fate now op a, e = .call fate now op ∧ AdoptionOp.job now op w.db = .ok (a, (adoptionStep w e).db) := by
  cases e with
  | restart => exact .inl rfl
  | call fate now op =>
    rcases call_db w (.ok ()) fate (op.job now) with h | ⟨a, -, h⟩
    · exact .inl h
    · exact .inr ⟨fate, now, op, a, rfl, h⟩

/-! ## Active threads -/

/-- The columns of the primary key of `threads`. -/
def threadKeys (s : SessionDb) : List (String × String) := s.threads.map fun r => (r.scopeKey, r.codexThreadId)

/-- The unique columns of `threads`: rows differ in their key, active rows in their scope and in their thread. -/
structure Distinct (s : SessionDb) : Prop where
  keys : (threadKeys s).Nodup
  scope : ∀ r ∈ s.threads, ∀ r' ∈ s.threads, r.status = .active → r'.status = .active → r.scopeKey = r'.scopeKey → r = r'
  thread : ∀ r ∈ s.threads, ∀ r' ∈ s.threads, r.status = .active → r'.status = .active →
    r.codexThreadId = r'.codexThreadId → r = r'

/-- The active threads of scope `k` are replaced by `new`, whose thread no other scope has active. -/
structure Remaps (k : String) (new : Option ThreadRow) (s s' : SessionDb) : Prop where
  active : ∀ r, r.status = .active → (r ∈ s'.threads ↔ r ∈ s.threads ∧ r.scopeKey ≠ k ∨ new = some r)
  scope : ∀ r, new = some r → r.scopeKey = k
  thread : ∀ r, new = some r → ∀ r' ∈ s.threads, r'.status = .active → r'.codexThreadId = r.codexThreadId → r'.scopeKey = k
  keys : (threadKeys s).Nodup → (threadKeys s').Nodup

section

variable {s s' : SessionDb} {k thread : String} {now : ℤ} {new : Option ThreadRow}

theorem Distinct.remap (h : Distinct s) (hr : Remaps k new s s') : Distinct s' := by
  refine ⟨hr.keys h.keys, fun r hmem r' hmem' ha ha' heq => ?_, fun r hmem r' hmem' ha ha' heq => ?_⟩
  · rcases (hr.active r ha).1 hmem with ⟨hold, hk⟩ | hnew <;> rcases (hr.active r' ha').1 hmem' with ⟨hold', hk'⟩ | hnew'
    · exact h.scope r hold r' hold' ha ha' heq
    · exact absurd (heq.trans (hr.scope r' hnew')) hk
    · exact absurd (heq.symm.trans (hr.scope r hnew)) hk'
    · exact Option.some.inj (hnew.symm.trans hnew')
  · rcases (hr.active r ha).1 hmem with ⟨hold, hk⟩ | hnew <;> rcases (hr.active r' ha').1 hmem' with ⟨hold', hk'⟩ | hnew'
    · exact h.thread r hold r' hold' ha ha' heq
    · exact absurd (hr.thread r' hnew' r hold ha heq) hk
    · exact absurd (hr.thread r hnew r' hold' ha' heq.symm) hk'
    · exact Option.some.inj (hnew.symm.trans hnew')

theorem isActiveThread_iff : s.isActiveThread thread = true ↔ ∃ r ∈ s.threads, r.codexThreadId = thread ∧ r.status = .active := by
  simp [SessionDb.isActiveThread]

/-- The row that a search finds is the only active one of its scope. -/
theorem Distinct.active? (h : Distinct s) {r : ThreadRow} (hr : r ∈ s.threads) (ha : r.status = .active) :
    s.active? r.scopeKey = some r := by
  cases hfind : s.active? r.scopeKey with
  | none => simpa [ThreadRow.isActiveOf, ha] using List.find?_eq_none.1 hfind r hr
  | some r' =>
    have hp := isActiveOf_iff.1 (List.find?_some hfind)
    rw [h.scope r' (List.mem_of_find?_eq_some hfind) r hr hp.2 ha hp.1]

theorem archiveActive_remaps : Remaps k none s (s.archiveActive now k) := by
  refine ⟨fun r ha => ?_, nofun, nofun, fun hkeys => ?_⟩
  · simp only [SessionDb.archiveActive, List.mem_map, reduceCtorEq, or_false]
    constructor
    · rintro ⟨r', hr', rfl⟩
      split at ha
      · cases ha
      · next hn =>
        rw [if_neg hn]
        exact ⟨hr', fun hk => hn (isActiveOf_iff.2 ⟨hk, ha⟩)⟩
    · rintro ⟨hr, hk⟩
      exact ⟨r, hr, if_neg fun h => hk (isActiveOf_iff.1 h).1⟩
  · have heq : threadKeys (s.archiveActive now k) = threadKeys s := by
      simp only [threadKeys, SessionDb.archiveActive, List.map_map]
      refine List.map_congr_left fun r _ => ?_
      simp only [Function.comp]
      split <;> rfl
    rwa [heq]

theorem remaps_of_active?_none (h : s.active? k = none) : Remaps k none s s := by
  refine ⟨fun r ha => ?_, nofun, nofun, id⟩
  have hne : r ∈ s.threads → r.scopeKey ≠ k := fun hr hk =>
    absurd (isActiveOf_iff.2 ⟨hk, ha⟩) (by simpa using List.find?_eq_none.1 h r hr)
  simpa using hne

variable {s₁ : SessionDb} {row : ThreadRow} {u : Unit}

/-- A thread that is active afterwards in scope `k` only. -/
theorem Remaps.free (h : Remaps k none s s₁) (hfree : s₁.isActiveThread row.codexThreadId = false) :
    ∀ r ∈ s.threads, r.status = .active → r.codexThreadId = row.codexThreadId → r.scopeKey = k := by
  intro r hr ha heq
  by_contra hk
  have hmem : r ∈ s₁.threads := (h.active r ha).2 (.inl ⟨hr, hk⟩)
  rw [isActiveThread_iff.2 ⟨r, hmem, heq, ha⟩] at hfree
  cases hfree

/-- A scope without an active thread gets a new row. -/
theorem Remaps.append (h : Remaps k none s s₁) (hscope : row.scopeKey = k)
    (hfree : s₁.isActiveThread row.codexThreadId = false) (hkey : s₁.thread? k row.codexThreadId = none) :
    Remaps k (some row) s { s₁ with threads := s₁.threads ++ [row] } := by
  refine ⟨fun r ha => ?_, ?_, ?_, fun hkeys => ?_⟩
  · have hold := h.active r ha
    simp only [List.mem_append, List.mem_singleton, Option.some.injEq, hold, reduceCtorEq, or_false]
    exact or_congr_right eq_comm
  · rintro _ ⟨⟩
    exact hscope
  · rintro _ ⟨⟩
    exact h.free hfree
  · have hkeys₁ := h.keys hkeys
    have heq : threadKeys { s₁ with threads := s₁.threads ++ [row] } = threadKeys s₁ ++ [(row.scopeKey, row.codexThreadId)] := by
      simp [threadKeys]
    rw [heq]
    refine List.nodup_append.2 ⟨hkeys₁, List.nodup_singleton _, fun a ha b hb heq' => ?_⟩
    rw [List.mem_singleton.1 hb, hscope] at heq'
    obtain ⟨r, hr, rfl⟩ := List.mem_map.1 ha
    obtain ⟨h₁, h₂⟩ := Prod.mk.inj heq'
    simpa [h₁, h₂] using List.find?_eq_none.1 hkey r hr

/-- A scope without an active thread gets one in the place of an old row. -/
theorem Remaps.replace {f : ThreadRow → ThreadRow} (h : Remaps k none s s₁) (hscope : row.scopeKey = k)
    (hfree : s₁.isActiveThread row.codexThreadId = false)
    (hex : ∃ r ∈ s₁.threads, r.scopeKey = k ∧ r.codexThreadId = row.codexThreadId)
    (hf : ∀ r ∈ s₁.threads, r.scopeKey = k ∧ r.codexThreadId = row.codexThreadId → f r = row) :
    Remaps k (some row) s { s₁ with threads := s₁.threads.map fun r =>
      if r.scopeKey = k ∧ r.codexThreadId = row.codexThreadId then f r else r } := by
  refine ⟨fun r ha => ?_, ?_, ?_, fun hkeys => ?_⟩
  · have hold := h.active r ha
    simp only [reduceCtorEq, or_false] at hold
    simp only [List.mem_map, Option.some.injEq]
    constructor
    · rintro ⟨r', hr', rfl⟩
      split at ha
      · next hk =>
        rw [if_pos hk]
        exact .inr (hf r' hr' hk).symm
      · next hk =>
        rw [if_neg hk] at hold ⊢
        exact .inl (hold.1 hr')
    · rintro (⟨hr, hk⟩ | rfl)
      · exact ⟨r, hold.2 ⟨hr, hk⟩, if_neg fun hkey => hk hkey.1⟩
      · obtain ⟨r', hr', hk⟩ := hex
        exact ⟨r', hr', (if_pos hk).trans (hf r' hr' hk)⟩
  · rintro _ ⟨⟩
    exact hscope
  · rintro _ ⟨⟩
    exact h.free hfree
  · have heq : threadKeys { s₁ with threads := s₁.threads.map fun r =>
        if r.scopeKey = k ∧ r.codexThreadId = row.codexThreadId then f r else r } = threadKeys s₁ := by
      simp only [threadKeys, List.map_map]
      refine List.map_congr_left fun r hr => ?_
      simp only [Function.comp]
      split
      · next hk => rw [hf r hr hk, hscope, hk.1, hk.2]
      · rfl
    rw [heq]
    exact h.keys hkeys

/-! ## The jobs on threads -/

/-- Scope `k` has an active adopted thread. -/
def Adopts (s : SessionDb) (k : String) : Prop :=
  ∃ r ∈ s.threads, r.scopeKey = k ∧ r.status = .active ∧ r.origin = .externallyAdopted

theorem Distinct.not_adopts (h : Distinct s) (hb : (s.active? k).any (fun r => decide (r.origin ≠ .bridgeCreated)) = false) :
    ¬Adopts s k := by
  rintro ⟨r, hr, rfl, ha, ho⟩
  rw [h.active? hr ha] at hb
  simp [ho] at hb

theorem recordActiveThread_remaps {version : ℕ} (h : recordActiveThread now k thread version s = .ok (u, s')) :
    Remaps k (some ⟨k, thread, .active, now, none, version, .bridgeCreated, none⟩) s s' ∧ s.active? k = none := by
  unfold recordActiveThread at h
  split at h
  · cases h
  · next hn =>
    cases h
    simp only [not_or, Bool.not_eq_true, Option.isSome_eq_false_iff, Option.isNone_iff_eq_none] at hn
    obtain ⟨hkey, hactive, hfree⟩ := hn
    exact ⟨(remaps_of_active?_none hactive).append rfl hfree hkey, hactive⟩

theorem archiveActiveThread_remaps {row : Option ThreadRow} (hd : Distinct s)
    (h : archiveActiveThread now k s = .ok (row, s')) : s' = s ∨ Remaps k none s s' ∧ ¬Adopts s k := by
  unfold archiveActiveThread at h
  split at h
  · cases h
    exact .inl rfl
  · next r hr =>
    split at h
    · cases h
    · next ho =>
      cases h
      exact .inr ⟨archiveActive_remaps, hd.not_adopts (by simpa [hr] using ho)⟩

theorem reactivateArchivedThread_remaps {row : Option ThreadRow} (hd : Distinct s)
    (h : reactivateArchivedThread now k thread s = .ok (row, s')) :
    s' = s ∨ ∃ r, Remaps k (some r) s s' ∧ r.codexThreadId = thread ∧ r.status = .active ∧ r.origin = .bridgeCreated ∧
      ¬Adopts s k := by
  unfold reactivateArchivedThread at h
  split at h
  · cases h
    exact .inl rfl
  · next r hr =>
    have hmem := List.mem_of_find?_eq_some hr
    have hkey := List.find?_some hr
    simp only [Bool.decide_and, Bool.and_eq_true, decide_eq_true_eq] at hkey
    split at h
    · cases h
    · next horigin =>
      split at h
      · cases h
        exact .inl rfl
      · next harchived =>
        split at h
        · cases h
        · next hbridge =>
          dsimp only at h
          split at h
          · cases h
          · next hfree =>
            cases h
            refine .inr ⟨r.activate, ?_, hkey.2, rfl, not_not.1 horigin, hd.not_adopts (by simpa using hbridge)⟩
            -- the row is not among those that are archived
            have hkept : r ∈ (s.archiveActive now k).threads := by
              refine List.mem_map.2 ⟨r, hmem, if_neg fun hp => harchived (isActiveOf_iff.1 hp).2⟩
            have hremap : Remaps k none s (s.archiveActive now k) := archiveActive_remaps
            have hkeys := hremap.keys hd.keys
            have honly : ∀ r' ∈ (s.archiveActive now k).threads, r'.scopeKey = k ∧ r'.codexThreadId = thread →
                r'.activate = r.activate := by
              intro r' hr' hk'
              rw [List.inj_on_of_nodup_map hkeys hr' hkept (by rw [hk'.1, hk'.2, hkey.1, hkey.2])]
            have hid : r.activate.codexThreadId = thread := hkey.2
            have hreplaced : Remaps k (some r.activate) s _ := hremap.replace (f := ThreadRow.activate) hkey.1
              (by simpa [hid] using hfree) ⟨r, hkept, hkey.1, rfl⟩ (by rwa [hid])
            rwa [hid] at hreplaced

theorem commitThreadAdoption_remaps {a : Adoption} (hd : Distinct s)
    (h : Runtime.commitThreadAdoption now a true s = .ok (u, s')) :
    Remaps a.scopeKey (some (a.row now)) s s' ∧ ¬Adopts s a.scopeKey ∧ s.isActiveThread a.codexThreadId = false := by
  unfold Runtime.commitThreadAdoption at h
  rw [if_neg (by decide)] at h
  split at h
  · cases h
  split at h
  · cases h
  split at h
  · cases h
  next hfree =>
  split at h
  · cases h
  next hbridge =>
  cases h
  refine ⟨?_, hd.not_adopts (by simpa using hbridge), by simpa using hfree⟩
  have hremap : Remaps a.scopeKey none s (s.archiveActive now a.scopeKey) := archiveActive_remaps
  have hfree' : (s.archiveActive now a.scopeKey).isActiveThread a.codexThreadId = false := by
    rw [Bool.eq_false_iff]
    intro hactive
    obtain ⟨r, hr, hid, ha⟩ := isActiveThread_iff.1 hactive
    have hold := ((hremap.active r ha).1 hr).resolve_right nofun
    exact hfree (isActiveThread_iff.2 ⟨r, hold.1, hid, ha⟩)
  split
  · next hsome =>
    obtain ⟨r, hr⟩ := Option.isSome_iff_exists.1 hsome
    have hkey := List.find?_some hr
    simp only [Bool.decide_and, Bool.and_eq_true, decide_eq_true_eq] at hkey
    have hreplaced : Remaps a.scopeKey (some (a.row now)) s _ := hremap.replace (f := fun _ => a.row now) rfl hfree'
      ⟨r, List.mem_of_find?_eq_some hr, hkey⟩ fun _ _ _ => rfl
    exact ⟨hreplaced.active, hreplaced.scope, hreplaced.thread, hreplaced.keys⟩
  · next hnone =>
    rw [Bool.not_eq_true, Option.isSome_eq_false_iff, Option.isNone_iff_eq_none] at hnone
    have happended : Remaps a.scopeKey (some (a.row now)) s _ := hremap.append rfl hfree' hnone
    exact ⟨happended.active, happended.scope, happended.thread, happended.keys⟩

theorem finishThreadAdoptionRelease_remaps {generation : ℕ}
    (h : Runtime.finishThreadAdoptionRelease now k thread generation true s = .ok (u, s')) : Remaps k none s s' := by
  unfold Runtime.finishThreadAdoptionRelease at h
  dsimp only at h
  split at h
  · cases h
  · cases h
    exact archiveActive_remaps

end

/-! ## Agreement -/

/-- The saga is past its commit: owned, releasing, or its release failed. -/
def ThreadAdoptionSaga.isOwned (g : ThreadAdoptionSaga) : Bool :=
  g.state = .owned ∨ g.state = .releasing ∨ g.state = .releaseFailed

/-- The generations that were reserved for a scope, in order. -/
def generations (s : AdoptionDb) (k : String) : List ℕ := (s.reserved.filter (·.1 = k)).map (·.2)

/-- **Sagas and mappings agree.** -/
structure Agree (s : AdoptionDb) : Prop where
  distinct : Distinct s.session
  key : ∀ k g, s.saga? k = some g → g.scopeKey = k
  unique : ∀ k k' g g', s.saga? k = some g → s.saga? k' = some g' → g.isLive = true → g'.isLive = true →
    g.codexThreadId = g'.codexThreadId → k = k'
  mapping : ∀ r ∈ s.session.threads, r.status = .active → r.origin = .externallyAdopted →
    ∃ g, s.saga? r.scopeKey = some g ∧ g.isLive = true ∧ g.codexThreadId = r.codexThreadId ∧
      r.adoptionGeneration = some g.generation ∧ (r.scopeKey, g.generation) ∈ s.committed
  mapped : ∀ k g, s.saga? k = some g → g.isLive = true → (k, g.generation) ∈ s.committed →
    s.ownedMappingExists k g.codexThreadId g.generation = true
  owned : ∀ k g, s.saga? k = some g → g.isOwned = true → (k, g.generation) ∈ s.committed
  reserved : ∀ c ∈ s.committed, c ∈ s.reserved
  increasing : ∀ k, (generations s k).Pairwise (· < ·)
  last : ∀ k, (generations s k).getLast? = (s.saga? k).map (·.generation)

variable {s : AdoptionDb} {k thread : String} {now : ℤ} {g g' : ThreadAdoptionSaga} {new : Option ThreadRow}
  {session' : SessionDb}

variable {n : ℕ}

theorem ownedMappingExists_iff : s.ownedMappingExists k thread n = true ↔ ∃ r ∈ s.session.threads,
    r.scopeKey = k ∧ r.codexThreadId = thread ∧ r.adoptionGeneration = some n ∧ r.status = .active ∧
      r.origin = .externallyAdopted := by
  simp [AdoptionDb.ownedMappingExists]

theorem isLive_of_isOwned (h : g.isOwned = true) : g.isLive = true := by
  unfold ThreadAdoptionSaga.isOwned at h
  unfold ThreadAdoptionSaga.isLive
  rcases of_decide_eq_true h with h | h | h <;> simp [h]

theorem saga?_setSaga {k' : String} : (s.setSaga g).saga? k' = if k' = g.scopeKey then some g else s.saga? k' :=
  KeyMap.lookup_insert_ite _ _ _ _

theorem empty_agree : Agree .empty := by
  have hnone : ∀ k, AdoptionDb.empty.saga? k = none := AList.lookup_empty
  have hthreads : ∀ r, r ∉ AdoptionDb.empty.session.threads := fun _ => List.not_mem_nil
  refine ⟨⟨List.nodup_nil, ?_, ?_⟩, ?_, ?_, ?_, ?_, ?_, ?_, fun _ => .nil, fun _ => rfl⟩
  · exact fun r hr => absurd hr (hthreads r)
  · exact fun r hr => absurd hr (hthreads r)
  · exact fun k g hg => by simp [hnone] at hg
  · exact fun k k' g g' hg => by simp [hnone] at hg
  · exact fun r hr => absurd hr (hthreads r)
  · exact fun k g hg => by simp [hnone] at hg
  · exact fun k g hg => by simp [hnone] at hg
  · exact fun c hc => absurd hc List.not_mem_nil

theorem Agree.le (h : Agree s) (hg : s.saga? k = some g) (hn : (k, n) ∈ s.reserved) : n ≤ g.generation := by
  have hmem : n ∈ generations s k := List.mem_map.2 ⟨(k, n), List.mem_filter.2 ⟨hn, by simp⟩, rfl⟩
  have hlast := h.last k
  rw [hg, Option.map_some] at hlast
  obtain ⟨l, hl⟩ := List.getLast?_eq_some_iff.1 hlast
  have hinc := h.increasing k
  rw [hl] at hmem hinc
  rcases List.mem_append.1 hmem with hmem | hmem
  · exact Nat.le_of_lt ((List.pairwise_append.1 hinc).2.2 n hmem _ (List.mem_singleton_self _))
  · exact (List.mem_singleton.1 hmem).le

/-- The active threads of a scope without an adopted one are replaced by a bridge-created one. -/
theorem Agree.remap (h : Agree s) (hr : Remaps k new s.session session') (hno : ¬Adopts s.session k)
    (hnew : ∀ r, new = some r → r.origin = .bridgeCreated) : Agree { s with session := session' } := by
  refine ⟨h.distinct.remap hr, h.key, h.unique, fun r hmem ha ho => ?_, fun k' g hg hlive hc => ?_, h.owned, h.reserved,
    h.increasing, h.last⟩
  · rcases (hr.active r ha).1 hmem with ⟨hold, -⟩ | hn
    · exact h.mapping r hold ha ho
    · rw [hnew r hn] at ho
      cases ho
  · obtain ⟨r, hmem, hk, hid, hgen, ha, ho⟩ := ownedMappingExists_iff.1 (h.mapped k' g hg hlive hc)
    refine ownedMappingExists_iff.2 ⟨r, (hr.active r ha).2 (.inl ⟨hmem, fun heq => hno ⟨r, hmem, heq, ha, ho⟩⟩), ?_⟩
    exact ⟨hk, hid, hgen, ha, ho⟩

/-- The threads stay as they are. -/
theorem Agree.same (h : Agree s) (hthreads : session'.threads = s.session.threads) : Agree { s with session := session' } := by
  obtain ⟨db, scopes, threads⟩ := session'
  cases hthreads
  exact ⟨⟨h.distinct.keys, h.distinct.scope, h.distinct.thread⟩, h.key, h.unique, h.mapping, h.mapped, h.owned, h.reserved,
    h.increasing, h.last⟩

/-- The saga of scope `k` goes on to `g'`, and the active threads of the scope are replaced by `new`. -/
theorem Agree.transition {committed' : List (String × ℕ)} (h : Agree s) (hg : s.saga? k = some g)
    (hkey : g'.scopeKey = k) (hthread : g'.codexThreadId = g.codexThreadId) (hgen : g'.generation = g.generation)
    (hlive : g'.isLive = true → g.isLive = true) (hr : Remaps k new s.session session')
    (hold : ∀ c ∈ s.committed, c ∈ committed') (hcommitted : ∀ c ∈ committed', c ∈ s.committed ∨ c = (k, g.generation))
    (hnew : ∀ r, new = some r → r.status = .active → r.origin = .externallyAdopted → g'.isLive = true ∧
      r.codexThreadId = g.codexThreadId ∧ r.adoptionGeneration = some g.generation ∧ (k, g.generation) ∈ committed')
    (hmapped : g'.isLive = true → (k, g.generation) ∈ committed' → ∃ r, new = some r ∧
      r.codexThreadId = g.codexThreadId ∧ r.adoptionGeneration = some g.generation ∧ r.status = .active ∧
      r.origin = .externallyAdopted)
    (howned : g'.isOwned = true → (k, g.generation) ∈ committed') :
    Agree { s.setSaga g' with session := session', committed := committed' } := by
  have hsaga : ∀ k', ({ s.setSaga g' with session := session', committed := committed' } : AdoptionDb).saga? k' =
      if k' = k then some g' else s.saga? k' := fun k' => by
    rw [← hkey]
    exact saga?_setSaga
  -- a saga of the new table, as the old one has it
  have hback : ∀ k' g₁, (if k' = k then some g' else s.saga? k') = some g₁ → ∃ g₀, s.saga? k' = some g₀ ∧
      g₁.codexThreadId = g₀.codexThreadId ∧ g₁.generation = g₀.generation ∧ (g₁.isLive = true → g₀.isLive = true) := by
    intro k' g₁ h₁
    split at h₁
    · next hk =>
      cases h₁
      exact ⟨g, hk ▸ hg, hthread, hgen, hlive⟩
    · exact ⟨g₁, h₁, rfl, rfl, id⟩
  refine ⟨h.distinct.remap hr, fun k' g₁ h₁ => ?_, fun k₁ k₂ g₁ g₂ h₁ h₂ hl₁ hl₂ heq => ?_, fun r hmem ha ho => ?_,
    fun k' g₁ h₁ hl hc => ?_, fun k' g₁ h₁ ho => ?_, fun c hc => ?_, h.increasing, fun k' => ?_⟩
  · rw [hsaga] at h₁
    split at h₁
    · next hk =>
      cases h₁
      rw [hkey, hk]
    · exact h.key k' g₁ h₁
  · rw [hsaga] at h₁ h₂
    obtain ⟨g₁', h₁', ht₁, -, hl₁'⟩ := hback k₁ g₁ h₁
    obtain ⟨g₂', h₂', ht₂, -, hl₂'⟩ := hback k₂ g₂ h₂
    exact h.unique k₁ k₂ g₁' g₂' h₁' h₂' (hl₁' hl₁) (hl₂' hl₂) (ht₁.symm.trans (heq.trans ht₂))
  · rcases (hr.active r ha).1 hmem with ⟨hmem, hk⟩ | hn
    · obtain ⟨g₀, hg₀, hl, hid, hgen₀, hc⟩ := h.mapping r hmem ha ho
      exact ⟨g₀, by rw [hsaga, if_neg hk, hg₀], hl, hid, hgen₀, hold _ hc⟩
    · obtain ⟨hl, hid, hgen₀, hc⟩ := hnew r hn ha ho
      rw [hr.scope r hn]
      refine ⟨g', by rw [hsaga, if_pos rfl], hl, hthread.trans hid.symm, by rw [hgen₀, hgen], ?_⟩
      rw [hgen]
      exact hc
  · rw [hsaga] at h₁
    split at h₁
    · next hk =>
      cases h₁
      rw [hk, hgen] at hc
      obtain ⟨r, hn, hid, hgen₀, ha, ho⟩ := hmapped hl hc
      refine ownedMappingExists_iff.2 ⟨r, (hr.active r ha).2 (.inr hn), (hr.scope r hn).trans hk.symm, ?_, ?_, ha, ho⟩
      · rw [hid, hthread]
      · rw [hgen₀, hgen]
    · next hk =>
      have hc' : (k', g₁.generation) ∈ s.committed :=
        (hcommitted _ hc).resolve_right fun heq => hk (Prod.mk.inj heq).1
      obtain ⟨r, hmem, hscope, hrest⟩ := ownedMappingExists_iff.1 (h.mapped k' g₁ h₁ hl hc')
      exact ownedMappingExists_iff.2 ⟨r, (hr.active r hrest.2.2.1).2 (.inl ⟨hmem, hscope ▸ hk⟩), hscope, hrest⟩
  · rw [hsaga] at h₁
    split at h₁
    · next hk =>
      cases h₁
      rw [hk, hgen]
      exact howned ho
    · exact hold _ (h.owned k' g₁ h₁ ho)
  · rcases hcommitted c hc with hc | rfl
    · exact h.reserved c hc
    · have hlast := h.last k
      rw [hg, Option.map_some] at hlast
      obtain ⟨⟨k', n⟩, hmem, hn⟩ := List.mem_map.1 (List.mem_of_getLast? hlast)
      obtain ⟨hmem, hk⟩ := List.mem_filter.1 hmem
      rw [← hn, ← of_decide_eq_true hk]
      exact hmem
  · rw [hsaga]
    have hlast := h.last k'
    split
    · next hk =>
      subst hk
      rw [hg, Option.map_some] at hlast
      rw [Option.map_some, hgen]
      exact hlast
    · exact hlast

theorem Distinct.remaps_self {s : SessionDb} (h : Distinct s) : Remaps k (s.active? k) s s := by
  refine ⟨fun r ha => ⟨fun hr => ?_, fun hr => ?_⟩, fun r hr => SessionDb.active?_scopeKey hr, fun r hr r' hr' ha' heq => ?_, id⟩
  · by_cases hk : r.scopeKey = k
    · exact .inr (hk ▸ h.active? hr ha)
    · exact .inl ⟨hr, hk⟩
  · exact hr.elim And.left List.mem_of_find?_eq_some
  · have ha := (isActiveOf_iff.1 (List.find?_some hr)).2
    rw [h.thread r' hr' r (List.mem_of_find?_eq_some hr) ha' ha heq]
    exact SessionDb.active?_scopeKey hr

/-- The saga of scope `k` goes on to `g'`, and the mapping stays. -/
theorem Agree.setSaga (h : Agree s) (hg : s.saga? k = some g) (hkey : g'.scopeKey = k)
    (hthread : g'.codexThreadId = g.codexThreadId) (hgen : g'.generation = g.generation)
    (hlive : g'.isLive = true → g.isLive = true) (howned : g'.isOwned = true → (k, g.generation) ∈ s.committed)
    (hgone : g'.isLive = false → ¬Adopts s.session k) : Agree (s.setSaga g') := by
  refine h.transition hg hkey hthread hgen hlive h.distinct.remaps_self (fun _ => id) (fun _ => .inl) ?_ ?_ howned
  · intro r hr ha ho
    have hmem := List.mem_of_find?_eq_some hr
    have hk : r.scopeKey = k := SessionDb.active?_scopeKey hr
    obtain ⟨g₀, hg₀, -, hid, hgen₀, hc⟩ := h.mapping r hmem ha ho
    rw [hk, hg] at hg₀
    cases hg₀
    refine ⟨?_, hid.symm, hgen₀, hk ▸ hc⟩
    by_contra hn
    exact hgone (Bool.not_eq_true _ ▸ hn) ⟨r, hmem, hk, ha, ho⟩
  · intro hl hc
    obtain ⟨r, hmem, hk, hid, hgen₀, ha, ho⟩ := ownedMappingExists_iff.1 (h.mapped k g hg (hlive hl) hc)
    exact ⟨r, hk ▸ h.distinct.active? hmem ha, hid, hgen₀, ha, ho⟩

/-! ## The jobs on sagas -/

theorem requireExactSaga_ok {r : ThreadAdoptionSaga} (h : requireExactSaga s r = .ok g) :
    s.saga? r.scopeKey = some g ∧ g.generation = r.generation ∧ g.codexThreadId = r.codexThreadId := by
  unfold requireExactSaga at h
  split at h
  · cases h
  · next g' hg =>
    obtain ⟨_, hc, h⟩ := bind_eq_ok.1 h
    cases h
    exact ⟨hg, check_eq_ok.1 hc⟩

theorem reservedElsewhere_iff : s.reservedElsewhere k thread = true ↔
    ∃ k' g, s.saga? k' = some g ∧ g.codexThreadId = thread ∧ g.isLive = true ∧ g.scopeKey ≠ k := by
  simp only [AdoptionDb.reservedElsewhere, List.any_eq_true, decide_eq_true_eq]
  constructor
  · rintro ⟨⟨k', g⟩, hmem, hg⟩
    exact ⟨k', g, AList.mem_lookup_iff.2 hmem, hg⟩
  · rintro ⟨k', g, hmem, hg⟩
    exact ⟨⟨k', g⟩, AList.mem_lookup_iff.1 hmem, hg⟩

variable {s' : AdoptionDb} {k' : String}

theorem reserve_ok (hj : reserveThreadAdoption now k thread s = .ok (g, s')) :
    ∃ n, nextGeneration (s.saga? k) = .ok n ∧ s.session.isActiveThread thread = false ∧
      ¬s.reservedElsewhere k thread = true ∧ ¬(s.saga? k).any (·.isLive) = true ∧
      g = ⟨k, thread, n, .acquiring, none, now, now⟩ ∧ s' = { s.setSaga g with reserved := s.reserved ++ [(k, n)] } := by
  unfold reserveThreadAdoption at hj
  obtain ⟨_, -, hj⟩ := bind_eq_ok.1 hj
  obtain ⟨_, -, hj⟩ := bind_eq_ok.1 hj
  obtain ⟨_, -, hj⟩ := bind_eq_ok.1 hj
  obtain ⟨_, htarget, hj⟩ := bind_eq_ok.1 hj
  obtain ⟨_, hscope, hj⟩ := bind_eq_ok.1 hj
  obtain ⟨n, hn, hj⟩ := bind_eq_ok.1 hj
  obtain ⟨_, -, hj⟩ := bind_eq_ok.1 hj
  cases hj
  obtain ⟨_, hmapping, htarget⟩ := bind_eq_ok.1 htarget
  obtain ⟨_, -, hscope⟩ := bind_eq_ok.1 hscope
  have hfree : ¬s.session.isActiveThread thread = true := check_eq_ok.1 hmapping
  exact ⟨n, hn, Bool.not_eq_true _ ▸ hfree, check_eq_ok.1 htarget, check_eq_ok.1 hscope, rfl, rfl⟩

/-- The next generation of a scope is larger than all before. -/
theorem Agree.lt_next (h : Agree s) (hn : nextGeneration (s.saga? k) = .ok n) {m : ℕ} (hm : (k, m) ∈ s.reserved) :
    m < n := by
  cases hg : s.saga? k with
  | none =>
    have hlast := h.last k
    rw [hg, Option.map_none, List.getLast?_eq_none_iff] at hlast
    have hmem : m ∈ generations s k := List.mem_map.2 ⟨(k, m), List.mem_filter.2 ⟨hm, by simp⟩, rfl⟩
    rw [hlast] at hmem
    cases hmem
  | some g =>
    rw [hg] at hn
    obtain ⟨_, -, hn⟩ := bind_eq_ok.1 hn
    obtain ⟨_, -, hn⟩ := bind_eq_ok.1 hn
    cases hn
    exact Nat.lt_succ_of_le (h.le hg hm)

theorem generations_append : generations { s with reserved := s.reserved ++ [(k, n)] } k' =
    generations s k' ++ if k = k' then [n] else [] := by
  unfold generations
  rw [List.filter_append, List.map_append]
  split <;> simp [*]

/-- **A reservation** names a free thread, and its generation is a new one. -/
theorem Agree.reserve (h : Agree s) (hj : reserveThreadAdoption now k thread s = .ok (g, s')) :
    Agree s' := by
  obtain ⟨n, hn, -, hfree, hended, rfl, rfl⟩ := reserve_ok hj
  have hnew : ∀ m, (k, m) ∈ s.reserved → m < n := fun m hm => h.lt_next hn hm
  have hother : ∀ k' g, k' ≠ k → s.saga? k' = some g → g.isLive = true → g.codexThreadId ≠ thread := by
    intro k' g hk hg hl heq
    exact hfree (reservedElsewhere_iff.2 ⟨k', g, hg, heq, hl, fun hkey => hk ((h.key k' g hg).symm.trans hkey)⟩)
  have hsaga : ∀ k', ({ s.setSaga ⟨k, thread, n, .acquiring, none, now, now⟩ with
      reserved := s.reserved ++ [(k, n)] } : AdoptionDb).saga? k' =
      if k' = k then some ⟨k, thread, n, .acquiring, none, now, now⟩ else s.saga? k' := fun k' => saga?_setSaga
  refine ⟨h.distinct, fun k' g hg => ?_, fun k₁ k₂ g₁ g₂ h₁ h₂ hl₁ hl₂ heq => ?_, fun r hmem ha ho => ?_,
    fun k' g hg hl hc => ?_, fun k' g hg ho => ?_, fun c hc => List.mem_append_left _ (h.reserved c hc), fun k' => ?_,
    fun k' => ?_⟩
  · rw [hsaga] at hg
    split at hg
    · next hk =>
      cases hg
      exact hk.symm
    · exact h.key k' g hg
  · rw [hsaga] at h₁ h₂
    split at h₁ <;> split at h₂
    · next hk₁ hk₂ => exact hk₁.trans hk₂.symm
    · next hk₁ hk₂ =>
      cases h₁
      exact absurd heq.symm (hother k₂ g₂ hk₂ h₂ hl₂)
    · next hk₁ hk₂ =>
      cases h₂
      exact absurd heq (hother k₁ g₁ hk₁ h₁ hl₁)
    · exact h.unique k₁ k₂ g₁ g₂ h₁ h₂ hl₁ hl₂ heq
  · obtain ⟨g₀, hg₀, hl, hrest⟩ := h.mapping r hmem ha ho
    have hk : r.scopeKey ≠ k := by
      intro hk
      rw [hk] at hg₀
      exact hended (by rw [hg₀]; exact hl)
    exact ⟨g₀, by rw [hsaga, if_neg hk, hg₀], hl, hrest⟩
  · rw [hsaga] at hg
    split at hg
    · next hk =>
      cases hg
      rw [hk] at hc
      exact absurd (hnew n (h.reserved _ hc)) (lt_irrefl n)
    · exact h.mapped k' g hg hl hc
  · rw [hsaga] at hg
    split at hg
    · cases hg
      cases ho
    · exact h.owned k' g hg ho
  · refine (generations_append (s := s)).symm ▸ ?_
    split
    · next hk =>
      subst hk
      refine List.pairwise_append.2 ⟨h.increasing k, List.pairwise_singleton _ _, fun m hm n' hn' => ?_⟩
      rw [List.mem_singleton.1 hn']
      obtain ⟨⟨k', m'⟩, hm', rfl⟩ := List.mem_map.1 hm
      obtain ⟨hreserved, hk⟩ := List.mem_filter.1 hm'
      obtain rfl : k' = k := of_decide_eq_true hk
      exact hnew m' hreserved
    · rw [List.append_nil]
      exact h.increasing k'
  · rw [hsaga]
    refine (generations_append (s := s)).symm ▸ ?_
    by_cases hk : k = k'
    · subst hk
      simp
    · rw [if_neg hk, if_neg (Ne.symm hk), List.append_nil]
      exact h.last k'

variable {reservation : ThreadAdoptionSaga} {cwd fingerprint : String} {result : ThreadAdoptionReleaseResult}
  {op : AdoptionOp} {a : op.Value} {r : ThreadRow}

theorem commit_ok {row : ThreadRow} (hj : commitThreadAdoption now reservation cwd fingerprint s = .ok (row, s')) :
    ∃ g session' a, s.saga? reservation.scopeKey = some g ∧ g.generation = reservation.generation ∧ g.isLive = true ∧
      a = Adoption.mk reservation.scopeKey g.codexThreadId g.generation cwd fingerprint ∧
      Runtime.commitThreadAdoption now a true s.session = .ok ((), session') ∧
      s' = { s.setSaga { g with state := .owned, updatedMs := now } with
        session := session', committed := s.committed ++ [(reservation.scopeKey, g.generation)] } := by
  unfold commitThreadAdoption at hj
  obtain ⟨_, -, hj⟩ := bind_eq_ok.1 hj
  obtain ⟨g, hg, hj⟩ := bind_eq_ok.1 hj
  obtain ⟨_, hstate, hj⟩ := bind_eq_ok.1 hj
  obtain ⟨⟨u, session'⟩, hsession, hj⟩ := bind_eq_ok.1 hj
  cases hj
  obtain ⟨hg, hgen, hthread⟩ := requireExactSaga_ok hg
  have hacquiring : g.state = .acquiring := by simpa using check_eq_ok.1 hstate
  rw [← hgen, ← hthread] at hsession
  refine ⟨g, session', _, hg, hgen, ?_, rfl, hsession, by rw [hgen]⟩
  simp [ThreadAdoptionSaga.isLive, hacquiring]

/-- **A commit** maps the thread that the saga names. -/
theorem Agree.commit {row : ThreadRow} (h : Agree s)
    (hj : commitThreadAdoption now reservation cwd fingerprint s = .ok (row, s')) : Agree s' := by
  obtain ⟨g, session', a, hg, -, hlive, rfl, hsession, rfl⟩ := commit_ok hj
  obtain ⟨hr, -, -⟩ := commitThreadAdoption_remaps h.distinct hsession
  have hmem : (reservation.scopeKey, g.generation) ∈ s.committed ++ [(reservation.scopeKey, g.generation)] :=
    List.mem_append_right _ (List.mem_singleton_self _)
  have htransition := @Agree.transition s _ g { g with state := .owned, updatedMs := now } _ session' _ h hg (h.key _ g hg)
    rfl rfl (fun _ => hlive) hr (fun c hc => List.mem_append_left _ hc)
    fun c hc => (List.mem_append.1 hc).imp_right List.mem_singleton.1
  refine htransition ?_ ?_ fun _ => hmem
  · rintro _ ⟨⟩ - -
    exact ⟨rfl, rfl, rfl, hmem⟩
  · exact fun _ _ => ⟨_, rfl, rfl, rfl, rfl, rfl⟩

theorem finishAcquisitionFailure_ok (hj : finishThreadAdoptionAcquisitionFailure now reservation s = .ok (g', s')) :
    ∃ g, s.saga? reservation.scopeKey = some g ∧
      ¬s.ownedMappingExists reservation.scopeKey g.codexThreadId g.generation = true ∧
      g' = { g with state := .terminal, outcome := some .acquisitionFailed, updatedMs := now } ∧ s' = s.setSaga g' := by
  unfold finishThreadAdoptionAcquisitionFailure at hj
  obtain ⟨_, -, hj⟩ := bind_eq_ok.1 hj
  obtain ⟨g, hg, hj⟩ := bind_eq_ok.1 hj
  obtain ⟨_, -, hj⟩ := bind_eq_ok.1 hj
  obtain ⟨_, -, hj⟩ := bind_eq_ok.1 hj
  obtain ⟨_, howned, hj⟩ := bind_eq_ok.1 hj
  cases hj
  obtain ⟨hg, hgen, hthread⟩ := requireExactSaga_ok hg
  rw [← hgen, ← hthread] at howned
  exact ⟨g, hg, check_eq_ok.1 howned, rfl, rfl⟩

theorem Agree.finishAcquisitionFailure (h : Agree s)
    (hj : finishThreadAdoptionAcquisitionFailure now reservation s = .ok (g', s')) : Agree s' := by
  obtain ⟨g, hg, howned, rfl, rfl⟩ := finishAcquisitionFailure_ok hj
  refine h.setSaga hg (h.key _ g hg) rfl rfl nofun nofun fun _ => ?_
  -- an adopted thread of the scope would be the mapping of this generation
  rintro ⟨r, hmem, hk, ha, ho⟩
  obtain ⟨g₀, hg₀, -, hid, hgen, -⟩ := h.mapping r hmem ha ho
  rw [hk, hg] at hg₀
  cases hg₀
  exact howned (ownedMappingExists_iff.2 ⟨r, hmem, hk, hid.symm, hgen, ha, ho⟩)

theorem beginRelease_ok (hj : beginThreadAdoptionRelease now reservation s = .ok (g', s')) :
    ∃ g, s.saga? reservation.scopeKey = some g ∧ requireOwnedMapping s reservation = .ok () ∧
      g' = { g with state := .releasing, outcome := none, updatedMs := now } ∧ s' = s.setSaga g' := by
  unfold beginThreadAdoptionRelease at hj
  obtain ⟨_, -, hj⟩ := bind_eq_ok.1 hj
  obtain ⟨g, hg, hj⟩ := bind_eq_ok.1 hj
  obtain ⟨_, -, hj⟩ := bind_eq_ok.1 hj
  obtain ⟨_, -, hj⟩ := bind_eq_ok.1 hj
  obtain ⟨_, hmap, hj⟩ := bind_eq_ok.1 hj
  cases hj
  exact ⟨g, (requireExactSaga_ok hg).1, hmap, rfl, rfl⟩

theorem finishRelease_ok (hj : finishThreadAdoptionRelease now reservation result s = .ok (g', s')) :
    ∃ g, s.saga? reservation.scopeKey = some g ∧ requireOwnedMapping s reservation = .ok () ∧
      (g' = { g with state := .releaseFailed, outcome := none, updatedMs := now } ∧ s' = s.setSaga g' ∨
        ∃ session', Remaps reservation.scopeKey none s.session session' ∧
          g' = { g with state := .terminal, outcome := some .released, updatedMs := now } ∧
          s' = { s.setSaga g' with session := session' }) := by
  unfold finishThreadAdoptionRelease at hj
  obtain ⟨_, -, hj⟩ := bind_eq_ok.1 hj
  obtain ⟨g, hg, hj⟩ := bind_eq_ok.1 hj
  obtain ⟨_, -, hj⟩ := bind_eq_ok.1 hj
  obtain ⟨_, -, hj⟩ := bind_eq_ok.1 hj
  obtain ⟨_, hmap, hj⟩ := bind_eq_ok.1 hj
  refine ⟨g, (requireExactSaga_ok hg).1, hmap, ?_⟩
  cases result with
  | released =>
    obtain ⟨⟨u, session'⟩, hsession, hj⟩ := bind_eq_ok.1 hj
    cases hj
    exact .inr ⟨session', finishThreadAdoptionRelease_remaps hsession, rfl, rfl⟩
  | failed =>
    cases hj
    exact .inl ⟨rfl, rfl⟩

/-- The saga whose mapping a release asks for is a committed one. -/
theorem Agree.committed_of_owned (h : Agree s) (hg : s.saga? reservation.scopeKey = some g)
    (hmap : requireOwnedMapping s reservation = .ok ()) :
    g.isLive = true ∧ (reservation.scopeKey, g.generation) ∈ s.committed := by
  obtain ⟨r, hmem, hk, -, -, ha, ho⟩ := ownedMappingExists_iff.1 (check_eq_ok.1 hmap)
  obtain ⟨g₀, hg₀, hl, -, -, hc⟩ := h.mapping r hmem ha ho
  rw [hk] at hg₀ hc
  cases hg.symm.trans hg₀
  exact ⟨hl, hc⟩

theorem Agree.beginRelease (h : Agree s) (hj : beginThreadAdoptionRelease now reservation s = .ok (g', s')) :
    Agree s' := by
  obtain ⟨g, hg, hmap, rfl, rfl⟩ := beginRelease_ok hj
  obtain ⟨hlive, hc⟩ := h.committed_of_owned hg hmap
  exact h.setSaga hg (h.key _ g hg) rfl rfl (fun _ => hlive) (fun _ => hc) nofun

/-- **A release** ends mapping and saga together, or neither. -/
theorem Agree.finishRelease (h : Agree s) (hj : finishThreadAdoptionRelease now reservation result s = .ok (g', s')) :
    Agree s' := by
  obtain ⟨g, hg, hmap, ⟨rfl, rfl⟩ | ⟨session', hr, rfl, rfl⟩⟩ := finishRelease_ok hj
  · obtain ⟨hlive, hc⟩ := h.committed_of_owned hg hmap
    exact h.setSaga hg (h.key _ g hg) rfl rfl (fun _ => hlive) (fun _ => hc) nofun
  · obtain ⟨hlive, hc⟩ := h.committed_of_owned hg hmap
    exact h.transition hg (h.key _ g hg) rfl rfl (fun _ => hlive) hr (fun _ => id) (fun _ => .inl) nofun nofun nofun

theorem fence_ok (hj : fenceThreadAdoption now reservation s = .ok (g', s')) :
    ∃ g, s.saga? reservation.scopeKey = some g ∧ g.isLive = true ∧ (s' = s ∨
      g' = { g with state := .recoveryRequired, outcome := none, updatedMs := now } ∧ s' = s.setSaga g') := by
  unfold fenceThreadAdoption at hj
  obtain ⟨_, -, hj⟩ := bind_eq_ok.1 hj
  obtain ⟨g, hg, hj⟩ := bind_eq_ok.1 hj
  obtain ⟨_, hstate, hj⟩ := bind_eq_ok.1 hj
  refine ⟨g, (requireExactSaga_ok hg).1, decide_eq_true (check_eq_ok.1 hstate), ?_⟩
  split at hj
  · cases hj
    exact .inl rfl
  · cases hj
    exact .inr ⟨rfl, rfl⟩

theorem Agree.fence (h : Agree s) (hj : fenceThreadAdoption now reservation s = .ok (g', s')) : Agree s' := by
  obtain ⟨g, hg, hlive, rfl | ⟨rfl, rfl⟩⟩ := fence_ok hj
  · exact h
  · exact h.setSaga hg (h.key _ g hg) rfl rfl (fun _ => hlive) nofun nofun

/-! ## The check on startup -/

theorem fence_scopeKey : (g.fence now).scopeKey = g.scopeKey ∧ (g.fence now).codexThreadId = g.codexThreadId ∧
    (g.fence now).generation = g.generation ∧ (g.fence now).isLive = g.isLive ∧ (g.fence now).isOwned = false := by
  obtain ⟨key, id, generation, state, outcome, created, updated⟩ := g
  cases state <;> exact ⟨rfl, rfl, rfl, rfl, rfl⟩

theorem Agree.fenceOnStartup (h : Agree s) (hj : fenceThreadAdoptionsOnStartup now s = .ok (n, s')) : Agree s' := by
  unfold fenceThreadAdoptionsOnStartup at hj
  obtain ⟨_, -, hj⟩ := bind_eq_ok.1 hj
  obtain ⟨_, -, hj⟩ := bind_eq_ok.1 hj
  cases hj
  have hsaga : ∀ k, ({ s with sagas := s.sagas.mapValues (·.fence now) } : AdoptionDb).saga? k =
      (s.saga? k).map (·.fence now) := fun k => KeyMap.lookup_mapValues _ _ _
  have hback : ∀ k g, (s.saga? k).map (·.fence now) = some g → ∃ g₀, s.saga? k = some g₀ ∧ g = g₀.fence now := by
    intro k g hg
    obtain ⟨g₀, hg₀, rfl⟩ := Option.map_eq_some_iff.1 hg
    exact ⟨g₀, hg₀, rfl⟩
  refine ⟨h.distinct, fun k g hg => ?_, fun k₁ k₂ g₁ g₂ h₁ h₂ hl₁ hl₂ heq => ?_, fun r hmem ha ho => ?_,
    fun k g hg hl hc => ?_, fun k g hg ho => ?_, h.reserved, h.increasing, fun k => ?_⟩
  · obtain ⟨g₀, hg₀, rfl⟩ := hback k g (hsaga k ▸ hg)
    rw [fence_scopeKey.1]
    exact h.key k g₀ hg₀
  · obtain ⟨g₁', h₁', rfl⟩ := hback k₁ g₁ (hsaga k₁ ▸ h₁)
    obtain ⟨g₂', h₂', rfl⟩ := hback k₂ g₂ (hsaga k₂ ▸ h₂)
    obtain ⟨-, ht₁, -, hlive₁, -⟩ := @fence_scopeKey now g₁'
    obtain ⟨-, ht₂, -, hlive₂, -⟩ := @fence_scopeKey now g₂'
    exact h.unique k₁ k₂ g₁' g₂' h₁' h₂' (hlive₁ ▸ hl₁) (hlive₂ ▸ hl₂) (ht₁ ▸ ht₂ ▸ heq)
  · obtain ⟨g₀, hg₀, hl, hid, hgen, hc⟩ := h.mapping r hmem ha ho
    obtain ⟨-, ht, hn, hlive, -⟩ := @fence_scopeKey now g₀
    exact ⟨g₀.fence now, by rw [hsaga, hg₀, Option.map_some], hlive ▸ hl, ht.trans hid, hn ▸ hgen, hn ▸ hc⟩
  · obtain ⟨g₀, hg₀, rfl⟩ := hback k g (hsaga k ▸ hg)
    obtain ⟨-, ht, hn, hlive, -⟩ := @fence_scopeKey now g₀
    rw [ht, hn]
    exact h.mapped k g₀ hg₀ (hlive ▸ hl) (hn ▸ hc)
  · obtain ⟨g₀, hg₀, rfl⟩ := hback k g (hsaga k ▸ hg)
    rw [fence_scopeKey.2.2.2.2] at ho
    cases ho
  · rw [hsaga, Option.map_map]
    refine (h.last k).trans (congrArg (Option.map · _) (funext fun g => ?_))
    exact fence_scopeKey.2.2.1.symm

/-- **The check on startup does not fail** on tables that agree. -/
theorem Agree.startup (h : Agree s) (context : String) : fenceThreadAdoptionsOnStartup now s ≠ .error (.corruptData context) := by
  have horphan : s.session.threads.any s.isOrphaned = false := by
    refine List.any_eq_false.2 fun r hmem => ?_
    unfold AdoptionDb.isOrphaned
    rw [decide_eq_true_eq]
    rintro ⟨ha, ho, hn⟩
    obtain ⟨g, hg, hl, hid, hgen, -⟩ := h.mapping r hmem ha ho
    refine hn (List.any_eq_true.2 ⟨⟨r.scopeKey, g⟩, AList.mem_lookup_iff.1 hg, decide_eq_true ?_⟩)
    exact ⟨h.key _ g hg, hid, hgen.symm, hl⟩
  have hmissing : (s.sagas.entries.any fun e =>
      (e.2.state = .owned ∨ e.2.state = .releasing ∨ e.2.state = .releaseFailed) ∧
        ¬s.ownedMappingExists e.2.scopeKey e.2.codexThreadId e.2.generation) = false := by
    refine List.any_eq_false.2 ?_
    rintro ⟨k, g⟩ hmem
    rw [decide_eq_true_eq]
    rintro ⟨hstate, hn⟩
    have hg : s.saga? k = some g := AList.mem_lookup_iff.2 hmem
    have ho : g.isOwned = true := decide_eq_true hstate
    have hmapped := h.mapped k g hg (isLive_of_isOwned ho) (h.owned k g hg ho)
    rw [h.key k g hg] at hn
    exact hn hmapped
  unfold fenceThreadAdoptionsOnStartup
  rw [horphan, hmissing]
  nofun

/-! ## The jobs on scopes and threads -/

theorem onSession_ok {α : Type} {job : Job SessionDb α} {a : α} (h : onSession job s = .ok (a, s')) :
    ∃ session', job s.session = .ok (a, session') ∧ s' = { s with session := session' } := by
  obtain ⟨⟨b, session'⟩, hj, h⟩ := bind_eq_ok.1 h
  cases h
  exact ⟨session', hj, rfl⟩

theorem Agree.job (h : Agree s) (hj : op.job now s = .ok (a, s')) :
    Agree s' := by
  cases op with
  | reserve k thread => exact h.reserve hj
  | commit r cwd fingerprint => exact h.commit hj
  | finishAcquisitionFailure r => exact h.finishAcquisitionFailure hj
  | beginRelease r => exact h.beginRelease hj
  | finishRelease r result => exact h.finishRelease hj
  | fence r => exact h.fence hj
  | fenceOnStartup => exact h.fenceOnStartup hj
  | recordActiveThread k thread version =>
    obtain ⟨session', hs, rfl⟩ := onSession_ok hj
    obtain ⟨hr, hnone⟩ := recordActiveThread_remaps hs
    refine h.remap hr (h.distinct.not_adopts (by rw [hnone]; rfl)) ?_
    rintro _ ⟨⟩
    rfl
  | archiveActiveThread k =>
    obtain ⟨session', hs, rfl⟩ := onSession_ok hj
    rcases archiveActiveThread_remaps h.distinct hs with rfl | ⟨hr, hno⟩
    · exact h
    · exact h.remap hr hno nofun
  | reactivateArchivedThread k thread =>
    obtain ⟨session', hs, rfl⟩ := onSession_ok hj
    rcases reactivateArchivedThread_remaps h.distinct hs with rfl | ⟨r, hr, -, -, ho, hno⟩
    · exact h
    · refine h.remap hr hno ?_
      rintro _ ⟨⟩
      exact ho
  | upsertScope k cwd fingerprint =>
    obtain ⟨session', hs, rfl⟩ := onSession_ok hj
    exact h.same (upsertScope_ok hs).2.1
  | inbox db =>
    obtain ⟨session', hs, rfl⟩ := onSession_ok hj
    obtain ⟨db', -, rfl⟩ := onDb_ok hs
    exact h.same rfl

theorem adoptionStep_agree (w : Writer AdoptionDb) (e : AdoptionEvent) (h : Agree w.db) : Agree (adoptionStep w e).db := by
  rcases adoptionStep_db w e with hdb | ⟨fate, now, op, a, -, hj⟩
  · rw [hdb]
    exact h
  · exact h.job hj

theorem agree_after (es : List AdoptionEvent) : Agree (adoptionsAfter es) :=
  exec_invariant' (I := fun w : Writer AdoptionDb => Agree w.db) adoptionStep_agree empty_agree

/-- What the two tables say about each other. -/
structure Consistent (s : AdoptionDb) : Prop where
  /-- An active adopted mapping is that of a live and committed saga. -/
  mapping : ∀ k thread n, s.ownedMappingExists k thread n = true ↔ ∃ g, s.saga? k = some g ∧ g.isLive = true ∧
    g.codexThreadId = thread ∧ g.generation = n ∧ (k, n) ∈ s.committed
  owned : ∀ k g, s.saga? k = some g → g.isOwned = true →
    s.ownedMappingExists k g.codexThreadId g.generation = true
  /-- The generations of a scope increase, and the last one is that of its saga. -/
  increasing : ∀ k, (generations s k).Pairwise (· < ·)
  current : ∀ k, (generations s k).getLast? = (s.saga? k).map (·.generation)
  startup : ∀ now context, fenceThreadAdoptionsOnStartup now s ≠ .error (.corruptData context)

/-- **Sagas and mappings agree along every run,** and the check on startup finds no corrupt data. -/
theorem adoptions_agree (es : List AdoptionEvent) : Consistent (adoptionsAfter es) := by
  have h := agree_after es
  refine ⟨fun k thread n => ⟨fun hm => ?_, ?_⟩, fun k g hg ho => ?_, h.increasing, h.last, fun _ => h.startup⟩
  · obtain ⟨r, hmem, rfl, rfl, hgen, ha, ho⟩ := ownedMappingExists_iff.1 hm
    obtain ⟨g, hg, hl, hid, hgen', hc⟩ := h.mapping r hmem ha ho
    cases hgen.symm.trans hgen'
    exact ⟨g, hg, hl, hid, rfl, hc⟩
  · rintro ⟨g, hg, hl, rfl, rfl, hc⟩
    exact h.mapped k g hg hl hc
  · exact h.mapped k g hg (isLive_of_isOwned ho) (h.owned k g hg ho)

/-! ## Reserved threads -/

/-- A thread that a live saga names is active in the scope of the saga only. -/
def Exclusive (s : AdoptionDb) : Prop :=
  ∀ k g, s.saga? k = some g → g.isLive = true → ∀ r ∈ s.session.threads, r.status = .active →
    r.codexThreadId = g.codexThreadId → r.scopeKey = k

/-- The operation makes a thread active that a live saga of another scope names. -/
def Intrudes (s : AdoptionDb) : AdoptionOp → Bool
  | .recordActiveThread k thread _ => s.reservedElsewhere k thread ∧ (s.session.active? k).isNone ∧
      (s.session.thread? k thread).isNone ∧ ¬s.session.isActiveThread thread
  | .reactivateArchivedThread k thread => s.reservedElsewhere k thread ∧
      (s.session.thread? k thread).any (fun r => r.status = .archived ∧ r.origin = .bridgeCreated) ∧
      (s.session.active? k).all (·.origin = .bridgeCreated) ∧ ¬s.session.isActiveThread thread
  | _ => false

/-- The event is no such operation. -/
def Respects (w : Writer AdoptionDb) : AdoptionEvent → Prop
  | .call _ _ op => Intrudes w.db op = false
  | .restart => True

/-- **Once it is committed** the reserved thread is exclusive. -/
theorem Agree.exclusive_of_committed (h : Agree s) (hg : s.saga? k = some g) (hl : g.isLive = true)
    (hc : (k, g.generation) ∈ s.committed) (hr : r ∈ s.session.threads) (ha : r.status = .active)
    (hid : r.codexThreadId = g.codexThreadId) : r.scopeKey = k := by
  obtain ⟨r', hr', hk, hid', -, ha', -⟩ := ownedMappingExists_iff.1 (h.mapped k g hg hl hc)
  rw [h.distinct.thread r hr r' hr' ha ha' (hid.trans hid'.symm)]
  exact hk

/-- Neither live sagas nor active threads are added. -/
theorem Exclusive.mono (h : Exclusive s) (hsaga : ∀ k g', s'.saga? k = some g' → g'.isLive = true →
      ∃ g, s.saga? k = some g ∧ g.isLive = true ∧ g'.codexThreadId = g.codexThreadId)
    (hrows : ∀ r ∈ s'.session.threads, r.status = .active → r ∈ s.session.threads) : Exclusive s' := by
  intro k g' hg' hl' r hr ha hid
  obtain ⟨g, hg, hl, hthread⟩ := hsaga k g' hg' hl'
  exact h k g hg hl r (hrows r hr ha) ha (hid.trans hthread)

theorem setSaga_live {g₁ : ThreadAdoptionSaga} (h : Agree s) (hg : s.saga? k = some g)
    (h₁ : (s.setSaga g').saga? k' = some g₁) (hl₁ : g₁.isLive = true) (hkey : g'.scopeKey = g.scopeKey)
    (hthread : g'.codexThreadId = g.codexThreadId) (hlive : g'.isLive = true → g.isLive = true) :
    ∃ g₀, s.saga? k' = some g₀ ∧ g₀.isLive = true ∧ g₁.codexThreadId = g₀.codexThreadId := by
  rw [saga?_setSaga] at h₁
  split at h₁
  · next hk =>
    cases h₁
    rw [hk, hkey, h.key k g hg]
    exact ⟨g, hg, hlive hl₁, hthread⟩
  · exact ⟨g₁, h₁, hl₁, rfl⟩

theorem isActiveThread_ne {s : SessionDb} (hfree : s.isActiveThread thread = false) (hr : r ∈ s.threads)
    (ha : r.status = .active) : r.codexThreadId ≠ thread := fun heq => by
  rw [isActiveThread_iff.2 ⟨r, hr, heq, ha⟩] at hfree
  cases hfree

/-- A new active thread, unless another scope has reserved it. -/
theorem Exclusive.remap {new : ThreadRow} (h : Exclusive s) (hagree : Agree s)
    (hr : Remaps k (some new) s.session session') (hfree : s.reservedElsewhere k new.codexThreadId = false) :
    Exclusive { s with session := session' } := by
  intro k' g hg hl r hmem ha hid
  rcases (hr.active r ha).1 hmem with ⟨hold, -⟩ | hn
  · exact h k' g hg hl r hold ha hid
  · cases hn
    rw [hr.scope new rfl]
    by_contra hk
    have hreserved : s.reservedElsewhere k new.codexThreadId = true :=
      reservedElsewhere_iff.2 ⟨k', g, hg, hid.symm, hl, fun hkey => hk (hkey.symm.trans (hagree.key k' g hg))⟩
    rw [hreserved] at hfree
    cases hfree

theorem reactivateArchivedThread_found {s s' : SessionDb} {row : Option ThreadRow} (hd : Distinct s)
    (h : reactivateArchivedThread now k thread s = .ok (row, s')) : s' = s ∨
      (s.thread? k thread).any (fun r => r.status = .archived ∧ r.origin = .bridgeCreated) = true ∧
      (s.active? k).all (·.origin = .bridgeCreated) = true ∧ s.isActiveThread thread = false := by
  unfold reactivateArchivedThread at h
  split at h
  · cases h
    exact .inl rfl
  · next r hr =>
    have hmem := List.mem_of_find?_eq_some hr
    have hkey := List.find?_some hr
    simp only [Bool.decide_and, Bool.and_eq_true, decide_eq_true_eq] at hkey
    split at h
    · cases h
    · next horigin =>
      split at h
      · cases h
        exact .inl rfl
      · next harchived =>
        split at h
        · cases h
        · next hbridge =>
          dsimp only at h
          split at h
          · cases h
          · next hfree =>
            refine .inr ⟨?_, ?_, ?_⟩
            · have hstatus : r.status = .archived := by
                cases hs : r.status with
                | active => exact absurd hs harchived
                | archived => rfl
              rw [hr]
              simp [hstatus, not_not.1 horigin]
            · cases hactive : s.active? k with
              | none => rfl
              | some r' => simpa [hactive] using hbridge
            · rw [Bool.eq_false_iff]
              intro hactive
              obtain ⟨r', hr', hid, ha⟩ := isActiveThread_iff.1 hactive
              -- an active row of the thread in this scope would be the archived one
              have hk : r'.scopeKey ≠ k := by
                intro hk
                have heq : r' = r := List.inj_on_of_nodup_map hd.keys hr' hmem (by rw [hk, hid, hkey.1, hkey.2])
                exact harchived (heq ▸ ha)
              have hkept := ((@archiveActive_remaps s k now).active r' ha).2 (.inl ⟨hr', hk⟩)
              exact hfree (isActiveThread_iff.2 ⟨r', hkept, hid, ha⟩)

/-- **A step keeps reserved threads exclusive** unless it intrudes. -/
theorem Exclusive.job (h : Exclusive s) (hagree : Agree s) (hop : Intrudes s op = false)
    (hj : op.job now s = .ok (a, s')) : Exclusive s' := by
  cases op with
  | reserve k thread =>
    obtain ⟨n, -, hfree, -, -, rfl, rfl⟩ := reserve_ok hj
    intro k' g hg hl r hmem ha hid
    replace hg := saga?_setSaga.symm.trans hg
    split at hg
    · cases hg
      exact absurd hid (isActiveThread_ne hfree hmem ha)
    · exact h k' g hg hl r hmem ha hid
  | commit reservation cwd fingerprint =>
    obtain ⟨g, session', a, hg, -, hlive, rfl, hsession, rfl⟩ := commit_ok hj
    obtain ⟨hr, -, -⟩ := commitThreadAdoption_remaps hagree.distinct hsession
    intro k' g₁ h₁ hl₁ r hmem ha hid
    replace h₁ : (s.setSaga { g with state := .owned, updatedMs := now }).saga? k' = some g₁ := h₁
    obtain ⟨g₀, hg₀, hl₀, hthread⟩ := setSaga_live hagree hg h₁ hl₁ rfl rfl fun _ => hlive
    rcases (hr.active r ha).1 hmem with ⟨hold, -⟩ | hn
    · exact h k' g₀ hg₀ hl₀ r hold ha (hid.trans hthread)
    · cases hn
      exact hagree.unique _ _ g g₀ hg hg₀ hlive hl₀ (hid.trans hthread)
  | finishAcquisitionFailure reservation =>
    obtain ⟨g, hg, -, rfl, rfl⟩ := finishAcquisitionFailure_ok hj
    exact h.mono (fun k' g₁ h₁ hl₁ => setSaga_live hagree hg h₁ hl₁ rfl rfl nofun) fun _ hr _ => hr
  | beginRelease reservation =>
    obtain ⟨g, hg, hmap, rfl, rfl⟩ := beginRelease_ok hj
    obtain ⟨hlive, -⟩ := hagree.committed_of_owned hg hmap
    exact h.mono (fun k' g₁ h₁ hl₁ => setSaga_live hagree hg h₁ hl₁ rfl rfl fun _ => hlive) fun _ hr _ => hr
  | finishRelease reservation result =>
    obtain ⟨g, hg, hmap, ⟨rfl, rfl⟩ | ⟨session', hr, rfl, rfl⟩⟩ := finishRelease_ok hj
    · obtain ⟨hlive, -⟩ := hagree.committed_of_owned hg hmap
      exact h.mono (fun k' g₁ h₁ hl₁ => setSaga_live hagree hg h₁ hl₁ rfl rfl fun _ => hlive) fun _ hr _ => hr
    · refine h.mono (fun k' g₁ h₁ hl₁ => setSaga_live hagree hg h₁ hl₁ rfl rfl nofun) fun r hmem ha => ?_
      exact (((hr.active r ha).1 hmem).resolve_right nofun).1
  | fence reservation =>
    obtain ⟨g, hg, hlive, rfl | ⟨rfl, rfl⟩⟩ := fence_ok hj
    · exact h
    · exact h.mono (fun k' g₁ h₁ hl₁ => setSaga_live hagree hg h₁ hl₁ rfl rfl fun _ => hlive) fun _ hr _ => hr
  | fenceOnStartup =>
    obtain ⟨_, -, hj⟩ := bind_eq_ok.1 hj
    obtain ⟨_, -, hj⟩ := bind_eq_ok.1 hj
    cases hj
    refine h.mono (fun k' g₁ h₁ hl₁ => ?_) fun _ hr _ => hr
    replace h₁ : (s.saga? k').map (·.fence now) = some g₁ := (KeyMap.lookup_mapValues _ _ _).symm.trans h₁
    obtain ⟨g₀, hg₀, rfl⟩ := Option.map_eq_some_iff.1 h₁
    obtain ⟨-, ht, -, hlive, -⟩ := @fence_scopeKey now g₀
    exact ⟨g₀, hg₀, hlive ▸ hl₁, ht⟩
  | recordActiveThread k thread version =>
    obtain ⟨session', hs, rfl⟩ := onSession_ok hj
    obtain ⟨hr, hnone⟩ := recordActiveThread_remaps hs
    refine h.remap hagree hr ?_
    unfold recordActiveThread at hs
    split at hs
    · cases hs
    · next hn =>
      simp only [not_or, Bool.not_eq_true, Option.isSome_eq_false_iff] at hn
      obtain ⟨hkey, -, hfree⟩ := hn
      simpa [Intrudes, hnone, hkey, hfree] using hop
  | archiveActiveThread k =>
    obtain ⟨session', hs, rfl⟩ := onSession_ok hj
    rcases archiveActiveThread_remaps hagree.distinct hs with rfl | ⟨hr, -⟩
    · exact h
    · refine h.mono (fun k' g₁ h₁ hl₁ => ⟨g₁, h₁, hl₁, rfl⟩) fun r hmem ha => ?_
      exact (((hr.active r ha).1 hmem).resolve_right nofun).1
  | reactivateArchivedThread k thread =>
    obtain ⟨session', hs, rfl⟩ := onSession_ok hj
    rcases reactivateArchivedThread_found hagree.distinct hs with rfl | ⟨hfound, hbridge, hfree⟩
    · exact h
    · rcases reactivateArchivedThread_remaps hagree.distinct hs with rfl | ⟨r, hr, rfl, -, -, -⟩
      · exact h
      · refine h.remap hagree hr ?_
        by_contra hreserved
        have hintrudes : Intrudes s (.reactivateArchivedThread k r.codexThreadId) = true :=
          decide_eq_true ⟨Bool.not_eq_false _ ▸ hreserved, hfound, hbridge, Bool.eq_false_iff.1 hfree⟩
        rw [hintrudes] at hop
        cases hop
  | upsertScope k cwd fingerprint =>
    obtain ⟨session', hs, rfl⟩ := onSession_ok hj
    refine h.mono (fun k' g₁ h₁ hl₁ => ⟨g₁, h₁, hl₁, rfl⟩) fun r hmem _ => ?_
    rwa [(upsertScope_ok hs).2.1] at hmem
  | inbox db =>
    obtain ⟨session', hs, rfl⟩ := onSession_ok hj
    obtain ⟨db', -, rfl⟩ := onDb_ok hs
    exact h

/-- How far a reservation is exclusive. -/
structure ReservedThread (s : AdoptionDb) : Prop where
  /-- When it is made, no scope has the thread active and no other live saga names it. -/
  made : ∀ now k thread g s', reserveThreadAdoption now k thread s = .ok (g, s') →
    (∀ r ∈ s'.session.threads, r.status = .active → r.codexThreadId ≠ thread) ∧
      ∀ k' g', s'.saga? k' = some g' → g'.isLive = true → g'.codexThreadId = thread → k' = k
  /-- Once it is committed, no other scope has the thread active. -/
  committed : ∀ k g, s.saga? k = some g → g.isLive = true → (k, g.generation) ∈ s.committed →
    ∀ r ∈ s.session.threads, r.status = .active → r.codexThreadId = g.codexThreadId → r.scopeKey = k
  /-- While another scope has the thread active, the commit fails. -/
  refused : ∀ k g, s.saga? k = some g → g.isLive = true → ∀ r ∈ s.session.threads, r.status = .active →
    r.codexThreadId = g.codexThreadId → r.scopeKey ≠ k → ∀ now reservation cwd fingerprint,
      reservation.scopeKey = k → ∃ e, commitThreadAdoption now reservation cwd fingerprint s = .error e

theorem Agree.reservedThread (h : Agree s) : ReservedThread s := by
  refine ⟨fun now k thread g s' hj => ?_, fun k g hg hl hc r hr ha hid => h.exclusive_of_committed hg hl hc hr ha hid,
    fun k g hg hl r hr ha hid hk now reservation cwd fingerprint hkey => ?_⟩
  · have hafter := h.reserve hj
    obtain ⟨n, -, hfree, -, -, rfl, rfl⟩ := reserve_ok hj
    refine ⟨fun r hmem ha => isActiveThread_ne hfree hmem ha, fun k' g' hg' hl' hid => ?_⟩
    have hself := (@saga?_setSaga s ⟨k, thread, n, .acquiring, none, now, now⟩ k).trans (if_pos rfl)
    exact hafter.unique k' k g' _ hg' hself hl' rfl hid
  · cases hj : commitThreadAdoption now reservation cwd fingerprint s with
    | error e => exact ⟨e, rfl⟩
    | ok p =>
      obtain ⟨row, s'⟩ := p
      obtain ⟨g₀, session', a, hg₀, -, -, rfl, hsession, -⟩ := commit_ok hj
      obtain ⟨-, -, hfree⟩ := commitThreadAdoption_remaps h.distinct hsession
      rw [hkey, hg] at hg₀
      cases hg₀
      exact absurd hid (isActiveThread_ne hfree hr ha)

/-- **A reserved thread is exclusive** when it is reserved and once it is committed; in between only a recorded or
reactivated thread of another scope can make it active, and then the commit fails. -/
theorem reserved_threads_exclusive (es : List AdoptionEvent) : ReservedThread (adoptionsAfter es) ∧
    (Along adoptionStep Respects emptyAdoptions es → Exclusive (adoptionsAfter es)) := by
  refine ⟨(agree_after es).reservedThread, fun h => ?_⟩
  have hstart : Agree emptyAdoptions.db ∧ Exclusive emptyAdoptions.db :=
    ⟨empty_agree, fun k g hg => by rw [show emptyAdoptions.db.saga? k = none from AList.lookup_empty k] at hg; cases hg⟩
  refine (exec_invariant (I := fun w : Writer AdoptionDb => Agree w.db ∧ Exclusive w.db) ?_ hstart h).2
  intro w e ⟨hagree, hexclusive⟩ hrespects
  refine ⟨adoptionStep_agree w e hagree, ?_⟩
  rcases adoptionStep_db w e with hdb | ⟨fate, now, op, a, rfl, hj⟩
  · rw [hdb]
    exact hexclusive
  · exact hexclusive.job hagree hrespects hj

/-- Scope `"b"` archives a thread, scope `"a"` reserves it, and `"b"` takes it up again. -/
def resumedRun : List AdoptionEvent :=
  [.upsertScope "a" "/a" "", .upsertScope "b" "/b" "", .recordActiveThread "b" "t" 0, .archiveActiveThread "b",
    .reserve "a" "t", .reactivateArchivedThread "b" "t"].map (.call .execute 0)

/-- The thread that `"a"` has reserved is active in `"b"`. -/
theorem reserved_thread_taken : ¬∀ es, Exclusive (adoptionsAfter es) := by
  intro h
  have hsaga : (adoptionsAfter resumedRun).saga? "a" = some ⟨"a", "t", 1, .acquiring, none, 0, 0⟩ := by rfl
  have hthreads : (adoptionsAfter resumedRun).session.threads = [⟨"b", "t", .active, 0, none, 0, .bridgeCreated, none⟩] := by
    rfl
  have hscope := h resumedRun "a" _ hsaga rfl ⟨"b", "t", .active, 0, none, 0, .bridgeCreated, none⟩ (by simp [hthreads])
    rfl rfl
  exact absurd hscope (by decide)

end LarkCodexBridge.Runtime.Adoptions
