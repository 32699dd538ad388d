import LarkCodexBridge.Lib.Numeral
import LarkCodexBridge.Lib.Run
import LarkCodexBridge.Runtime.ContextTable

/-!
# Revocation is final

Runs of the context registry under any interleaving of its calls.

* `Effect`: what a call may do to entries, gates and operations when no interrupt is concerned;
* `Barrier`: a waiting interrupt has closed every entry of its turn and knows the gates of the operations left;
* `revocation_final`: what the calls of a run may return, and when an interrupt has outlasted every operation.
-/

namespace LarkCodexBridge.Runtime.Contexts

open StepSystem

/-! ## Effects -/

/-- From `s` to `s'` no gate opens again, entries come to life only with a fresh binding, and new operations belong to
live entries. -/
structure Effect (fresh : PendingBinding → Prop) (s s' : ContextRegistry) : Prop where
  nextGate : s.nextGate ≤ s'.nextGate
  revoked : ∀ n < s.nextGate, (s.gates n).revoked = true → (s'.gates n).revoked = true
  live : ∀ e' ∈ s'.entries, e'.live →
    fresh e'.pendingBinding ∨ ∃ e ∈ s.entries, e.live ∧ e.pendingBinding = e'.pendingBinding
  operations : ∀ o' ∈ s'.operations, (∃ o ∈ s.operations, o.binding = o'.binding ∧ o.gate = o'.gate) ∨
    ∃ e ∈ s.entries, e.live ∧ e.pendingBinding = o'.binding
  waiters : s'.waiters = s.waiters

variable {fresh : PendingBinding → Prop} {s s' s'' : ContextRegistry} {e : ContextEntry}

theorem Effect.refl (s : ContextRegistry) : Effect fresh s s :=
  ⟨Nat.le_refl _, fun _ _ => id, fun e he hl => .inr ⟨e, he, hl, rfl⟩, fun o ho => .inl ⟨o, ho, rfl, rfl⟩, rfl⟩

/-- A first effect without fresh bindings, and a second one. -/
theorem Effect.trans (h : Effect (fun _ => False) s s') (h' : Effect fresh s' s'') : Effect fresh s s'' where
  nextGate := h.nextGate.trans h'.nextGate
  revoked n hn hr := h'.revoked n (hn.trans_le h.nextGate) (h.revoked n hn hr)
  live e'' he'' hl'' := by
    rcases h'.live e'' he'' hl'' with hf | ⟨e', he', hl', hb'⟩
    · exact .inl hf
    · obtain ⟨e, he, hl, hb⟩ := (h.live e' he' hl').resolve_left id
      exact .inr ⟨e, he, hl, hb.trans hb'⟩
  operations o'' ho'' := by
    rcases h'.operations o'' ho'' with ⟨o', ho', hb', hg'⟩ | ⟨e', he', hl', hb'⟩
    · rcases h.operations o' ho' with ⟨o, ho, hb, hg⟩ | ⟨e, he, hl, hb⟩
      · exact .inl ⟨o, ho, hb.trans hb', hg.trans hg'⟩
      · exact .inr ⟨e, he, hl, hb.trans hb'⟩
    · obtain ⟨e, he, hl, hb⟩ := (h.live e' he' hl').resolve_left id
      exact .inr ⟨e, he, hl, hb.trans hb'⟩
  waiters := h'.waiters.trans h.waiters

theorem Effect.mono {fresh' : PendingBinding → Prop} (h : Effect fresh s s') (himp : ∀ b, fresh b → fresh' b) :
    Effect fresh' s s' :=
  { h with live := fun e' he' hl' => (h.live e' he' hl').imp_left (himp _) }

theorem Effect.revokeWhere (p : ContextEntry → Bool) (reason : RevocationReason) : Effect fresh s (s.revokeWhere p reason) where
  nextGate := Nat.le_refl _
  revoked n _ := revokeWhere_revoked
  live e' he' hl' := by
    rw [revokeWhere_entries] at he'
    obtain ⟨e, he, rfl⟩ := List.mem_map.1 he'
    rw [revokeIf_live, Bool.and_eq_true] at hl'
    exact .inr ⟨e, he, hl'.1, (revokeIf_binding e).symm⟩
  operations o ho := .inl ⟨o, ho, rfl, rfl⟩
  waiters := rfl

theorem Effect.makeCapacity (maxContexts now : ℕ) : Effect fresh s (s.makeCapacity maxContexts now).2 := by
  unfold ContextRegistry.makeCapacity
  split
  · exact .refl s
  · have hexpired : Effect fresh s (s.expireAll now) := .revokeWhere _ _
    exact { hexpired with live := fun e' he' => hexpired.live e' (List.mem_filter.1 he').1 }

/-- An entry that is live, or becomes active, keeps its binding. -/
theorem Effect.setEntry (he : e ∈ s.entries) (hlive : e.live) (t : String)
    (hone : ∀ e' ∈ s.entries, e'.contextId = e.contextId → e' = e) :
    Effect fresh s (s.setEntry e.contextId (.activate t)) :=
  { (Effect.refl s : Effect fresh s s) with
    live := by
      intro e'' he'' hl''
      obtain ⟨e', he', rfl⟩ := List.mem_map.1 he''
      split at hl''
      · next hid =>
        rw [if_pos hid]
        exact .inr ⟨e, he, hlive, by rw [hone e' he' hid]; rfl⟩
      · next hid =>
        rw [if_neg hid]
        exact .inr ⟨e', he', hl'', rfl⟩ }

theorem Effect.authorizedResource (he : ∃ e₀ ∈ s.entries, e₀.live ∧ e₀.pendingBinding = e.pendingBinding)
    (handle : MediaHandle) (maxUnobservedBytes : ℕ) :
    Effect fresh s (s.authorizedResource e handle maxUnobservedBytes).1 := by
  unfold ContextRegistry.authorizedResource
  split
  · exact .refl s
  · split
    · exact .refl s
    · next hopen =>
      split
      · exact .refl s
      · refine { Effect.refl s with revoked := fun n _ hr => ?_, operations := fun o' ho' => ?_ }
        · dsimp only
          rw [Function.update_of_ne]
          · exact hr
          · rintro rfl
            exact hopen hr
        · rcases List.mem_append.1 ho' with ho' | ho'
          · exact .inl ⟨o', ho', rfl, rfl⟩
          · rw [List.mem_singleton.1 ho']
            exact .inr he

theorem Effect.addPending (uuid : ℕ → String) (config : ContextRegistryConfig) (binding : PendingBinding)
    (draft : ContextDraft) (liveTranscripts : List (ℕ × String)) (now : ℕ) :
    Effect (· = binding) s (s.addPending uuid config binding draft liveTranscripts now).1 := by
  unfold ContextRegistry.addPending
  refine { (Effect.refl s : Effect (· = binding) s s) with
    nextGate := Nat.le_succ _, revoked := fun n hn hr => ?_, live := fun e' he' hl' => ?_ }
  · dsimp only
    rw [Function.update_of_ne hn.ne]
    exact hr
  · rcases List.mem_append.1 he' with he' | he'
    · exact .inr ⟨e', (List.mem_filter.1 he').1, hl', rfl⟩
    · rw [List.mem_singleton.1 he']
      exact .inl rfl

variable {uuid : ℕ → String} {issued : List Issued}

theorem Effect.withEntry (h : Inv uuid issued s) {contextId : ContextId} {now : ℕ}
    {f : ContextRegistry → ContextEntry → ContextRegistry × Answer}
    (hf : ∀ s₁ e, e ∈ s₁.entries → (∀ e' ∈ s₁.entries, e'.contextId = e.contextId → e' = e) → e.contextId = contextId →
      Effect fresh s₁ (f s₁ e).1) : Effect fresh s (s.withEntry contextId now f).1 := by
  have hexpired : Inv uuid issued (s.expire contextId now) := h.revokeWhere _ _
  have heffect : Effect (fun _ => False) s (s.expire contextId now) := .revokeWhere _ _
  unfold ContextRegistry.withEntry
  dsimp only
  split
  · exact heffect.mono fun _ => False.elim
  · next e hfind =>
    obtain ⟨he, hid⟩ := find_eq_some hfind
    exact heffect.trans (hf _ e he (fun e' he' => hexpired.entriesOne e' he' e he) hid)

/-- The binding of a registration. -/
def Call.registers : Call → PendingBinding → Prop
  | .registerPending binding .., b => b = binding
  | _, _ => False

def Call.isBarrier : Call → Bool
  | .revokeTurnAndWait .. | .poll _ => true
  | _ => false

variable {call : Call}

theorem Inv.step_effect (config : ContextRegistryConfig) (h : Inv uuid issued s) (hcall : call.isBarrier = false) :
    Effect call.registers s (s.step uuid config call).1 := by
  cases call with
  | registerPending binding draft liveTranscripts now =>
    rw [ContextRegistry.step]
    split
    · exact .refl s
    · have hroom : Effect (fun _ => False) s (s.makeCapacity config.maxContexts now).2 := .makeCapacity _ _
      split
      · next heq =>
        rw [heq] at hroom
        exact hroom.mono fun _ => False.elim
      · next heq =>
        rw [heq] at hroom
        exact hroom.trans (.addPending uuid config binding draft liveTranscripts now)
  | activate contextId pending turn now =>
    rw [ContextRegistry.step]
    split
    · exact .refl s
    · refine .withEntry h fun s₁ e he hone hid => ?_
      subst hid
      split
      · exact .refl s₁
      · split
        · next hstate => exact .setEntry he (live_of_pending hstate) turn hone
        · exact .refl s₁
        · exact .refl s₁
  | resolve contextId caller now =>
    refine .withEntry h fun s₁ e he hone hid => ?_
    split <;> exact .refl s₁
  | resolveForTool contextId thread turn now =>
    rw [ContextRegistry.step]
    split
    · exact .refl s
    · refine .withEntry h fun s₁ e he hone hid => ?_
      subst hid
      split
      · exact .refl s₁
      · next hauth =>
        obtain ⟨-, rfl, hstate⟩ := authorizeEntryForTool_ok hauth
        exact .setEntry he (hstate.elim live_of_pending live_of_active) turn hone
  | authorizeMedia contextId handle caller now =>
    refine .withEntry h fun s₁ e he hone hid => ?_
    split
    · exact .refl s₁
    · next hauth =>
      exact .authorizedResource ⟨e, he, live_of_active (authorizeEntry_ok hauth).2, rfl⟩ _ _
  | authorizeMediaForTool contextId handle thread turn bytes now =>
    rw [ContextRegistry.step]
    split
    · exact .refl s
    · refine .withEntry h fun s₁ e he hone hid => ?_
      subst hid
      split
      · exact .refl s₁
      · next hauth =>
        obtain ⟨-, rfl, hstate⟩ := authorizeEntryForTool_ok hauth
        have hset : Effect (fun _ => False) s₁ (s₁.setEntry e.contextId (.activate turn)) :=
          .setEntry he (hstate.elim live_of_pending live_of_active) turn hone
        refine hset.trans (.authorizedResource ⟨e.activate turn, ?_, rfl, rfl⟩ _ _)
        exact List.mem_map.2 ⟨e, he, if_pos rfl⟩
  | commitResponse number =>
    rw [ContextRegistry.step]
    split <;> exact .refl s
  | settleRead number bytes =>
    rw [ContextRegistry.step]
    split
    · exact .refl s
    · split
      · exact .refl s
      · refine { (Effect.refl s : Effect _ s s) with operations := List.forall_mem_map.2 fun o ho => .inl ⟨o, ho, ?_⟩ }
        split <;> exact ⟨rfl, rfl⟩
  | dropResource number =>
    rw [ContextRegistry.step]
    split
    · exact .refl s
    · refine { (Effect.refl s : Effect _ s s) with
        revoked := fun n _ hr => ?_, operations := fun o ho => .inl ⟨o, (List.mem_filter.1 ho).1, rfl, rfl⟩ }
      dsimp only
      rw [Function.update_apply]
      split
      · next hn => exact hn ▸ hr
      · exact hr
  | revoke contextId binding reason =>
    rw [ContextRegistry.step]
    split
    · exact .refl s
    · split
      · exact .refl s
      · exact .revokeWhere _ _
  | revokeTurn binding reason => exact .revokeWhere _ _
  | revokeTurnAndWait binding reason => cases hcall
  | poll number => cases hcall
  | stats now => exact .revokeWhere _ _

theorem Inv.step_revoked (config : ContextRegistryConfig) (h : Inv uuid issued s) (call : Call) {n : ℕ}
    (hn : n < s.nextGate) (hr : (s.gates n).revoked = true) : ((s.step uuid config call).1.gates n).revoked = true := by
  cases hcall : call.isBarrier with
  | false => exact (h.step_effect config hcall).revoked n hn hr
  | true =>
    cases call with
    | revokeTurnAndWait binding reason =>
      have hrevoked : ((s.revokeTurn binding reason).gates n).revoked = true := revokeWhere_revoked hr
      exact hrevoked
    | poll number =>
      rw [ContextRegistry.step]
      split
      · exact hr
      · split
        · exact hr
        · split <;> exact hr
    | _ => cases hcall

/-! ## The barrier -/

/-- Every waiting interrupt has closed the entries of its turn and waits for the gates of the operations left. -/
def Barrier (s : ContextRegistry) : Prop :=
  ∀ w ∈ s.waiters, (∀ e ∈ s.entries, e.pendingBinding = w.binding → e.live = false) ∧
    ∀ o ∈ s.operations, o.binding = w.binding → o.gate ∈ w.gates

/-- An interrupt finds every operation of its turn under a live entry, and no context of its turn is registered while it
waits. -/
def Settles (s : ContextRegistry) : Call → Prop
  | .revokeTurnAndWait binding _ =>
    ∀ o ∈ s.operations, o.binding = binding → ∃ e ∈ s.entries, e.contextId = o.contextId ∧ e.live
  | .registerPending binding .. => ∀ w ∈ s.waiters, w.binding ≠ binding
  | _ => True

theorem Barrier.effect (h : Barrier s) (heffect : Effect fresh s s') (hfresh : ∀ w ∈ s.waiters, ¬ fresh w.binding) :
    Barrier s' := by
  intro w hw
  rw [heffect.waiters] at hw
  obtain ⟨hentries, hoperations⟩ := h w hw
  have hdead : ∀ e ∈ s.entries, e.live → e.pendingBinding ≠ w.binding := fun e he hl hb =>
    absurd (hentries e he hb) (by simp [hl])
  refine ⟨fun e' he' hb' => ?_, fun o' ho' hb' => ?_⟩
  · by_contra hl'
    rcases heffect.live e' he' (by simpa using hl') with hf | ⟨e, he, hl, hb⟩
    · exact hfresh w hw (hb' ▸ hf)
    · exact hdead e he hl (hb.trans hb')
  · rcases heffect.operations o' ho' with ⟨o, ho, hb, hg⟩ | ⟨e, he, hl, hb⟩
    · exact hg ▸ hoperations o ho (hb.trans hb')
    · exact absurd (hb.trans hb') (hdead e he hl)

/-- Under the condition an interrupt collects the gates of all operations of its turn. -/
theorem Barrier.interrupt (hinv : Inv uuid issued s) (h : Barrier s) {binding : PendingBinding} {reason : RevocationReason}
    (hsettles : Settles s (.revokeTurnAndWait binding reason)) (config : ContextRegistryConfig) :
    Barrier (s.step uuid config (.revokeTurnAndWait binding reason)).1 := by
  have heffect : Effect (fun _ => False) s (s.revokeTurn binding reason) := .revokeWhere _ _
  have hrevoked : Barrier (s.revokeTurn binding reason) := h.effect heffect fun _ _ => id
  intro w hw
  rcases List.mem_append.1 hw with hw | hw
  · exact hrevoked w hw
  · obtain rfl := List.mem_singleton.1 hw
    refine ⟨fun e' he' hb' => ?_, fun o ho hb => ?_⟩
    · have hmem : e' ∈ s.entries.map (.revokeIf (fun e => e.pendingBinding = binding) reason) := he'
      obtain ⟨e, he, rfl⟩ := List.mem_map.1 hmem
      have hb : e.pendingBinding = binding := (revokeIf_binding e).symm.trans hb'
      exact (revokeIf_live e).trans (by simp [hb])
    · obtain ⟨e, he, hid, hlive⟩ := hsettles o ho hb
      obtain ⟨r, hr, hrid, hrb, hrg⟩ := hinv.operations o ho
      obtain ⟨r', hr', hof⟩ := hinv.entries e he
      obtain rfl := hinv.ids r hr r' hr' (hrid.trans (hid.symm.trans hof.contextId.symm))
      refine List.mem_map.2 ⟨e, List.mem_filter.2 ⟨he, ?_⟩, hof.gate.symm.trans hrg⟩
      have hbinding : e.pendingBinding = binding := hof.binding.symm.trans (hrb.trans hb)
      simp [hbinding, hlive]

theorem Barrier.poll (hinv : Inv uuid issued s) (h : Barrier s) (number : ℕ) (config : ContextRegistryConfig) :
    Barrier (s.step uuid config (.poll number)).1 := by
  rw [ContextRegistry.step]
  split
  · exact h
  · next w hfind =>
    split
    · exact fun w' hw' => h w' (List.mem_filter.1 hw').1
    · next gate rest hgates =>
      split
      · next hidle =>
        refine List.forall_mem_map.2 fun w' hw' => ?_
        obtain ⟨hentries, hoperations⟩ := h w' hw'
        split
        · next hn =>
          refine ⟨hentries, fun o ho hb => ?_⟩
          have hmem := hoperations o ho hb
          rw [hinv.waiter_eq hfind hw' hn, hgates] at hmem
          refine (List.mem_cons.1 hmem).resolve_left fun heq => ?_
          -- an idle gate has no operation
          obtain ⟨r, hr, -, -, hrg⟩ := hinv.operations o ho
          have hzero := hinv.active r hr
          rw [hrg, heq, hidle] at hzero
          exact List.countP_eq_zero.1 hzero.symm o ho (by simpa using heq)
        · exact ⟨hentries, hoperations⟩
      · exact h

theorem Barrier.step (hinv : Inv uuid issued s) (h : Barrier s) (hsettles : Settles s call)
    (config : ContextRegistryConfig) : Barrier (s.step uuid config call).1 := by
  cases hcall : call.isBarrier with
  | false =>
    refine h.effect (hinv.step_effect config hcall) fun w hw hfresh => ?_
    cases call with
    | registerPending binding draft liveTranscripts now => exact hsettles w hw hfresh
    | _ => exact hfresh
  | true =>
    cases call with
    | revokeTurnAndWait binding reason => exact h.interrupt hinv hsettles config
    | poll number => exact h.poll hinv number config
    | _ => cases hcall

/-! ## Runs -/

/-- A call with the registry it finds and its answer. -/
structure Observation where
  before : ContextRegistry
  call : Call
  answer : Answer

section Run

variable (uuid : ℕ → String) (config : ContextRegistryConfig)

/-- The registry after a call. -/
def next (s : ContextRegistry) (call : Call) : ContextRegistry := (s.step uuid config call).1

/-- The calls of a run with their answers. -/
def trace (s : ContextRegistry) : List Call → List Observation
  | [] => []
  | call :: calls => ⟨s, call, (s.step uuid config call).2⟩ :: trace (next uuid config s call) calls

end Run

/-- The call uses the context: it reads or authorises from it, binds it, or may commit a response. -/
def Observation.Uses (o : Observation) (contextId : ContextId) : Prop :=
  o.call.contextId = some contextId ∧ o.answer.isGrant ∨
    o.answer = .committed true ∧
      ∃ number op, o.call = .commitResponse number ∧ o.before.findOperation number = some op ∧ op.contextId = contextId

/-- An interrupt of `binding` returns. -/
def Observation.Interrupted (o : Observation) (binding : PendingBinding) : Prop :=
  ∃ number w count, o.call = .poll number ∧ o.before.waiters.find? (·.number = number) = some w ∧ w.binding = binding ∧
    o.answer = .returned count

variable (config : ContextRegistryConfig) {r : Issued}

section

variable (hu : Function.Injective uuid)
include hu

theorem Inv.run (h : Inv uuid issued s) (calls : List Call) :
    ∃ issued', Extends issued issued' ∧ Inv uuid issued' (exec (next uuid config) s calls) ∧
      ∀ o ∈ trace uuid config s calls, Conforms issued' o.call o.answer := by
  induction calls generalizing issued s with
  | nil => exact ⟨issued, .refl issued, h, by simp [trace]⟩
  | cons call calls ih =>
    obtain ⟨issued₁, hext₁, hinv₁, hconforms, -⟩ := h.step config hu call
    obtain ⟨issued₂, hext₂, hinv₂, hrest⟩ := ih hinv₁
    refine ⟨issued₂, hext₁.trans hext₂, hinv₂, fun o ho => ?_⟩
    rcases List.mem_cons.1 ho with rfl | ho
    · exact hconforms.extends hext₂
    · exact hrest o ho

theorem Inv.uses_open (h : Inv uuid issued s) (hr : r ∈ issued)
    (huses : Observation.Uses ⟨s, call, (s.step uuid config call).2⟩ r.contextId) :
    (s.gates r.gate).revoked = false := by
  rcases huses with ⟨hid, hgrant⟩ | ⟨hanswer, number, op, rfl, hfind, hid⟩
  · obtain ⟨_, -, -, -, hopen⟩ := h.step config hu call
    obtain ⟨r', hr', hid', hgate⟩ := hopen hgrant r.contextId hid
    rwa [h.ids r' hr' r hr hid'] at hgate
  · obtain ⟨r', hr', hid', -, hg⟩ := h.operations op (find_operation hfind).1
    obtain rfl := h.ids r' hr' r hr (hid'.trans hid)
    rw [ContextRegistry.step] at hanswer
    simp only [hfind] at hanswer
    rw [hg]
    simpa using hanswer

/-- Once the gate of a row is revoked, its context is not used again. -/
theorem Inv.run_revoked (h : Inv uuid issued s) (hr : r ∈ issued)
    (hrevoked : (s.gates r.gate).revoked = true) (calls : List Call) :
    ∀ o ∈ trace uuid config s calls, ¬ o.Uses r.contextId := by
  induction calls generalizing issued s r with
  | nil => simp [trace]
  | cons call calls ih =>
    intro o ho
    rcases List.mem_cons.1 ho with rfl | ho
    · intro huses
      have hopen := h.uses_open config hu hr huses
      rw [hrevoked] at hopen
      cases hopen
    · obtain ⟨issued', hext, hinv, -⟩ := h.step config hu call
      obtain ⟨r', hr', hle⟩ := hext r hr
      have hkept := h.step_revoked config call (h.gateOld r hr) hrevoked
      rw [← hle.contextId]
      exact ih hinv hr' (by rwa [hle.gate]) o ho

/-- In a run that settles, an interrupt returns when no operation of its turn is left. -/
theorem Inv.run_barrier (h : Inv uuid issued s) (hb : Barrier s) {calls : List Call}
    (hsettles : Along (next uuid config) Settles s calls) :
    ∀ o ∈ trace uuid config s calls, ∀ binding, o.Interrupted binding → ∀ op ∈ o.before.operations, op.binding ≠ binding := by
  induction calls generalizing issued s with
  | nil => simp [trace]
  | cons call calls ih =>
    obtain ⟨hhead, htail⟩ := hsettles
    intro o ho
    rcases List.mem_cons.1 ho with rfl | ho
    · rintro binding ⟨number, w, count, rfl, hfind, rfl, hanswer⟩ op hop hbinding
      have hgates := (hb w (List.mem_of_find?_eq_some hfind)).2 op hop hbinding
      dsimp only at hfind hanswer
      rw [ContextRegistry.step] at hanswer
      simp only [hfind] at hanswer
      cases hw : w.gates with
      | nil =>
        rw [hw] at hgates
        cases hgates
      | cons gate rest =>
        simp only [hw] at hanswer
        split at hanswer <;> cases hanswer
    · obtain ⟨issued', -, hinv, -⟩ := h.step config hu call
      exact ih hinv (hb.step h hhead config) htail o ho

/-- **Revocation is final and confines a capability to one turn.** For every run there is a table with one row for each
context, its binding and at most one Codex turn, such that each successful call names a row and returns what is of it,
and no handle is of two rows. A context whose entry was revoked is not used again. In a run that settles, an interrupt
returns only when every operation of its turn is dropped. -/
theorem revocation_final (config : ContextRegistryConfig) (calls : List Call) :
    (∃ issued : List Issued,
      (∀ r ∈ issued, ∀ r' ∈ issued, r.contextId = r'.contextId → r = r') ∧
      (∀ r ∈ issued, ∀ r' ∈ issued, ∀ h ∈ r.handles, h ∈ r'.handles → r = r') ∧
      ∀ o ∈ trace uuid config (.empty config) calls, Conforms issued o.call o.answer) ∧
    (∀ earlier later, calls = earlier ++ later →
      ∀ e ∈ (exec (next uuid config) (.empty config) earlier).entries, e.live = false →
        ∀ o ∈ trace uuid config (exec (next uuid config) (.empty config) earlier) later, ¬ o.Uses e.contextId) ∧
    (Along (next uuid config) Settles (.empty config) calls →
      ∀ o ∈ trace uuid config (.empty config) calls, ∀ binding, o.Interrupted binding →
        ∀ op ∈ o.before.operations, op.binding ≠ binding) := by
  refine ⟨?_, fun earlier later _ e he hdead => ?_, fun hsettles => ?_⟩
  · obtain ⟨issued, -, hinv, hconforms⟩ := (inv_empty config).run config hu calls
    exact ⟨issued, hinv.ids, hinv.handles, hconforms⟩
  · obtain ⟨issued, -, hinv, -⟩ := (inv_empty config).run config hu earlier
    obtain ⟨r, hr, hof⟩ := hinv.entries e he
    rw [← hof.contextId]
    refine hinv.run_revoked config hu hr ?_ later
    rw [← Bool.not_eq_false, hinv.closed r hr]
    rintro ⟨e', he', hid, hlive⟩
    rw [hinv.entriesOne e' he' e he (hid.trans hof.contextId), hdead] at hlive
    cases hlive
  · exact (inv_empty config).run_barrier config hu (by simp [Barrier, ContextRegistry.empty]) hsettles

/-! ## An expired context -/

end

def sampleBinding : PendingBinding := ⟨"thread", 1⟩

def sampleDraft : ContextDraft where
  eventId := "event"
  messageId := "message"
  sender := ⟨"sender", "user"⟩
  chat := ⟨"chat", .p2p⟩
  mentions := []
  thread := ⟨none, none⟩
  quote := none
  messageType := "image"
  createTimeMs := 0
  parts := [.media .image ⟨.image, "key"⟩ none ⟨none, none, none, none⟩ none]

/-- An image is authorised and its response is allowed. -/
def authorised : List Call :=
  [.registerPending sampleBinding sampleDraft [] 0, .activate "bctx_0" sampleBinding "turn" 0,
    .authorizeMedia "bctx_0" "bmedia_1" ⟨"thread", 1, "turn"⟩ 0, .commitResponse 0]

/-- The interrupt waits for the operation. -/
def interruptedRun : List Call :=
  authorised ++ [.revokeTurnAndWait sampleBinding .cancelled, .poll 1, .dropResource 0, .poll 1, .poll 1]

/-- The context expires before the interrupt. -/
def expiredRun : List Call :=
  authorised ++ [.stats ContextRegistryConfig.default.ttl, .revokeTurnAndWait sampleBinding .cancelled, .poll 1]

instance (s : ContextRegistry) : ∀ call, Decidable (Settles s call)
  | .revokeTurnAndWait binding _ =>
    inferInstanceAs (Decidable (∀ o ∈ s.operations, o.binding = binding → ∃ e ∈ s.entries, e.contextId = o.contextId ∧ e.live))
  | .registerPending binding .. => inferInstanceAs (Decidable (∀ w ∈ s.waiters, w.binding ≠ binding))
  | .activate .. | .resolve .. | .resolveForTool .. | .authorizeMedia .. | .authorizeMediaForTool .. | .commitResponse _
  | .settleRead .. | .dropResource _ | .revoke .. | .revokeTurn .. | .poll _ | .stats _ => isTrue trivial

/-- The interrupt that waits returns without an operation left. -/
theorem revocation_final_interruptedRun :
    (∃ o ∈ trace toString .default (.empty .default) interruptedRun, o.Interrupted sampleBinding) ∧
      ∀ o ∈ trace toString .default (.empty .default) interruptedRun, ∀ binding, o.Interrupted binding →
        ∀ op ∈ o.before.operations, op.binding ≠ binding := by
  refine ⟨⟨_, List.mem_of_getElem? (i := 8) rfl, 1, _, 1, rfl, rfl, rfl, rfl⟩, ?_⟩
  exact (revocation_final Numeral.toString_injective .default interruptedRun).2.2 (by decide)

/-- After the expiry the interrupt returns while the operation is still held. -/
theorem revocation_final_fails :
    ¬ ∀ calls, ∀ o ∈ trace toString .default (.empty .default) calls, ∀ binding, o.Interrupted binding →
      ∀ op ∈ o.before.operations, op.binding ≠ binding := by
  intro h
  refine h expiredRun _ (List.mem_of_getElem? (i := 6) rfl) sampleBinding ⟨1, _, 0, rfl, rfl, rfl, rfl⟩ _
    (List.mem_of_getElem? (i := 0) rfl) rfl

end LarkCodexBridge.Runtime.Contexts
