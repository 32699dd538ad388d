import Mathlib
import LarkCodexBridge.Runtime.Live

/-!
# Configuration changes are whole

A change of a stored configuration is made on a copy, so a refused change leaves everything as it was. Without a stored
configuration a form changes its fields one after the other, and a field refused later leaves the earlier ones changed,
with a sandbox that the policy does not have.

* `apply_whole_iff`: exactly the forms of `KeepsWhole` are whole without a stored configuration;
* `Agree.apply`: the back ends answer a change with the same view;
* `live_changes`: both over every run of changes.
-/

namespace LarkCodexBridge.Runtime

open Limits

/-! ## Lists of ids -/

/-- A list that the validation leaves as it is. -/
structure IdsOk (maxCount maxBytes : ℕ) (ids : List String) : Prop where
  count : ids.length ≤ maxCount
  bytes : (ids.map String.utf8ByteSize).sum ≤ maxBytes
  valid : ∀ id ∈ ids, validAllowId id = true
  nodup : ids.Nodup

theorem sum_sublist {a b : List String} (h : a.Sublist b) :
    (a.map String.utf8ByteSize).sum ≤ (b.map String.utf8ByteSize).sum :=
  (h.map _).sum_le_sum fun _ _ => Nat.zero_le _

/-- The first of equal elements are a sublist without repetitions. -/
theorem eraseDups_spec (ids : List String) : ids.eraseDups.Sublist ids ∧ ids.eraseDups.Nodup := by
  induction h : ids.length using Nat.strong_induction_on generalizing ids with
  | _ n ih =>
    cases ids with
    | nil => exact ⟨List.Sublist.refl _, List.nodup_nil⟩
    | cons a ids =>
      have hlen := List.length_filter_le (fun b => !b == a) ids
      obtain ⟨hsub, hnodup⟩ := ih _ (by rw [← h, List.length_cons]; omega) (ids.filter fun b => !b == a) rfl
      rw [List.eraseDups_cons]
      refine ⟨(hsub.trans List.filter_sublist).cons_cons a, List.nodup_cons.2 ⟨fun hmem => ?_, hnodup⟩⟩
      have := (List.mem_filter.1 (hsub.subset hmem)).2
      simp at this

theorem eraseDups_of_nodup {ids : List String} (h : ids.Nodup) : ids.eraseDups = ids := by
  induction ids with
  | nil => rfl
  | cons a ids ih =>
    obtain ⟨ha, hids⟩ := List.nodup_cons.1 h
    have hfilter : ids.filter (fun b => !b == a) = ids := by
      rw [List.filter_eq_self]
      intro b hb
      have : b ≠ a := fun heq => ha (heq ▸ hb)
      simpa using this
    rw [List.eraseDups_cons, hfilter, ih hids]

section Ids

variable {maxCount maxBytes : ℕ} {ids next : List String} {id : String}

theorem IdsOk.sublist (h : IdsOk maxCount maxBytes ids) (hsub : next.Sublist ids) : IdsOk maxCount maxBytes next where
  count := hsub.length_le.trans h.count
  bytes := (sum_sublist hsub).trans h.bytes
  valid id hid := h.valid id (hsub.subset hid)
  nodup := h.nodup.sublist hsub

theorem normalizeIdCollection_eq_some (h : normalizeIdCollection maxCount maxBytes ids = some next) :
    IdsOk maxCount maxBytes next := by
  unfold normalizeIdCollection at h
  split_ifs at h with hcount hbytes hvalid
  obtain ⟨hsub, hnodup⟩ := eraseDups_spec ids
  cases h
  refine ⟨hsub.length_le.trans (by omega), (sum_sublist hsub).trans (by omega), fun id hid => ?_, hnodup⟩
  simp only [List.any_eq_true, not_exists, not_and, Bool.not_eq_true', Bool.not_eq_false] at hvalid
  exact hvalid id (hsub.subset hid)

/-- A valid list is left as it is. -/
theorem IdsOk.normalized (h : IdsOk maxCount maxBytes ids) : normalizeIdCollection maxCount maxBytes ids = some ids := by
  have hvalid : ¬ ids.any (!validAllowId ·) = true := by
    simp only [List.any_eq_true, not_exists, not_and, Bool.not_eq_true', Bool.not_eq_false]
    exact h.valid
  rw [normalizeIdCollection, if_neg (by have := h.count; omega), if_neg (by have := h.bytes; omega), if_neg hvalid,
    eraseDups_of_nodup h.nodup]

theorem IdsOk.add (h : IdsOk maxCount maxBytes ids) (hadd : addUnique maxCount maxBytes ids id = .ok next) :
    IdsOk maxCount maxBytes next := by
  unfold addUnique at hadd
  split_ifs at hadd with hvalid hmem hcount hbytes
  · cases hadd
    exact h
  · cases hadd
    refine ⟨by simp; omega, by simp; omega, fun x hx => ?_, ?_⟩
    · rcases List.mem_append.1 hx with hx | hx
      · exact h.valid x hx
      · rw [List.mem_singleton.1 hx]
        simpa using hvalid
    · exact List.Nodup.append h.nodup (List.nodup_singleton _) (by simpa using hmem)

theorem IdsOk.remove (h : IdsOk maxCount maxBytes ids) (id : String) : IdsOk maxCount maxBytes (removeId ids id) :=
  h.sublist List.filter_sublist

end Ids

/-! ## Valid configurations -/

/-- A configuration that the validation accepts and leaves as it is, apart from its paths. -/
structure BridgeConfig.Valid (c : BridgeConfig) : Prop where
  owners : IdsOk maxConfigOwners maxConfigOwnerBytes c.owners
  owned : c.owners ≠ []
  senders : IdsOk maxConfigAllowedSenders maxConfigAllowedSenderBytes c.allowedSenders
  groups : IdsOk maxConfigAllowedGroups maxConfigAllowedGroupBytes c.allowedGroups
  effort : c.effort.any (trimStr · == "") = false

def BridgeConfig.withPaths (c : BridgeConfig) (p : PreparedPaths) : BridgeConfig :=
  { c with allowRoots := p.allowRoots, defaultWorkspace := c.defaultWorkspace.map fun _ => p.defaultWorkspace }

variable {c : BridgeConfig}

theorem BridgeConfig.Valid.withPaths (h : c.Valid) (p : PreparedPaths) : (c.withPaths p).Valid :=
  ⟨h.owners, h.owned, h.senders, h.groups, h.effort⟩

theorem BridgeConfig.Valid.validated (h : c.Valid) (p : PreparedPaths) :
    c.validateWithPlatformRoots (some p) = some (c.withPaths p) := by
  simp [BridgeConfig.validateWithPlatformRoots, BridgeConfig.validateStatic, h.owners.normalized, h.owned,
    h.senders.normalized, h.groups.normalized, h.effort, BridgeConfig.withPaths]

theorem validated_valid {raw : BridgeConfig} {prepared : Option PreparedPaths}
    (h : raw.validateWithPlatformRoots prepared = some c) : c.Valid := by
  obtain ⟨next, hnext, p, -, rfl⟩ : ∃ next, raw.validateStatic = some next ∧ ∃ p, prepared = some p ∧ next.withPaths p = c := by
    simpa [BridgeConfig.validateWithPlatformRoots, Option.bind_eq_some_iff, BridgeConfig.withPaths] using h
  refine BridgeConfig.Valid.withPaths ?_ p
  simp only [BridgeConfig.validateStatic, Option.bind_eq_bind, Option.bind_eq_some_iff] at hnext
  obtain ⟨owners, howners, hnext⟩ := hnext
  by_cases howned : owners = []
  · simp [howned] at hnext
  rw [if_neg howned] at hnext
  obtain ⟨senders, hsenders, hnext⟩ := Option.bind_eq_some_iff.1 hnext
  obtain ⟨groups, hgroups, hnext⟩ := Option.bind_eq_some_iff.1 hnext
  split at hnext
  next => cases hnext
  next heffort =>
  cases hnext
  exact ⟨normalizeIdCollection_eq_some howners, howned, normalizeIdCollection_eq_some hsenders,
    normalizeIdCollection_eq_some hgroups, by simpa using heffort⟩

/-! ## Forms -/

def formModel (current model : Option String) : Except LiveConfigError (Option String) :=
  if model.isSome then normalizeModel model else .ok current

def formEffort (current effort : Option String) : Except LiveConfigError (Option String) :=
  if effort.isSome then normalizeEffort effort else .ok current

def formApproval (current : ApprovalPolicy) : Option String → Except LiveConfigError ApprovalPolicy
  | some name => (normalizeApproval name).map .named
  | none => .ok current

theorem applyPatchToConfig_form (c : BridgeConfig) (model effort : Option String) (sandbox : Option SandboxMode)
    (approval : Option String) : applyPatchToConfig c (.form model effort sandbox approval) =
      (formModel c.model model).bind fun m => (formEffort c.effort effort).bind fun f =>
      (formApproval c.approvalPolicy approval).bind fun a =>
      .ok { c with model := m, effort := f, sandbox := sandbox.getD c.sandbox, approvalPolicy := a } := by
  simp only [applyPatchToConfig, formModel, formEffort]
  generalize normalizeModel model = m, normalizeEffort effort = f
  cases approval <;> simp only [formApproval] <;> split <;> split <;> rfl

theorem LiveInner.assign_map {α β : Type} (inner : LiveInner) (value : Except LiveConfigError α) (f : α → β)
    (next : β → Except LiveConfigError Unit × LiveInner) :
    inner.assign (value.map f) next = inner.assign value fun a => next (f a) := by
  cases value <;> rfl

theorem LiveInner.applyFormPolicy_eq (inner : LiveInner) (sandbox : Option SandboxMode) (approval : Option String) :
    inner.applyFormPolicy sandbox approval =
      { inner with settings.sandbox := sandbox.getD inner.settings.sandbox }.assign
        (formApproval inner.settings.approvalPolicy approval) fun a =>
      (.ok (), { inner with
        settings.sandbox := sandbox.getD inner.settings.sandbox
        settings.approvalPolicy := a
        policy := inner.policy.replaceCodexPolicy (sandbox.getD inner.settings.sandbox) a }) := by
  cases approval with
  | none => rfl
  | some name =>
    rw [formApproval, LiveInner.assign_map]
    rfl

theorem LiveInner.applyFormEffort_eq (inner : LiveInner) (effort : Option String) (sandbox : Option SandboxMode)
    (approval : Option String) : inner.applyFormEffort effort sandbox approval =
      inner.assign (formEffort inner.settings.effort effort) fun f =>
        { inner with settings.effort := f }.applyFormPolicy sandbox approval := by
  rw [LiveInner.applyFormEffort, formEffort]
  cases effort.isSome <;> rfl

/-- The form assigns one field after the other. -/
theorem LiveInner.applyPatchToRuntime_form (inner : LiveInner) (model effort : Option String)
    (sandbox : Option SandboxMode) (approval : Option String) :
    inner.applyPatchToRuntime (.form model effort sandbox approval) =
      inner.assign (formModel inner.settings.model model) fun m =>
      { inner with settings.model := m }.assign (formEffort inner.settings.effort effort) fun f =>
      { inner with
        settings.model := m
        settings.effort := f
        settings.sandbox := sandbox.getD inner.settings.sandbox }.assign
          (formApproval inner.settings.approvalPolicy approval) fun a =>
      (.ok (), { inner with
        settings.model := m
        settings.effort := f
        settings.sandbox := sandbox.getD inner.settings.sandbox
        settings.approvalPolicy := a
        policy := inner.policy.replaceCodexPolicy (sandbox.getD inner.settings.sandbox) a }) := by
  have hform : inner.applyPatchToRuntime (.form model effort sandbox approval) =
      inner.assign (formModel inner.settings.model model) fun m =>
        { inner with settings.model := m }.applyFormEffort effort sandbox approval := by
    rw [LiveInner.applyPatchToRuntime, formModel]
    cases model.isSome <;> rfl
  rw [hform]
  simp only [LiveInner.applyFormEffort_eq, LiveInner.applyFormPolicy_eq]

/-! ## Whole changes -/

/-- Of a form refused at a field, the fields accepted before it hold what is there already. -/
def RouterSettings.KeepsWhole (s : RouterSettings) : ConfigPatch → Prop
  | .form model effort sandbox approval =>
    match formModel s.model model, formEffort s.effort effort, formApproval s.approvalPolicy approval with
    | .ok m, .error _, _ => m = s.model
    | .ok m, .ok f, .error _ => m = s.model ∧ f = s.effort ∧ sandbox.getD s.sandbox = s.sandbox
    | _, _, _ => True
  | _ => True

/-- A change that is refused leaves everything as it was. -/
def LiveInner.Whole (inner : LiveInner) (result : Except LiveConfigError Unit × LiveInner) : Prop :=
  result.1 ≠ .ok () → result.2 = inner

theorem refused_ne_ok {e : LiveConfigError} : (Except.error e : Except LiveConfigError Unit) ≠ .ok () := nofun

theorem LiveInner.whole_assign {α : Type} (inner : LiveInner) (value : Except LiveConfigError α)
    (next : α → LiveInner) : inner.Whole (inner.assign value fun a => (.ok (), next a)) := by
  cases value with
  | error e => exact fun _ => rfl
  | ok a => exact fun h => absurd rfl h

theorem LiveInner.whole_form (inner : LiveInner) (model effort : Option String) (sandbox : Option SandboxMode)
    (approval : Option String) : inner.Whole (inner.applyPatchToRuntime (.form model effort sandbox approval)) ↔
      inner.settings.KeepsWhole (.form model effort sandbox approval) := by
  rw [LiveInner.applyPatchToRuntime_form, RouterSettings.KeepsWhole]
  obtain ⟨config, policy, settings⟩ := inner
  cases formModel settings.model model with
  | error e => exact iff_of_true (fun _ => rfl) trivial
  | ok m =>
    cases formEffort settings.effort effort with
    | error e =>
      refine ⟨fun h => congrArg (·.settings.model) (h refused_ne_ok), ?_⟩
      rintro rfl _
      rfl
    | ok f =>
      cases formApproval settings.approvalPolicy approval with
      | error e =>
        refine ⟨fun h => ?_, ?_⟩
        · have heq := congrArg LiveInner.settings (h refused_ne_ok)
          exact ⟨congrArg (·.model) heq, congrArg (·.effort) heq, congrArg (·.sandbox) heq⟩
        · rintro ⟨rfl, rfl, hsandbox⟩ _
          simp only [LiveInner.assign, hsandbox]
      | ok a => exact iff_of_true (fun h => absurd rfl h) trivial

/-- **Whole changes.** A refused change leaves policy, settings and stored configuration as they were exactly when there
is a stored configuration or the form's accepted fields change nothing. -/
theorem LiveInner.apply_whole_iff (inner : LiveInner) (env : LiveInner.ApplyEnv) (patch : ConfigPatch) :
    inner.Whole (inner.apply env patch) ↔ (inner.config = none → inner.settings.KeepsWhole patch) := by
  unfold LiveInner.apply
  cases hconfig : inner.config with
  | some c =>
    refine iff_of_true ?_ (by simp)
    simp only
    split
    · exact fun _ => rfl
    · split
      · exact fun _ => rfl
      · split
        · exact fun _ => rfl
        · exact fun h => absurd rfl h
  | none =>
    simp only [forall_const]
    cases patch with
    | form model effort sandbox approval => exact inner.whole_form model effort sandbox approval
    | model _ | effort _ | approval _ | groupAdd _ | senderAdd _ => exact iff_of_true (inner.whole_assign _ _) trivial
    | sandbox _ | groupRemove _ | senderRemove _ => exact iff_of_true (fun h => absurd rfl h) trivial

/-! ## Views -/

def namedApproval : ApprovalPolicy → String
  | .named name => name
  | .granular _ => "granular"

/-- What `/config` shows. -/
structure ConfigView where
  model : Option String
  effort : Option String
  sandbox : SandboxMode
  approval : String
  allowedGroups : List String
  allowedSenders : List String

namespace LiveInner

/-- `ConfigView::from_runtime` of what the lock guards. -/
def view (inner : LiveInner) : ConfigView where
  model := inner.settings.model
  effort := inner.settings.effort
  sandbox := inner.settings.sandbox
  approval := namedApproval inner.settings.approvalPolicy
  allowedGroups := inner.policy.allowedGroups
  allowedSenders := inner.policy.allowedSenders

/-- What `LiveBridgeConfig::apply` returns. -/
def answer (inner : LiveInner) (env : ApplyEnv) (patch : ConfigPatch) : Except LiveConfigError ConfigView :=
  (inner.apply env patch).1.map fun _ => (inner.apply env patch).2.view

def fromRuntime (policy : AccessPolicy) (settings : RouterSettings) : LiveInner := ⟨none, policy, settings⟩

def persistent (config : BridgeConfig) (policy : AccessPolicy) (settings : RouterSettings) : LiveInner :=
  ⟨some config, policy, settings⟩

/-- The state after a run of changes. -/
def run (inner : LiveInner) (changes : List (ApplyEnv × ConfigPatch)) : LiveInner :=
  changes.foldl (fun inner change => (inner.apply change.1 change.2).2) inner

def WholeRun : LiveInner → List (ApplyEnv × ConfigPatch) → Prop
  | _, [] => True
  | inner, change :: changes =>
    (inner.config = none → inner.settings.KeepsWhole change.2) ∧ (inner.apply change.1 change.2).2.WholeRun changes

/-! ## What the state holds of a configuration -/

/-- Policy and settings are those of the configuration, as far as changes reach. -/
structure Holds (inner : LiveInner) (c : BridgeConfig) : Prop where
  model : inner.settings.model = c.model
  effort : inner.settings.effort = c.effort
  sandbox : inner.settings.sandbox = c.sandbox
  approval : inner.settings.approvalPolicy = c.approvalPolicy
  policySandbox : inner.policy.sandbox = c.sandbox
  policyApproval : inner.policy.approvalPolicy = c.approvalPolicy
  senders : inner.policy.allowedSenders = c.allowedSenders
  groups : inner.policy.allowedGroups = c.allowedGroups

variable {inner : LiveInner}

theorem Holds.withPaths {c : BridgeConfig} (h : inner.Holds c) (p : PreparedPaths) :
    inner.Holds (c.withPaths p) :=
  ⟨h.model, h.effort, h.sandbox, h.approval, h.policySandbox, h.policyApproval, h.senders, h.groups⟩

theorem Holds.view_eq {a b : LiveInner} {c : BridgeConfig} (ha : a.Holds c) (hb : b.Holds c) : a.view = b.view := by
  simp [view, ha.model, hb.model, ha.effort, hb.effort, ha.sandbox, hb.sandbox, ha.approval, hb.approval, ha.groups,
    hb.groups, ha.senders, hb.senders]

theorem holds_prepared (config : Option BridgeConfig) (c : BridgeConfig) (roots : PlatformRoots) (s : RouterSettings) :
    (LiveInner.mk config (.fromPreparedConfig c roots) (s.overlayHotReload c)).Holds c :=
  ⟨rfl, rfl, rfl, rfl, rfl, rfl, rfl, rfl⟩

/-- The result of a change in place is that of the change of a configuration. -/
def Follows (result : Except LiveConfigError Unit × LiveInner) : Except LiveConfigError BridgeConfig → Prop
  | .error e => result.1 = .error e
  | .ok next => result.1 = .ok () ∧ result.2.Holds next

theorem follows_assign {α : Type} {value : Except LiveConfigError α} {toConfig : α → BridgeConfig}
    {next : α → LiveInner} (h : ∀ a, (next a).Holds (toConfig a)) :
    Follows (inner.assign value fun a => (.ok (), next a)) (value.map toConfig) := by
  cases value with
  | error e => exact rfl
  | ok a => exact ⟨rfl, h a⟩

/-- **The two writings of a change agree:** in place it does to policy and settings what it does to the configuration
they hold. -/
theorem Holds.applyPatchToRuntime {c : BridgeConfig} (h : inner.Holds c) (patch : ConfigPatch) :
    Follows (inner.applyPatchToRuntime patch) (applyPatchToConfig c patch) := by
  obtain ⟨hmodel, heffort, hsandbox, happroval, hpolicySandbox, hpolicyApproval, hsenders, hgroups⟩ := h
  cases patch with
  | model model => exact follows_assign fun m => ⟨rfl, heffort, hsandbox, happroval, hpolicySandbox, hpolicyApproval, hsenders, hgroups⟩
  | effort effort => exact follows_assign fun f => ⟨hmodel, rfl, hsandbox, happroval, hpolicySandbox, hpolicyApproval, hsenders, hgroups⟩
  | sandbox sandbox => exact ⟨rfl, hmodel, heffort, rfl, happroval, rfl, happroval, hsenders, hgroups⟩
  | approval name =>
    exact follows_assign fun a => ⟨hmodel, heffort, hsandbox, rfl, hsandbox, rfl, hsenders, hgroups⟩
  | groupAdd id =>
    rw [applyPatchToConfig, ← hgroups]
    exact follows_assign fun ids =>
      ⟨hmodel, heffort, hsandbox, happroval, hpolicySandbox, hpolicyApproval, hsenders, rfl⟩
  | groupRemove id =>
    rw [applyPatchToConfig, ← hgroups]
    exact ⟨rfl, hmodel, heffort, hsandbox, happroval, hpolicySandbox, hpolicyApproval, hsenders, rfl⟩
  | senderAdd id =>
    rw [applyPatchToConfig, ← hsenders]
    exact follows_assign fun ids =>
      ⟨hmodel, heffort, hsandbox, happroval, hpolicySandbox, hpolicyApproval, rfl, hgroups⟩
  | senderRemove id =>
    rw [applyPatchToConfig, ← hsenders]
    exact ⟨rfl, hmodel, heffort, hsandbox, happroval, hpolicySandbox, hpolicyApproval, rfl, hgroups⟩
  | form model effort sandbox approval =>
    rw [applyPatchToConfig_form, applyPatchToRuntime_form, ← hmodel, ← heffort, ← happroval, ← hsandbox]
    cases formModel inner.settings.model model with
    | error e => exact rfl
    | ok m =>
      cases formEffort inner.settings.effort effort with
      | error e => exact rfl
      | ok f =>
        cases formApproval inner.settings.approvalPolicy approval with
        | error e => exact rfl
        | ok a => exact ⟨rfl, rfl, rfl, rfl, rfl, rfl, rfl, hsenders, hgroups⟩

theorem assign_config {α : Type} {value : Except LiveConfigError α} {next : α → Except LiveConfigError Unit × LiveInner}
    (h : ∀ a, (next a).2.config = inner.config) :
    (inner.assign value next).2.config = inner.config := by
  cases value with
  | error e => rfl
  | ok a => exact h a

theorem applyPatchToRuntime_config (inner : LiveInner) (patch : ConfigPatch) :
    (inner.applyPatchToRuntime patch).2.config = inner.config := by
  cases patch with
  | sandbox _ => rfl
  | groupRemove _ => rfl
  | senderRemove _ => rfl
  | form model effort sandbox approval =>
    rw [applyPatchToRuntime_form]
    exact assign_config fun _ => assign_config fun _ => assign_config fun _ => rfl
  | model _ | effort _ | approval _ | groupAdd _ | senderAdd _ => exact assign_config fun _ => rfl

end LiveInner

/-! ## Valid configurations stay valid -/

theorem normalizeEffort_ok {value effort : Option String} (h : normalizeEffort value = .ok effort) :
    effort.any (trimStr · == "") = false := by
  unfold normalizeEffort at h
  split at h
  next => cases h; rfl
  next value _ =>
    split_ifs at h with hdefault hlevel
    · cases h
      rfl
    · cases h
      simp only [List.mem_cons, List.not_mem_nil, or_false] at hlevel
      rcases hlevel with rfl | rfl | rfl | rfl <;> decide

theorem BridgeConfig.Valid.applyPatch {next : BridgeConfig} (h : c.Valid) {patch : ConfigPatch}
    (hpatch : applyPatchToConfig c patch = .ok next) : next.Valid := by
  obtain ⟨howners, howned, hsenders, hgroups, heffort⟩ := h
  cases patch with
  | model model =>
    obtain ⟨m, -, rfl⟩ := Fallible.map_eq_ok.1 hpatch
    exact ⟨howners, howned, hsenders, hgroups, heffort⟩
  | effort effort =>
    obtain ⟨f, hf, rfl⟩ := Fallible.map_eq_ok.1 hpatch
    exact ⟨howners, howned, hsenders, hgroups, normalizeEffort_ok hf⟩
  | sandbox sandbox =>
    cases hpatch
    exact ⟨howners, howned, hsenders, hgroups, heffort⟩
  | approval name =>
    obtain ⟨a, -, rfl⟩ := Fallible.map_eq_ok.1 hpatch
    exact ⟨howners, howned, hsenders, hgroups, heffort⟩
  | groupAdd id =>
    obtain ⟨ids, hids, rfl⟩ := Fallible.map_eq_ok.1 hpatch
    exact ⟨howners, howned, hsenders, hgroups.add hids, heffort⟩
  | groupRemove id =>
    cases hpatch
    exact ⟨howners, howned, hsenders, hgroups.remove id, heffort⟩
  | senderAdd id =>
    obtain ⟨ids, hids, rfl⟩ := Fallible.map_eq_ok.1 hpatch
    exact ⟨howners, howned, hsenders.add hids, hgroups, heffort⟩
  | senderRemove id =>
    cases hpatch
    exact ⟨howners, howned, hsenders.remove id, hgroups, heffort⟩
  | form model effort sandbox approval =>
    rw [applyPatchToConfig_form] at hpatch
    obtain ⟨m, -, hpatch⟩ := Fallible.bind_eq_ok.1 hpatch
    obtain ⟨f, hf, hpatch⟩ := Fallible.bind_eq_ok.1 hpatch
    obtain ⟨a, -, hpatch⟩ := Fallible.bind_eq_ok.1 hpatch
    cases hpatch
    refine ⟨howners, howned, hsenders, hgroups, ?_⟩
    unfold formEffort at hf
    split at hf
    · exact normalizeEffort_ok hf
    · cases hf
      exact heffort

namespace LiveInner

/-! ## The two back ends -/

/-- Policy and settings have the same sandbox and approval policy. -/
def Consistent (inner : LiveInner) : Prop :=
  inner.policy.sandbox = inner.settings.sandbox ∧ inner.policy.approvalPolicy = inner.settings.approvalPolicy

theorem Holds.consistent {inner : LiveInner} {c : BridgeConfig} (h : inner.Holds c) : inner.Consistent :=
  ⟨h.policySandbox.trans h.sandbox.symm, h.policyApproval.trans h.approval.symm⟩

/-- A stored state: it holds a valid configuration, its own. -/
def Stored (inner : LiveInner) : Prop := ∃ c, inner.config = some c ∧ c.Valid ∧ inner.Holds c

/-- A state in memory that holds the configuration another one stores. -/
def Agree (mem pers : LiveInner) : Prop :=
  mem.config = none ∧ ∃ c, pers.config = some c ∧ c.Valid ∧ mem.Holds c ∧ pers.Holds c

theorem Stored.apply {inner : LiveInner} (h : inner.Stored) (env : ApplyEnv) (patch : ConfigPatch) :
    (inner.apply env patch).2.Stored := by
  obtain ⟨c, hc, hvalid, hholds⟩ := h
  simp only [LiveInner.apply, hc]
  split
  · exact ⟨c, hc, hvalid, hholds⟩
  next next hpatch =>
    split
    · exact ⟨c, hc, hvalid, hholds⟩
    next validated hvalidated =>
      split
      · exact ⟨c, hc, hvalid, hholds⟩
      · exact ⟨validated, rfl, validated_valid hvalidated, holds_prepared _ _ _ _⟩

/-- A state in memory that holds some configuration keeps holding one by whole changes. -/
theorem Holds.apply {inner : LiveInner} {c : BridgeConfig} (h : inner.Holds c) (hmem : inner.config = none)
    {env : ApplyEnv} {patch : ConfigPatch} (hwhole : inner.settings.KeepsWhole patch) :
    (inner.apply env patch).2.config = none ∧ ∃ c, (inner.apply env patch).2.Holds c := by
  have happly : inner.apply env patch = inner.applyPatchToRuntime patch := by rw [LiveInner.apply, hmem]
  have hrefused := (apply_whole_iff inner env patch).2 fun _ => hwhole
  have hfollows := h.applyPatchToRuntime patch
  rw [happly] at hrefused ⊢
  refine ⟨(applyPatchToRuntime_config inner patch).trans hmem, ?_⟩
  cases hpatch : applyPatchToConfig c patch with
  | error e =>
    rw [hpatch] at hfollows
    have hsame := hrefused (fun hok => refused_ne_ok ((show _ = _ from hfollows).symm.trans hok))
    exact ⟨c, by rw [hsame]; exact h⟩
  | ok next =>
    rw [hpatch] at hfollows
    exact ⟨next, hfollows.2⟩

/-- With the validation and the file write succeeding, both back ends answer alike, and agree again after a whole
change. -/
theorem Agree.apply {mem pers : LiveInner} (h : Agree mem pers) {env env' : ApplyEnv} {patch : ConfigPatch}
    (hprepared : env'.prepared.isSome) (hwritten : env'.written = true) :
    mem.answer env patch = pers.answer env' patch ∧
      (mem.settings.KeepsWhole patch → Agree (mem.apply env patch).2 (pers.apply env' patch).2) := by
  obtain ⟨hmem, c, hc, hvalid, hholds, hpers⟩ := h
  obtain ⟨p, hp⟩ := Option.isSome_iff_exists.1 hprepared
  have happly : mem.apply env patch = mem.applyPatchToRuntime patch := by rw [LiveInner.apply, hmem]
  have hfollows := hholds.applyPatchToRuntime patch
  have hconfig := (applyPatchToRuntime_config mem patch).trans hmem
  have hwhole := apply_whole_iff mem env patch
  rw [happly] at hwhole
  simp only [answer, happly]
  cases hpatch : applyPatchToConfig c patch with
  | error e =>
    have hpersApply : pers.apply env' patch = (.error e, pers) := by simp only [LiveInner.apply, hc, hpatch]
    rw [hpatch] at hfollows
    have hrefused : (mem.applyPatchToRuntime patch).1 = .error e := hfollows
    rw [hpersApply, hrefused]
    refine ⟨rfl, fun hkeeps => ?_⟩
    have hsame := hwhole.2 (fun _ => hkeeps) (by rw [hrefused]; exact refused_ne_ok)
    exact ⟨hconfig, c, hc, hvalid, by rw [hsame]; exact hholds, hpers⟩
  | ok next =>
    have hnext := hvalid.applyPatch hpatch
    have hpersApply : pers.apply env' patch = (.ok (), {
        config := some (next.withPaths p)
        policy := .fromPreparedConfig (next.withPaths p) pers.policy.roots
        settings := pers.settings.overlayHotReload (next.withPaths p) }) := by
      simp only [LiveInner.apply, hc, hpatch, hp, hnext.validated, hwritten, Bool.true_eq_false, if_false]
    rw [hpatch] at hfollows
    obtain ⟨hok, hmemHolds⟩ := hfollows
    have hpersHolds := holds_prepared (some (next.withPaths p)) (next.withPaths p) pers.policy.roots pers.settings
    rw [hpersApply, hok]
    refine ⟨?_, fun _ => ⟨hconfig, _, rfl, hnext.withPaths p, hmemHolds.withPaths p, hpersHolds⟩⟩
    exact congrArg Except.ok ((hmemHolds.withPaths p).view_eq hpersHolds)

/-! ## Runs -/

/-- What the bridge starts both back ends from: a loaded configuration with the policy and settings made from it. -/
structure Started (config : BridgeConfig) (policy : AccessPolicy) (settings : RouterSettings) : Prop where
  loaded : ∃ raw prepared, BridgeConfig.validateWithPlatformRoots raw prepared = some config
  policy : ∃ prepared next roots, config.validateWithPlatformRoots prepared = some next ∧
    policy = .fromPreparedConfig next roots
  settings : settings.overlayHotReload config = settings

theorem Started.agree {config : BridgeConfig} {policy : AccessPolicy} {settings : RouterSettings}
    (h : Started config policy settings) : Agree (fromRuntime policy settings) (persistent config policy settings) := by
  obtain ⟨⟨raw, prepared, hloaded⟩, ⟨prepared', next, roots, hnext, rfl⟩, hsettings⟩ := h
  have hvalid := validated_valid hloaded
  obtain ⟨p, rfl⟩ : ∃ p, prepared' = some p := by
    cases prepared' with
    | none => simp [BridgeConfig.validateWithPlatformRoots] at hnext
    | some p => exact ⟨p, rfl⟩
  rw [hvalid.validated] at hnext
  cases hnext
  have hholds : ∀ stored, (LiveInner.mk stored (.fromPreparedConfig (config.withPaths p) roots) settings).Holds config := by
    intro stored
    rw [← hsettings]
    exact ⟨rfl, rfl, rfl, rfl, rfl, rfl, rfl, rfl⟩
  exact ⟨rfl, config, rfl, hvalid, hholds _, hholds _⟩

theorem Agree.stored {mem pers : LiveInner} (h : Agree mem pers) : pers.Stored := by
  obtain ⟨-, c, hc, hvalid, -, hpers⟩ := h
  exact ⟨c, hc, hvalid, hpers⟩

theorem Stored.run {inner : LiveInner} (h : inner.Stored) (changes : List (ApplyEnv × ConfigPatch)) :
    (inner.run changes).Stored := by
  induction changes generalizing inner with
  | nil => exact h
  | cons change changes ih => exact ih (h.apply change.1 change.2)

theorem Holds.run {inner : LiveInner} {c : BridgeConfig} (h : inner.Holds c) (hmem : inner.config = none)
    {changes : List (ApplyEnv × ConfigPatch)} (hwhole : inner.WholeRun changes) : ∃ c, (inner.run changes).Holds c := by
  induction changes generalizing inner c with
  | nil => exact ⟨c, h⟩
  | cons change changes ih =>
    obtain ⟨hnext, c', hholds⟩ := @Holds.apply inner c h hmem change.1 change.2 (hwhole.1 hmem)
    exact ih hholds hnext hwhole.2

theorem Agree.run {mem pers : LiveInner} (h : Agree mem pers) {changes : List (ApplyEnv × ConfigPatch)}
    (hwhole : mem.WholeRun changes) (henv : ∀ change ∈ changes, change.1.prepared.isSome ∧ change.1.written = true) :
    Agree (mem.run changes) (pers.run changes) := by
  induction changes generalizing mem pers with
  | nil => exact h
  | cons change changes ih =>
    obtain ⟨hprepared, hwritten⟩ := henv change List.mem_cons_self
    exact ih ((h.apply hprepared hwritten).2 (hwhole.1 h.1)) hwhole.2 fun c hc => henv c (List.mem_cons_of_mem _ hc)

/-- **Live changes are whole and the back ends agree.** A refused change leaves everything as it was exactly when it
keeps whole. From a started bridge, in every run of such changes: policy and settings have the same sandbox and approval
policy in both back ends, and with the validation and the file write succeeding both answer every further change alike,
with the same view where it is applied. -/
theorem live_changes (inner : LiveInner) (env : ApplyEnv) (patch : ConfigPatch) :
    (((inner.apply env patch).1 ≠ .ok () → (inner.apply env patch).2 = inner) ↔
      (inner.config = none → inner.settings.KeepsWhole patch)) ∧
    ∀ (config : BridgeConfig) (policy : AccessPolicy) (settings : RouterSettings), Started config policy settings →
      ∀ changes : List (ApplyEnv × ConfigPatch),
        ((fromRuntime policy settings).WholeRun changes → ((fromRuntime policy settings).run changes).Consistent) ∧
        ((persistent config policy settings).run changes).Consistent ∧
        ((fromRuntime policy settings).WholeRun changes →
          (∀ change ∈ changes, change.1.prepared.isSome ∧ change.1.written = true) →
          ∀ (env : ApplyEnv) (patch : ConfigPatch), env.prepared.isSome → env.written = true →
            ((fromRuntime policy settings).run changes).answer env patch =
              ((persistent config policy settings).run changes).answer env patch) := by
  refine ⟨apply_whole_iff .., fun config policy settings hstarted changes => ⟨fun hwhole => ?_, ?_, ?_⟩⟩
  · obtain ⟨hmem, c, -, -, hholds, -⟩ := hstarted.agree
    obtain ⟨c', hc'⟩ := hholds.run hmem hwhole
    exact hc'.consistent
  · obtain ⟨c, -, -, hholds⟩ := hstarted.agree.stored.run changes
    exact hholds.consistent
  · intro hwhole henv env patch hprepared hwritten
    exact ((hstarted.agree.run hwhole henv).apply hprepared hwritten).1

def ownedConfig : BridgeConfig where
  owners := ["ou_1"]
  allowedSenders := []
  allowedGroups := []
  defaultWorkspace := some "/work"
  allowRoots := ["/work"]
  networkAccess := false
  activeTurnPermits := 2
  maxScopeActors := 8
  model := none
  effort := none
  sandbox := .readOnly
  approvalPolicy := .named "never"

def ownedPolicy : AccessPolicy := .fromPreparedConfig ownedConfig ⟨"/home", [], [], []⟩

theorem ownedConfig_started : Started ownedConfig ownedPolicy (.fromConfig ownedConfig) := by
  have hvalidated : ownedConfig.validateWithPlatformRoots (some ⟨["/work"], "/work"⟩) = some ownedConfig := by
    decide
  exact ⟨⟨_, _, hvalidated⟩, ⟨_, _, _, hvalidated, rfl⟩, rfl⟩

/-- The form `sandbox=danger-full-access approval=sometimes`. -/
def halfForm : ConfigPatch := .form none none (some .dangerFullAccess) (some "sometimes")

/-- The form is refused with its sandbox left in the settings, where the policy does not have it. -/
theorem refused_form_changes :
    Started ownedConfig ownedPolicy (.fromConfig ownedConfig) ∧
      ¬ (((fromRuntime ownedPolicy (.fromConfig ownedConfig)).apply ⟨none, true⟩ halfForm).1 ≠ .ok () →
        ((fromRuntime ownedPolicy (.fromConfig ownedConfig)).apply ⟨none, true⟩ halfForm).2 =
          fromRuntime ownedPolicy (.fromConfig ownedConfig)) ∧
      ¬ ((fromRuntime ownedPolicy (.fromConfig ownedConfig)).run [(⟨none, true⟩, halfForm)]).Consistent := by
  refine ⟨ownedConfig_started, fun h => ?_, fun h => ?_⟩
  · have heq := congrArg (·.settings.sandbox) (h (by decide))
    exact absurd heq (by decide)
  · exact absurd h.1 (by decide)

/-- An environment that accepts every change. -/
def accepting : ApplyEnv := ⟨some ⟨["/work"], "/work"⟩, true⟩

/-- A change of the sandbox, then a form. -/
theorem live_changes_owned :
    ((fromRuntime ownedPolicy (.fromConfig ownedConfig)).run [(accepting, .sandbox .workspaceWrite)]).Consistent ∧
      ((fromRuntime ownedPolicy (.fromConfig ownedConfig)).run [(accepting, .sandbox .workspaceWrite)]).answer accepting
          halfForm =
        ((persistent ownedConfig ownedPolicy (.fromConfig ownedConfig)).run
          [(accepting, .sandbox .workspaceWrite)]).answer accepting halfForm := by
  obtain ⟨hmem, -, hagree⟩ := (live_changes (fromRuntime ownedPolicy (.fromConfig ownedConfig)) accepting halfForm).2 _ _ _
    ownedConfig_started [(accepting, .sandbox .workspaceWrite)]
  have hwhole : (fromRuntime ownedPolicy (.fromConfig ownedConfig)).WholeRun [(accepting, .sandbox .workspaceWrite)] :=
    ⟨fun _ => trivial, trivial⟩
  exact ⟨hmem hwhole, hagree hwhole (by simp [accepting]) accepting halfForm rfl rfl⟩

end LiveInner

end LarkCodexBridge.Runtime
