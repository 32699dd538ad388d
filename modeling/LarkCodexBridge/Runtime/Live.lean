import LarkCodexBridge.Runtime.Policy

/-!
# Live configuration

The configuration that `/config` changes in a running bridge: a stored file configuration (or none), the access policy
and the router settings made from it. `LiveInner.apply` is one change under the write lock. With a stored configuration
the change is made on a copy, so an error leaves everything as it was; without one the policy and the settings are
changed in place, field by field.
-/

namespace LarkCodexBridge.Runtime

open Limits

/-! ## Text -/

/-- `char::is_whitespace`: the characters with the Unicode property White_Space. -/
def isWhitespace (c : Char) : Bool :=
  let n := c.toNat
  (0x09 ≤ n && n ≤ 0x0d) || n == 0x20 || n == 0x85 || n == 0xa0 || n == 0x1680 || (0x2000 ≤ n && n ≤ 0x200a) ||
    n == 0x2028 || n == 0x2029 || n == 0x202f || n == 0x205f || n == 0x3000

def trimStart (cs : List Char) : List Char := cs.dropWhile isWhitespace

def trimEnd (cs : List Char) : List Char := (cs.reverse.dropWhile isWhitespace).reverse

def trim (cs : List Char) : List Char := trimEnd (trimStart cs)

/-- `str::trim` on strings. -/
def trimStr (s : String) : String := String.ofList (trim s.toList)

/-- `is_ascii_control`. A byte of a character outside ASCII is none, so the characters decide. -/
def isAsciiControl (c : Char) : Bool := c.toNat < 0x20 || c.toNat == 0x7f

/-- `is_ascii_whitespace`: space, tab, line feed, form feed and carriage return. -/
def isAsciiWhitespace (c : Char) : Bool :=
  c.toNat == 0x20 || c.toNat == 0x09 || c.toNat == 0x0a || c.toNat == 0x0c || c.toNat == 0x0d

/-! ## Configuration -/

/-- The parts of the file configuration that a running bridge reads. -/
structure BridgeConfig where
  owners : List String
  allowedSenders : List String
  allowedGroups : List String
  defaultWorkspace : Option String
  allowRoots : List String
  networkAccess : Bool
  activeTurnPermits : ℕ
  maxScopeActors : ℕ
  model : Option String
  effort : Option String
  sandbox : SandboxMode
  approvalPolicy : ApprovalPolicy
  deriving DecidableEq

/-- Inputs of the scope runtime; durations in milliseconds. -/
structure RouterSettings where
  defaultWorkspace : Option String
  botOpenId : Option String
  activeTurnPermits : ℕ
  maxScopeActors : ℕ
  sandbox : SandboxMode
  approvalPolicy : ApprovalPolicy
  model : Option String
  effort : Option String
  networkAccess : Bool
  debounce : ℕ
  messageMaxAge : ℕ
  finalizationRetry : ℕ
  shutdownCleanupTimeout : ℕ
  pendingMediaTtl : ℕ
  pendingMediaMaxCount : ℕ
  pendingMediaMaxMetadataBytes : ℕ
  deriving DecidableEq

def RouterSettings.fromConfig (config : BridgeConfig) : RouterSettings where
  defaultWorkspace := config.defaultWorkspace
  botOpenId := none
  activeTurnPermits := config.activeTurnPermits
  maxScopeActors := config.maxScopeActors
  sandbox := config.sandbox
  approvalPolicy := config.approvalPolicy
  model := config.model
  effort := config.effort
  networkAccess := config.networkAccess
  debounce := 600
  messageMaxAge := 15 * 60 * 1000
  finalizationRetry := 1000
  shutdownCleanupTimeout := 5000
  pendingMediaTtl := Limits.pendingMediaTtl
  pendingMediaMaxCount := Limits.pendingMediaMaxCount
  pendingMediaMaxMetadataBytes := Limits.pendingMediaMaxMetadataBytes

/-- `overlay_hot_reload`: what the file does not hold stays. -/
def RouterSettings.overlayHotReload (s : RouterSettings) (config : BridgeConfig) : RouterSettings :=
  { RouterSettings.fromConfig config with
    botOpenId := s.botOpenId
    debounce := s.debounce
    messageMaxAge := s.messageMaxAge
    finalizationRetry := s.finalizationRetry
    shutdownCleanupTimeout := s.shutdownCleanupTimeout
    pendingMediaTtl := s.pendingMediaTtl
    pendingMediaMaxCount := s.pendingMediaMaxCount
    pendingMediaMaxMetadataBytes := s.pendingMediaMaxMetadataBytes }

def AccessPolicy.fromPreparedConfig (config : BridgeConfig) (roots : PlatformRoots) : AccessPolicy where
  owners := config.owners
  allowedSenders := config.allowedSenders
  allowedGroups := config.allowedGroups
  allowRoots := config.allowRoots
  roots := roots
  sandbox := config.sandbox
  approvalPolicy := config.approvalPolicy
  networkAccess := config.networkAccess

/-- One change of `/config`. -/
inductive ConfigPatch where
  | model (model : Option String)
  | effort (effort : Option String)
  | sandbox (sandbox : SandboxMode)
  | approval (name : String)
  | groupAdd (id : String)
  | groupRemove (id : String)
  | senderAdd (id : String)
  | senderRemove (id : String)
  | form (model effort : Option String) (sandbox : Option SandboxMode) (approval : Option String)
  deriving DecidableEq

inductive LiveConfigError where
  | lock | invalidValue | persist | validate
  deriving DecidableEq

/-! ## Values -/

def maxConfigModelBytes : ℕ := 128

def presentValue (value : Option String) : Option String := (value.map trimStr).filter (· ≠ "")

def normalizeModel (value : Option String) : Except LiveConfigError (Option String) :=
  match presentValue value with
  | none => .ok none
  | some value =>
    if value = "-" ∨ value = "default" then .ok none
    else if value.utf8ByteSize > maxConfigModelBytes ∨ value.toList.any isAsciiControl then .error .invalidValue
    else .ok (some value)

def normalizeEffort (value : Option String) : Except LiveConfigError (Option String) :=
  match presentValue value with
  | none => .ok none
  | some value =>
    if value = "-" ∨ value = "default" ∨ value = "none" then .ok none
    else if value ∈ ["low", "medium", "high", "xhigh"] then .ok (some value)
    else .error .invalidValue

def normalizeApproval (value : String) : Except LiveConfigError String :=
  let value := trimStr value
  if value ∈ ["untrusted", "on-failure", "on-request", "never"] then .ok value else .error .invalidValue

def validAllowId (id : String) : Bool :=
  id ≠ "" && trimStr id == id && !id.toList.any isAsciiWhitespace

/-- `add_unique` with the bounds of its list. -/
def addUnique (maxCount maxBytes : ℕ) (ids : List String) (id : String) : Except LiveConfigError (List String) :=
  if validAllowId id = false then .error .invalidValue
  else if id ∈ ids then .ok ids
  else if ids.length ≥ maxCount then .error .invalidValue
  else if (ids.map String.utf8ByteSize).sum + id.utf8ByteSize > maxBytes then .error .invalidValue
  else .ok (ids ++ [id])

def addGroup : List String → String → Except LiveConfigError (List String) :=
  addUnique maxConfigAllowedGroups maxConfigAllowedGroupBytes

def addSender : List String → String → Except LiveConfigError (List String) :=
  addUnique maxConfigAllowedSenders maxConfigAllowedSenderBytes

def removeId (ids : List String) (id : String) : List String := ids.filter (· ≠ id)

/-! ## Validation -/

/-- `normalize_id_collection`: the first of equal ids is kept. -/
def normalizeIdCollection (maxCount maxBytes : ℕ) (ids : List String) : Option (List String) :=
  if ids.length > maxCount then none
  else if (ids.map String.utf8ByteSize).sum > maxBytes then none
  else if ids.any (!validAllowId ·) then none
  else some ids.eraseDups

/-- `validate_static` of the ids and the effort. -/
def BridgeConfig.validateStatic (config : BridgeConfig) : Option BridgeConfig := do
  let owners ← normalizeIdCollection maxConfigOwners maxConfigOwnerBytes config.owners
  if owners = [] then none
  let senders ← normalizeIdCollection maxConfigAllowedSenders maxConfigAllowedSenderBytes config.allowedSenders
  let groups ← normalizeIdCollection maxConfigAllowedGroups maxConfigAllowedGroupBytes config.allowedGroups
  if config.effort.any (trimStr · == "") then none
  some { config with owners := owners, allowedSenders := senders, allowedGroups := groups }

/-- The canonical roots and default workspace that the validation finds. -/
structure PreparedPaths where
  allowRoots : List String
  defaultWorkspace : String

/-- `validate_with_platform_roots`. The checks of paths and programs are the environment's: it refuses or prepares. -/
def BridgeConfig.validateWithPlatformRoots (config : BridgeConfig) (prepared : Option PreparedPaths) :
    Option BridgeConfig := do
  let next ← config.validateStatic
  let prepared ← prepared
  some { next with
    allowRoots := prepared.allowRoots
    defaultWorkspace := next.defaultWorkspace.map fun _ => prepared.defaultWorkspace }

/-! ## Changes -/

def applyPatchToConfig (config : BridgeConfig) : ConfigPatch → Except LiveConfigError BridgeConfig
  | .model model => (normalizeModel model).map fun model => { config with model := model }
  | .effort effort => (normalizeEffort effort).map fun effort => { config with effort := effort }
  | .sandbox sandbox => .ok { config with sandbox := sandbox }
  | .approval name => (normalizeApproval name).map fun name => { config with approvalPolicy := .named name }
  | .groupAdd id => (addGroup config.allowedGroups id).map fun ids => { config with allowedGroups := ids }
  | .groupRemove id => .ok { config with allowedGroups := removeId config.allowedGroups id }
  | .senderAdd id => (addSender config.allowedSenders id).map fun ids => { config with allowedSenders := ids }
  | .senderRemove id => .ok { config with allowedSenders := removeId config.allowedSenders id }
  | .form model effort sandbox approval => do
    let model ← if model.isSome then normalizeModel model else .ok config.model
    let effort ← if effort.isSome then normalizeEffort effort else .ok config.effort
    let approval ← match approval with
      | some name => (normalizeApproval name).map .named
      | none => .ok config.approvalPolicy
    .ok { config with
      model := model, effort := effort, sandbox := sandbox.getD config.sandbox, approvalPolicy := approval }

/-- What the lock guards. -/
structure LiveInner where
  config : Option BridgeConfig
  policy : AccessPolicy
  settings : RouterSettings
  deriving DecidableEq

namespace LiveInner

/-- An assignment with `?`: an error ends the change, and what was assigned before stays. -/
def assign {α : Type} (inner : LiveInner) (value : Except LiveConfigError α)
    (next : α → Except LiveConfigError Unit × LiveInner) : Except LiveConfigError Unit × LiveInner :=
  match value with
  | .error e => (.error e, inner)
  | .ok a => next a

/-- The end of the form: the policy gets the sandbox and the approval policy of the settings. -/
def finishForm (inner : LiveInner) : Except LiveConfigError Unit × LiveInner :=
  (.ok (), { inner with
    policy := inner.policy.replaceCodexPolicy inner.settings.sandbox inner.settings.approvalPolicy })

/-- The form's sandbox and approval policy. -/
def applyFormPolicy (inner : LiveInner) (sandbox : Option SandboxMode) (approval : Option String) :
    Except LiveConfigError Unit × LiveInner :=
  let inner := { inner with settings.sandbox := sandbox.getD inner.settings.sandbox }
  match approval with
  | none => inner.finishForm
  | some name => inner.assign (normalizeApproval name) fun name =>
    { inner with settings.approvalPolicy := .named name }.finishForm

def applyFormEffort (inner : LiveInner) (effort : Option String) (sandbox : Option SandboxMode)
    (approval : Option String) : Except LiveConfigError Unit × LiveInner :=
  if effort.isSome then
    inner.assign (normalizeEffort effort) fun effort =>
      { inner with settings.effort := effort }.applyFormPolicy sandbox approval
  else inner.applyFormPolicy sandbox approval

def applyPatchToRuntime (inner : LiveInner) : ConfigPatch → Except LiveConfigError Unit × LiveInner
  | .model model => inner.assign (normalizeModel model) fun model => (.ok (), { inner with settings.model := model })
  | .effort effort =>
    inner.assign (normalizeEffort effort) fun effort => (.ok (), { inner with settings.effort := effort })
  | .sandbox sandbox =>
    (.ok (), { inner with
      settings.sandbox := sandbox
      policy := inner.policy.replaceCodexPolicy sandbox inner.settings.approvalPolicy })
  | .approval name => inner.assign (normalizeApproval name) fun name =>
    (.ok (), { inner with
      settings.approvalPolicy := .named name
      policy := inner.policy.replaceCodexPolicy inner.settings.sandbox (.named name) })
  | .groupAdd id => inner.assign (addGroup inner.policy.allowedGroups id) fun groups =>
    (.ok (), { inner with policy := inner.policy.replaceAllowlists inner.policy.allowedSenders groups })
  | .groupRemove id =>
    (.ok (), { inner with
      policy := inner.policy.replaceAllowlists inner.policy.allowedSenders (removeId inner.policy.allowedGroups id) })
  | .senderAdd id => inner.assign (addSender inner.policy.allowedSenders id) fun senders =>
    (.ok (), { inner with policy := inner.policy.replaceAllowlists senders inner.policy.allowedGroups })
  | .senderRemove id =>
    (.ok (), { inner with
      policy := inner.policy.replaceAllowlists (removeId inner.policy.allowedSenders id) inner.policy.allowedGroups })
  | .form model effort sandbox approval =>
    if model.isSome then
      inner.assign (normalizeModel model) fun model =>
        { inner with settings.model := model }.applyFormEffort effort sandbox approval
    else inner.applyFormEffort effort sandbox approval

/-- What the environment answers to a change: what the validation finds of the new configuration's paths and whether
the file is written. -/
structure ApplyEnv where
  prepared : Option PreparedPaths
  written : Bool

def apply (inner : LiveInner) (env : ApplyEnv) (patch : ConfigPatch) : Except LiveConfigError Unit × LiveInner :=
  match inner.config with
  | none => inner.applyPatchToRuntime patch
  | some config =>
    match applyPatchToConfig config patch with
    | .error e => (.error e, inner)
    | .ok next =>
      match next.validateWithPlatformRoots env.prepared with
      | none => (.error .validate, inner)
      | some next =>
        if env.written = false then (.error .persist, inner)
        else (.ok (), {
          config := some next
          policy := .fromPreparedConfig next inner.policy.roots
          settings := inner.settings.overlayHotReload next })

end LiveInner

end LarkCodexBridge.Runtime
