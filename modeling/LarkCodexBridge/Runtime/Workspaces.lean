import Mathlib
import LarkCodexBridge.Lib.Except
import LarkCodexBridge.Runtime.Live

/-!
# Workspaces

Which directories the access policy accepts as workspaces: `prepareConfig` makes the allow roots canonical,
`validateWorkspace` accepts a directory at or below one of them that `classifyHardDeny` does not refuse, and
`turnSandbox` opens it for writing. Paths are compared by their components.

A workspace is never inside a protected tree. A protected tree can be inside a workspace, and `workspace_confined` says
when.
-/

namespace LarkCodexBridge.Runtime

open Limits Fallible

/-! ## The checks -/

/-- `std::path::Component`; a drive or share is a `volume`. -/
inductive Component where
  | volume (name : String) | rootDir | curDir | parentDir | normal (name : String)
  deriving DecidableEq

/-- The paths and the file system of the machine, which does not change; a call that fails answers `none`. -/
structure Machine where
  components : String → List Component
  isAbsolute : String → Bool
  /-- The order of `PathBuf`. -/
  le : String → String → Bool
  canonicalize : String → Option String
  /-- `metadata`, and then `is_dir`. -/
  isDir : String → Option Bool

inductive WorkspaceRejection where
  | relative | inaccessible | notDirectory | filesystemRoot | homeRoot | systemTree | tempTree | desktopOrDownloads
  | outsideAllowRoots

inductive ConfigError where
  | invalidAllowRoot | tooManyAllowRoots | allowRootsTooLarge | invalidDefaultWorkspace

inductive TurnSandboxPolicy where
  | readOnly (networkAccess : Bool)
  | workspaceWrite (writableRoots : List String) (networkAccess excludeSlashTmp excludeTmpdirEnvVar : Bool)
  | dangerFullAccess

def TurnSandboxPolicy.writableRoots : TurnSandboxPolicy → List String
  | .workspaceWrite writableRoots _ _ _ => writableRoots
  | _ => []

def turnSandbox (settings : RouterSettings) (cwd : String) : TurnSandboxPolicy :=
  match settings.sandbox with
  | .readOnly => .readOnly settings.networkAccess
  | .workspaceWrite => .workspaceWrite [cwd] settings.networkAccess false false
  | .dangerFullAccess => .dangerFullAccess

namespace Machine

variable (m : Machine)

/-- `starts_with`: by whole components. -/
def startsWith (path base : String) : Bool := m.components base <+: m.components path

/-- `parent().is_some()`. -/
def hasParent (path : String) : Bool :=
  match (m.components path).getLast? with
  | some (.normal _) | some .curDir | some .parentDir => true
  | _ => false

def classifyHardDeny (path : String) (roots : PlatformRoots) : Option WorkspaceRejection :=
  if m.hasParent path = false then some .filesystemRoot
  else if m.components path = m.components roots.home then some .homeRoot
  else if roots.systemTrees.any (m.startsWith path) then some .systemTree
  else if roots.tempTrees.any (m.startsWith path) then some .tempTree
  else if roots.desktopDownloadTrees.any (m.startsWith path) then some .desktopOrDownloads
  else none

def canonicalDirectory (path : String) : Except WorkspaceRejection String :=
  match m.canonicalize path with
  | none => .error .inaccessible
  | some canonical =>
    match m.isDir canonical with
    | none => .error .inaccessible
    | some false => .error .notDirectory
    | some true => .ok canonical

def validateWorkspace (policy : AccessPolicy) (path : String) : Except WorkspaceRejection String :=
  if m.isAbsolute path = false then .error .relative
  else do
    let canonical ← m.canonicalDirectory path
    match m.classifyHardDeny canonical policy.roots with
    | some rejection => .error rejection
    | none => if policy.allowRoots.any (m.startsWith canonical) then .ok canonical else .error .outsideAllowRoots

/-- The body of the loop of `prepare_config`. -/
def prepareAllowRoot (roots : PlatformRoots) (allowRoot : String) : Except ConfigError String :=
  if m.isAbsolute allowRoot = false then .error .invalidAllowRoot
  else
    match m.canonicalDirectory allowRoot with
    | .error _ => .error .invalidAllowRoot
    | .ok canonical => if (m.classifyHardDeny canonical roots).isSome then .error .invalidAllowRoot else .ok canonical

def pathBytes (paths : List String) : ℕ := (paths.map String.utf8ByteSize).sum

/-- The new allow roots. Of equal neighbours in the sorted list the first is kept. -/
def prepareConfig (allowRoots : List String) (roots : PlatformRoots) : Except ConfigError (List String) := do
  let canonicalRoots ← allowRoots.mapM (m.prepareAllowRoot roots)
  let canonicalRoots := (canonicalRoots.mergeSort m.le).destutter fun a b => m.components a ≠ m.components b
  if canonicalRoots.length > maxConfigAllowRoots ∨ pathBytes canonicalRoots > maxConfigAllowRootBytes then
    .error .allowRootsTooLarge
  else .ok canonicalRoots

/-- What `validate_static` and `validate_with_platform_roots` check of the paths, and the paths they put into the
configuration. The checks of programs can only refuse more. -/
def preparePaths (config : BridgeConfig) (roots : PlatformRoots) : Except ConfigError PreparedPaths :=
  if config.allowRoots.length > maxConfigAllowRoots then .error .tooManyAllowRoots
  else if pathBytes config.allowRoots > maxConfigAllowRootBytes then .error .allowRootsTooLarge
  else do
    let allowRoots ← m.prepareConfig config.allowRoots roots
    match config.defaultWorkspace with
    | none => .ok ⟨allowRoots, ""⟩
    | some workspace =>
      match m.validateWorkspace (.fromPreparedConfig { config with allowRoots := allowRoots } roots) workspace with
      | .error _ => .error .invalidDefaultWorkspace
      | .ok canonical => .ok ⟨allowRoots, canonical⟩

/-! ## What is accepted -/

/-- The home directory itself, and what lies in a system tree or in a Desktop or Downloads tree. -/
def Protected (roots : PlatformRoots) (path : String) : Prop :=
  m.components path = m.components roots.home ∨
    ∃ root ∈ roots.systemTrees ++ roots.desktopDownloadTrees, m.startsWith path root = true

variable {m} {roots : PlatformRoots} {policy : AccessPolicy} {path w : String}

theorem startsWith_iff {base : String} : m.startsWith path base = true ↔ m.components base <+: m.components path :=
  decide_eq_true_iff

theorem startsWith_refl : m.startsWith path path = true := startsWith_iff.2 List.prefix_rfl

/-- Of two paths at or above a third, one is at or above the other. -/
theorem startsWith_total {a b : String} (ha : m.startsWith path a = true) (hb : m.startsWith path b = true) :
    m.startsWith a b = true ∨ m.startsWith b a = true := by
  rw [startsWith_iff] at ha hb
  rw [startsWith_iff, startsWith_iff]
  exact (List.prefix_or_prefix_of_prefix ha hb).symm

theorem classifyHardDeny_eq_none : m.classifyHardDeny path roots = none ↔
    m.hasParent path = true ∧ ¬m.Protected roots path ∧ ∀ root ∈ roots.tempTrees, m.startsWith path root = false := by
  unfold classifyHardDeny Protected
  split_ifs <;> simp_all [or_imp, forall_and]

theorem canonicalDirectory_ok (h : m.canonicalDirectory path = .ok w) :
    m.canonicalize path = some w ∧ m.isDir w = some true := by
  unfold canonicalDirectory at h
  split at h
  · cases h
  · next canonical hc =>
    split at h
    · cases h
    · cases h
    · next hd =>
      cases h
      exact ⟨hc, hd⟩

theorem validateWorkspace_ok : m.validateWorkspace policy path = .ok w ↔
    m.isAbsolute path = true ∧ m.canonicalDirectory path = .ok w ∧ m.classifyHardDeny w policy.roots = none ∧
      ∃ root ∈ policy.allowRoots, m.startsWith w root = true := by
  unfold validateWorkspace
  cases m.isAbsolute path with
  | false => simp
  | true =>
    simp only [Bool.true_eq_false, if_false, bind_eq_ok, true_and]
    constructor
    · rintro ⟨canonical, hc, h⟩
      split at h
      · cases h
      · next hnone =>
        split at h
        · next hany =>
          cases h
          exact ⟨hc, hnone, List.any_eq_true.1 hany⟩
        · cases h
    · rintro ⟨hc, hnone, hroot⟩
      exact ⟨w, hc, by rw [hnone]; exact if_pos (List.any_eq_true.2 hroot)⟩

/-- What `fs::canonicalize` promises: an absolute path that is its own canonical path. -/
def Canonical (m : Machine) : Prop :=
  ∀ path c, m.canonicalize path = some c → m.isAbsolute c = true ∧ m.canonicalize c = some c

theorem prepareAllowRoot_canonical (hcanon : m.Canonical) {a : String} (h : m.prepareAllowRoot roots path = .ok a) :
    m.canonicalize a = some a := by
  unfold prepareAllowRoot at h
  split at h
  · cases h
  · split at h
    · cases h
    · next canonical hdir =>
      split at h
      · cases h
      · cases h
        exact (hcanon _ _ (canonicalDirectory_ok hdir).1).2

theorem prepareConfig_canonical (hcanon : m.Canonical) {allowRoots prepared : List String}
    (h : m.prepareConfig allowRoots roots = .ok prepared) : ∀ a ∈ prepared, m.canonicalize a = some a := by
  obtain ⟨canonicalRoots, hroots, h⟩ := bind_eq_ok.1 h
  dsimp only at h
  split at h
  · cases h
  · cases h
    intro a ha
    have hmem : a ∈ canonicalRoots := List.mem_mergeSort.1 ((List.destutter_sublist _ _).subset ha)
    obtain ⟨i, hi, rfl⟩ := List.getElem_of_mem hmem
    have hpairs := List.forall₂_iff_get.1 (mapM_eq_ok hroots)
    exact prepareAllowRoot_canonical hcanon (hpairs.2 i (hpairs.1 ▸ hi) hi)

theorem validated_canonical (hcanon : m.Canonical) {raw config : BridgeConfig}
    (h : raw.validateWithPlatformRoots (m.preparePaths raw roots).toOption = some config) :
    ∀ a ∈ config.allowRoots, m.canonicalize a = some a := by
  simp only [BridgeConfig.validateWithPlatformRoots, Option.bind_eq_bind, Option.bind_eq_some_iff] at h
  obtain ⟨next, -, prepared, hprepared, h⟩ := h
  cases h
  cases hpaths : m.preparePaths raw roots with
  | error e => rw [hpaths] at hprepared; cases hprepared
  | ok paths =>
    rw [hpaths] at hprepared
    cases hprepared
    unfold preparePaths at hpaths
    split_ifs at hpaths
    obtain ⟨allowRoots, hallow, hpaths⟩ := bind_eq_ok.1 hpaths
    refine prepareConfig_canonical hcanon (hallow.trans ?_)
    split at hpaths
    · cases hpaths
      rfl
    · split at hpaths
      · cases hpaths
      · cases hpaths
        rfl

/-- **What is opened with a workspace.** Something protected is at or below a path that is not protected itself exactly
if the home directory or the root of a protected tree is below it. -/
theorem opens_iff (hfree : ¬m.Protected roots w) :
    (∃ q, m.startsWith q w = true ∧ m.Protected roots q) ↔
      ∃ root ∈ roots.home :: (roots.systemTrees ++ roots.desktopDownloadTrees),
        m.startsWith root w = true ∧ m.startsWith w root = false := by
  constructor
  · rintro ⟨q, hq, hhome | ⟨root, hroot, hle⟩⟩
    · have hle : m.startsWith roots.home w = true := startsWith_iff.2 (hhome ▸ startsWith_iff.1 hq)
      refine ⟨_, List.mem_cons_self, hle, Bool.eq_false_iff.2 fun h => hfree (.inl ?_)⟩
      exact (startsWith_iff.1 hle).eq_of_length_le (startsWith_iff.1 h).length_le
    · have hnot : m.startsWith w root = false := Bool.eq_false_iff.2 fun h => hfree (.inr ⟨root, hroot, h⟩)
      refine ⟨root, List.mem_cons_of_mem _ hroot, ?_, hnot⟩
      exact (startsWith_total hq hle).resolve_left (by simp [hnot])
  · rintro ⟨root, hroot, hle, -⟩
    refine ⟨root, hle, ?_⟩
    rcases List.mem_cons.1 hroot with rfl | hroot
    · exact .inl rfl
    · exact .inr ⟨root, hroot, startsWith_refl⟩

/-- **An accepted workspace** lies under a canonical allow root, is no file system root and in no protected or temporary
tree, and is accepted again as itself. It opens a protected tree exactly if one is below it. -/
theorem workspace_confined (m : Machine) (hcanon : m.Canonical) {roots : PlatformRoots} {raw config : BridgeConfig}
    {path w : String} (haccepted : raw.validateWithPlatformRoots (m.preparePaths raw roots).toOption = some config)
    (hw : m.validateWorkspace (.fromPreparedConfig config roots) path = .ok w) :
    (∃ root ∈ config.allowRoots, m.canonicalize root = some root ∧ m.startsWith w root = true) ∧
      (m.hasParent w = true ∧ ¬m.Protected roots w ∧ ∀ root ∈ roots.tempTrees, m.startsWith w root = false) ∧
      ((∃ q, m.startsWith q w = true ∧ m.Protected roots q) ↔
        ∃ root ∈ roots.home :: (roots.systemTrees ++ roots.desktopDownloadTrees),
          m.startsWith root w = true ∧ m.startsWith w root = false) ∧
      (∀ settings : RouterSettings, ∀ root ∈ (turnSandbox settings w).writableRoots, root = w) ∧
      m.validateWorkspace (.fromPreparedConfig config roots) w = .ok w := by
  obtain ⟨-, hdir, hnone, root, hroot, hle⟩ := validateWorkspace_ok.1 hw
  have hplace := classifyHardDeny_eq_none.1 hnone
  obtain ⟨hc, hd⟩ := canonicalDirectory_ok hdir
  obtain ⟨habsolute, hself⟩ := hcanon _ _ hc
  refine ⟨⟨root, hroot, validated_canonical hcanon haccepted root hroot, hle⟩, hplace, opens_iff hplace.2.1, ?_, ?_⟩
  · intro settings root hroot
    unfold turnSandbox at hroot
    split at hroot <;> simp_all [TurnSandboxPolicy.writableRoots]
  · exact validateWorkspace_ok.2 ⟨habsolute, by simp [canonicalDirectory, hself, hd], hnone, root, hroot, hle⟩

/-- The directories below `/home` on a Unix machine without symbolic links. -/
def homeMachine : Machine where
  components path := .rootDir :: ((path.toList.splitOn '/').filter (· ≠ [])).map fun name => .normal (String.ofList name)
  isAbsolute path := path.toList.head? = some '/'
  le a b := decide (a ≤ b)
  canonicalize path := if path ∈ ["/home", "/home/u", "/home/u/project"] then some path else none
  isDir path := if path ∈ ["/home", "/home/u", "/home/u/project"] then some true else none

theorem homeMachine_canonical : homeMachine.Canonical := by
  intro path c h
  simp only [homeMachine, Option.ite_none_right_eq_some] at h
  obtain ⟨hmem, hc⟩ := h
  cases hc
  refine ⟨?_, if_pos hmem⟩
  simp only [List.mem_cons, List.not_mem_nil, or_false] at hmem
  rcases hmem with rfl | rfl | rfl <;> decide

def homeRoots : PlatformRoots := ⟨"/home/u", ["/tmp"], ["/usr"], ["/home/u/Downloads"]⟩

def homeConfig : BridgeConfig where
  owners := ["ou_1"]
  allowedSenders := []
  allowedGroups := []
  defaultWorkspace := none
  allowRoots := ["/home"]
  networkAccess := false
  activeTurnPermits := 2
  maxScopeActors := 8
  model := none
  effort := none
  sandbox := .workspaceWrite
  approvalPolicy := .named "never"

theorem homeConfig_accepted :
    homeConfig.validateWithPlatformRoots (homeMachine.preparePaths homeConfig homeRoots).toOption = some homeConfig := by
  have hmap : ["/home"].mapM (homeMachine.prepareAllowRoot homeRoots) = .ok ["/home"] := by rfl
  have hroots : homeMachine.prepareConfig ["/home"] homeRoots = .ok ["/home"] := by
    refine bind_eq_ok.2 ⟨["/home"], hmap, ?_⟩
    simp only [List.mergeSort_singleton]
    rfl
  have hpaths : homeMachine.preparePaths homeConfig homeRoots = .ok ⟨["/home"], ""⟩ := by
    simp only [preparePaths, homeConfig, hroots]
    rfl
  rw [hpaths]
  decide

theorem workspace_confined_project :
    homeMachine.validateWorkspace (.fromPreparedConfig homeConfig homeRoots) "/home/u/project" = .ok "/home/u/project" ∧
      ¬∃ q, homeMachine.startsWith q "/home/u/project" = true ∧ homeMachine.Protected homeRoots q := by
  have hw : homeMachine.validateWorkspace (.fromPreparedConfig homeConfig homeRoots) "/home/u/project" =
      .ok "/home/u/project" := by rfl
  obtain ⟨-, -, hopens, -, hagain⟩ := workspace_confined homeMachine homeMachine_canonical homeConfig_accepted hw
  exact ⟨hagain, fun h => absurd (hopens.1 h) (by decide)⟩

/-- The home directory lies in a workspace: `/home` is an allow root, and accepted. -/
theorem home_below_workspace :
    ¬∀ (m : Machine), m.Canonical → ∀ (roots : PlatformRoots) (raw config : BridgeConfig) (path w : String),
      raw.validateWithPlatformRoots (m.preparePaths raw roots).toOption = some config →
      m.validateWorkspace (.fromPreparedConfig config roots) path = .ok w →
      ∀ q, m.startsWith q w = true → ¬m.Protected roots q := by
  intro h
  exact h homeMachine homeMachine_canonical homeRoots homeConfig homeConfig "/home" "/home" homeConfig_accepted rfl
    "/home/u" (by decide) (.inl rfl)

end Machine

end LarkCodexBridge.Runtime
