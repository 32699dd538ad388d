import LarkCodexBridge.Lib.Framed
import LarkCodexBridge.Runtime.Policy

/-!
# Fingerprints

A Codex thread is used again only under the policy with the stored fingerprint, and the rows of a tenant are found by its
namespace. Both are digests of a stream of framed fields, and the stream determines the fields.
-/

namespace LarkCodexBridge.Runtime

open Framed Lark

def asBytes (text : String) : List UInt8 := text.toByteArray.data.toList

theorem asBytes_injective : Function.Injective asBytes := fun _ _ h =>
  String.toByteArray_inj.1 (ByteArray.ext (Array.toList_inj.1 h))

/-! ## The policy -/

def writePart (tag : String) (value : List UInt8) : List UInt8 := field (asBytes tag) ++ field value

def sandboxTag : SandboxMode → UInt8
  | .readOnly => 1
  | .workspaceWrite => 2
  | .dangerFullAccess => 3

def GranularApprovalPolicy.bytes (g : GranularApprovalPolicy) : List UInt8 :=
  [g.mcpElicitations, g.rules, g.sandboxApproval, g.requestPermissions, g.skillApproval].map fun b => b.toNat.toUInt8

def writeApproval : ApprovalPolicy → List UInt8
  | .named name => writePart "approval-kind" (asBytes "named") ++ writePart "approval-value" (asBytes name)
  | .granular granular => writePart "approval-kind" (asBytes "granular") ++ writePart "approval-value" granular.bytes

/-- What `fingerprint_v1` feeds to the hash. -/
def fingerprintStream (platform cwd : List UInt8) (sandbox : SandboxMode) (approvalPolicy : ApprovalPolicy)
    (networkAccess : Bool) : List UInt8 :=
  writePart "version" (asBytes "lark-codex-policy-v1") ++ writePart "platform" platform ++ writePart "cwd" cwd ++
    writePart "sandbox" [sandboxTag sandbox] ++ writeApproval approvalPolicy ++
      writePart "network" [networkAccess.toNat.toUInt8]

/-- `sha256` is the hash. -/
def fingerprintV1 (sha256 : List UInt8 → List UInt8) (platform cwd : List UInt8) (sandbox : SandboxMode)
    (approvalPolicy : ApprovalPolicy) (networkAccess : Bool) : String :=
  String.ofList ((sha256 (fingerprintStream platform cwd sandbox approvalPolicy networkAccess)).take 16 |>.flatMap
    fun byte => [hexChar (byte.toNat / 16), hexChar (byte.toNat % 16)])

/-! ## The tenant -/

/-- What `from_credentials` feeds to the hash. -/
def tenantStream (domain brand appId : List UInt8) : List UInt8 :=
  [domain, brand, appId].flatMap fun value => toBeBytes (min value.length (2 ^ 64 - 1)) ++ value

def tenantDomain : List UInt8 := asBytes "lark-codex-bridge/inbound-tenant/v1"

/-! ## The streams determine the fields -/

variable {tag : String} {value value' rest rest' : List UInt8}

/-- The bytes of a field have a length of 64 bits. -/
abbrev Short (bytes : List UInt8) : Prop := bytes.length < 2 ^ 64

def ApprovalPolicy.Short : ApprovalPolicy → Prop
  | .named name => (asBytes name).length < 2 ^ 64
  | .granular _ => True

theorem writePart_append_inj (htag : Short (asBytes tag)) (h : Short value) (h' : Short value')
    (heq : writePart tag value ++ rest = writePart tag value' ++ rest') : value = value' ∧ rest = rest' := by
  rw [writePart, writePart, List.append_assoc, List.append_assoc] at heq
  exact field_append_inj h h' (field_append_inj htag htag heq).2

theorem sandboxTag_injective : Function.Injective sandboxTag := by
  intro a b h
  cases a <;> cases b <;> first | rfl | cases h

theorem toUInt8_injective : Function.Injective fun b : Bool => b.toNat.toUInt8 := by
  intro a b h
  cases a <;> cases b <;> first | rfl | cases h

theorem GranularApprovalPolicy.bytes_injective : Function.Injective GranularApprovalPolicy.bytes := by
  rintro ⟨a, b, c, d, e⟩ ⟨a', b', c', d', e'⟩ h
  have hlist := List.map_injective_iff.2 toUInt8_injective h
  simp only [List.cons.injEq, and_true] at hlist
  obtain ⟨rfl, rfl, rfl, rfl, rfl⟩ := hlist
  rfl

theorem writeApproval_append_inj {a b : ApprovalPolicy} (ha : a.Short) (hb : b.Short)
    (h : writeApproval a ++ rest = writeApproval b ++ rest') : a = b ∧ rest = rest' := by
  have hkind : ∀ {kind kind' value value' : List UInt8}, Short kind → Short kind' →
      writePart "approval-kind" kind ++ writePart "approval-value" value ++ rest =
        writePart "approval-kind" kind' ++ writePart "approval-value" value' ++ rest' →
      kind = kind' ∧ writePart "approval-value" value ++ rest = writePart "approval-value" value' ++ rest' := by
    intro kind kind' value value' hk hk' heq
    rw [List.append_assoc, List.append_assoc] at heq
    exact writePart_append_inj (by decide) hk hk' heq
  cases a with
  | named name =>
    cases b with
    | named name' =>
      obtain ⟨hname, hrest⟩ := writePart_append_inj (by decide) ha hb (hkind (by decide) (by decide) h).2
      exact ⟨congrArg _ (asBytes_injective hname), hrest⟩
    | granular granular' => exact absurd (hkind (by decide) (by decide) h).1 (by decide)
  | granular granular =>
    cases b with
    | named name' => exact absurd (hkind (by decide) (by decide) h).1 (by decide)
    | granular granular' =>
      have hshort : ∀ g : GranularApprovalPolicy, Short g.bytes := fun g => by simp [GranularApprovalPolicy.bytes]
      obtain ⟨hbytes, hrest⟩ := writePart_append_inj (by decide) (hshort _) (hshort _) (hkind (by decide) (by decide) h).2
      exact ⟨congrArg _ (GranularApprovalPolicy.bytes_injective hbytes), hrest⟩

variable {platform platform' cwd cwd' : List UInt8} {sandbox sandbox' : SandboxMode} {approval approval' : ApprovalPolicy}
  {network network' : Bool}

theorem fingerprintStream_inj (hplatform : Short platform) (hplatform' : Short platform') (hcwd : Short cwd)
    (hcwd' : Short cwd') (happroval : approval.Short) (happroval' : approval'.Short)
    (h : fingerprintStream platform cwd sandbox approval network =
      fingerprintStream platform' cwd' sandbox' approval' network') :
    platform = platform' ∧ cwd = cwd' ∧ sandbox = sandbox' ∧ approval = approval' ∧ network = network' := by
  simp only [fingerprintStream, List.append_assoc] at h
  obtain ⟨-, h⟩ := writePart_append_inj (by decide) (by decide) (by decide) h
  obtain ⟨hp, h⟩ := writePart_append_inj (by decide) hplatform hplatform' h
  obtain ⟨hc, h⟩ := writePart_append_inj (by decide) hcwd hcwd' h
  obtain ⟨hs, h⟩ := writePart_append_inj (by decide) (by simp) (by simp) h
  obtain ⟨ha, h⟩ := writeApproval_append_inj happroval happroval' h
  have h : _ ++ [] = _ ++ [] := congrArg (· ++ []) h
  have hn := (writePart_append_inj (by decide) (by simp) (by simp) h).1
  exact ⟨hp, hc, sandboxTag_injective (List.singleton_inj.1 hs), ha, toUInt8_injective (List.singleton_inj.1 hn)⟩

variable {domain domain' brand brand' appId appId' : List UInt8}

theorem tenantField_append_inj (h : Short value) (h' : Short value')
    (heq : toBeBytes (min value.length (2 ^ 64 - 1)) ++ value ++ rest =
      toBeBytes (min value'.length (2 ^ 64 - 1)) ++ value' ++ rest') : value = value' ∧ rest = rest' := by
  rw [Nat.min_eq_left (Nat.le_sub_one_of_lt h), Nat.min_eq_left (Nat.le_sub_one_of_lt h')] at heq
  exact field_append_inj h h' heq

theorem tenantStream_inj (hdomain : Short domain) (hdomain' : Short domain') (hbrand : Short brand)
    (hbrand' : Short brand') (happ : Short appId) (happ' : Short appId')
    (h : tenantStream domain brand appId = tenantStream domain' brand' appId') :
    domain = domain' ∧ brand = brand' ∧ appId = appId' := by
  simp only [tenantStream, List.flatMap_cons, List.flatMap_nil] at h
  obtain ⟨hd, h⟩ := tenantField_append_inj hdomain hdomain' h
  obtain ⟨hb, h⟩ := tenantField_append_inj hbrand hbrand' h
  exact ⟨hd, hb, (tenantField_append_inj happ happ' h).1⟩

/-- **The streams are injective**, for fields whose length fits into 64 bits. -/
theorem streams_injective :
    (∀ {platform platform' cwd cwd' sandbox sandbox' approval approval' network network'}, Short platform →
      Short platform' → Short cwd → Short cwd' → approval.Short → approval'.Short →
      fingerprintStream platform cwd sandbox approval network =
        fingerprintStream platform' cwd' sandbox' approval' network' →
      platform = platform' ∧ cwd = cwd' ∧ sandbox = sandbox' ∧ approval = approval' ∧ network = network') ∧
    ∀ {domain domain' brand brand' appId appId'}, Short domain → Short domain' → Short brand → Short brand' →
      Short appId → Short appId' → tenantStream domain brand appId = tenantStream domain' brand' appId' →
      domain = domain' ∧ brand = brand' ∧ appId = appId' :=
  ⟨fingerprintStream_inj, tenantStream_inj⟩

/-- A working directory that holds the bytes of the next part is not taken for it, nor is the end of a brand for the start
of an app id. -/
theorem streams_injective_nested :
    fingerprintStream [] (asBytes "/w") .readOnly (.named "never") false ≠
      fingerprintStream [] (asBytes "/w" ++ writePart "sandbox" [1]) .readOnly (.named "never") false ∧
    tenantStream tenantDomain (asBytes "lark") (asBytes "cli") ≠ tenantStream tenantDomain (asBytes "larkc") (asBytes "li") := by
  have hnever : (ApprovalPolicy.named "never").Short := show (asBytes "never").length < 2 ^ 64 by decide
  refine ⟨fun h => ?_, fun h => ?_⟩
  · exact absurd (streams_injective.1 (by decide) (by decide) (by decide) (by decide) hnever hnever h).2.1 (by decide)
  · exact absurd (streams_injective.2 (by decide) (by decide) (by decide) (by decide) (by decide) (by decide) h).2.1
      (by decide)

end LarkCodexBridge.Runtime
