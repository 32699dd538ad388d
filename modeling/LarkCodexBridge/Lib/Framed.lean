import Mathlib

/-!
# Framed bytes

A field is its length, as eight bytes, and its bytes. A concatenation of fields is read in one way only, whatever bytes
the fields hold (`field_append_inj`).
-/

namespace Framed

/-- The low 64 bits, the high byte first. -/
def toBeBytes (n : ℕ) : List UInt8 := [56, 48, 40, 32, 24, 16, 8, 0].map fun k => UInt8.ofNat (n / 2 ^ k)

def field (bytes : List UInt8) : List UInt8 := toBeBytes bytes.length ++ bytes

theorem toBeBytes_inj {m n : ℕ} (hm : m < 2 ^ 64) (hn : n < 2 ^ 64) (h : toBeBytes m = toBeBytes n) : m = n := by
  simp only [toBeBytes, List.map_cons, List.map_nil, List.cons.injEq, and_true, ← UInt8.toNat_inj, UInt8.toNat_ofNat']
    at h
  omega

variable {a b rest rest' : List UInt8}

theorem field_append_inj (ha : a.length < 2 ^ 64) (hb : b.length < 2 ^ 64) (h : field a ++ rest = field b ++ rest') :
    a = b ∧ rest = rest' := by
  rw [field, field, List.append_assoc, List.append_assoc] at h
  obtain ⟨hlen, h⟩ := List.append_inj h rfl
  exact List.append_inj h (toBeBytes_inj ha hb hlen)

end Framed
