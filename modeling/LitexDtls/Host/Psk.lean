import LitexDtls.Library.CString
import LitexDtls.Library.Memory

/-!
# The key callback of the PSK server

`psk_server_cb` of `dtls13_psk_server.c`: the lookup of the pre-shared key for the identity
that a client sends. The identity is compared over the length of the configured one only, so
that the key is also released for every identity that continues it.
-/
namespace LitexDtls.Host
open Library

/-- `DTLS_PSK_IDENTITY`. -/
def dtlsPskIdentity : CString where
  bytes := "litex-dtls-client".toList.map fun c => UInt8.ofNat c.toNat
  terminated := by decide

def kPskKey : List UInt8 :=
  [0x6c, 0x69, 0x74, 0x65, 0x78, 0x2d, 0x70, 0x73,
    0x6b, 0x2d, 0x6b, 0x65, 0x79, 0x2d, 0x31, 0x33]

/-- `sizeof(kPskKey)`. -/
def sizeofPskKey : UInt32 := 16

/-- `psk_server_cb` with the key buffer at the address `key` of the memory `m`: the result and
the memory afterwards. No identity stands for the null pointer. -/
def pskServerCb (identity : Option CString) (m : Mem UInt8) (key : Nat) (keyMaxLen : UInt32) :
    UInt32 × Mem UInt8 :=
  match identity with
  | none => (0, m)
  | some identity =>
    if identity.strncmp dtlsPskIdentity dtlsPskIdentity.strlen ≠ 0 then (0, m)
    else if keyMaxLen < sizeofPskKey then (0, m)
    else (sizeofPskKey, m.write key kPskKey)

/-- The configured identity, and room for the key. -/
def Authorised (identity : Option CString) (keyMaxLen : UInt32) : Prop :=
  identity = some dtlsPskIdentity ∧ 16 ≤ keyMaxLen

/-- The key is in the first 16 bytes of the buffer, and the rest is as it was. -/
structure Granted (m : Mem UInt8) (key : Nat) (r : UInt32 × Mem UInt8) : Prop where
  result : r.1 = 16
  written : r.2.read key 16 = kPskKey
  rest : ∀ x, x < key ∨ key + 16 ≤ x → r.2 x = m x

structure Refused (m : Mem UInt8) (r : UInt32 × Mem UInt8) : Prop where
  result : r.1 = 0
  unchanged : r.2 = m

/-- The key is released for the configured identity and for no other. -/
structure ExactlyReleased (identity : Option CString) (m : Mem UInt8) (key : Nat)
    (keyMaxLen : UInt32) : Prop where
  granted : Granted m key (pskServerCb identity m key keyMaxLen) ↔ Authorised identity keyMaxLen
  refused : ¬ Authorised identity keyMaxLen → Refused m (pskServerCb identity m key keyMaxLen)

/-- What the comparison asks for: the configured identity is a prefix of the one sent. -/
def Accepted (identity : Option CString) : Prop :=
  ∃ s, identity = some s ∧ dtlsPskIdentity.bytes <+: s.bytes

theorem Granted.not_refused {m : Mem UInt8} {key : Nat} {r : UInt32 × Mem UInt8}
    (h : Granted m key r) : ¬ Refused m r := by
  intro hr
  have hres : (16 : UInt32) = 0 := h.result.symm.trans hr.result
  exact absurd hres (by decide)

theorem pskServerCb_granted {identity : Option CString} {keyMaxLen : UInt32}
    (h : Accepted identity) (hlen : 16 ≤ keyMaxLen) (m : Mem UInt8) (key : Nat) :
    Granted m key (pskServerCb identity m key keyMaxLen) := by
  obtain ⟨s, rfl, hprefix⟩ := h
  have hcmp := (CString.strncmp_strlen_eq_zero_iff s dtlsPskIdentity).mpr hprefix
  have hroom : ¬ keyMaxLen < sizeofPskKey := UInt32.not_lt.mpr hlen
  have hcb : pskServerCb (some s) m key keyMaxLen = (sizeofPskKey, m.write key kPskKey) := by
    simp [pskServerCb, hcmp, hroom]
  rw [hcb]
  exact ⟨rfl, m.read_write_of_length key kPskKey rfl, fun x hx => m.write_outside key kPskKey hx⟩

theorem pskServerCb_refused {identity : Option CString} {keyMaxLen : UInt32}
    (h : ¬ (Accepted identity ∧ 16 ≤ keyMaxLen)) (m : Mem UInt8) (key : Nat) :
    Refused m (pskServerCb identity m key keyMaxLen) := by
  unfold pskServerCb
  cases identity with
  | none => exact ⟨rfl, rfl⟩
  | some s =>
    dsimp only
    split_ifs with hcmp hroom
    · exact ⟨rfl, rfl⟩
    · exact ⟨rfl, rfl⟩
    · have hprefix := (CString.strncmp_strlen_eq_zero_iff s dtlsPskIdentity).mp (not_not.mp hcmp)
      exact absurd ⟨⟨s, rfl, hprefix⟩, UInt32.not_lt.mp hroom⟩ h

/-- The callback grants the key to whatever the comparison accepts, if there is room for it. -/
theorem granted_iff (identity : Option CString) (m : Mem UInt8) (key : Nat)
    (keyMaxLen : UInt32) :
    Granted m key (pskServerCb identity m key keyMaxLen) ↔
      Accepted identity ∧ 16 ≤ keyMaxLen := by
  constructor
  · intro h
    by_contra hnot
    exact h.not_refused (pskServerCb_refused hnot m key)
  · rintro ⟨h, hlen⟩
    exact pskServerCb_granted h hlen m key

/-- An identity that continues the configured one, with room for the key. -/
def Extends (identity : Option CString) (keyMaxLen : UInt32) : Prop :=
  Accepted identity ∧ identity ≠ some dtlsPskIdentity ∧ 16 ≤ keyMaxLen

theorem authorised_accepted {identity : Option CString} {keyMaxLen : UInt32}
    (h : Authorised identity keyMaxLen) : Accepted identity ∧ 16 ≤ keyMaxLen :=
  ⟨⟨dtlsPskIdentity, h.1, List.prefix_rfl⟩, h.2⟩

/-- The release is exact except for the identities that properly continue the configured one. -/
theorem exactlyReleased_iff (identity : Option CString) (m : Mem UInt8) (key : Nat)
    (keyMaxLen : UInt32) :
    ExactlyReleased identity m key keyMaxLen ↔ ¬ Extends identity keyMaxLen := by
  constructor
  · rintro ⟨hgranted, _⟩ ⟨haccepted, hne, hlen⟩
    have h := hgranted.mp (pskServerCb_granted haccepted hlen m key)
    exact hne h.1
  · intro hext
    have hiff : Accepted identity ∧ 16 ≤ keyMaxLen ↔ Authorised identity keyMaxLen := by
      refine ⟨fun h => ⟨?_, h.2⟩, authorised_accepted⟩
      by_contra hne
      exact hext ⟨h.1, hne, h.2⟩
    refine ⟨(granted_iff identity m key keyMaxLen).trans hiff, fun h => ?_⟩
    exact pskServerCb_refused (fun haccepted => h (hiff.mp haccepted)) m key

/-- `litex-dtls-client2` with a buffer of 16 bytes. -/
def extendedIdentity : CString where
  bytes := dtlsPskIdentity.bytes ++ [0x32]
  terminated := by decide

/-- A client with another name that starts like the configured one gets the key. -/
theorem released_to_extension :
    ¬ ∀ (identity : Option CString) (m : Mem UInt8) (key : Nat) (keyMaxLen : UInt32),
      ExactlyReleased identity m key keyMaxLen := by
  intro h
  have released := h (some extendedIdentity) (fun _ => 0) 0 16
  have accepted : Accepted (some extendedIdentity) :=
    ⟨extendedIdentity, rfl, List.prefix_append _ _⟩
  have room : (16 : UInt32) ≤ 16 := by decide
  have granted := pskServerCb_granted accepted room (fun _ => 0) 0
  exact absurd (released.granted.mp granted).1 (by decide)

end LitexDtls.Host
