import LitexDtls.LiteEth.DriverFacts

/-!
# The frame that `udp_send` starts

`udp_send` writes headers around the payload that its caller has put into the transmit
slot. The ports, the UDP length and the payload of the started frame are read back from
slot memory at the moment of the start command.
-/
namespace LitexDtls.LiteEth
open Library

variable {γ : Type} (ready : Nat → Bool)

section

variable (srcPort dstPort : UInt16) (n : Nat) (s : UdpState γ)

/-- Slot memory before the UDP header is written. -/
def ipFilled : Mem UInt8 :=
  (fillEthHeader s.mem s.txbuffer s.cachedMac s.myMac ethertypeIp).write
    (s.txbuffer + offContents)
    (ipHeaderChecked (UInt16.ofNat (n + sizeofUdpFrame)) ipProtoUdp s.myIp s.cachedIp)

theorem write_pad (m : Mem UInt8) (a : Nat) (odd : Prop) [Decidable odd] :
    (if odd then m.write a [0] else m) = m.write a (if odd then [0] else []) := by
  split_ifs
  · rfl
  · funext x
    exact (Mem.write_outside m a [] (by simp; omega)).symm

/-- The UDP header is written last, up to the padding byte and the checksum. -/
theorem udpSendFill_mem : ∃ (pad : List UInt8) (r : UInt16), pad.length ≤ 1 ∧
    (udpSendFill srcPort dstPort n s).mem =
      (((ipFilled n s).write (s.txbuffer + offUdp)
        (udpHeader srcPort dstPort (UInt16.ofNat (n + sizeofUdpHeader)) 0)).write
          (s.txbuffer + offPayload + n) pad).write (s.txbuffer + offUdpChecksum) (be16 r) := by
  unfold udpSendFill
  simp only [write_pad]
  refine ⟨if n % 2 = 1 then [0] else [], _, ?_, rfl⟩
  split_ifs <;> simp

/-- Everything is written from the start of the slot to one byte behind the payload. -/
theorem udpSendFill_outside {x : Nat}
    (h : x < s.txbuffer ∨ s.txbuffer + offPayload + n + 1 ≤ x) :
    (udpSendFill srcPort dstPort n s).mem x = s.mem x := by
  obtain ⟨pad, r, hpad, hmem⟩ := udpSendFill_mem srcPort dstPort n s
  have h' : x < s.txbuffer ∨ s.txbuffer + 42 + n + 1 ≤ x := h
  rw [hmem, Mem.write_outside, Mem.write_outside, Mem.write_outside, ipFilled,
    Mem.write_outside, fillEthHeader, Mem.write_outside]
  all_goals simp
  all_goals omega

theorem le_txlen : arpPacketLength ≤ (udpSendFill srcPort dstPort n s).txlen ∧
    offPayload + n ≤ (udpSendFill srcPort dstPort n s).txlen := by
  simp [udpSendFill]
  omega

theorem udpSendFill_payload :
    (udpSendFill srcPort dstPort n s).mem.read (s.txbuffer + offPayload) n =
      s.mem.read (s.txbuffer + offPayload) n := by
  obtain ⟨pad, r, _, hmem⟩ := udpSendFill_mem srcPort dstPort n s
  rw [hmem, Mem.read_write_disjoint, Mem.read_write_disjoint, Mem.read_write_disjoint, ipFilled,
    Mem.read_write_disjoint, fillEthHeader, Mem.read_write_disjoint] <;> simp

theorem udpSendFill_header {k : Nat} (hk : k + 2 ≤ 6) :
    (udpSendFill srcPort dstPort n s).mem.read (s.txbuffer + offUdp + k) 2 =
      ((udpHeader srcPort dstPort (UInt16.ofNat (n + sizeofUdpHeader)) 0).drop k).take 2 := by
  obtain ⟨pad, r, _, hmem⟩ := udpSendFill_mem srcPort dstPort n s
  rw [hmem, Mem.read_write_disjoint, Mem.read_write_disjoint, Mem.read_write_sub]
  all_goals simp
  all_goals omega

/-- The frame that `udp_send` starts when the MAC is ready in time. -/
def udpTxFrame : TxFrame :=
  let t := udpSendFill srcPort dstPort n s
  ⟨s.txslot, t.txlen, t.mem.read s.txbuffer t.txlen⟩

theorem field16_read (m : Mem UInt8) (a : Nat) {k len : Nat} (h : k + 2 ≤ len) :
    field16 (m.read a len) k = m.get16 (a + k) := by
  rw [field16, Mem.drop_read m a (by omega), Mem.take_read, Nat.min_eq_left (by omega),
    Mem.get16]

theorem udpTxFrame_dstPort : udpDstPort (udpTxFrame srcPort dstPort n s).bytes = dstPort := by
  have hread := udpSendFill_header srcPort dstPort n s (k := 2) (by omega)
  have hle : 60 ≤ _ := (le_txlen srcPort dstPort n s).1
  rw [udpDstPort, udpTxFrame, field16_read _ _ (by simp; omega), Mem.get16]
  exact (congrArg word16 hread).trans (word16_be16 dstPort)

theorem udpTxFrame_length :
    udpLength (udpTxFrame srcPort dstPort n s).bytes = UInt16.ofNat (n + sizeofUdpHeader) := by
  have hread := udpSendFill_header srcPort dstPort n s (k := 4) (by omega)
  have hle : 60 ≤ _ := (le_txlen srcPort dstPort n s).1
  rw [udpLength, udpTxFrame, field16_read _ _ (by simp; omega), Mem.get16]
  exact (congrArg word16 hread).trans (word16_be16 _)

/-- The payload of the started frame is what the slot held when `udp_send` was called. -/
theorem udpTxFrame_payload (h : n + sizeofUdpHeader < 65536) :
    udpPayload (udpTxFrame srcPort dstPort n s).bytes =
      s.mem.read (s.txbuffer + offPayload) n := by
  have hlen : (udpLength (udpTxFrame srcPort dstPort n s).bytes).toNat - sizeofUdpHeader = n := by
    rw [udpTxFrame_length, UInt16.toNat_ofNat_of_lt' h, Nat.add_sub_cancel]
  have hmax := (le_txlen srcPort dstPort n s).2
  rw [udpPayload, hlen, udpTxFrame]
  dsimp only
  rw [Mem.drop_read _ _ (by omega), Mem.take_read, Nat.min_eq_left (by omega),
    udpSendFill_payload]

end

/-! ## The result of `udp_send` -/

/-- What the caller of `udp_send` can observe of a transmission. -/
theorem udpSend_of_ready {s : UdpState γ} (hmac : s.cachedMac.isZero = false)
    (h : ReadyInTime ready s) (srcPort dstPort : UInt16) (n : Nat) :
    (udpSend ready srcPort dstPort n s).1 = 1 ∧
      (udpSend ready srcPort dstPort n s).2.started =
        s.started ++ [udpTxFrame srcPort dstPort n s] ∧
      (udpSend ready srcPort dstPort n s).2.txslot = (s.txslot + 1) % ethmacTxSlots := by
  have h' : ReadyInTime ready (udpSendFill srcPort dstPort n s) := h
  rw [udpSend, if_neg (by simp [hmac]), sendPacket_of_ready ready h']
  exact ⟨rfl, rfl, rfl⟩

/-- When the MAC stays busy, nothing is started and the result says otherwise. -/
theorem udpSend_of_not_ready {s : UdpState γ} (hmac : s.cachedMac.isZero = false)
    (h : ¬ ReadyInTime ready s) (srcPort dstPort : UInt16) (n : Nat) :
    (udpSend ready srcPort dstPort n s).1 = 1 ∧
      (udpSend ready srcPort dstPort n s).2.started = s.started := by
  have h' : ¬ ReadyInTime ready (udpSendFill srcPort dstPort n s) := h
  rw [udpSend, if_neg (by simp [hmac]), sendPacket_of_not_ready ready h']
  exact ⟨rfl, rfl⟩

theorem udpSend_of_no_mac {s : UdpState γ} (hmac : s.cachedMac.isZero = true)
    (srcPort dstPort : UInt16) (n : Nat) :
    udpSend ready srcPort dstPort n s = (0, s) := by
  rw [udpSend, if_pos hmac]

end LitexDtls.LiteEth
