import LitexDtls.LiteEth.Checksum

/-!
# Memory behind the slots

The driver writes into the slots of the MAC and, as long as no echo request that it takes
announces more than a slot holds, nowhere else (`Client.mem_run`). `process_icmp` does not compare
the length in the IP header with the length of the frame: a longer answer is copied beyond the
last slot. That is so for what it answers by itself (`echoFits_iff`) and behind the tests of
`process_frame` (`answerFits_iff`).
-/
namespace LitexDtls.LiteEth
open Library

def slotsEnd : Nat := slotAddr (ethmacRxSlots + ethmacTxSlots)

/-- Only slots are written between two states. -/
def Stays {γ : Type} (s t : UdpState γ) : Prop :=
  s.txslot < ethmacTxSlots →
    t.txslot < ethmacTxSlots ∧ ∀ x, slotsEnd ≤ x → t.mem x = s.mem x

section
variable {γ : Type} {s t u : UdpState γ} (ready : Nat → Bool) (sched : Nat → Option RxFrame)

theorem Stays.of_eq (htxslot : t.txslot = s.txslot) (hmem : t.mem = s.mem) : Stays s t :=
  fun h => ⟨htxslot ▸ h, fun _ _ => by rw [hmem]⟩

theorem Stays.trans (h : Stays s t) (h' : Stays t u) : Stays s u := fun hs =>
  have ht := h hs
  have hu := h' ht.1
  ⟨hu.1, fun x hx => (hu.2 x hx).trans (ht.2 x hx)⟩

theorem txbuffer_le (h : s.txslot < ethmacTxSlots) : s.txbuffer + ethmacSlotSize ≤ slotsEnd := by
  have h' : s.txslot < 2 := h
  simp [UdpState.txbuffer, slotsEnd, slotAddr]
  omega

theorem stays_sendPacket (s : UdpState γ) : Stays s (sendPacket ready s) := by
  intro h
  unfold sendPacket
  split
  · exact ⟨Nat.mod_lt _ (by decide), fun _ _ => rfl⟩
  · exact ⟨h, fun _ _ => rfl⟩

/-- A frame that is put into the slot and sent. -/
theorem stays_fillAndSend {filled : UdpState γ} (htxslot : filled.txslot = s.txslot)
    (hmem : ∀ x, s.txbuffer + ethmacSlotSize ≤ x → filled.mem x = s.mem x) :
    Stays s (sendPacket ready filled) := by
  intro h
  obtain ⟨hslot, hsent⟩ := stays_sendPacket ready filled (htxslot ▸ h)
  exact ⟨hslot, fun x hx => (hsent x hx).trans (hmem x ((txbuffer_le h).trans hx))⟩

theorem stays_udpSend (srcPort dstPort : UInt16) {n : Nat} (h : n ≤ 2005) (s : UdpState γ) :
    Stays s (udpSend ready srcPort dstPort n s).2 := by
  unfold udpSend
  split_ifs
  · exact .of_eq rfl rfl
  · refine stays_fillAndSend ready rfl fun x hx => udpSendFill_outside srcPort dstPort n s (.inr ?_)
    simp only [ethmacSlotSize, offPayload] at hx ⊢
    omega

theorem fillEthHeader_outside (m : Mem UInt8) {h x : Nat} (destmac srcmac : MacAddr)
    (ethertype : UInt16) (hx : h + offContents ≤ x) :
    fillEthHeader m h destmac srcmac ethertype x = m x :=
  Mem.write_outside _ _ _ (.inr (by simpa using hx))

theorem stays_sendArp (destmac : MacAddr) (opcode : UInt16) (targetMac : MacAddr)
    (targetIp : UInt32) (s : UdpState γ) :
    Stays s (sendArp ready destmac opcode targetMac targetIp s) := by
  refine stays_fillAndSend ready rfl fun x hx => ?_
  simp only [ethmacSlotSize] at hx
  refine (Mem.write_outside _ _ _ (.inr ?_)).trans (fillEthHeader_outside _ _ _ _ ?_)
  · simp [arpFrame]
    omega
  · rw [offContents]
    omega

theorem stays_processArp (s : UdpState γ) : Stays s (processArp ready s) := by
  unfold processArp
  dsimp only
  split_ifs <;> first
    | exact .of_eq rfl rfl
    | exact stays_sendArp ready _ _ _ _ s

theorem copyLoop_outside (m : Mem UInt8) {dst src n x : Nat} (h : x < dst ∨ dst + n ≤ x) :
    copyLoop m dst src n x = m x := by
  induction n with
  | zero => rfl
  | succ n ih =>
    rw [copyLoop, Mem.write_outside _ _ _ (by rw [List.length_singleton]; omega)]
    exact ih (by omega)

theorem icmpHeaders_outside (s : UdpState γ) {x : Nat}
    (h : x < s.txbuffer ∨ s.txbuffer + offPayload ≤ x) : icmpHeaders s x = s.mem x := by
  have h' : x < s.txbuffer ∨ s.txbuffer + 42 ≤ x := h
  rw [icmpHeaders, Mem.write_outside, Mem.write_outside, Mem.write_outside, fillEthHeader,
    Mem.write_outside]
  all_goals simp
  all_goals omega

/-- An answer changes its headers and the place of its payload. -/
theorem icmpReply_outside (s : UdpState γ) {x : Nat}
    (h : x < s.txbuffer ∨ s.txbuffer + offPayload + icmpLength s ≤ x) :
    (icmpReply s).mem x = s.mem x := by
  have h' : x < s.txbuffer ∨ s.txbuffer + 42 + icmpLength s ≤ x := h
  have hmem : (icmpReply s).mem = (icmpFilled s).write (s.txbuffer + offIcmpChecksum)
      (be16 (icmpChecksum s)) := rfl
  rw [hmem, Mem.write_outside _ _ _ (by simp; omega), icmpFilled,
    Mem.write_outside _ _ _ (by simp; omega), copyLoop_outside _ (by simp; omega),
    icmpHeaders_outside s (by simp; omega)]

/-- An answer that a slot holds. -/
def EchoFits (s : UdpState γ) : Prop :=
  Echo s → offContents + (s.mem.get16 (s.rxbuffer + offIpTotalLength)).toNat ≤ ethmacSlotSize

theorem stays_processIcmp (h : EchoFits s) : Stays s (processIcmp ready s) := by
  rw [processIcmp_eq]
  split_ifs with hecho
  · refine stays_fillAndSend ready rfl fun x hx => icmpReply_outside s (.inr ?_)
    have htotal := hecho.2.1
    have hfits := h hecho
    simp only [icmpLength, offContents, offPayload, ethmacSlotSize, sizeofIcmpFrame] at *
    omega
  · exact .of_eq rfl rfl

theorem stays_processUdp (s : UdpState γ) : Stays s (processUdp s) := by
  have hsame : (processUdp s).txslot = s.txslot ∧ (processUdp s).mem = s.mem := by
    unfold processUdp
    dsimp only
    split_ifs <;> first
      | exact ⟨rfl, rfl⟩
      | split <;> exact ⟨rfl, rfl⟩
  exact .of_eq hsame.1 hsame.2

theorem stays_receive (f : RxFrame) (s : UdpState γ) : Stays s (receive f s) := by
  refine fun h => ⟨h, fun x hx => Mem.write_outside _ _ _ (.inr ?_)⟩
  have hslot : f.slot < 2 := f.slot_lt
  have hlength : f.bytes.length ≤ 2048 := f.fits
  simp [slotsEnd, slotAddr] at hx ⊢
  omega

end

/-- The answer to the frame goes into a slot. -/
def RxFrame.AnswerFits (f : RxFrame) : Prop :=
  offContents + (field16 f.bytes offIpTotalLength).toNat ≤ ethmacSlotSize

/-- The frame is an echo request by the tests of `process_frame` and `process_icmp`. -/
def RxFrame.IsEcho (myIp : UInt32) (f : RxFrame) : Prop :=
  sizeofEthernetHeader + sizeofIcmpFrame ≤ f.bytes.length ∧
    field16 f.bytes offEthertype = ethertypeIp ∧
    f.bytes.getD offIpVersion 0 = ipIpv4 ∧
    field32 f.bytes offIpDstIp = myIp ∧
    f.bytes.getD offIpProto 0 = ipProtoIcmp ∧
    f.bytes.getD offIcmpType 0 = icmpEcho

instance (f : RxFrame) : Decidable f.AnswerFits := inferInstanceAs (Decidable (_ ≤ _))

/-- What `process_icmp` by itself takes for an echo request, whatever the other headers say, is
one whose answer goes into a slot. -/
def RxFrame.EchoFits (f : RxFrame) : Prop :=
  sizeofEthernetHeader + sizeofIcmpFrame ≤ f.bytes.length →
    f.bytes[offIcmpType]? = some icmpEcho →
      offContents + (field16 f.bytes offIpTotalLength).toNat ≤ ethmacSlotSize

/-- Only slots are written between two states in which the driver has the address `ip`. -/
def StaysAt {γ : Type} (ip : UInt32) (s t : UdpState γ) : Prop :=
  s.myIp = ip → t.myIp = ip ∧ Stays s t

section
variable {γ : Type} {s : UdpState γ} (ready : Nat → Bool) {sched : Nat → Option RxFrame}
  {f : RxFrame} {ip : UInt32}

theorem echoFits_receive (h : f.EchoFits) (s : UdpState γ) : EchoFits (receive f s) := by
  intro hecho
  have hlength : 42 ≤ f.bytes.length := hecho.1
  change offContents + ((receive f s).mem.get16 (slotAddr f.slot + offIpTotalLength)).toNat ≤ _
  rw [receive_get16 f s (by simp; omega)]
  refine h hecho.1 ?_
  have htype : (receive f s).mem (slotAddr f.slot + offIcmpType) = icmpEcho := hecho.2.2
  rw [receive_byte f s (by simp; omega)] at htype
  rw [List.getD_eq_getElem?_getD, List.getElem?_eq_getElem (by simp; omega)] at htype
  rw [List.getElem?_eq_getElem (by simp; omega)]
  exact congrArg some htype

theorem stays_processFrame (h : f.IsEcho s.myIp → f.AnswerFits) :
    Stays (receive f s) (processFrame ready (receive f s)) := by
  unfold processFrame
  dsimp only
  split_ifs with harp hip hversion hdst hudp hicmp
  · exact stays_processArp ready _
  · exact .of_eq rfl rfl
  · exact .of_eq rfl rfl
  · exact stays_processUdp _
  · refine stays_processIcmp ready fun hecho => ?_
    have hlength : 42 ≤ f.bytes.length := hecho.1
    have hfits : f.AnswerFits := h ⟨hecho.1,
      (receive_get16 f s (by simp; omega)).symm.trans hip,
      (receive_byte f s (by simp; omega)).symm.trans (not_not.mp hversion),
      (receive_get32 f s (by simp; omega)).symm.trans (not_not.mp hdst),
      (receive_byte f s (by simp; omega)).symm.trans hicmp,
      (receive_byte f s (by simp; omega)).symm.trans hecho.2.2⟩
    change offContents + ((receive f s).mem.get16 (slotAddr f.slot + offIpTotalLength)).toNat ≤ _
    rw [receive_get16 f s (by simp; omega)]
    exact hfits
  · exact .of_eq rfl rfl
  · exact .of_eq rfl rfl

variable (hfits : ∀ k f, sched k = some f → f.IsEcho ip → f.AnswerFits)
include hfits

theorem staysAt_udpService (s : UdpState γ) : StaysAt ip s (udpService ready sched s) := by
  intro hip
  refine ⟨(udpService_rest ready sched s).2.1.trans hip, ?_⟩
  unfold udpService
  cases hf : sched s.polls with
  | none => exact .of_eq rfl rfl
  | some f =>
    have received := stays_receive f { s with polls := s.polls + 1 }
    exact received.trans (stays_processFrame ready fun hecho => hfits _ f hf (hip ▸ hecho))

theorem along_staysAt : Along (γ := γ) ready sched (StaysAt ip) where
  same _ htxslot hmem hsame hip := ⟨hsame.trans hip, .of_eq htxslot hmem⟩
  trans h h' hip := ⟨(h' (h hip).1).1, (h hip).2.trans (h' (h hip).1).2⟩
  sendArp target s hip := ⟨(sendArp_frame ready _ _ _ target s).myIp.trans hip,
    stays_sendArp ready _ _ _ target s⟩
  service := staysAt_udpService ready hfits

end

/-! ## A longer answer -/

theorem copyLoop_inside (m : Mem UInt8) {dst src n i : Nat} (hi : i < n) (h : src + i < dst) :
    copyLoop m dst src n (dst + i) = m (src + i) := by
  induction n with
  | zero => exact absurd hi (Nat.not_lt_zero i)
  | succ n ih =>
    rw [copyLoop]
    by_cases hlast : i = n
    · subst hlast
      exact (Mem.write_inside _ _ [_] (i := 0) Nat.zero_lt_one).trans
        (copyLoop_outside m (.inl h))
    · rw [Mem.write_outside _ _ _ (.inl (by omega))]
      exact ih (by omega)

section
variable {γ : Type} (ready : Nat → Bool)

@[simp] theorem mem_sendPacket (s : UdpState γ) : (sendPacket ready s).mem = s.mem := by
  unfold sendPacket
  split <;> rfl

/-- What a request says is copied, wherever it goes. -/
theorem icmpReply_payload (s : UdpState γ) {i : Nat} (hi : i < icmpLength s)
    (h : s.rxbuffer + offPayload + i < s.txbuffer) :
    (icmpReply s).mem (s.txbuffer + offPayload + i) = s.mem (s.rxbuffer + offPayload + i) := by
  have hmem : (icmpReply s).mem = (icmpFilled s).write (s.txbuffer + offIcmpChecksum)
      (be16 (icmpChecksum s)) := rfl
  rw [hmem, Mem.write_outside _ _ _ (.inr (by simp; omega)), icmpFilled,
    Mem.write_outside _ _ _ (.inr (by simp; omega)),
    copyLoop_inside _ hi (h.trans_le (Nat.le_add_right _ _)), icmpHeaders_outside s (.inl h)]

/-- An answer that does not go into a slot is copied beyond the last one, from some state with
the same address. -/
theorem not_stays_processIcmp {f : RxFrame}
    (hlong : sizeofEthernetHeader + sizeofIcmpFrame ≤ f.bytes.length)
    (hecho : f.bytes.getD offIcmpType 0 = icmpEcho) (hfits : ¬ f.AnswerFits) (s₀ : UdpState γ) :
    ∃ s : UdpState γ, s.myIp = s₀.myIp ∧
      ¬ Stays (receive f s) (processIcmp ready (receive f s)) := by
  have hslot : f.slot < 2 := f.slot_lt
  have hlength : f.bytes.length ≤ 2048 := f.fits
  have hlong' : 42 ≤ f.bytes.length := hlong
  -- the last transmit slot, and a byte behind the receive slot that is to be recognised
  obtain ⟨s, hip, hmem, htxslot⟩ : ∃ s : UdpState γ, s.myIp = s₀.myIp ∧
      (∀ x, s.mem x = if x = slotAddr f.slot + 2048 then 1 else 0) ∧ s.txslot = 1 :=
    ⟨{ s₀ with mem := fun x => if x = slotAddr f.slot + 2048 then 1 else 0, txslot := 1 },
      rfl, fun _ => rfl, rfl⟩
  refine ⟨s, hip, fun h => ?_⟩
  have htotal : ((receive f s).mem.get16 ((receive f s).rxbuffer + offIpTotalLength)).toNat =
      (field16 f.bytes offIpTotalLength).toNat :=
    congrArg UInt16.toNat (receive_get16 f s (by simp; omega))
  have htype : (receive f s).mem ((receive f s).rxbuffer + offIcmpType) = icmpEcho :=
    (receive_byte f s (by simp; omega)).trans hecho
  have hover : 2034 < (field16 f.bytes offIpTotalLength).toNat := by
    simp only [RxFrame.AnswerFits, offContents, ethmacSlotSize] at hfits
    omega
  have hanswers : Echo (receive f s) := by
    refine ⟨hlong, ?_, htype⟩
    rw [htotal, sizeofIcmpFrame]
    omega
  have hkept := (h (htxslot ▸ Nat.one_lt_two)).2 slotsEnd (Nat.le_refl _)
  rw [processIcmp_eq, if_pos hanswers, mem_sendPacket] at hkept
  have hsource : (receive f s).rxbuffer + offPayload + 2006 = slotAddr f.slot + 2048 := by
    simp [UdpState.rxbuffer, receive, Nat.add_assoc]
  have hbehind : (receive f s).txbuffer + offPayload + 2006 = slotsEnd := by
    simp [UdpState.txbuffer, receive, slotAddr, slotsEnd, htxslot]
  have hcopied := icmpReply_payload (receive f s) (i := 2006)
    (by rw [icmpLength, htotal, sizeofIcmpFrame]; omega)
    (by rw [hsource]; simp [UdpState.txbuffer, receive, slotAddr, htxslot]; omega)
  have hread : (receive f s).mem (slotAddr f.slot + 2048) = 1 := by
    refine (Mem.write_outside s.mem _ _ (.inr (Nat.add_le_add_left hlength _))).trans ?_
    rw [hmem, if_pos rfl]
  have hfree : (receive f s).mem slotsEnd = 0 := by
    refine (Mem.write_outside s.mem _ _ (.inr ?_)).trans ?_
    · simp [slotsEnd, slotAddr]
      omega
    · rw [hmem, if_neg (by simp [slotsEnd, slotAddr]; omega)]
  rw [hsource, hbehind, hread] at hcopied
  rw [hfree] at hkept
  exact absurd (hkept.symm.trans hcopied) (by decide)

/-- A step behind a reception that leaves alone what the reception leaves alone. -/
theorem Stays.of_receive {f : RxFrame} {s t : UdpState γ} (h : Stays s t) :
    Stays (receive f s) t := fun htx =>
  ⟨(h htx).1, fun x hx => ((h htx).2 x hx).trans ((stays_receive f s htx).2 x hx).symm⟩

/-- `process_icmp` leaves alone what lies behind the slots, in every state of the driver, if and
only if the answer that it makes, if any, goes into a slot. The length of the frame does not
matter. -/
theorem echoFits_iff (f : RxFrame) (s₀ : UdpState γ) :
    f.EchoFits ↔ ∀ s : UdpState γ, Stays s (processIcmp ready (receive f s)) := by
  constructor
  · intro h s
    exact (stays_receive f s).trans (stays_processIcmp ready (echoFits_receive h s))
  · intro h hlong hecho
    by_contra hfits
    obtain ⟨s, -, hs⟩ := not_stays_processIcmp ready hlong
      (by rw [List.getD_eq_getElem?_getD, hecho]; rfl) hfits s₀
    exact hs (h s).of_receive

theorem processFrame_of_isEcho {f : RxFrame} {s : UdpState γ} (h : f.IsEcho s.myIp) :
    processFrame ready (receive f s) = processIcmp ready (receive f s) := by
  obtain ⟨hlong, htype, hversion, hdst, hproto, -⟩ := h
  have hlong' : 42 ≤ f.bytes.length := hlong
  have hicmp : ipProtoIcmp ≠ ipProtoUdp := by decide
  have harp : ethertypeIp ≠ ethertypeArp := by decide
  have hrx : (receive f s).rxbuffer = slotAddr f.slot := rfl
  have hmyIp : (receive f s).myIp = s.myIp := rfl
  unfold processFrame
  simp only [hrx, hmyIp, receive_get16 f s (k := offEthertype) (by simp; omega),
    receive_byte f s (k := offIpVersion) (by simp; omega),
    receive_byte f s (k := offIpProto) (by simp; omega),
    receive_get32 f s (k := offIpDstIp) (by simp; omega), htype, hversion, hdst, hproto,
    if_neg harp,
    if_neg hicmp, ne_eq, not_true_eq_false, if_true, if_false]

/-- The condition on the echo requests to an address is exact: a frame is processed within the
slots, in every state with the address, if and only if it is no echo request to it or one whose
answer goes into a slot. -/
theorem answerFits_iff (f : RxFrame) (s₀ : UdpState γ) :
    (f.IsEcho s₀.myIp → f.AnswerFits) ↔
      ∀ s : UdpState γ, s.myIp = s₀.myIp → Stays s (processFrame ready (receive f s)) := by
  constructor
  · intro h s hip
    exact (stays_receive f s).trans (stays_processFrame ready (hip.symm ▸ h))
  · intro h hecho
    by_contra hfits
    obtain ⟨s, hip, hs⟩ := not_stays_processIcmp ready hecho.1 hecho.2.2.2.2.2 hfits s₀
    refine hs ?_
    rw [← processFrame_of_isEcho ready (hip ▸ hecho)]
    exact (h s hip).of_receive

end

end LitexDtls.LiteEth
