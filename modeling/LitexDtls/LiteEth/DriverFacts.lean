import LitexDtls.LiteEth.Driver

/-!
# What the driver's operations can do

One fact per operation, so that clients never unfold it: the bounded wait of
`send_packet`, the fields a transmission leaves alone, and when `udp_service` invokes the
receive callback. The callback is reached only through header fields that lie in the first
42 bytes of the pending frame, hence in the bytes that were received.
-/
namespace LitexDtls.LiteEth
open Library

variable {γ : Type} (ready : Nat → Bool) (sched : Nat → Option RxFrame)

/-! ## The wait for the transmit buffer -/

/-- `send_packet` reads the ready register at most `left + 1` times. -/
theorem waitReady_iff (left reads : Nat) :
    (waitReady ready left reads).2 = true ↔ ∃ i ≤ left, ready (reads + i) = true := by
  induction left generalizing reads with
  | zero => simp [waitReady]
  | succ left ih =>
    by_cases hr : ready reads = true
    · simpa [waitReady, hr] using ⟨0, by omega, hr⟩
    · rw [waitReady, if_neg hr, ih]
      constructor
      · rintro ⟨i, hi, h⟩
        exact ⟨i + 1, by omega, by rwa [show reads + (i + 1) = reads + 1 + i by omega]⟩
      · rintro ⟨i, hi, h⟩
        cases i with
        | zero => exact absurd h hr
        | succ i => exact ⟨i, by omega, by rwa [show reads + 1 + i = reads + (i + 1) by omega]⟩

/-- The MAC becomes ready within the bound of the wait loop. -/
def ReadyInTime (s : UdpState γ) : Prop := ∃ i ≤ txWaitLoops, ready (s.readyReads + i) = true

theorem sendPacket_of_ready {s : UdpState γ} (h : ReadyInTime ready s) :
    sendPacket ready s =
      startWrite { s with readyReads := (waitReady ready txWaitLoops s.readyReads).1 } := by
  have hw := (waitReady_iff ready txWaitLoops s.readyReads).mpr h
  unfold sendPacket
  split
  · rename_i reads he; simp [he]
  · rename_i reads he; simp [he] at hw

theorem sendPacket_of_not_ready {s : UdpState γ} (h : ¬ ReadyInTime ready s) :
    sendPacket ready s =
      { s with readyReads := (waitReady ready txWaitLoops s.readyReads).1 } := by
  have hw : ¬ (waitReady ready txWaitLoops s.readyReads).2 = true :=
    fun hw => h ((waitReady_iff ready txWaitLoops s.readyReads).mp hw)
  unfold sendPacket
  split
  · rename_i reads he; simp [he] at hw
  · rename_i reads he; simp [he]

/-! ## Frames -/

/-- The fields that no transmission and no ARP or ICMP processing changes. -/
structure AppFrame (s t : UdpState γ) : Prop where
  app : t.app = s.app
  rxCallback : t.rxCallback = s.rxCallback
  myIp : t.myIp = s.myIp
  polls : t.polls = s.polls

namespace AppFrame

theorem refl (s : UdpState γ) : AppFrame s s := ⟨rfl, rfl, rfl, rfl⟩

theorem trans {s t u : UdpState γ} (h : AppFrame s t) (g : AppFrame t u) : AppFrame s u :=
  ⟨g.app.trans h.app, g.rxCallback.trans h.rxCallback, g.myIp.trans h.myIp,
    g.polls.trans h.polls⟩

end AppFrame

theorem sendPacket_frame (s : UdpState γ) : AppFrame s (sendPacket ready s) := by
  unfold sendPacket
  split <;> exact ⟨rfl, rfl, rfl, rfl⟩

/-- Filling the transmit slot and sending it. -/
theorem fillAndSend_frame (m : Mem UInt8) (n : Nat) (s : UdpState γ) :
    AppFrame s (sendPacket ready { s with mem := m, txlen := n }) :=
  AppFrame.trans (t := { s with mem := m, txlen := n }) ⟨rfl, rfl, rfl, rfl⟩
    (sendPacket_frame ready _)

theorem sendArp_frame (destmac : MacAddr) (opcode : UInt16) (targetMac : MacAddr)
    (targetIp : UInt32) (s : UdpState γ) :
    AppFrame s (sendArp ready destmac opcode targetMac targetIp s) :=
  fillAndSend_frame ready _ _ s

theorem udpSend_frame (srcPort dstPort : UInt16) (length : Nat) (s : UdpState γ) :
    AppFrame s (udpSend ready srcPort dstPort length s).2 := by
  unfold udpSend
  split
  · exact .refl s
  · exact fillAndSend_frame ready _ _ s

theorem processArp_frame (s : UdpState γ) : AppFrame s (processArp ready s) := by
  unfold processArp
  dsimp only
  split_ifs <;> first
    | exact .refl s
    | exact sendArp_frame ready _ _ _ _ s
    | exact ⟨rfl, rfl, rfl, rfl⟩

theorem processIcmp_frame (s : UdpState γ) : AppFrame s (processIcmp ready s) := by
  unfold processIcmp
  dsimp only
  split_ifs
  · exact .refl s
  · exact .refl s
  · exact fillAndSend_frame ready _ _ s
  · exact .refl s

/-! ## When the receive callback is invoked -/

namespace RxFrame

def srcIp (f : RxFrame) : UInt32 := field32 f.bytes offIpSrcIp
def srcPort (f : RxFrame) : UInt16 := field16 f.bytes offUdpSrcPort
def dstPort (f : RxFrame) : UInt16 := udpDstPort f.bytes

/-- The payload length that the UDP header announces. -/
def announced (f : RxFrame) : Nat := (udpLength f.bytes).toNat - sizeofUdpHeader

/-- Address of the payload in slot memory. -/
def payloadAddr (f : RxFrame) : Nat := slotAddr f.slot + offPayload

/-- The checks of `process_frame` and `process_udp` before the callback. -/
def Reaches (myIp : UInt32) (f : RxFrame) : Prop :=
  sizeofEthernetHeader + sizeofUdpFrame ≤ f.bytes.length ∧
    field16 f.bytes offEthertype = ethertypeIp ∧
    f.bytes.getD offIpVersion 0 = ipIpv4 ∧
    field32 f.bytes offIpDstIp = myIp ∧
    f.bytes.getD offIpProto 0 = ipProtoUdp ∧
    sizeofUdpFrame ≤ (field16 f.bytes offIpTotalLength).toNat ∧
    sizeofUdpHeader ≤ (udpLength f.bytes).toNat

instance (myIp : UInt32) (f : RxFrame) : Decidable (f.Reaches myIp) :=
  inferInstanceAs (Decidable (_ ∧ _))

end RxFrame

theorem receive_get16 (f : RxFrame) (s : UdpState γ) {k : Nat} (h : k + 2 ≤ f.bytes.length) :
    (receive f s).mem.get16 (slotAddr f.slot + k) = field16 f.bytes k := by
  rw [Mem.get16, field16, receive, Mem.read_write_sub _ _ _ h]

theorem receive_get32 (f : RxFrame) (s : UdpState γ) {k : Nat} (h : k + 4 ≤ f.bytes.length) :
    (receive f s).mem.get32 (slotAddr f.slot + k) = field32 f.bytes k := by
  rw [Mem.get32, field32, receive, Mem.read_write_sub _ _ _ h]

theorem receive_byte (f : RxFrame) (s : UdpState γ) {k : Nat} (h : k < f.bytes.length) :
    (receive f s).mem (slotAddr f.slot + k) = f.bytes.getD k 0 := by
  exact (Mem.write_inside s.mem _ _ h).trans (by simp [h])

/-- Processing a frame shorter than the UDP headers never reaches the callback. -/
theorem processFrame_short (s : UdpState γ)
    (h : s.rxlen < sizeofEthernetHeader + sizeofUdpFrame) :
    AppFrame s (processFrame ready s) := by
  unfold processFrame
  dsimp only
  split_ifs
  · exact processArp_frame ready s
  · exact .refl s
  · exact .refl s
  · rw [processUdp, if_pos h]; exact .refl s
  · exact processIcmp_frame ready s
  · exact .refl s
  · exact .refl s

theorem processUdp_rest (s : UdpState γ) :
    (processUdp s).rxCallback = s.rxCallback ∧ (processUdp s).myIp = s.myIp ∧
      (processUdp s).polls = s.polls := by
  unfold processUdp
  dsimp only
  split_ifs <;> first | exact ⟨rfl, rfl, rfl⟩ | split <;> exact ⟨rfl, rfl, rfl⟩

theorem processFrame_rest (s : UdpState γ) :
    (processFrame ready s).rxCallback = s.rxCallback ∧ (processFrame ready s).myIp = s.myIp ∧
      (processFrame ready s).polls = s.polls := by
  have arp := processArp_frame ready s
  have icmp := processIcmp_frame ready s
  unfold processFrame
  dsimp only
  split_ifs
  · exact ⟨arp.rxCallback, arp.myIp, arp.polls⟩
  · exact ⟨rfl, rfl, rfl⟩
  · exact ⟨rfl, rfl, rfl⟩
  · exact processUdp_rest s
  · exact ⟨icmp.rxCallback, icmp.myIp, icmp.polls⟩
  · exact ⟨rfl, rfl, rfl⟩
  · exact ⟨rfl, rfl, rfl⟩

/-- The application state after a pending frame has been processed. -/
def delivered (f : RxFrame) (s : UdpState γ) : γ :=
  match s.rxCallback with
  | none => s.app
  | some callback =>
    if f.Reaches s.myIp then
      callback (receive f s).mem f.srcIp f.srcPort f.dstPort f.payloadAddr f.announced s.app
    else s.app

theorem delivered_of_not_reaches {f : RxFrame} {s : UdpState γ} (h : ¬ f.Reaches s.myIp) :
    delivered f s = s.app := by
  unfold delivered
  cases s.rxCallback with
  | none => rfl
  | some callback => simp [h]

/-- The callback sees exactly the header fields of the received frame. -/
theorem processUdp_app (f : RxFrame) (s : UdpState γ)
    (hlen : sizeofEthernetHeader + sizeofUdpFrame ≤ f.bytes.length)
    (htype : field16 f.bytes offEthertype = ethertypeIp)
    (hver : f.bytes.getD offIpVersion 0 = ipIpv4) :
    (processUdp (receive f s)).app = delivered f s := by
  have hlen' : 42 ≤ f.bytes.length := hlen
  have hrx : (receive f s).rxbuffer = slotAddr f.slot := rfl
  have hrxlen : (receive f s).rxlen = f.bytes.length := rfl
  have hmyIp : (receive f s).myIp = s.myIp := rfl
  have happ : (receive f s).app = s.app := rfl
  have hcb : (receive f s).rxCallback = s.rxCallback := rfl
  unfold processUdp
  simp only [hrx, hrxlen, hmyIp, receive_get16 f s (k := offIpTotalLength) (by simp; omega),
    receive_byte f s (k := offIpProto) (by simp; omega),
    receive_get16 f s (k := offUdpLength) (by simp; omega),
    receive_get32 f s (k := offIpDstIp) (by simp; omega),
    receive_get32 f s (k := offIpSrcIp) (by simp; omega),
    receive_get16 f s (k := offUdpSrcPort) (by simp; omega),
    receive_get16 f s (k := offUdpDstPort) (by simp; omega)]
  by_cases hr : f.Reaches s.myIp
  · obtain ⟨_, _, _, hdst, hproto, htotal, hudp⟩ := id hr
    rw [if_neg (by omega), if_neg (by omega), if_neg (by simpa using hproto),
      if_neg (by simpa [udpLength] using hudp), if_neg (by simpa using hdst), hcb]
    unfold delivered
    cases s.rxCallback with
    | none => exact happ
    | some callback => simp only [if_pos hr, happ]; rfl
  · rw [delivered_of_not_reaches hr]
    split_ifs with h1 h2 h3 h4 h5
    · exact happ
    · exact happ
    · exact happ
    · exact happ
    · exact happ
    · refine absurd ⟨hlen, htype, hver, not_not.mp h5, not_not.mp h3, ?_, ?_⟩ hr
      · omega
      · exact Nat.not_lt.mp h4

/-- Processing a pending frame invokes the callback exactly when the frame reaches it. -/
theorem processFrame_app (f : RxFrame) (s : UdpState γ) :
    (processFrame ready (receive f s)).app = delivered f s := by
  by_cases hlen : sizeofEthernetHeader + sizeofUdpFrame ≤ f.bytes.length
  · have hlen' : 42 ≤ f.bytes.length := hlen
    have hrx : (receive f s).rxbuffer = slotAddr f.slot := rfl
    have hmyIp : (receive f s).myIp = s.myIp := rfl
    have arp := (processArp_frame ready (receive f s)).app
    have icmp := (processIcmp_frame ready (receive f s)).app
    unfold processFrame
    simp only [hrx, hmyIp, receive_get16 f s (k := offEthertype) (by simp; omega),
      receive_byte f s (k := offIpVersion) (by simp; omega),
      receive_byte f s (k := offIpProto) (by simp; omega),
      receive_get32 f s (k := offIpDstIp) (by simp; omega)]
    have other : ¬ f.Reaches s.myIp → (receive f s).app = delivered f s :=
      fun h => (delivered_of_not_reaches h).symm
    split_ifs with harp hip hver hdst hudp hicmp
    · rw [arp]
      exact other fun h => absurd (harp.symm.trans h.2.1) (by decide)
    · exact other fun h => hver h.2.2.1
    · exact other fun h => hdst h.2.2.2.1
    · exact processUdp_app f s hlen hip (not_not.mp hver)
    · rw [icmp]
      exact other fun h => hudp h.2.2.2.2.1
    · exact other fun h => hudp h.2.2.2.2.1
    · exact other fun h => hip h.2.1
  · rw [(processFrame_short ready (receive f s) (Nat.not_le.mp hlen)).app,
      delivered_of_not_reaches fun h => hlen h.1]
    rfl

/-! ## One poll -/

/-- What the poll with a given pending frame does to the application state. -/
def polled : Option RxFrame → UdpState γ → γ
  | none, s => s.app
  | some f, s => delivered f s

theorem udpService_app (s : UdpState γ) :
    (udpService ready sched s).app = polled (sched s.polls) s := by
  unfold udpService
  cases sched s.polls with
  | none => rfl
  | some f => exact processFrame_app ready f { s with polls := s.polls + 1 }

/-- The fields that the receiving side depends on, after a poll. -/
theorem udpService_rest (s : UdpState γ) :
    (udpService ready sched s).rxCallback = s.rxCallback ∧
      (udpService ready sched s).myIp = s.myIp ∧
      (udpService ready sched s).polls = s.polls + 1 := by
  unfold udpService
  cases sched s.polls with
  | none => exact ⟨rfl, rfl, rfl⟩
  | some f => exact processFrame_rest ready (receive f { s with polls := s.polls + 1 })

/-! ## What holds between two states of a run -/

/-- A relation between states that a poll and an ARP request lead to. -/
structure Along (R : UdpState γ → UdpState γ → Prop) : Prop where
  same : ∀ {s t}, t.started = s.started → t.txslot = s.txslot → t.mem = s.mem →
    t.myIp = s.myIp → R s t
  trans : ∀ {s t u}, R s t → R t u → R s u
  sendArp : ∀ ip s, R s (sendArp ready broadcast arpOpcodeRequest (Vector.replicate 6 0) ip s)
  service : ∀ s, R s (udpService ready sched s)

namespace Along

variable {ready sched} {R : UdpState γ → UdpState γ → Prop}

theorem arpWait (h : Along ready sched R) (left : Nat) (s : UdpState γ) :
    R s (arpWait ready sched left s).2 := by
  induction left generalizing s with
  | zero => exact h.same rfl rfl rfl rfl
  | succ left ih =>
    unfold LiteEth.arpWait
    dsimp only
    split_ifs
    · exact h.trans (h.service s) (ih _)
    · exact h.service s

theorem arpRequests (h : Along ready sched R) (ip : UInt32) (left : Nat) (s : UdpState γ) :
    R s (arpRequests ready sched ip left s).2 := by
  induction left generalizing s with
  | zero => exact h.same rfl rfl rfl rfl
  | succ left ih =>
    have waited := h.trans (h.sendArp ip s) (h.arpWait arpTimeoutLoops _)
    unfold LiteEth.arpRequests
    split <;> rename_i he <;> rw [he] at waited
    · exact h.trans waited (ih _)
    · exact waited

theorem arpResolve (h : Along ready sched R) (ip : UInt32) (s : UdpState γ) :
    R s (udpArpResolve ready sched ip s).2 := by
  unfold udpArpResolve
  split_ifs
  · exact h.same rfl rfl rfl rfl
  · have cleared : R s { s with cachedIp := ip, cachedMac := Vector.replicate 6 0 } :=
      h.same rfl rfl rfl rfl
    exact h.trans cleared (h.arpRequests ip arpTries _)

end Along

end LitexDtls.LiteEth
