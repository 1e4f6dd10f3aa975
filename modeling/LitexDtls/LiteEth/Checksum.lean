import LitexDtls.LiteEth.Transmit

/-!
# Checksums of what is sent

A receiver sums up the words of the IP header, and those of the pseudo header and the UDP
datagram or of the ICMP message, and takes what comes to ones only. It takes every datagram that
`udp_send` starts (`taken_udpTxFrame`), and its UDP checksum is never the zero that says there is
none. `process_icmp` has no padding: the answer to a request with an odd number of bytes is taken
only if the last of them is zero (`taken_icmpReply`).
-/
namespace LitexDtls.LiteEth
open Library

/-! ## Sums -/

theorem addOverflows_mod (r : Nat) : addOverflows r % 65535 = r % 65535 := by
  fun_induction addOverflows r with
  | case1 r => rfl
  | case2 r _ ih => omega

theorem addOverflows_pos (r : Nat) : 0 < addOverflows r ↔ 0 < r := by
  fun_induction addOverflows r with
  | case1 r => rfl
  | case2 r _ ih => omega

theorem addOverflows_congr {r r' : Nat} (hpos : 0 < r ↔ 0 < r') (h : r % 65535 = r' % 65535) :
    addOverflows r = addOverflows r' := by
  have hlt := addOverflows_lt r
  have hlt' := addOverflows_lt r'
  have hmod := addOverflows_mod r
  have hmod' := addOverflows_mod r'
  have hr := addOverflows_pos r
  have hr' := addOverflows_pos r'
  omega

theorem addOverflows_eq_ones {r : Nat} (hpos : 0 < r) (h : r % 65535 = 0) :
    addOverflows r = 65535 := by
  have hones : addOverflows 65535 = 65535 := by
    rw [addOverflows, if_pos (by decide)]
  rw [← hones]
  exact addOverflows_congr (by omega) (by omega)

theorem addOverflows_add (r r' : Nat) :
    addOverflows (addOverflows r + r') = addOverflows (r + r') := by
  have hmod := addOverflows_mod r
  have hpos := addOverflows_pos r
  exact addOverflows_congr (by omega) (by omega)

theorem wordSum_append {l : List UInt8} (h : l.length % 2 = 0) (l' : List UInt8) :
    wordSum (l ++ l') = wordSum l + wordSum l' := by
  fun_induction wordSum l with
  | case1 a b rest ih =>
    have hrest : rest.length % 2 = 0 := by
      simp only [List.length_cons] at h
      omega
    rw [List.cons_append, List.cons_append, wordSum, ih hrest]
    omega
  | case2 l hshort =>
    rcases l with _ | ⟨a, _ | ⟨b, rest⟩⟩
    · simp
    · simp at h
    · exact absurd rfl (hshort a b rest)

@[simp] theorem wordSum_be16 (v : UInt16) : wordSum (be16 v) = v.toNat := by
  have := v.toNat_lt
  simp [wordSum, be16]
  omega

/-- What is left of the sum is what the checksum fills up. -/
theorem ipChecksum_fills (r : Nat) (l : List UInt8) :
    0 < ipChecksum r l true ∧ ipChecksum r l true < 65536 ∧
      (r + wordSum l + ipChecksum r l true) % 65535 = 0 := by
  have hlt := addOverflows_lt (r + wordSum l)
  have hmod := addOverflows_mod (r + wordSum l)
  simp only [ipChecksum, if_true]
  split_ifs <;> omega

/-- A field that was zero, filled with the checksum. -/
theorem checked_sum (front : List UInt8) (hfront : front.length % 2 = 0) (back : List UInt8)
    (r : Nat) :
    let c := UInt16.ofNat (ipChecksum r (front ++ be16 0 ++ back) true)
    c ≠ 0 ∧ addOverflows (r + wordSum (front ++ be16 c ++ back)) = 65535 := by
  intro c
  have hsum (v : UInt16) : wordSum (front ++ be16 v ++ back) =
      wordSum front + v.toNat + wordSum back := by
    rw [wordSum_append (by simp; omega), wordSum_append hfront, wordSum_be16]
  obtain ⟨hpos, hlt, hmod⟩ := ipChecksum_fills r (front ++ be16 0 ++ back)
  have hc : c.toNat = ipChecksum r (front ++ be16 0 ++ back) true :=
    UInt16.toNat_ofNat_of_lt' hlt
  rw [hsum] at hmod
  constructor
  · intro hzero
    rw [hzero] at hc
    exact absurd hc (Nat.ne_of_lt hpos)
  · rw [hsum]
    have hzero : (0 : UInt16).toNat = 0 := rfl
    exact addOverflows_eq_ones (by omega) (by omega)

/-- `ip_checksum` leaves out an odd last byte. -/
theorem wordSum_concat {l : List UInt8} (h : l.length % 2 = 0) (b : UInt8) :
    wordSum (l ++ [b]) = wordSum l := by
  rw [wordSum_append h]
  rfl

/-! ## The receiver -/

/-- The sum that a receiver takes, with a zero behind an odd last byte. -/
def receivedSum (bytes : List UInt8) : Nat :=
  addOverflows (wordSum (bytes ++ if bytes.length % 2 = 1 then [0] else []))

theorem receivedSum_ipHeaderChecked (totalLength : UInt16) (proto : UInt8) (srcIp dstIp : UInt32) :
    receivedSum (ipHeaderChecked totalLength proto srcIp dstIp) = 65535 := by
  have hparts (c : UInt16) : ipHeader totalLength proto srcIp dstIp c =
      ([ipIpv4, 0] ++ be16 totalLength ++ be16 0 ++ be16 ipDontFragment ++ [ipTtl, proto]) ++
        be16 c ++ (be32 srcIp ++ be32 dstIp) := by
    simp [ipHeader]
  rw [receivedSum, length_ipHeaderChecked, if_neg (by decide), List.append_nil, ipHeaderChecked,
    hparts, hparts]
  have h := (checked_sum ([ipIpv4, 0] ++ be16 totalLength ++ be16 0 ++
    be16 ipDontFragment ++ [ipTtl, proto]) (by simp) (be32 srcIp ++ be32 dstIp) 0).2
  rwa [Nat.zero_add] at h

/-- The IP header in a frame. -/
def ipPart (bytes : List UInt8) : List UInt8 := (bytes.drop offContents).take 20

def ipProto (bytes : List UInt8) : UInt8 := (ipPart bytes).getD (offIpProto - offContents) 0

/-- The UDP header and the payload, as far as the frame holds them. -/
def udpSegment (bytes : List UInt8) : List UInt8 :=
  (bytes.drop offUdp).take (udpLength bytes).toNat

def pseudoOf (bytes : List UInt8) : List UInt8 :=
  pseudoHeader (field32 (ipPart bytes) (offIpSrcIp - offContents))
    (field32 (ipPart bytes) (offIpDstIp - offContents)) (udpLength bytes)

/-- A receiver of a UDP datagram takes its checksum, and does not take it for none. -/
structure UdpChecked (bytes : List UInt8) : Prop where
  checksum_ne : field16 bytes offUdpChecksum ≠ 0
  sum : receivedSum (pseudoOf bytes ++ udpSegment bytes) = 65535

/-- A receiver of an ICMP message takes its checksum. -/
def IcmpChecked (bytes : List UInt8) : Prop :=
  receivedSum (bytes.drop offIcmpType) = 65535

/-- The headers of an IP packet of protocol `proto`, with the right sum. -/
structure IpChecked (proto : UInt8) (bytes : List UInt8) : Prop where
  ethertype : field16 bytes offEthertype = ethertypeIp
  sum : receivedSum (ipPart bytes) = 65535
  proto : ipProto bytes = proto

/-- What the driver starts. -/
inductive Taken (bytes : List UInt8) : Prop
  | arp (ethertype : field16 bytes offEthertype = ethertypeArp)
  | udp (ip : IpChecked ipProtoUdp bytes) (udp : UdpChecked bytes)
  | icmp (ip : IpChecked ipProtoIcmp bytes) (type : bytes[offIcmpType]? = some icmpEchoReply)
      (icmp : IcmpChecked bytes ↔ bytes.length % 2 = 0 ∨ bytes.getLast? = some 0)

theorem receivedSum_even {l : List UInt8} (h : l.length % 2 = 0) :
    receivedSum l = addOverflows (wordSum l) := by
  rw [receivedSum, if_neg (by omega), List.append_nil]

theorem receivedSum_concat {l : List UInt8} (h : l.length % 2 = 0) (b : UInt8) :
    receivedSum (l ++ [b]) = addOverflows (wordSum l + 256 * b.toNat) := by
  have hodd : (l ++ [b]).length % 2 = 1 := by
    rw [List.length_append, List.length_singleton]
    omega
  rw [receivedSum, if_pos hodd, List.append_assoc, wordSum_append h]
  rfl

/-- A last byte that the checksum leaves out has to be zero. -/
theorem checked_concat {front back : List UInt8} (hfront : front.length % 2 = 0)
    (hback : back.length % 2 = 0) (b : UInt8) :
    receivedSum (front ++
      be16 (UInt16.ofNat (ipChecksum 0 (front ++ be16 0 ++ back ++ [b]) true)) ++ back ++ [b]) =
        65535 ↔ b = 0 := by
  have heven (c : UInt16) : (front ++ be16 c ++ back).length % 2 = 0 := by
    simp
    omega
  rw [ipChecksum, wordSum_concat (heven 0), receivedSum_concat (heven _)]
  have hsum := (checked_sum front hfront back 0).2
  rw [Nat.zero_add] at hsum
  have hmod := addOverflows_mod (wordSum (front ++
    be16 (UInt16.ofNat (ipChecksum 0 (front ++ be16 0 ++ back) true)) ++ back))
  rw [hsum] at hmod
  have hb := b.toNat_lt
  constructor
  · intro h
    have hmod' := addOverflows_mod (wordSum (front ++
      be16 (UInt16.ofNat (ipChecksum 0 (front ++ be16 0 ++ back) true)) ++ back) + 256 * b.toNat)
    rw [ipChecksum] at hmod hmod'
    rw [h] at hmod'
    exact UInt8.toNat_inj.mp (show b.toNat = 0 by omega)
  · rintro rfl
    exact hsum

/-! ## The frame of `udp_send` -/

section
variable {γ : Type} (srcPort dstPort : UInt16) (n : Nat) (s : UdpState γ)

/-- Slot memory when the UDP checksum is computed. -/
def udpFilled : Mem UInt8 :=
  ((ipFilled n s).write (s.txbuffer + offUdp)
    (udpHeader srcPort dstPort (UInt16.ofNat (n + sizeofUdpHeader)) 0)).write
      (s.txbuffer + offPayload + n) (if n % 2 = 1 then [0] else [])

def udpChecksum : UInt16 :=
  UInt16.ofNat (ipChecksum
    (ipChecksum 0 (pseudoHeader s.myIp s.cachedIp (UInt16.ofNat (n + sizeofUdpHeader))) false)
    ((udpFilled srcPort dstPort n s).read (s.txbuffer + offUdp) (sizeofUdpHeader + (n + n % 2)))
    true)

theorem udpSendFill_eq : (udpSendFill srcPort dstPort n s).mem =
    (udpFilled srcPort dstPort n s).write (s.txbuffer + offUdpChecksum)
      (be16 (udpChecksum srcPort dstPort n s)) := by
  unfold udpSendFill udpChecksum udpFilled
  simp only [write_pad]
  rfl

/-- The segment in slot memory, around its checksum. -/
theorem read_segment (k : Nat) :
    (udpFilled srcPort dstPort n s).read (s.txbuffer + offUdp) (sizeofUdpHeader + k) =
        (udpFilled srcPort dstPort n s).read (s.txbuffer + offUdp) 6 ++ be16 0 ++
          (udpFilled srcPort dstPort n s).read (s.txbuffer + offPayload) k ∧
      (udpSendFill srcPort dstPort n s).mem.read (s.txbuffer + offUdp) (sizeofUdpHeader + k) =
        (udpFilled srcPort dstPort n s).read (s.txbuffer + offUdp) 6 ++
          be16 (udpChecksum srcPort dstPort n s) ++
            (udpFilled srcPort dstPort n s).read (s.txbuffer + offPayload) k := by
  have hsplit (m : Mem UInt8) : m.read (s.txbuffer + offUdp) (sizeofUdpHeader + k) =
      m.read (s.txbuffer + offUdp) 6 ++ m.read (s.txbuffer + offUdpChecksum) 2 ++
        m.read (s.txbuffer + offPayload) k := by
    rw [show sizeofUdpHeader + k = 6 + 2 + k by simp, Mem.read_append, Mem.read_append]
    rfl
  have hzero : (udpFilled srcPort dstPort n s).read (s.txbuffer + offUdpChecksum) 2 = be16 0 := by
    rw [udpFilled, Mem.read_write_disjoint _ _ (.inl (by simp))]
    exact Mem.read_write_sub _ _ _ (k := 6) (n := 2) (by simp)
  constructor
  · rw [hsplit, hzero]
  · rw [udpSendFill_eq, hsplit, Mem.read_write_disjoint _ _ (.inl (by simp)),
      Mem.read_write_of_length _ _ _ (length_be16 _).symm,
      Mem.read_write_disjoint _ _ (.inr (by simp))]

theorem read_ipHeader :
    (udpSendFill srcPort dstPort n s).mem.read (s.txbuffer + offContents) 20 =
      ipHeaderChecked (UInt16.ofNat (n + sizeofUdpFrame)) ipProtoUdp s.myIp s.cachedIp := by
  rw [udpSendFill_eq, udpFilled, Mem.read_write_disjoint _ _ (.inl (by simp)),
    Mem.read_write_disjoint _ _ (.inl (by simp; omega)),
    Mem.read_write_disjoint _ _ (.inl (by simp)), ipFilled]
  exact Mem.read_write_of_length _ _ _ rfl

theorem read_fillEthHeader (m : Mem UInt8) (h : Nat) (destmac srcmac : MacAddr)
    (ethertype : UInt16) :
    (fillEthHeader m h destmac srcmac ethertype).read (h + offEthertype) 2 = be16 ethertype := by
  rw [fillEthHeader, offEthertype, Mem.read_write_sub _ _ _ (by simp),
    List.drop_left' (by simp), List.take_of_length_le (by simp)]

theorem read_ethertype :
    (udpSendFill srcPort dstPort n s).mem.read (s.txbuffer + offEthertype) 2 =
      be16 ethertypeIp := by
  rw [udpSendFill_eq, udpFilled, Mem.read_write_disjoint _ _ (.inl (by simp)),
    Mem.read_write_disjoint _ _ (.inl (by simp; omega)),
    Mem.read_write_disjoint _ _ (.inl (by simp)), ipFilled,
    Mem.read_write_disjoint _ _ (.inl (by simp)), read_fillEthHeader]

/-- What the receiver has of the segment, with its padding. -/
theorem udpTxFrame_segment (h : n + sizeofUdpHeader < 65536) :
    let segment := udpSegment (udpTxFrame srcPort dstPort n s).bytes
    segment.length = sizeofUdpHeader + n ∧
      segment ++ (if n % 2 = 1 then [0] else []) =
        (udpSendFill srcPort dstPort n s).mem.read (s.txbuffer + offUdp)
          (sizeofUdpHeader + (n + n % 2)) := by
  intro segment
  have hle : 42 + n ≤ _ := (le_txlen srcPort dstPort n s).2
  have hsegment : segment =
      (udpSendFill srcPort dstPort n s).mem.read (s.txbuffer + offUdp) (sizeofUdpHeader + n) := by
    simp only [segment, udpSegment]
    rw [udpTxFrame_length, UInt16.toNat_ofNat_of_lt' h, udpTxFrame]
    dsimp only
    rw [Mem.drop_read _ _ (by simp; omega), Mem.take_read]
    congr 1
    simp
    omega
  refine ⟨by rw [hsegment, Mem.length_read], ?_⟩
  rw [hsegment]
  by_cases hodd : n % 2 = 1
  · have hpad : (udpSendFill srcPort dstPort n s).mem (s.txbuffer + offPayload + n) = 0 := by
      rw [udpSendFill_eq, Mem.write_outside _ _ _ (.inr (by simp)), udpFilled, if_pos hodd]
      exact Mem.write_inside _ _ [0] (i := 0) (by simp)
    have haddr : s.txbuffer + offUdp + (sizeofUdpHeader + n) = s.txbuffer + offPayload + n := by
      simp
      omega
    rw [if_pos hodd, hodd, ← Nat.add_assoc, Mem.read_append _ _ (sizeofUdpHeader + n), haddr,
      ← hpad]
    rfl
  · rw [if_neg hodd, Nat.mod_two_ne_one.mp hodd, List.append_nil, Nat.add_zero]

theorem ipPart_read {m : Mem UInt8} {a len : Nat} (h : 34 ≤ len) :
    ipPart (m.read a len) = m.read (a + offContents) 20 := by
  rw [ipPart, Mem.drop_read _ _ (by simp; omega), Mem.take_read, Nat.min_eq_left (by simp; omega)]

theorem pseudoOf_read {m : Mem UInt8} {a len : Nat} (h : 34 ≤ len) {totalLength : UInt16}
    {proto : UInt8} {srcIp dstIp : UInt32} (hip : m.read (a + offContents) 20 =
      ipHeaderChecked totalLength proto srcIp dstIp) :
    ipProto (m.read a len) = proto ∧
      pseudoOf (m.read a len) = pseudoHeader srcIp dstIp (udpLength (m.read a len)) := by
  rw [ipProto, pseudoOf, ipPart_read h, hip]
  have hword (v : UInt32) : word32 (be32 v) = v := by
    have hv := word32_be32 v []
    rwa [List.append_nil] at hv
  refine ⟨rfl, ?_⟩
  congr 1
  · exact hword srcIp
  · exact hword dstIp

theorem ipChecked_read {m : Mem UInt8} {a len : Nat} (h : 34 ≤ len)
    (hethertype : m.read (a + offEthertype) 2 = be16 ethertypeIp) {totalLength : UInt16}
    {proto : UInt8} {srcIp dstIp : UInt32} (hip : m.read (a + offContents) 20 =
      ipHeaderChecked totalLength proto srcIp dstIp) :
    IpChecked proto (m.read a len) where
  ethertype := by rw [field16_read _ _ (by simp; omega), Mem.get16, hethertype, word16_be16]
  sum := by rw [ipPart_read h, hip, receivedSum_ipHeaderChecked]
  proto := (pseudoOf_read h hip).1

/-- Every receiver takes what `udp_send` starts. -/
theorem taken_udpTxFrame (h : n + sizeofUdpHeader < 65536) :
    Taken (udpTxFrame srcPort dstPort n s).bytes := by
  obtain ⟨hlength, hsegment⟩ := udpTxFrame_segment srcPort dstPort n s h
  obtain ⟨hfilled, hsent⟩ := read_segment srcPort dstPort n s (n + n % 2)
  have hle : 60 ≤ _ := (le_txlen srcPort dstPort n s).1
  have hudp := checked_sum ((udpFilled srcPort dstPort n s).read (s.txbuffer + offUdp) 6)
    (by rw [Mem.length_read])
    ((udpFilled srcPort dstPort n s).read (s.txbuffer + offPayload) (n + n % 2))
    (ipChecksum 0 (pseudoHeader s.myIp s.cachedIp (UInt16.ofNat (n + sizeofUdpHeader))) false)
  rw [← hfilled] at hudp
  change udpChecksum srcPort dstPort n s ≠ 0 ∧ addOverflows (_ + wordSum (_ ++
    be16 (udpChecksum srcPort dstPort n s) ++ _)) = 65535 at hudp
  refine .udp (ipChecked_read (by omega) (read_ethertype srcPort dstPort n s)
    (read_ipHeader srcPort dstPort n s)) ⟨?_, ?_⟩
  · rw [udpTxFrame, field16_read _ _ (by simp; omega), Mem.get16, udpSendFill_eq,
      Mem.read_write_of_length _ _ _ (length_be16 _).symm, word16_be16]
    exact hudp.1
  · have hpseudo : pseudoOf (udpTxFrame srcPort dstPort n s).bytes =
        pseudoHeader s.myIp s.cachedIp (UInt16.ofNat (n + sizeofUdpHeader)) := by
      rw [← udpTxFrame_length srcPort dstPort n s]
      exact (pseudoOf_read (by omega) (read_ipHeader srcPort dstPort n s)).2
    rw [hpseudo, receivedSum, List.append_assoc, List.length_append, hlength,
      show ((pseudoHeader s.myIp s.cachedIp (UInt16.ofNat (n + sizeofUdpHeader))).length +
        (sizeofUdpHeader + n)) % 2 = n % 2 by simp [pseudoHeader]; omega, hsegment, hsent,
      wordSum_append (by simp [pseudoHeader]), ← addOverflows_add]
    have hsum := hudp.2
    rwa [ipChecksum, if_neg (by decide), Nat.zero_add] at hsum

end

/-! ## The answer to an echo request -/

section
variable {γ : Type} (s : UdpState γ)

def icmpLength : Nat := (s.mem.get16 (s.rxbuffer + offIpTotalLength)).toNat - sizeofIcmpFrame

/-- The conditions under which `process_icmp` answers. -/
def Echo : Prop :=
  sizeofEthernetHeader + sizeofIcmpFrame ≤ s.rxlen ∧
    sizeofIcmpFrame ≤ (s.mem.get16 (s.rxbuffer + offIpTotalLength)).toNat ∧
      s.mem (s.rxbuffer + offIcmpType) = icmpEcho

instance : Decidable (Echo s) := inferInstanceAs (Decidable (_ ∧ _ ∧ _))

/-- Slot memory with the answer, in front of its payload. -/
def icmpHeaders : Mem UInt8 :=
  let rx := s.rxbuffer
  let tx := s.txbuffer
  let m := fillEthHeader s.mem tx (readMac s.mem (rx + offSrcmac)) s.myMac ethertypeIp
  let m := m.write (tx + offContents) (ipHeaderChecked
    (UInt16.ofNat (s.mem.get16 (rx + offIpTotalLength)).toNat) ipProtoIcmp s.myIp
    (m.get32 (rx + offIpSrcIp)))
  let m := m.write (tx + offIcmpType) [icmpEchoReply, 0]
  m.write (tx + offIcmpIdentifier) (m.read (rx + offIcmpIdentifier) 4)

/-- Slot memory when the ICMP checksum is computed. -/
def icmpFilled : Mem UInt8 :=
  (copyLoop (icmpHeaders s) (s.txbuffer + offPayload) (s.rxbuffer + offPayload)
    (icmpLength s)).write (s.txbuffer + offIcmpChecksum) (be16 0)

def icmpChecksum : UInt16 :=
  UInt16.ofNat (ipChecksum 0
    ((icmpFilled s).read (s.txbuffer + offIcmpType) (icmpLength s + sizeofIcmpHeader)) true)

def icmpReply : UdpState γ :=
  { s with
    mem := (icmpFilled s).write (s.txbuffer + offIcmpChecksum) (be16 (icmpChecksum s))
    txlen := icmpLength s + sizeofEthernetHeader + sizeofIcmpFrame }

theorem processIcmp_eq (ready : Nat → Bool) :
    processIcmp ready s = if Echo s then sendPacket ready (icmpReply s) else s := by
  unfold processIcmp
  dsimp only
  by_cases h : Echo s
  · rw [if_pos h, if_neg (Nat.not_lt.mpr h.1), if_neg (Nat.not_lt.mpr h.2.1), if_pos h.2.2]
    rfl
  · rw [if_neg h]
    split_ifs with hlen htotal htype
    · rfl
    · rfl
    · exact absurd ⟨Nat.not_lt.mp hlen, Nat.not_lt.mp htotal, htype⟩ h
    · rfl

theorem read_copyLoop (m : Mem UInt8) {dst a k : Nat} (h : a + k ≤ dst) (src n : Nat) :
    (copyLoop m dst src n).read a k = m.read a k := by
  induction n with
  | zero => rfl
  | succ n ih =>
    rw [copyLoop, Mem.read_write_disjoint _ _ (.inl (by omega))]
    exact ih

/-- The headers in front of the ICMP checksum stay as they were written. -/
theorem read_icmpReply {k n : Nat} (h : k + n ≤ offIcmpChecksum) :
    (icmpReply s).mem.read (s.txbuffer + k) n = (icmpHeaders s).read (s.txbuffer + k) n := by
  have h' : k + n ≤ 36 := h
  rw [icmpReply, Mem.read_write_disjoint _ _ (.inl (by simp; omega)), icmpFilled,
    Mem.read_write_disjoint _ _ (.inl (by simp; omega)), read_copyLoop _ (by simp; omega)]

theorem ipChecked_icmpReply {len : Nat} (h : 34 ≤ len) :
    IpChecked ipProtoIcmp ((icmpReply s).mem.read s.txbuffer len) := by
  have hip : ∃ totalLength srcIp dstIp, (icmpReply s).mem.read (s.txbuffer + offContents) 20 =
      ipHeaderChecked totalLength ipProtoIcmp srcIp dstIp := by
    rw [read_icmpReply s (by simp), icmpHeaders, Mem.read_write_disjoint _ _ (.inl (by simp)),
      Mem.read_write_disjoint _ _ (.inl (by simp))]
    exact ⟨_, _, _, Mem.read_write_of_length _ _ _ rfl⟩
  obtain ⟨_, _, _, hip⟩ := hip
  refine ipChecked_read h ?_ hip
  rw [read_icmpReply s (by simp), icmpHeaders, Mem.read_write_disjoint _ _ (.inl (by simp)),
    Mem.read_write_disjoint _ _ (.inl (by simp)), Mem.read_write_disjoint _ _ (.inl (by simp)),
    read_fillEthHeader]

theorem type_icmpReply {len : Nat} (h : offIcmpType < len) :
    ((icmpReply s).mem.read s.txbuffer len)[offIcmpType]? = some icmpEchoReply := by
  have hwritten : (icmpReply s).mem.read (s.txbuffer + offIcmpType) 2 = [icmpEchoReply, 0] := by
    rw [read_icmpReply s (by simp), icmpHeaders, Mem.read_write_disjoint _ _ (.inl (by simp))]
    exact Mem.read_write_of_length _ _ _ rfl
  have hfirst := congrArg (·[0]?) hwritten
  rw [Mem.getElem?_read _ _ h]
  exact (Mem.getElem?_read _ _ Nat.zero_lt_two).symm.trans hfirst

/-- The ICMP message in slot memory, around its checksum. -/
theorem read_message (k : Nat) :
    (icmpFilled s).read (s.txbuffer + offIcmpType) (4 + k) =
        (icmpFilled s).read (s.txbuffer + offIcmpType) 2 ++ be16 0 ++
          (icmpFilled s).read (s.txbuffer + offIcmpIdentifier) k ∧
      (icmpReply s).mem.read (s.txbuffer + offIcmpType) (4 + k) =
        (icmpFilled s).read (s.txbuffer + offIcmpType) 2 ++ be16 (icmpChecksum s) ++
          (icmpFilled s).read (s.txbuffer + offIcmpIdentifier) k := by
  have hsplit (m : Mem UInt8) : m.read (s.txbuffer + offIcmpType) (4 + k) =
      m.read (s.txbuffer + offIcmpType) 2 ++ m.read (s.txbuffer + offIcmpChecksum) 2 ++
        m.read (s.txbuffer + offIcmpIdentifier) k := by
    rw [show 4 + k = 2 + 2 + k from rfl, Mem.read_append, Mem.read_append]
    rfl
  constructor
  · rw [hsplit]
    congr 2
    rw [icmpFilled]
    exact Mem.read_write_of_length _ _ _ (length_be16 0).symm
  · rw [icmpReply, hsplit, Mem.read_write_disjoint _ _ (.inl (by simp)),
      Mem.read_write_of_length _ _ _ (length_be16 _).symm,
      Mem.read_write_disjoint _ _ (.inr (by simp))]

/-- The frame of an answer: its ICMP checksum is right unless it leaves out a last byte that is
not zero. -/
theorem taken_icmpReply :
    Taken ((icmpReply s).mem.read s.txbuffer (icmpReply s).txlen) := by
  have htxlen : (icmpReply s).txlen = offIcmpType + (4 + (icmpLength s + 4)) := by
    simp [icmpReply]
    omega
  refine .icmp (ipChecked_icmpReply s (by rw [htxlen, offIcmpType]; omega))
    (type_icmpReply s (by rw [htxlen]; omega)) ?_
  have hdrop : ((icmpReply s).mem.read s.txbuffer (icmpReply s).txlen).drop offIcmpType =
      (icmpReply s).mem.read (s.txbuffer + offIcmpType) (4 + (icmpLength s + 4)) := by
    rw [Mem.drop_read _ _ (by omega), htxlen, Nat.add_sub_cancel_left]
  have hchecksum : icmpChecksum s = UInt16.ofNat (ipChecksum 0
      ((icmpFilled s).read (s.txbuffer + offIcmpType) (4 + (icmpLength s + 4))) true) := by
    rw [icmpChecksum, show icmpLength s + sizeofIcmpHeader = 4 + (icmpLength s + 4) by
      simp; omega]
  obtain ⟨hfilled, hsent⟩ := read_message s (icmpLength s + 4)
  rw [hfilled] at hchecksum
  rw [IcmpChecked, hdrop, hsent, hchecksum, Mem.length_read, htxlen]
  by_cases heven : icmpLength s % 2 = 0
  · have h := (checked_sum ((icmpFilled s).read (s.txbuffer + offIcmpType) 2)
      (by rw [Mem.length_read])
      ((icmpFilled s).read (s.txbuffer + offIcmpIdentifier) (icmpLength s + 4)) 0).2
    rw [Nat.zero_add] at h
    rw [receivedSum_even (by simp; omega)]
    exact iff_of_true h (.inl (by simp; omega))
  · have hsplit : (icmpFilled s).read (s.txbuffer + offIcmpIdentifier) (icmpLength s + 4) =
        (icmpFilled s).read (s.txbuffer + offIcmpIdentifier) (icmpLength s + 3) ++
          [icmpFilled s (s.txbuffer + offIcmpIdentifier + (icmpLength s + 3))] :=
      Mem.read_append _ _ (icmpLength s + 3) 1
    have hlast : ((icmpReply s).mem.read s.txbuffer
        (offIcmpType + (4 + (icmpLength s + 4)))).getLast? =
          some (icmpFilled s (s.txbuffer + offIcmpIdentifier + (icmpLength s + 3))) := by
      rw [Mem.read_append, hsent, hsplit, ← List.append_assoc, ← List.append_assoc,
        List.getLast?_concat]
    rw [hlast, hsplit, ← List.append_assoc, ← List.append_assoc,
      checked_concat (by rw [Mem.length_read]) (by rw [Mem.length_read]; omega)]
    simp
    omega

end

/-! ## Everything that is started -/

/-- What is started between two states is what every receiver takes, up to odd ICMP answers. -/
def Starts {γ : Type} (s t : UdpState γ) : Prop :=
  ∀ f ∈ t.started, f ∈ s.started ∨ Taken f.bytes

section
variable {γ : Type} {s t u : UdpState γ} (ready : Nat → Bool) (sched : Nat → Option RxFrame)

theorem Starts.of_eq (h : t.started = s.started) : Starts s t := fun _ hf => .inl (h ▸ hf)

theorem Starts.trans (h : Starts s t) (h' : Starts t u) : Starts s u :=
  fun f hf => (h' f hf).elim (h f) .inr

theorem starts_sendPacket (h : Taken (s.mem.read s.txbuffer s.txlen)) :
    Starts s (sendPacket ready s) := by
  intro f hf
  unfold sendPacket at hf
  split at hf
  · rcases List.mem_append.mp hf with hf | hf
    · exact .inl hf
    · rw [List.mem_singleton.mp hf]
      exact .inr h
  · exact .inl hf

theorem starts_udpSend (srcPort dstPort : UInt16) {n : Nat} (h : n + sizeofUdpHeader < 65536)
    (s : UdpState γ) : Starts s (udpSend ready srcPort dstPort n s).2 := by
  unfold udpSend
  split_ifs
  · exact .of_eq rfl
  · exact starts_sendPacket ready (s := udpSendFill srcPort dstPort n s)
      (taken_udpTxFrame srcPort dstPort n s h)

theorem starts_sendArp (destmac : MacAddr) (opcode : UInt16) (targetMac : MacAddr)
    (targetIp : UInt32) (s : UdpState γ) :
    Starts s (sendArp ready destmac opcode targetMac targetIp s) := by
  refine starts_sendPacket ready (s := { s with
    mem := (fillEthHeader s.mem s.txbuffer destmac s.myMac ethertypeArp).write
      (s.txbuffer + offContents) (arpFrame opcode s.myMac s.myIp targetMac targetIp)
    txlen := arpPacketLength }) (.arp ?_)
  have hlength : offEthertype + 2 ≤ arpPacketLength := by decide
  rw [field16_read _ _ hlength, Mem.get16]
  exact congrArg word16 ((Mem.read_write_disjoint _ _ (.inl (by simp))).trans
    (read_fillEthHeader s.mem s.txbuffer destmac s.myMac ethertypeArp)) |>.trans (word16_be16 _)

theorem starts_processArp (s : UdpState γ) : Starts s (processArp ready s) := by
  unfold processArp
  dsimp only
  split_ifs <;> first
    | exact .of_eq rfl
    | exact starts_sendArp ready _ _ _ _ s

theorem starts_processIcmp (s : UdpState γ) : Starts s (processIcmp ready s) := by
  rw [processIcmp_eq]
  split_ifs
  · exact starts_sendPacket ready (s := icmpReply s) (taken_icmpReply s)
  · exact .of_eq rfl

theorem starts_processUdp (s : UdpState γ) : Starts s (processUdp s) := by
  refine .of_eq ?_
  unfold processUdp
  dsimp only
  split_ifs <;> first
    | rfl
    | split <;> rfl

theorem starts_processFrame (s : UdpState γ) : Starts s (processFrame ready s) := by
  unfold processFrame
  dsimp only
  split_ifs
  · exact starts_processArp ready s
  · exact .of_eq rfl
  · exact .of_eq rfl
  · exact starts_processUdp s
  · exact starts_processIcmp ready s
  · exact .of_eq rfl
  · exact .of_eq rfl

theorem starts_udpService (s : UdpState γ) : Starts s (udpService ready sched s) := by
  unfold udpService
  cases sched s.polls with
  | none => exact .of_eq rfl
  | some f => exact starts_processFrame ready (receive f { s with polls := s.polls + 1 })

theorem along_starts : Along (γ := γ) ready sched Starts where
  same h _ _ _ := .of_eq h
  trans := .trans
  sendArp ip s := starts_sendArp ready _ _ _ ip s
  service := starts_udpService ready sched

end

end LitexDtls.LiteEth
