import LitexDtls.Library.Memory

/-!
# Ethernet frames in the MAC's slots

Layout of the slot memory of the built SoC (`csr.json`: two receive and two transmit
slots of 2048 bytes, hardware preamble and CRC) and of the packed header structures of
`udp.c`. Addresses are relative to `ETHMAC_BASE`; header fields are named by their offset
in `struct ethernet_frame`. The headers that the driver writes are lists of bytes.
-/
namespace LitexDtls.LiteEth
open Library

@[simp] def ethmacRxSlots : Nat := 2
@[simp] def ethmacTxSlots : Nat := 2
@[simp] def ethmacSlotSize : Nat := 2048

/-- Address of a slot: receive slots first, then transmit slots. -/
def slotAddr (slot : Nat) : Nat := ethmacSlotSize * slot

@[simp] def sizeofEthernetHeader : Nat := 14
@[simp] def sizeofUdpHeader : Nat := 8
@[simp] def sizeofUdpFrame : Nat := 28
@[simp] def sizeofIcmpHeader : Nat := 8
@[simp] def sizeofIcmpFrame : Nat := 28
@[simp] def arpPacketLength : Nat := 60

def ethertypeArp : UInt16 := 0x0806
def ethertypeIp : UInt16 := 0x0800
def arpHwtypeEthernet : UInt16 := 1
def arpProtoIp : UInt16 := 0x0800
def arpOpcodeRequest : UInt16 := 1
def arpOpcodeReply : UInt16 := 2
def ipIpv4 : UInt8 := 0x45
def ipDontFragment : UInt16 := 0x4000
def ipTtl : UInt8 := 64
def ipProtoUdp : UInt8 := 0x11
def ipProtoIcmp : UInt8 := 0x01
def icmpEchoReply : UInt8 := 0x00
def icmpEcho : UInt8 := 0x08

/-- Offsets in `struct ethernet_frame`. -/
@[simp] def offSrcmac : Nat := 6
@[simp] def offEthertype : Nat := 12
@[simp] def offContents : Nat := 14
@[simp] def offIpVersion : Nat := 14
@[simp] def offIpTotalLength : Nat := 16
@[simp] def offIpProto : Nat := 23
@[simp] def offIpSrcIp : Nat := 26
@[simp] def offIpDstIp : Nat := 30
@[simp] def offUdp : Nat := 34
@[simp] def offUdpSrcPort : Nat := 34
@[simp] def offUdpDstPort : Nat := 36
@[simp] def offUdpLength : Nat := 38
@[simp] def offUdpChecksum : Nat := 40
@[simp] def offIcmpType : Nat := 34
@[simp] def offIcmpChecksum : Nat := 36
@[simp] def offIcmpIdentifier : Nat := 38
@[simp] def offPayload : Nat := 42
@[simp] def offArpHwtype : Nat := 14
@[simp] def offArpProto : Nat := 16
@[simp] def offArpHwsize : Nat := 18
@[simp] def offArpProtosize : Nat := 19
@[simp] def offArpOpcode : Nat := 20
@[simp] def offArpSenderMac : Nat := 22
@[simp] def offArpSenderIp : Nat := 28
@[simp] def offArpTargetIp : Nat := 38

abbrev MacAddr := Vector UInt8 6

def broadcast : MacAddr := Vector.replicate 6 0xff

/-- The all-zero address marks an ARP cache without an answer. -/
def MacAddr.isZero (mac : MacAddr) : Bool := mac.toList.all (· == 0)

def readMac (m : Mem UInt8) (a : Nat) : MacAddr := Vector.ofFn fun i => m (a + i)

/-- `fill_eth_header`. -/
def fillEthHeader (m : Mem UInt8) (h : Nat) (destmac srcmac : MacAddr) (ethertype : UInt16) :
    Mem UInt8 :=
  m.write h (destmac.toList ++ srcmac.toList ++ be16 ethertype)

/-- The ARP packet of `process_arp` and `udp_arp_resolve`, with its 18 bytes of padding. -/
def arpFrame (opcode : UInt16) (senderMac : MacAddr) (senderIp : UInt32)
    (targetMac : MacAddr) (targetIp : UInt32) : List UInt8 :=
  be16 arpHwtypeEthernet ++ be16 arpProtoIp ++ [6, 4] ++ be16 opcode ++ senderMac.toList ++
    be32 senderIp ++ targetMac.toList ++ be32 targetIp ++ List.replicate 18 0

/-! ## The Internet checksum -/

/-- Sum of the big endian 16 bit words of a buffer; a last odd byte is left out. -/
def wordSum : List UInt8 → Nat
  | a :: b :: rest => 256 * a.toNat + b.toNat + wordSum rest
  | _ => 0

/-- `while (r >> 16) r = (r & 0xffff) + (r >> 16)`. -/
def addOverflows (r : Nat) : Nat :=
  if r < 65536 then r else addOverflows (r % 65536 + r / 65536)
termination_by r

theorem addOverflows_lt (r : Nat) : addOverflows r < 65536 := by
  fun_induction addOverflows r <;> assumption

/-- `ip_checksum` over the words of `buffer`, starting from `r`. -/
def ipChecksum (r : Nat) (buffer : List UInt8) (complete : Bool) : Nat :=
  let r := addOverflows (r + wordSum buffer)
  if complete then (if 65535 - r = 0 then 65535 else 65535 - r) else r

def ipHeader (totalLength : UInt16) (proto : UInt8) (srcIp dstIp : UInt32) (checksum : UInt16) :
    List UInt8 :=
  [ipIpv4, 0] ++ be16 totalLength ++ be16 0 ++ be16 ipDontFragment ++ [ipTtl, proto] ++
    be16 checksum ++ be32 srcIp ++ be32 dstIp

/-- The IP header with its checksum, computed over the header with a zero checksum field. -/
def ipHeaderChecked (totalLength : UInt16) (proto : UInt8) (srcIp dstIp : UInt32) : List UInt8 :=
  ipHeader totalLength proto srcIp dstIp
    (UInt16.ofNat (ipChecksum 0 (ipHeader totalLength proto srcIp dstIp 0) true))

def udpHeader (srcPort dstPort length checksum : UInt16) : List UInt8 :=
  be16 srcPort ++ be16 dstPort ++ be16 length ++ be16 checksum

def pseudoHeader (srcIp dstIp : UInt32) (length : UInt16) : List UInt8 :=
  be32 srcIp ++ be32 dstIp ++ [0, ipProtoUdp] ++ be16 length

@[simp] theorem length_ipHeader (n : UInt16) (p : UInt8) (a b : UInt32) (c : UInt16) :
    (ipHeader n p a b c).length = 20 := rfl
@[simp] theorem length_ipHeaderChecked (n : UInt16) (p : UInt8) (a b : UInt32) :
    (ipHeaderChecked n p a b).length = 20 := rfl
@[simp] theorem length_udpHeader (a b n c : UInt16) : (udpHeader a b n c).length = 8 := rfl

/-! ## Frames on the receive and transmit side -/

/-- A frame that the MAC has put into a receive slot. -/
structure RxFrame where
  slot : Nat
  bytes : List UInt8
  slot_lt : slot < ethmacRxSlots
  fits : bytes.length ≤ ethmacSlotSize

/-- The frame of a UDP datagram with the given header fields, in the first slot. -/
def udpRxFrame (srcIp dstIp : UInt32) (srcPort dstPort length checksum : UInt16)
    (payload : List UInt8) (h : payload.length ≤ ethmacSlotSize - offPayload) : RxFrame where
  slot := 0
  bytes := broadcast.toList ++ List.replicate 6 0 ++ be16 ethertypeIp ++
    ipHeader (UInt16.ofNat (payload.length + sizeofUdpFrame)) ipProtoUdp srcIp dstIp checksum ++
    udpHeader srcPort dstPort length 0 ++ payload
  slot_lt := by decide
  fits := by simp at h ⊢; omega

/-- A frame that the driver has started: the slot, the programmed length and the
slot contents at the moment of the start command. -/
structure TxFrame where
  slot : Nat
  length : Nat
  bytes : List UInt8
  deriving DecidableEq, Repr

/-- A 16 bit header field of the bytes of a frame. -/
def field16 (bytes : List UInt8) (off : Nat) : UInt16 := word16 ((bytes.drop off).take 2)
def field32 (bytes : List UInt8) (off : Nat) : UInt32 := word32 ((bytes.drop off).take 4)

def udpDstPort (bytes : List UInt8) : UInt16 := field16 bytes offUdpDstPort
def udpLength (bytes : List UInt8) : UInt16 := field16 bytes offUdpLength

/-- The payload that the UDP length field announces, as far as the frame holds it. -/
def udpPayload (bytes : List UInt8) : List UInt8 :=
  (bytes.drop offPayload).take ((udpLength bytes).toNat - sizeofUdpHeader)

end LitexDtls.LiteEth
