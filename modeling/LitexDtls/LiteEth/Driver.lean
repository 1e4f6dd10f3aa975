import LitexDtls.LiteEth.Frame

/-!
# The LiteEth UDP driver

`libliteeth/udp.c` as state passing. The static variables of the file, the slot memory of
the MAC and the application state that the receive callback may change form one record,
generic in the type of the application state.

Two schedules stand for the hardware: `ready` answers the successive reads of
`ethmac_sram_reader_ready`, and `sched` tells which received frame, if any, the successive
calls of `udp_service` find pending. Everything below holds for every schedule.
-/
namespace LitexDtls.LiteEth
open Library

/-- `udp_callback`: slot memory, source address and port, destination port, address and
length of the payload, and the application state. -/
abbrev UdpCallback (γ : Type) :=
  Mem UInt8 → UInt32 → UInt16 → UInt16 → Nat → Nat → γ → γ

structure UdpState (γ : Type) where
  /-- Slot memory of the MAC, from `ETHMAC_BASE` on. -/
  mem : Mem UInt8
  /-- Frames started so far (`ethmac_sram_reader_start_write`), oldest first. -/
  started : List TxFrame
  /-- Number of reads of `ethmac_sram_reader_ready` so far. -/
  readyReads : Nat
  /-- Number of calls of `udp_service` so far. -/
  polls : Nat
  rxslot : Nat
  rxlen : Nat
  txslot : Nat
  txlen : Nat
  myMac : MacAddr
  myIp : UInt32
  cachedMac : MacAddr
  cachedIp : UInt32
  rxCallback : Option (UdpCallback γ)
  app : γ

namespace UdpState

variable {γ : Type}

def rxbuffer (s : UdpState γ) : Nat := slotAddr s.rxslot
def txbuffer (s : UdpState γ) : Nat := slotAddr (ethmacRxSlots + s.txslot)

end UdpState

section

variable {γ : Type} (ready : Nat → Bool) (sched : Nat → Option RxFrame)

/-! ## Transmission -/

/-- Bound of the wait loop of `send_packet`. -/
def txWaitLoops : Nat := 1000000

/-- The wait loop with `left` further failed reads allowed: the number of reads afterwards
and whether the last one found the buffer ready. -/
def waitReady : Nat → Nat → Nat × Bool
  | 0, reads => (reads + 1, ready reads)
  | left + 1, reads => if ready reads then (reads + 1, true) else waitReady left (reads + 1)

/-- The end of `send_packet`: start command and rotation to the next transmit slot. -/
def startWrite (s : UdpState γ) : UdpState γ :=
  { s with
    started := s.started ++ [⟨s.txslot, s.txlen, s.mem.read s.txbuffer s.txlen⟩]
    txslot := (s.txslot + 1) % ethmacTxSlots }

/-- `send_packet`, which gives up without a trace for its caller when the buffer is
never ready. -/
def sendPacket (s : UdpState γ) : UdpState γ :=
  match waitReady ready txWaitLoops s.readyReads with
  | (reads, true) => startWrite { s with readyReads := reads }
  | (reads, false) => { s with readyReads := reads }

/-- `udp_get_tx_buffer`. -/
def udpGetTxBuffer (s : UdpState γ) : Nat := s.txbuffer + offPayload

/-- The part of `udp_send` before `send_packet`: frame length, headers and checksums. -/
def udpSendFill (srcPort dstPort : UInt16) (length : Nat) (s : UdpState γ) : UdpState γ :=
  let tx := s.txbuffer
  let udpLen := UInt16.ofNat (length + sizeofUdpHeader)
  let m := fillEthHeader s.mem tx s.cachedMac s.myMac ethertypeIp
  let m := m.write (tx + offContents)
    (ipHeaderChecked (UInt16.ofNat (length + sizeofUdpFrame)) ipProtoUdp s.myIp s.cachedIp)
  let m := m.write (tx + offUdp) (udpHeader srcPort dstPort udpLen 0)
  let r := ipChecksum 0 (pseudoHeader s.myIp s.cachedIp udpLen) false
  let m := if length % 2 = 1 then m.write (tx + offPayload + length) [0] else m
  let r := ipChecksum r (m.read (tx + offUdp) (sizeofUdpHeader + (length + length % 2))) true
  { s with
    mem := m.write (tx + offUdpChecksum) (be16 (UInt16.ofNat r))
    txlen := max (length + sizeofEthernetHeader + sizeofUdpFrame) arpPacketLength }

/-- `udp_send`. -/
def udpSend (srcPort dstPort : UInt16) (length : Nat) (s : UdpState γ) : Int × UdpState γ :=
  if s.cachedMac.isZero then (0, s)
  else (1, sendPacket ready (udpSendFill srcPort dstPort length s))

/-! ## Reception -/

/-- Build an ARP packet in the transmit slot and send it. -/
def sendArp (destmac : MacAddr) (opcode : UInt16) (targetMac : MacAddr) (targetIp : UInt32)
    (s : UdpState γ) : UdpState γ :=
  let m := fillEthHeader s.mem s.txbuffer destmac s.myMac ethertypeArp
  sendPacket ready { s with
    mem := m.write (s.txbuffer + offContents) (arpFrame opcode s.myMac s.myIp targetMac targetIp)
    txlen := arpPacketLength }

/-- `process_arp`. -/
def processArp (s : UdpState γ) : UdpState γ :=
  let rx := s.rxbuffer
  let senderMac := readMac s.mem (rx + offArpSenderMac)
  let senderIp := s.mem.get32 (rx + offArpSenderIp)
  if s.rxlen < arpPacketLength then s
  else if s.mem.get16 (rx + offArpHwtype) ≠ arpHwtypeEthernet then s
  else if s.mem.get16 (rx + offArpProto) ≠ arpProtoIp then s
  else if s.mem (rx + offArpHwsize) ≠ 6 then s
  else if s.mem (rx + offArpProtosize) ≠ 4 then s
  else if s.mem.get16 (rx + offArpOpcode) = arpOpcodeReply then
    if senderIp = s.cachedIp then { s with cachedMac := senderMac } else s
  else if s.mem.get16 (rx + offArpOpcode) = arpOpcodeRequest then
    if s.mem.get32 (rx + offArpTargetIp) = s.myIp then
      sendArp ready senderMac arpOpcodeReply senderMac senderIp s
    else s
  else s

/-- The copy loop of `process_icmp`, one byte after the other. -/
def copyLoop (m : Mem UInt8) (dst src : Nat) : Nat → Mem UInt8
  | 0 => m
  | n + 1 => let c := copyLoop m dst src n; c.write (dst + n) [c (src + n)]

/-- `process_icmp`: an echo request is answered; an echo reply changes nothing but the
bookkeeping of `send_ping`, which the client never calls. -/
def processIcmp (s : UdpState γ) : UdpState γ :=
  let rx := s.rxbuffer
  let tx := s.txbuffer
  let totalLength := (s.mem.get16 (rx + offIpTotalLength)).toNat
  if s.rxlen < sizeofEthernetHeader + sizeofIcmpFrame then s
  else if totalLength < sizeofIcmpFrame then s
  else if s.mem (rx + offIcmpType) = icmpEcho then
    let length := totalLength - sizeofIcmpFrame
    let m := fillEthHeader s.mem tx (readMac s.mem (rx + offSrcmac)) s.myMac ethertypeIp
    let m := m.write (tx + offContents) (ipHeaderChecked (UInt16.ofNat totalLength) ipProtoIcmp
      s.myIp (m.get32 (rx + offIpSrcIp)))
    let m := m.write (tx + offIcmpType) [icmpEchoReply, 0]
    let m := m.write (tx + offIcmpIdentifier) (m.read (rx + offIcmpIdentifier) 4)
    let m := copyLoop m (tx + offPayload) (rx + offPayload) length
    let m := m.write (tx + offIcmpChecksum) (be16 0)
    let r := ipChecksum 0 (m.read (tx + offIcmpType) (length + sizeofIcmpHeader)) true
    sendPacket ready { s with
      mem := m.write (tx + offIcmpChecksum) (be16 (UInt16.ofNat r))
      txlen := length + sizeofEthernetHeader + sizeofIcmpFrame }
  else s

/-- `process_udp`: header checks, then the receive callback with the length that the UDP
header announces. -/
def processUdp (s : UdpState γ) : UdpState γ :=
  let rx := s.rxbuffer
  if s.rxlen < sizeofEthernetHeader + sizeofUdpFrame then s
  else if (s.mem.get16 (rx + offIpTotalLength)).toNat < sizeofUdpFrame then s
  else if s.mem (rx + offIpProto) ≠ ipProtoUdp then s
  else if (s.mem.get16 (rx + offUdpLength)).toNat < sizeofUdpHeader then s
  else if s.mem.get32 (rx + offIpDstIp) ≠ s.myIp then s
  else match s.rxCallback with
    | none => s
    | some callback => { s with
        app := callback s.mem (s.mem.get32 (rx + offIpSrcIp)) (s.mem.get16 (rx + offUdpSrcPort))
          (s.mem.get16 (rx + offUdpDstPort)) (rx + offPayload)
          ((s.mem.get16 (rx + offUdpLength)).toNat - sizeofUdpHeader) s.app }

/-- `process_frame`. -/
def processFrame (s : UdpState γ) : UdpState γ :=
  let rx := s.rxbuffer
  if s.mem.get16 (rx + offEthertype) = ethertypeArp then processArp ready s
  else if s.mem.get16 (rx + offEthertype) = ethertypeIp then
    if s.mem (rx + offIpVersion) ≠ ipIpv4 then s
    else if s.mem.get32 (rx + offIpDstIp) ≠ s.myIp then s
    else if s.mem (rx + offIpProto) = ipProtoUdp then processUdp s
    else if s.mem (rx + offIpProto) = ipProtoIcmp then processIcmp ready s
    else s
  else s

/-- The state in which `udp_service` processes a pending frame: the MAC has overwritten the
first `rxlen` bytes of the slot and left the rest of it as it was. -/
def receive (f : RxFrame) (s : UdpState γ) : UdpState γ :=
  { s with
    mem := s.mem.write (slotAddr f.slot) f.bytes
    rxslot := f.slot
    rxlen := f.bytes.length }

/-- `udp_service`. -/
def udpService (s : UdpState γ) : UdpState γ :=
  let next := { s with polls := s.polls + 1 }
  match sched s.polls with
  | none => next
  | some f => processFrame ready (receive f next)

/-! ## Set-up and address resolution -/

/-- `udp_start`. -/
def udpStart (macaddr : MacAddr) (ip : UInt32) (s : UdpState γ) : UdpState γ :=
  { s with
    myIp := ip
    myMac := macaddr
    cachedIp := 0
    cachedMac := Vector.replicate 6 0
    txslot := 0
    rxslot := 0
    rxCallback := none }

/-- `udp_set_callback`. -/
def udpSetCallback (callback : Option (UdpCallback γ)) (s : UdpState γ) : UdpState γ :=
  { s with rxCallback := callback }

/-- Number of polls for a reply after one ARP request, and number of requests. -/
def arpTimeoutLoops : Nat := 100000
def arpTries : Nat := 8

/-- The inner loop of `udp_arp_resolve`. -/
def arpWait : Nat → UdpState γ → Int × UdpState γ
  | 0, s => (0, s)
  | left + 1, s =>
    let next := udpService ready sched s
    if next.cachedMac.isZero then arpWait left next else (1, next)

/-- The outer loop of `udp_arp_resolve`. -/
def arpRequests (ip : UInt32) : Nat → UdpState γ → Int × UdpState γ
  | 0, s => (0, s)
  | left + 1, s =>
    match arpWait ready sched arpTimeoutLoops
      (sendArp ready broadcast arpOpcodeRequest (Vector.replicate 6 0) ip s) with
    | (0, next) => arpRequests ip left next
    | (_, next) => (1, next)

/-- `udp_arp_resolve`. -/
def udpArpResolve (ip : UInt32) (s : UdpState γ) : Int × UdpState γ :=
  if s.cachedIp = ip ∧ s.cachedMac.isZero = false then (1, s)
  else arpRequests ready sched ip arpTries
    { s with cachedIp := ip, cachedMac := Vector.replicate 6 0 }

end

end LitexDtls.LiteEth
