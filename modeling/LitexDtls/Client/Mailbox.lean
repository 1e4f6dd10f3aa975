import LitexDtls.LiteEth.DriverFacts

/-!
# The client's receive mailbox and I/O callbacks

`g_rx`, `udp_rx_cb`, `dtls_io_recv` and `dtls_io_send` of `boot/main.c`. The record around
`g_rx` keeps three histories that the code does not have: the datagrams that `udp_rx_cb`
has accepted, the last one of them, and the byte strings that `dtls_io_recv` has handed to
wolfSSL. No definition reads a history to decide anything.
-/
namespace LitexDtls.Client
open Library LiteEth

def kLocalMac : MacAddr := #v[0x02, 0x11, 0x22, 0x33, 0x44, 0x55]
/-- `IPTOINT(192, 168, 1, 50)`. -/
def kLocalIp : UInt32 := 0xc0a80132
/-- `IPTOINT(192, 168, 1, 100)`. -/
def kRemoteIp : UInt32 := 0xc0a80164

def dtlsClientPort : UInt16 := 60000
def dtlsServerPort : UInt16 := 6000
def dtlsMaxRx : Nat := 1600
def dtlsIoTimeoutLoops : Nat := 8000000

def wolfsslCbioErrGeneral : Int32 := -1
def wolfsslCbioErrWantRead : Int32 := -2

/-- `udp_rx_state_t`; cells of `data` from `dtlsMaxRx` on lie outside the array. -/
structure UdpRxState where
  ready : Bool
  srcIp : UInt32
  srcPort : UInt16
  dstPort : UInt16
  length : Nat
  data : Mem UInt8

/-- A datagram as `process_udp` passes it to the callback. -/
structure Datagram where
  srcIp : UInt32
  srcPort : UInt16
  dstPort : UInt16
  payload : List UInt8
  deriving DecidableEq, Repr

/-- A byte string handed to wolfSSL: the datagram that `g_rx` held, how often `udp_service`
had been called, and the room in the caller's buffer. -/
structure Delivery where
  origin : Datagram
  polls : Nat
  sz : Int32
  bytes : List UInt8
  deriving DecidableEq, Repr

/-- `g_rx` and its histories. -/
structure RxState where
  gRx : UdpRxState
  origin : Datagram
  accepted : List Datagram
  handed : List Delivery

/-- `udp_rx_cb`. -/
def udpRxCb : UdpCallback RxState := fun mem srcIp srcPort dstPort data length s =>
  if dstPort ≠ dtlsClientPort then s
  else
    let capped := if length > dtlsMaxRx then dtlsMaxRx else length
    let datagram : Datagram := ⟨srcIp, srcPort, dstPort, mem.read data length⟩
    { s with
      gRx := {
        ready := true
        srcIp := srcIp
        srcPort := srcPort
        dstPort := dstPort
        length := capped
        data := s.gRx.data.write 0 (mem.read data capped) }
      origin := datagram
      accepted := s.accepted ++ [datagram] }

/-- `udp_rx_reset`. -/
def udpRxReset (g : UdpRxState) : UdpRxState := { g with ready := false, length := 0 }

/-- `dtls_net_ctx_t`. -/
structure DtlsNetCtx where
  peerIp : UInt32
  peerPort : UInt16
  deriving DecidableEq, Repr

/-- The context that `run_dtls13_demo` installs for reading and for writing. -/
def net : DtlsNetCtx := ⟨kRemoteIp, dtlsServerPort⟩

section

variable (ready : Nat → Bool) (sched : Nat → Option RxFrame)

/-- `dtls_io_send`. -/
def dtlsIoSend {γ : Type} (ctx : Option DtlsNetCtx) (buf : Mem UInt8) (sz : Int32)
    (s : UdpState γ) : Int32 × UdpState γ :=
  match ctx with
  | none => (wolfsslCbioErrGeneral, s)
  | some net =>
    if sz ≤ 0 ∨ sz.toInt > dtlsMaxRx then (wolfsslCbioErrGeneral, s)
    else
      let n := sz.toInt.toNat
      match udpSend ready dtlsClientPort net.peerPort n
        { s with mem := s.mem.write (udpGetTxBuffer s) (buf.read 0 n) } with
      | (0, t) => (wolfsslCbioErrGeneral, t)
      | (_, t) => (sz, t)

/-- The polling loop of `dtls_io_recv`. -/
def recvLoop : Nat → UdpState RxState → UdpState RxState
  | 0, s => s
  | left + 1, s =>
    let next := udpService ready sched s
    if next.app.gRx.ready then next else recvLoop left next

/-- `copy_len` of `dtls_io_recv`. -/
def copyLen (g : UdpRxState) (sz : Int32) : Nat :=
  if g.length > sz.toUInt32.toNat then sz.toUInt32.toNat else g.length

/-- The end of `dtls_io_recv`: copy out of `g_rx` and mark it empty. -/
def handOver (sz : Int32) (s : UdpState RxState) : UdpState RxState :=
  { s with app := { s.app with
      gRx := udpRxReset s.app.gRx
      handed := s.app.handed ++
        [⟨s.app.origin, s.polls, sz, s.app.gRx.data.read 0 (copyLen s.app.gRx sz)⟩] } }

/-- A `dtls_io_send` call with its arguments. -/
structure SendCall where
  ctx : Option DtlsNetCtx
  buf : Mem UInt8
  sz : Int32

def SendCall.run {γ : Type} (s : UdpState γ) (c : SendCall) : UdpState γ :=
  (dtlsIoSend ready c.ctx c.buf c.sz s).2

/-- `dtls_io_recv`, which ignores its context argument: the result and the bytes copied to
the caller's buffer. `resends` are the sends that `wolfSSL_dtls_got_timeout` makes. -/
def dtlsIoRecv (_ctx : Option DtlsNetCtx) (sz : Int32) (resends : List SendCall)
    (s : UdpState RxState) : (Int32 × List UInt8) × UdpState RxState :=
  let t := recvLoop ready sched dtlsIoTimeoutLoops s
  if t.app.gRx.ready = false then
    ((wolfsslCbioErrWantRead, []), resends.foldl (SendCall.run ready) t)
  else
    let n := copyLen t.app.gRx sz
    ((Int32.ofNat n, t.app.gRx.data.read 0 n), handOver sz t)

end

end LitexDtls.Client
