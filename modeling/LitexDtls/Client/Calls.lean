import LitexDtls.Client.Mailbox
import LitexDtls.Library.Run

/-!
# Runs of the client's receive path

After `udp_set_callback(udp_rx_cb)` the driver and `g_rx` are changed by address resolution,
by polls and by wolfSSL's calls of the two I/O callbacks, in any order. A fact about such a
run is proved for three atomic changes: one poll, one hand-over to wolfSSL, and a change of
transmission state that `g_rx` does not see (`Preserved`).
-/
namespace LitexDtls.Client
open Library LiteEth

variable (ready : Nat → Bool) (sched : Nat → Option RxFrame)

/-- What happens to the client's network state once the callback is installed. -/
inductive Call where
  /-- `udp_arp_resolve`. -/
  | arpResolve (ip : UInt32)
  /-- One further call of `udp_service`. -/
  | service
  /-- `dtls_io_recv`; `resends` are the sends of `wolfSSL_dtls_got_timeout`. -/
  | recv (sz : Int32) (resends : List SendCall)
  /-- `dtls_io_send`. -/
  | send (call : SendCall)

/-- One call, with `ctx` installed as the read context. -/
def step (ctx : DtlsNetCtx) (s : UdpState RxState) : Call → UdpState RxState
  | .arpResolve ip => (udpArpResolve ready sched ip s).2
  | .service => udpService ready sched s
  | .recv sz resends => (dtlsIoRecv ready sched (some ctx) sz resends s).2
  | .send call => call.run ready s

/-- The state after `udp_start`, `udp_set_callback(udp_rx_cb)` and `udp_rx_reset`, whatever
the memory, the slots and `g_rx` held before. The histories and the poll counter start here. -/
def installed (s : UdpState RxState) : UdpState RxState :=
  { udpSetCallback (some udpRxCb) (udpStart kLocalMac kLocalIp s) with
    polls := 0
    app := { s.app with gRx := udpRxReset s.app.gRx, accepted := [], handed := [] } }

/-! ## The atomic changes -/

theorem dtlsIoSend_frame {γ : Type} (ctx : Option DtlsNetCtx) (buf : Mem UInt8) (sz : Int32)
    (s : UdpState γ) : AppFrame s (dtlsIoSend ready ctx buf sz s).2 := by
  unfold dtlsIoSend
  cases ctx with
  | none => exact .refl s
  | some net =>
    dsimp only
    split_ifs
    · exact .refl s
    · have fill (m : Mem UInt8) : AppFrame s { s with mem := m } := ⟨rfl, rfl, rfl, rfl⟩
      have send := (fill _).trans (udpSend_frame ready dtlsClientPort net.peerPort sz.toInt.toNat
        { s with mem := s.mem.write (udpGetTxBuffer s) (buf.read 0 sz.toInt.toNat) })
      split <;> rename_i he <;> rw [he] at send <;> exact send

theorem sends_frame {γ : Type} (calls : List SendCall) (s : UdpState γ) :
    AppFrame s (calls.foldl (SendCall.run ready) s) := by
  induction calls generalizing s with
  | nil => exact .refl s
  | cons c calls ih => exact (dtlsIoSend_frame ready c.ctx c.buf c.sz s).trans (ih _)

/-- Facts kept by polls and by transmissions. -/
structure PollPreserved (P : UdpState RxState → Prop) : Prop where
  frame : ∀ {s t}, AppFrame s t → P s → P t
  poll : ∀ {s}, P s → P (udpService ready sched s)

/-- Facts kept by all atomic changes. -/
structure Preserved (P : UdpState RxState → Prop) : Prop extends
    PollPreserved ready sched P where
  handOver : ∀ {s} sz, s.app.gRx.ready = true → P s → P (handOver sz s)

namespace PollPreserved

variable {ready sched} {P : UdpState RxState → Prop}

theorem recvLoop (h : PollPreserved ready sched P) (left : Nat) {s : UdpState RxState} (hs : P s) :
    P (recvLoop ready sched left s) := by
  induction left generalizing s with
  | zero => exact hs
  | succ left ih =>
    unfold Client.recvLoop
    dsimp only
    split_ifs
    · exact h.poll hs
    · exact ih (h.poll hs)

theorem arpWait (h : PollPreserved ready sched P) (left : Nat) {s : UdpState RxState} (hs : P s) :
    P (arpWait ready sched left s).2 := by
  induction left generalizing s with
  | zero => exact hs
  | succ left ih =>
    unfold LiteEth.arpWait
    dsimp only
    split_ifs
    · exact ih (h.poll hs)
    · exact h.poll hs

theorem arpRequests (h : PollPreserved ready sched P) (ip : UInt32) (left : Nat)
    {s : UdpState RxState} (hs : P s) : P (arpRequests ready sched ip left s).2 := by
  induction left generalizing s with
  | zero => exact hs
  | succ left ih =>
    have waited := h.arpWait arpTimeoutLoops (h.frame
      (sendArp_frame ready broadcast arpOpcodeRequest (Vector.replicate 6 0) ip s) hs)
    unfold LiteEth.arpRequests
    split <;> rename_i he <;> rw [he] at waited
    · exact ih waited
    · exact waited

theorem arpResolve (h : PollPreserved ready sched P) (ip : UInt32) {s : UdpState RxState}
    (hs : P s) : P (udpArpResolve ready sched ip s).2 := by
  unfold udpArpResolve
  split_ifs
  · exact hs
  · exact h.arpRequests ip arpTries (h.frame (s := s) ⟨rfl, rfl, rfl, rfl⟩ hs)

end PollPreserved

namespace Preserved

variable {ready sched} {P : UdpState RxState → Prop}

theorem dtlsIoRecv (h : Preserved ready sched P) (ctx : Option DtlsNetCtx) (sz : Int32)
    (resends : List SendCall) {s : UdpState RxState} (hs : P s) :
    P (dtlsIoRecv ready sched ctx sz resends s).2 := by
  have looped := h.recvLoop dtlsIoTimeoutLoops hs
  unfold Client.dtlsIoRecv
  dsimp only
  split_ifs with hr
  · exact h.frame (sends_frame ready resends _) looped
  · exact h.handOver sz (by simpa using hr) looped

theorem step (h : Preserved ready sched P) (ctx : DtlsNetCtx) (c : Call)
    {s : UdpState RxState} (hs : P s) : P (step ready sched ctx s c) := by
  cases c with
  | arpResolve ip => exact h.arpResolve ip hs
  | service => exact h.poll hs
  | recv sz resends => exact h.dtlsIoRecv (some ctx) sz resends hs
  | send call => exact h.frame (dtlsIoSend_frame ready call.ctx call.buf call.sz s) hs

/-- The run rule: a preserved fact holds after every list of calls. -/
theorem run (h : Preserved ready sched P) (ctx : DtlsNetCtx) {s : UdpState RxState} (hs : P s)
    (calls : List Call) : P (Library.run (Client.step ready sched ctx) s calls) :=
  run_invariant (fun _ c hp => h.step ctx c hp) hs calls

end Preserved

/-! ## One poll -/

/-- The callback is installed and the driver answers to the client's address. -/
structure Installed (s : UdpState RxState) : Prop where
  rxCallback : s.rxCallback = some udpRxCb
  myIp : s.myIp = kLocalIp

theorem installed_installed (s : UdpState RxState) : Installed (installed s) := ⟨rfl, rfl⟩

theorem Installed.preserved : Preserved ready sched Installed where
  frame f h := ⟨f.rxCallback.trans h.rxCallback, f.myIp.trans h.myIp⟩
  poll h := by
    obtain ⟨hcb, hip, _⟩ := udpService_rest ready sched _
    exact ⟨hcb.trans h.rxCallback, hip.trans h.myIp⟩
  handOver _ _ h := ⟨h.rxCallback, h.myIp⟩

/-- The frames whose datagram `udp_rx_cb` stores. -/
def Accepts (f : RxFrame) : Prop := f.Reaches kLocalIp ∧ f.dstPort = dtlsClientPort

instance (f : RxFrame) : Decidable (Accepts f) := inferInstanceAs (Decidable (_ ∧ _))

/-- The frame that the next poll stores in `g_rx`, if any. -/
def arrival (s : UdpState RxState) : Option RxFrame :=
  (sched s.polls).filter fun f => decide (Accepts f)

/-- `udp_rx_cb` on the datagram of a frame that lies in slot memory. -/
def store (m : Mem UInt8) (f : RxFrame) (a : RxState) : RxState :=
  udpRxCb m f.srcIp f.srcPort f.dstPort f.payloadAddr f.announced a

theorem arrival_eq_some {s : UdpState RxState} {f : RxFrame} (h : arrival sched s = some f) :
    sched s.polls = some f ∧ Accepts f := by
  simpa [arrival, Option.filter_eq_some_iff] using h

theorem arrival_of_accepts {s : UdpState RxState} {f : RxFrame} (h : sched s.polls = some f)
    (hacc : Accepts f) : arrival sched s = some f := by
  simp [arrival, h, hacc]

theorem poll_of_arrival {s : UdpState RxState} (hs : Installed s) {f : RxFrame}
    (h : arrival sched s = some f) :
    (udpService ready sched s).app = store (receive f s).mem f s.app := by
  obtain ⟨hf, hacc⟩ := arrival_eq_some sched h
  have hreach : f.Reaches s.myIp := hs.myIp ▸ hacc.1
  rw [udpService_app, hf]
  simp only [polled, delivered, hs.rxCallback, if_pos hreach]
  rfl

theorem poll_of_no_arrival {s : UdpState RxState} (hs : Installed s)
    (h : arrival sched s = none) : (udpService ready sched s).app = s.app := by
  rw [udpService_app]
  cases hf : sched s.polls with
  | none => rfl
  | some f =>
    have hacc : ¬ Accepts f := by simpa [arrival, hf] using h
    simp only [polled, delivered, hs.rxCallback, hs.myIp]
    split_ifs with hreach
    · have hport : f.dstPort ≠ dtlsClientPort := fun hp => hacc ⟨hreach, hp⟩
      simp [udpRxCb, hport]
    · rfl

/-! ## A receive call that finds a datagram at its first poll -/

theorem recvLoop_of_ready {s : UdpState RxState}
    (h : (udpService ready sched s).app.gRx.ready = true) (left : Nat) :
    recvLoop ready sched (left + 1) s = udpService ready sched s := by
  simp [recvLoop, h]

theorem dtlsIoRecv_of_arrival {s : UdpState RxState} (hs : Installed s) {f : RxFrame}
    (h : arrival sched s = some f) (ctx : Option DtlsNetCtx) (sz : Int32)
    (resends : List SendCall) :
    (dtlsIoRecv ready sched ctx sz resends s).2 = handOver sz (udpService ready sched s) := by
  have hr : (udpService ready sched s).app.gRx.ready = true := by
    rw [poll_of_arrival ready sched hs h]
    simp [store, udpRxCb, (arrival_eq_some sched h).2.2]
  have hloop : recvLoop ready sched dtlsIoTimeoutLoops s = udpService ready sched s :=
    recvLoop_of_ready ready sched hr 7999999
  unfold dtlsIoRecv
  simp [hloop, hr]

/-- A MAC address for the server's host. -/
def serverMac : MacAddr := #v[2, 0, 0, 0, 0, 1]

/-- The state after reset, with an empty memory. -/
def resetState : UdpState RxState where
  mem := fun _ => 0
  started := []
  readyReads := 0
  polls := 0
  rxslot := 0
  rxlen := 0
  txslot := 0
  txlen := 0
  myMac := Vector.replicate 6 0
  myIp := 0
  cachedMac := Vector.replicate 6 0
  cachedIp := 0
  rxCallback := none
  app := ⟨⟨false, 0, 0, 0, 0, fun _ => 0⟩, ⟨0, 0, 0, []⟩, [], []⟩

end LitexDtls.Client
