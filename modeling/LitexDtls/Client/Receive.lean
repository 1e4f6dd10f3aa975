import LitexDtls.Client.Calls

/-!
# Whose bytes the client hands to wolfSSL

`Traced` is the unconditional part: every string handed over is the payload of a datagram
that came in with an accepted frame, cut to the mailbox and to the caller's buffer. The
source of that frame is stored and never looked at, and the length that is cut is the one
its UDP header announces, so the two results about the sender and about the bytes of the
frame hold under a condition on the frames that arrive.
-/
namespace LitexDtls.Client
open Library LiteEth

variable (ready : Nat → Bool) (sched : Nat → Option RxFrame)

/-- The fields of `g_rx` after `udp_rx_cb` has stored a datagram. -/
theorem store_of_accepts (m : Mem UInt8) {f : RxFrame} (a : RxState) (h : Accepts f) :
    store m f a =
      { a with
        gRx := ⟨true, f.srcIp, f.srcPort, f.dstPort, min f.announced dtlsMaxRx,
          a.gRx.data.write 0 (m.read f.payloadAddr (min f.announced dtlsMaxRx))⟩
        origin := ⟨f.srcIp, f.srcPort, f.dstPort, m.read f.payloadAddr f.announced⟩
        accepted := a.accepted ++
          [⟨f.srcIp, f.srcPort, f.dstPort, m.read f.payloadAddr f.announced⟩] } := by
  have hcap : (if f.announced > dtlsMaxRx then dtlsMaxRx else f.announced) =
      min f.announced dtlsMaxRx := by split_ifs <;> omega
  simp [store, udpRxCb, h.2, hcap]

theorem copyLen_eq (g : UdpRxState) (sz : Int32) :
    copyLen g sz = min g.length sz.toUInt32.toNat := by
  unfold copyLen
  split_ifs <;> omega

/-- What `dtls_io_recv` returns is what its history entry says. -/
theorem dtlsIoRecv_result (ctx : Option DtlsNetCtx) (sz : Int32) (resends : List SendCall)
    (s : UdpState RxState) :
    (recvLoop ready sched dtlsIoTimeoutLoops s).app.gRx.ready = true ∧
      (dtlsIoRecv ready sched ctx sz resends s).2.app.handed =
        (recvLoop ready sched dtlsIoTimeoutLoops s).app.handed ++
          [⟨(recvLoop ready sched dtlsIoTimeoutLoops s).app.origin,
            (recvLoop ready sched dtlsIoTimeoutLoops s).polls, sz,
            (dtlsIoRecv ready sched ctx sz resends s).1.2⟩] ∨
    (dtlsIoRecv ready sched ctx sz resends s).1 = (wolfsslCbioErrWantRead, []) ∧
      (dtlsIoRecv ready sched ctx sz resends s).2.app =
        (recvLoop ready sched dtlsIoTimeoutLoops s).app := by
  unfold dtlsIoRecv
  dsimp only
  split_ifs with hr
  · exact .inr ⟨rfl, (sends_frame ready resends _).app⟩
  · exact .inl ⟨by simpa using hr, rfl⟩

/-- The delivery of a receive call whose first poll finds the frame `f`. -/
def deliveryOf (f : RxFrame) (sz : Int32) (s : UdpState RxState) : Delivery :=
  let m := (receive f s).mem
  ⟨⟨f.srcIp, f.srcPort, f.dstPort, m.read f.payloadAddr f.announced⟩, s.polls + 1, sz,
    m.read f.payloadAddr (min (min f.announced dtlsMaxRx) sz.toUInt32.toNat)⟩

theorem handed_of_arrival {s : UdpState RxState} (hs : Installed s) {f : RxFrame}
    (h : arrival sched s = some f) (ctx : Option DtlsNetCtx) (sz : Int32)
    (resends : List SendCall) :
    (dtlsIoRecv ready sched ctx sz resends s).2.app.handed =
      s.app.handed ++ [deliveryOf f sz s] := by
  have hacc := (arrival_eq_some sched h).2
  have polls := (udpService_rest ready sched s).2.2
  have bytes (data : Mem UInt8) (l : List UInt8) :
      (data.write 0 l).read 0 (min l.length sz.toUInt32.toNat) = l.take sz.toUInt32.toNat := by
    rw [Nat.min_comm, ← Mem.take_read, Mem.read_write]
  rw [dtlsIoRecv_of_arrival ready sched hs h]
  simp only [handOver, poll_of_arrival ready sched hs h, store_of_accepts _ _ hacc, polls,
    copyLen_eq, deliveryOf]
  have read := bytes s.app.gRx.data
    ((receive f s).mem.read f.payloadAddr (min f.announced dtlsMaxRx))
  rw [Mem.length_read] at read
  rw [read, Mem.take_read, Nat.min_comm sz.toUInt32.toNat]

/-! ## Every string handed over belongs to a datagram -/

/-- The datagram came in with an accepted frame that one of the first `n` polls found. -/
def CameWith (n : Nat) (d : Datagram) : Prop :=
  ∃ i < n, ∃ f, sched i = some f ∧ Accepts f ∧ d.srcIp = f.srcIp ∧ d.srcPort = f.srcPort ∧
    d.dstPort = f.dstPort ∧ d.payload.length = f.announced

theorem CameWith.mono {sched : Nat → Option RxFrame} {n k : Nat} {d : Datagram}
    (h : CameWith sched n d) (hnk : n ≤ k) : CameWith sched k d := by
  obtain ⟨i, hi, f⟩ := h
  exact ⟨i, hi.trans_le hnk, f⟩

/-- After `n` polls `g_rx` holds the datagram `origin`, as far as it fits. -/
structure Holds (n : Nat) (a : RxState) : Prop where
  came : CameWith sched n a.origin
  length : a.gRx.length = min a.origin.payload.length dtlsMaxRx
  data : a.gRx.data.read 0 a.gRx.length = a.origin.payload.take dtlsMaxRx

/-- A string handed over is the payload of its datagram, as far as it fits. -/
structure Delivered (n : Nat) (d : Delivery) : Prop where
  came : CameWith sched n d.origin
  bytes : d.bytes = d.origin.payload.take (min dtlsMaxRx d.sz.toUInt32.toNat)

structure Traced (s : UdpState RxState) : Prop where
  installed : Installed s
  held : s.app.gRx.ready = true → Holds sched s.polls s.app
  handed : ∀ d ∈ s.app.handed, Delivered sched s.polls d

theorem Holds.of_store {s : UdpState RxState} {f : RxFrame} (h : arrival sched s = some f) :
    Holds sched (s.polls + 1) (store (receive f s).mem f s.app) := by
  obtain ⟨hf, hacc⟩ := arrival_eq_some sched h
  rw [store_of_accepts _ _ hacc]
  constructor
  · exact ⟨s.polls, by omega, f, hf, hacc, rfl, rfl, rfl, Mem.length_read _ _ _⟩
  · simp
  · rw [Mem.read_write_of_length _ _ _ (Mem.length_read _ _ _).symm, Mem.take_read, Nat.min_comm]

/-- The copy of `dtls_io_recv` out of a full mailbox. -/
theorem Holds.delivered {n : Nat} {a : RxState} (h : Holds sched n a) (sz : Int32) :
    Delivered sched n ⟨a.origin, n, sz, a.gRx.data.read 0 (copyLen a.gRx sz)⟩ := by
  refine ⟨h.came, ?_⟩
  have hread : a.gRx.data.read 0 (copyLen a.gRx sz) =
      (a.gRx.data.read 0 a.gRx.length).take sz.toUInt32.toNat := by
    rw [Mem.take_read, copyLen_eq, Nat.min_comm]
  dsimp only
  rw [hread, h.data, List.take_take, Nat.min_comm]

theorem Traced.preserved : Preserved ready sched (Traced sched) where
  frame {s t} f h := by
    refine ⟨(Installed.preserved ready sched).frame f h.installed, ?_, ?_⟩
    · rw [f.app, f.polls]
      exact h.held
    · rw [f.app, f.polls]
      exact h.handed
  poll {s} h := by
    have polls := (udpService_rest ready sched s).2.2
    have later (d : Delivery) (hd : Delivered sched s.polls d) :
        Delivered sched (s.polls + 1) d := ⟨hd.came.mono (Nat.le_succ _), hd.bytes⟩
    refine ⟨(Installed.preserved ready sched).poll h.installed, ?_, ?_⟩ <;> rw [polls]
    · intro hr
      cases ha : arrival sched s with
      | some f =>
        rw [poll_of_arrival ready sched h.installed ha]
        exact .of_store sched ha
      | none =>
        rw [poll_of_no_arrival ready sched h.installed ha] at hr ⊢
        obtain ⟨came, length, data⟩ := h.held hr
        exact ⟨came.mono (Nat.le_succ _), length, data⟩
    · intro d hd
      refine later d (h.handed d ?_)
      cases ha : arrival sched s with
      | some f =>
        rwa [poll_of_arrival ready sched h.installed ha,
          store_of_accepts _ _ (arrival_eq_some sched ha).2] at hd
      | none => rwa [poll_of_no_arrival ready sched h.installed ha] at hd
  handOver {s} sz hr h := by
    refine ⟨(Installed.preserved ready sched).handOver sz hr h.installed, ?_, ?_⟩
    · intro hr'
      exact absurd hr' (by simp [handOver, udpRxReset])
    · intro d hd
      rcases List.mem_append.mp hd with hd | hd
      · exact h.handed d hd
      · rw [List.mem_singleton.mp hd]
        exact (h.held hr).delivered sched sz

theorem traced_installed (s : UdpState RxState) : Traced sched (installed s) := by
  refine ⟨installed_installed s, ?_, ?_⟩
  · intro hr
    exact absurd hr (by simp [installed, udpRxReset])
  · intro d hd
    exact absurd hd (by simp [installed])

theorem traced_run (ctx : DtlsNetCtx) (s : UdpState RxState) (calls : List Call) :
    Traced sched (run (step ready sched ctx) (installed s) calls) :=
  (Traced.preserved ready sched).run ctx (traced_installed sched s) calls

/-! ## The sender -/

/-- Source and destination of a datagram of the session with the peer in `ctx`. -/
def FromPeer (ctx : DtlsNetCtx) (d : Datagram) : Prop :=
  d.srcIp = ctx.peerIp ∧ d.srcPort = ctx.peerPort ∧ d.dstPort = dtlsClientPort

/-- When every frame that `udp_rx_cb` stores comes from the peer, so does every string that
`dtls_io_recv` hands to wolfSSL. -/
theorem handed_from_peer (ctx : DtlsNetCtx) (s : UdpState RxState) (calls : List Call)
    (honest : ∀ i < (run (step ready sched ctx) (installed s) calls).polls, ∀ f,
      sched i = some f → Accepts f → f.srcIp = ctx.peerIp ∧ f.srcPort = ctx.peerPort) :
    ∀ d ∈ (run (step ready sched ctx) (installed s) calls).app.handed,
      FromPeer ctx d.origin ∧
        d.bytes = d.origin.payload.take (min dtlsMaxRx d.sz.toUInt32.toNat) := by
  intro d hd
  obtain ⟨came, bytes⟩ := (traced_run ready sched ctx s calls).handed d hd
  obtain ⟨i, hi, f, hf, hacc, hip, hport, hdst, _⟩ := came
  obtain ⟨peerIp, peerPort⟩ := honest i hi f hf hacc
  exact ⟨⟨hip.trans peerIp, hport.trans peerPort, hdst.trans hacc.2⟩, bytes⟩

/-- A datagram of 192.168.1.100:6000, the server. -/
def serverFrame : RxFrame :=
  udpRxFrame kRemoteIp kLocalIp dtlsServerPort dtlsClientPort 9 0xb6e9 [0x17] (by decide)

/-- The same datagram sent by 192.168.1.77:5353. -/
def strangerFrame : RxFrame :=
  udpRxFrame 0xc0a8014d kLocalIp 5353 dtlsClientPort 9 0xb700 [0x17] (by decide)

/-- The first receive call on a network in which every poll finds the same frame. -/
theorem first_handed {f : RxFrame} (h : Accepts f) :
    deliveryOf f 1500 (installed resetState) ∈
      (run (step (fun _ => true) (fun _ => some f) net) (installed resetState)
        [.recv 1500 []]).app.handed := by
  have arrives : arrival (fun _ => some f) (installed resetState) = some f :=
    arrival_of_accepts _ rfl h
  rw [run_cons, run_nil, step, handed_of_arrival _ _ (installed_installed resetState) arrives]
  simp

theorem handed_from_peer_server :
    FromPeer net (deliveryOf serverFrame 1500 (installed resetState)).origin ∧
      (deliveryOf serverFrame 1500 (installed resetState)).bytes =
        (deliveryOf serverFrame 1500 (installed resetState)).origin.payload.take
          (min dtlsMaxRx (1500 : Int32).toUInt32.toNat) :=
  handed_from_peer (fun _ => true) (fun _ => some serverFrame) net resetState [.recv 1500 []] (by
    rintro i _ f hf _
    cases hf
    decide) _ (first_handed (by decide))

/-- A datagram of a stranger reaches wolfSSL. -/
theorem handed_from_stranger :
    ¬ ∀ (ready : Nat → Bool) (sched : Nat → Option RxFrame) (ctx : DtlsNetCtx)
      (s : UdpState RxState) (calls : List Call),
      ∀ d ∈ (run (step ready sched ctx) (installed s) calls).app.handed,
        FromPeer ctx d.origin ∧
          d.bytes = d.origin.payload.take (min dtlsMaxRx d.sz.toUInt32.toNat) := by
  intro h
  have stranger := (h (fun _ => true) (fun _ => some strangerFrame) net resetState
    [.recv 1500 []] _ (first_handed (by decide))).1.1
  exact absurd stranger (by decide)

end LitexDtls.Client
