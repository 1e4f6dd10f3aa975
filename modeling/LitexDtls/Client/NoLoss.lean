import LitexDtls.Client.Receive
import LitexDtls.Library.Mailbox

/-!
# Loss in the client's receive mailbox

`g_rx` refines a one-place mailbox of payloads: a poll that finds an accepted frame is a
`put`, the end of `dtls_io_recv` is a `take`. Address resolution polls with nobody to take,
and `dtls_io_recv` polls once before it looks at `ready`; after the first `dtls_io_recv`
every call starts with an empty mailbox and stops at the first datagram. So a run loses a
datagram exactly when two of them arrive up to the first poll of the first `dtls_io_recv`.
-/
namespace LitexDtls.Client
open Library LiteEth

variable (ready : Nat → Bool) (sched : Nat → Option RxFrame)

/-! ## `g_rx` as a mailbox -/

/-- The abstract mailbox of payloads. -/
def mailbox (a : RxState) : Mailbox (List UInt8) where
  cell := if a.gRx.ready then some (a.gRx.data.read 0 a.gRx.length) else none
  puts := a.accepted.map Datagram.payload
  takes := a.handed.map Delivery.bytes

theorem mailbox_cell_none {a : RxState} : (mailbox a).cell = none ↔ a.gRx.ready = false := by
  cases h : a.gRx.ready <;> simp [mailbox, h]

theorem mailbox_store (m : Mem UInt8) {f : RxFrame} (a : RxState) (h : Accepts f)
    (hfit : f.announced ≤ dtlsMaxRx) :
    mailbox (store m f a) = (mailbox a).put (m.read f.payloadAddr f.announced) := by
  rw [store_of_accepts m a h, Nat.min_eq_left hfit]
  have hread := Mem.read_write_of_length a.gRx.data 0 (m.read f.payloadAddr f.announced)
    (Mem.length_read m f.payloadAddr f.announced).symm
  simp [mailbox, Mailbox.put, hread]

theorem mailbox_handOver {sz : Int32} {s : UdpState RxState} (hr : s.app.gRx.ready = true)
    (hfit : s.app.gRx.length ≤ sz.toUInt32.toNat) :
    mailbox (handOver sz s).app = (mailbox s.app).take := by
  simp [mailbox, Mailbox.take, handOver, udpRxReset, hr, copyLen_eq, Nat.min_eq_left hfit]

/-- No accepted frame announces more than the mailbox or a buffer of `sz` bytes holds. -/
def FitsMailbox : Prop := ∀ i f, sched i = some f → Accepts f → f.announced ≤ dtlsMaxRx
def FitsBuffer (sz : Int32) : Prop :=
  ∀ i f, sched i = some f → Accepts f → f.announced ≤ sz.toUInt32.toNat

variable {sched}

theorem mailbox_poll {s : UdpState RxState} (hs : Installed s) (fits : FitsMailbox sched) :
    (mailbox (udpService ready sched s).app = mailbox s.app ∧ arrival sched s = none) ∨
      ∃ x, mailbox (udpService ready sched s).app = (mailbox s.app).put x ∧
        arrival sched s ≠ none := by
  cases ha : arrival sched s with
  | none => exact .inl ⟨congrArg mailbox (poll_of_no_arrival ready sched hs ha), rfl⟩
  | some f =>
    obtain ⟨hf, hacc⟩ := arrival_eq_some sched ha
    refine .inr ⟨(receive f s).mem.read f.payloadAddr f.announced, ?_, by simp⟩
    rw [poll_of_arrival ready sched hs ha]
    exact mailbox_store _ _ hacc (fits _ f hf hacc)

/-- A full mailbox holds a payload that fits into the caller's buffer. -/
theorem Traced.length_le {s : UdpState RxState} (h : Traced sched s)
    (hr : s.app.gRx.ready = true) {sz : Int32} (fits : FitsBuffer sched sz) :
    s.app.gRx.length ≤ sz.toUInt32.toNat := by
  obtain ⟨⟨i, _, f, hf, hacc, _, _, _, hlen⟩, length, _⟩ := h.held hr
  have := fits i f hf hacc
  omega

/-! ## `dtls_io_recv` -/

/-- A polling loop that starts with an empty mailbox puts at most one datagram into it. -/
theorem mailbox_recvLoop_of_empty (fits : FitsMailbox sched) (left : Nat)
    {s : UdpState RxState} (hs : Installed s) (hr : s.app.gRx.ready = false) :
    mailbox (recvLoop ready sched left s).app = mailbox s.app ∨
      ∃ x, mailbox (recvLoop ready sched left s).app = (mailbox s.app).put x := by
  induction left generalizing s with
  | zero => exact .inl rfl
  | succ left ih =>
    have hs' := (Installed.preserved ready sched).poll hs
    unfold recvLoop
    dsimp only
    rcases mailbox_poll ready hs fits with ⟨same, _⟩ | ⟨x, put, _⟩
    · have hr' : (udpService ready sched s).app.gRx.ready = false := by
        rw [← mailbox_cell_none, same, mailbox_cell_none, hr]
      rw [if_neg (by simp [hr']), ← same]
      exact ih hs' hr'
    · split_ifs with hn
      · exact .inr ⟨x, put⟩
      · exact absurd (mailbox_cell_none.mpr (by simpa using hn)) (by simp [put, Mailbox.put])

/-- A polling loop that starts with a full mailbox polls once. -/
theorem recvLoop_of_full {s : UdpState RxState} (hs : Installed s)
    (hr : s.app.gRx.ready = true) (left : Nat) :
    recvLoop ready sched (left + 1) s = udpService ready sched s := by
  apply recvLoop_of_ready
  cases ha : arrival sched s with
  | none => rw [poll_of_no_arrival ready sched hs ha, hr]
  | some f =>
    rw [poll_of_arrival ready sched hs ha, store_of_accepts _ _ (arrival_eq_some sched ha).2]

/-- The mailbox after `dtls_io_recv` is the one after its loop, emptied. -/
theorem mailbox_recv {s : UdpState RxState} (h : Traced sched s) (ctx : Option DtlsNetCtx)
    {sz : Int32} (resends : List SendCall) (fits : FitsBuffer sched sz) :
    mailbox (dtlsIoRecv ready sched ctx sz resends s).2.app =
      (mailbox (recvLoop ready sched dtlsIoTimeoutLoops s).app).take := by
  have looped := (Traced.preserved ready sched).recvLoop dtlsIoTimeoutLoops h
  unfold dtlsIoRecv
  dsimp only
  split_ifs with hr
  · rw [(sends_frame ready resends _).app, Mailbox.take_of_none (mailbox_cell_none.mpr hr)]
  · have hr' : (recvLoop ready sched dtlsIoTimeoutLoops s).app.gRx.ready = true := by
      simpa using hr
    exact mailbox_handOver hr' (looped.length_le hr' fits)

/-- `dtls_io_recv` loses a datagram exactly when it starts with a full mailbox and another
datagram arrives at its first poll. -/
theorem recv_intact {s : UdpState RxState} (h : Traced sched s) (hb : (mailbox s.app).Bounded)
    (ctx : Option DtlsNetCtx) {sz : Int32} (resends : List SendCall)
    (fitsMailbox : FitsMailbox sched) (fits : FitsBuffer sched sz) :
    (mailbox (dtlsIoRecv ready sched ctx sz resends s).2.app).Intact ↔
      (mailbox s.app).Intact ∧ (s.app.gRx.ready = true → arrival sched s = none) := by
  rw [mailbox_recv ready h ctx resends fits, Mailbox.take_intact]
  cases hr : s.app.gRx.ready with
  | false =>
    have hcell := mailbox_cell_none.mpr hr
    rcases mailbox_recvLoop_of_empty ready fitsMailbox dtlsIoTimeoutLoops
      h.installed hr with same | ⟨x, put⟩
    · simp [same]
    · simp [put, Mailbox.put_intact hb, hcell]
  | true =>
    have hloop : recvLoop ready sched dtlsIoTimeoutLoops s = udpService ready sched s :=
      recvLoop_of_full ready h.installed hr 7999999
    have hcell : (mailbox s.app).cell ≠ none := by simp [mailbox_cell_none, hr]
    rw [hloop]
    rcases mailbox_poll ready h.installed fitsMailbox with ⟨same, ha⟩ | ⟨x, put, ha⟩
    · simp [same, ha]
    · simp [put, Mailbox.put_intact hb, hcell, ha]

/-! ## Address resolution -/

variable (sched)

/-- The frames that the first `n` polls stored in `g_rx`. -/
def arrivals (n : Nat) : List RxFrame :=
  (List.range n).filterMap fun i => (sched i).filter fun f => decide (Accepts f)

theorem arrivals_succ (s : UdpState RxState) :
    arrivals sched (s.polls + 1) = arrivals sched s.polls ++ (arrival sched s).toList := by
  unfold arrivals arrival
  rw [List.range_succ, List.filterMap_append]
  cases h : (sched s.polls).filter fun f => decide (Accepts f) <;> simp [h]

/-- While nobody takes, the mailbox holds the last of the letters put into it. -/
structure Filling (s : UdpState RxState) : Prop where
  installed : Installed s
  takes : (mailbox s.app).takes = []
  cell : (mailbox s.app).cell = (mailbox s.app).puts.getLast?
  puts : (mailbox s.app).puts.length = (arrivals sched s.polls).length

variable {sched}

theorem Filling.pollPreserved (fits : FitsMailbox sched) :
    PollPreserved ready sched (Filling sched) where
  frame {s t} f h := by
    refine ⟨(Installed.preserved ready sched).frame f h.installed, ?_, ?_, ?_⟩ <;> rw [f.app]
    · exact h.takes
    · exact h.cell
    · rw [f.polls]
      exact h.puts
  poll {s} h := by
    have hs' := (Installed.preserved ready sched).poll h.installed
    have polls := (udpService_rest ready sched s).2.2
    rcases mailbox_poll ready h.installed fits with ⟨same, ha⟩ | ⟨x, put, ha⟩
    · refine ⟨hs', ?_, ?_, ?_⟩ <;> rw [same]
      · exact h.takes
      · exact h.cell
      · rw [polls, arrivals_succ, ha]
        simpa using h.puts
    · refine ⟨hs', ?_, ?_, ?_⟩ <;> rw [put]
      · exact h.takes
      · simp [Mailbox.put]
      · rw [polls, arrivals_succ]
        obtain ⟨f, hf⟩ := Option.ne_none_iff_exists'.mp ha
        simp [Mailbox.put, h.puts, hf]

theorem Filling.of_installed (s : UdpState RxState) : Filling sched (Client.installed s) :=
  ⟨installed_installed s, rfl, rfl, rfl⟩

/-- A filling mailbox has lost nothing as long as at most one letter was put into it. -/
theorem Filling.intact {s : UdpState RxState} (h : Filling sched s) :
    (mailbox s.app).Intact ↔ (arrivals sched s.polls).length ≤ 1 := by
  rw [← h.puts]
  unfold Mailbox.Intact
  rw [h.takes, h.cell]
  rcases hp : (mailbox s.app).puts with _ | ⟨x, _ | ⟨y, rest⟩⟩
  · simp
  · simp
  · rw [List.getLast?_eq_some_getLast (by simp)]
    simp

theorem Filling.ready_iff {s : UdpState RxState} (h : Filling sched s) :
    s.app.gRx.ready = true ↔ arrivals sched s.polls ≠ [] := by
  have hcell := mailbox_cell_none (a := s.app)
  rw [h.cell, List.getLast?_eq_none_iff] at hcell
  rw [← Bool.not_eq_false, ← hcell, ← List.length_eq_zero_iff, h.puts, List.length_eq_zero_iff]

/-! ## The run -/

/-- A call that wolfSSL makes. -/
inductive IoCall where
  | recv (sz : Int32) (resends : List SendCall)
  | send (call : SendCall)

def IoCall.toCall : IoCall → Call
  | .recv sz resends => .recv sz resends
  | .send call => .send call

/-- At most as many strings were handed over as datagrams were accepted. -/
structure Counted (sched : Nat → Option RxFrame) (s : UdpState RxState) : Prop where
  traced : Traced sched s
  bounded : (mailbox s.app).Bounded

theorem Counted.preserved (fits : FitsMailbox sched) :
    Preserved ready sched (Counted sched) where
  frame f h := ⟨(Traced.preserved ready sched).frame f h.traced, by rw [f.app]; exact h.bounded⟩
  poll {s} h := by
    refine ⟨(Traced.preserved ready sched).poll h.traced, ?_⟩
    rcases mailbox_poll ready h.traced.installed fits with ⟨same, _⟩ | ⟨x, put, _⟩
    · rw [same]
      exact h.bounded
    · rw [put]
      exact h.bounded.put x
  handOver {s} sz hr h := by
    refine ⟨(Traced.preserved ready sched).handOver sz hr h.traced, ?_⟩
    have hb := h.bounded
    simp [Mailbox.Bounded, mailbox, hr] at hb
    simpa [Mailbox.Bounded, mailbox, Client.handOver, udpRxReset] using hb

/-- The run of `run_dtls13_demo` from `udp_set_callback(udp_rx_cb)` on: address resolution,
then the calls of the I/O callbacks. -/
def demoRun (ready : Nat → Bool) (sched : Nat → Option RxFrame) (ctx : DtlsNetCtx)
    (s : UdpState RxState) (io : List IoCall) : UdpState RxState :=
  run (step ready sched ctx) (udpArpResolve ready sched kRemoteIp (installed s)).2
    (io.map IoCall.toCall)

/-- Once a call has started with an empty mailbox, none loses a datagram. -/
theorem io_intact_of_empty (fits : FitsMailbox sched) (ctx : DtlsNetCtx) {io : List IoCall}
    (fitsBuffer : ∀ sz resends, .recv sz resends ∈ io → FitsBuffer sched sz)
    {s : UdpState RxState} (h : Counted sched s)
    (hcell : (mailbox s.app).cell = none) :
    let t := run (step ready sched ctx) s (io.map IoCall.toCall)
    (mailbox t.app).cell = none ∧ ((mailbox t.app).Intact ↔ (mailbox s.app).Intact) := by
  induction io generalizing s with
  | nil => exact ⟨hcell, Iff.rfl⟩
  | cons c io ih =>
    have next := (Counted.preserved ready fits).step ctx c.toCall h
    have tail := fun sz resends hmem => fitsBuffer sz resends (List.mem_cons_of_mem c hmem)
    cases c with
    | send call =>
      have same : mailbox (step ready sched ctx s (.send call)).app = mailbox s.app :=
        congrArg mailbox (dtlsIoSend_frame ready call.ctx call.buf call.sz s).app
      obtain ⟨cell, intact⟩ := ih tail next (by rw [← hcell]; exact congrArg Mailbox.cell same)
      exact ⟨cell, intact.trans (by rw [IoCall.toCall, same])⟩
    | recv sz resends =>
      have hfit := fitsBuffer sz resends List.mem_cons_self
      have emptied : (mailbox (step ready sched ctx s (.recv sz resends)).app).cell = none :=
        congrArg Mailbox.cell (mailbox_recv ready h.traced (some ctx) resends hfit)
      obtain ⟨cell, intact⟩ := ih tail next emptied
      have kept := recv_intact ready h.traced h.bounded (some ctx) resends fits hfit
      rw [mailbox_cell_none] at hcell
      exact ⟨cell, intact.trans (kept.trans (by simp [hcell]))⟩

/-- The first `dtls_io_recv` of a list of calls is the only one that can lose a datagram. -/
theorem io_intact (fits : FitsMailbox sched) (ctx : DtlsNetCtx) {io : List IoCall}
    (hrecv : ∃ sz resends, .recv sz resends ∈ io)
    (fitsBuffer : ∀ sz resends, .recv sz resends ∈ io → FitsBuffer sched sz)
    {s : UdpState RxState} (h : Counted sched s) :
    let t := run (step ready sched ctx) s (io.map IoCall.toCall)
    (mailbox t.app).cell = none ∧
      ((mailbox t.app).Intact ↔
        (mailbox s.app).Intact ∧ (s.app.gRx.ready = true → arrival sched s = none)) := by
  induction io generalizing s with
  | nil => simp at hrecv
  | cons c io ih =>
    have next := (Counted.preserved ready fits).step ctx c.toCall h
    have tail := fun sz resends hmem => fitsBuffer sz resends (List.mem_cons_of_mem c hmem)
    cases c with
    | send call =>
      have frame := dtlsIoSend_frame ready call.ctx call.buf call.sz s
      obtain ⟨cell, intact⟩ := ih (by simpa using hrecv) tail next
      refine ⟨cell, intact.trans ?_⟩
      have same : (step ready sched ctx s (.send call)).app = s.app := frame.app
      have polls : (step ready sched ctx s (.send call)).polls = s.polls := frame.polls
      rw [IoCall.toCall, same, arrival, arrival, polls]
    | recv sz resends =>
      have hfit := fitsBuffer sz resends List.mem_cons_self
      have emptied : (mailbox (step ready sched ctx s (.recv sz resends)).app).cell = none :=
        congrArg Mailbox.cell (mailbox_recv ready h.traced (some ctx) resends hfit)
      obtain ⟨cell, intact⟩ := io_intact_of_empty ready fits ctx tail next emptied
      exact ⟨cell, intact.trans
        (recv_intact ready h.traced h.bounded (some ctx) resends fits hfit)⟩

theorem demoRun_intact (fits : FitsMailbox sched) (ctx : DtlsNetCtx) (s : UdpState RxState)
    {io : List IoCall} (hrecv : ∃ sz resends, .recv sz resends ∈ io)
    (fitsBuffer : ∀ sz resends, .recv sz resends ∈ io → FitsBuffer sched sz) :
    (mailbox (demoRun ready sched ctx s io).app).cell = none ∧
      ((mailbox (demoRun ready sched ctx s io).app).Intact ↔
        (arrivals sched
          ((udpArpResolve ready sched kRemoteIp (installed s)).2.polls + 1)).length ≤ 1) := by
  have filling := (Filling.pollPreserved ready fits).arpResolve kRemoteIp
    (Filling.of_installed s)
  have counted := (Counted.preserved ready fits).arpResolve kRemoteIp
    (s := installed s) ⟨traced_installed sched s, Mailbox.empty_bounded⟩
  obtain ⟨cell, intact⟩ := io_intact ready fits ctx hrecv fitsBuffer counted
  refine ⟨cell, intact.trans ?_⟩
  rw [filling.intact, filling.ready_iff, arrivals_succ, List.length_append,
    ← List.length_pos_iff]
  cases arrival sched (udpArpResolve ready sched kRemoteIp (installed s)).2 with
  | none => simp
  | some f =>
    simp only [reduceCtorEq, imp_false, Option.toList_some, List.length_singleton]
    omega

/-- A run hands over exactly what was accepted, in order and each once, if and only if at
most one datagram arrives up to the first poll of the first `dtls_io_recv`. -/
theorem handed_eq_accepted_iff (ctx : DtlsNetCtx) (s : UdpState RxState) (io : List IoCall)
    (hrecv : ∃ sz resends, .recv sz resends ∈ io) (fits : FitsMailbox sched)
    (fitsBuffer : ∀ sz resends, .recv sz resends ∈ io → FitsBuffer sched sz) :
    (demoRun ready sched ctx s io).app.handed.map Delivery.bytes =
        (demoRun ready sched ctx s io).app.accepted.map Datagram.payload ↔
      (arrivals sched
        ((udpArpResolve ready sched kRemoteIp (installed s)).2.polls + 1)).length ≤ 1 := by
  obtain ⟨cell, intact⟩ := demoRun_intact ready fits ctx s hrecv fitsBuffer
  exact (Mailbox.intact_of_cell_none cell).symm.trans intact

/-- The server's answer to the client's ARP request, padded to 60 bytes. -/
def arpReplyFrame : RxFrame where
  slot := 1
  bytes := kLocalMac.toList ++ serverMac.toList ++ be16 ethertypeArp ++
    arpFrame arpOpcodeReply serverMac kRemoteIp kLocalMac kLocalIp
  slot_lt := by decide
  fits := by decide

/-- Before the ARP reply come `n` datagrams of the server, one per poll, and none after. -/
def beforeReply (n i : Nat) : Option RxFrame :=
  if i < n then some serverFrame else if i = n then some arpReplyFrame else none

theorem beforeReply_accepts {n i : Nat} {f : RxFrame} (h : beforeReply n i = some f)
    (hacc : Accepts f) : f = serverFrame := by
  unfold beforeReply at h
  split_ifs at h
  · exact (Option.some.inj h).symm
  · cases h
    exact absurd hacc (by decide)

theorem handed_eq_accepted_iff_one :
    (demoRun (fun _ => true) (beforeReply 1) net resetState [.recv 1500 []]).app.handed.map
        Delivery.bytes =
      (demoRun (fun _ => true) (beforeReply 1) net resetState [.recv 1500 []]).app.accepted.map
        Datagram.payload ↔
    (arrivals (beforeReply 1) ((udpArpResolve (fun _ => true) (beforeReply 1) kRemoteIp
      (installed resetState)).2.polls + 1)).length ≤ 1 :=
  handed_eq_accepted_iff _ net resetState _ ⟨1500, [], by simp⟩
    (by
      intro i f h hacc
      rw [beforeReply_accepts h hacc]
      decide)
    (by
      intro sz resends hmem i f h hacc
      rw [beforeReply_accepts h hacc]
      simp at hmem
      rw [hmem.1]
      decide)

/-- The first of two datagrams that arrive before the ARP reply is lost. -/
theorem handed_ne_accepted :
    ¬ ∀ (ready : Nat → Bool) (sched : Nat → Option RxFrame) (ctx : DtlsNetCtx)
      (s : UdpState RxState) (io : List IoCall),
      (∃ sz resends, .recv sz resends ∈ io) → FitsMailbox sched →
      (∀ sz resends, .recv sz resends ∈ io → FitsBuffer sched sz) →
      (demoRun ready sched ctx s io).app.handed.map Delivery.bytes =
        (demoRun ready sched ctx s io).app.accepted.map Datagram.payload := by
  intro h
  have hrecv : ∃ sz resends, IoCall.recv sz resends ∈ [IoCall.recv 1500 []] := ⟨1500, [], by simp⟩
  have fits : FitsMailbox (beforeReply 2) := by
    intro i f hf hacc
    rw [beforeReply_accepts hf hacc]
    decide
  have fitsBuffer : ∀ sz resends, IoCall.recv sz resends ∈ [IoCall.recv 1500 []] →
      FitsBuffer (beforeReply 2) sz := by
    intro sz resends hmem i f hf hacc
    rw [beforeReply_accepts hf hacc]
    simp at hmem
    rw [hmem.1]
    decide
  have equal := h (fun _ => true) _ net resetState _ hrecv fits fitsBuffer
  obtain ⟨cell, intact⟩ := demoRun_intact (fun _ => true) fits net resetState hrecv fitsBuffer
  rw [Mailbox.intact_of_cell_none cell] at intact
  have polls : (udpArpResolve (fun _ => true) (beforeReply 2) kRemoteIp
      (installed resetState)).2.polls = 3 := by decide +kernel
  rw [polls] at intact
  exact absurd (intact.mp equal) (by decide +kernel)

end LitexDtls.Client
