import LitexDtls.Client.Receive

/-!
# Which bytes the client hands to wolfSSL

The copy of `udp_rx_cb` starts at offset 42 of the receive slot and takes as many bytes as
the UDP header announces, at most `DTLS_MAX_RX`. It stays inside the slot and inside
`g_rx.data` whatever the header says (`store_congr`, `store_data_beyond`). It stays inside
the received frame when the frame carries what it announces, which no function checks.
-/
namespace LitexDtls.Client
open Library LiteEth

variable (ready : Nat → Bool) (sched : Nat → Option RxFrame)

/-! ## The copy stays inside the slot and inside `g_rx.data` -/

/-- The copy reads no cell outside the slot of the frame. -/
theorem store_congr {m m' : Mem UInt8} (f : RxFrame) (a : RxState)
    (h : ∀ x, slotAddr f.slot ≤ x → x < slotAddr f.slot + ethmacSlotSize → m x = m' x) :
    (store m f a).gRx = (store m' f a).gRx := by
  have hread : m.read f.payloadAddr (min f.announced dtlsMaxRx) =
      m'.read f.payloadAddr (min f.announced dtlsMaxRx) := by
    apply Mem.read_congr
    intro i hi
    have hmax : dtlsMaxRx = 1600 := rfl
    apply h <;> simp [RxFrame.payloadAddr] <;> omega
  by_cases hport : f.dstPort = dtlsClientPort
  · have hcap : (if f.announced > dtlsMaxRx then dtlsMaxRx else f.announced) =
        min f.announced dtlsMaxRx := by split_ifs <;> omega
    simp [store, udpRxCb, hport, hcap, hread]
  · simp [store, udpRxCb, hport]

/-- The copy writes no cell outside `g_rx.data`. -/
theorem store_data_beyond (m : Mem UInt8) {f : RxFrame} (a : RxState) (h : Accepts f) {x : Nat}
    (hx : dtlsMaxRx ≤ x) : (store m f a).gRx.data x = a.gRx.data x := by
  have hlen := Mem.length_read m f.payloadAddr (min f.announced dtlsMaxRx)
  rw [store_of_accepts m a h]
  exact Mem.write_outside _ 0 (m.read f.payloadAddr (min f.announced dtlsMaxRx)) (by omega)

/-- The cells behind `g_rx.data` are what they were. -/
def Beyond (data : Mem UInt8) (s : UdpState RxState) : Prop :=
  Installed s ∧ ∀ x, dtlsMaxRx ≤ x → s.app.gRx.data x = data x

theorem Beyond.preserved (data : Mem UInt8) : Preserved ready sched (Beyond data) where
  frame f h := ⟨(Installed.preserved ready sched).frame f h.1, by rw [f.app]; exact h.2⟩
  poll {s} h := by
    refine ⟨(Installed.preserved ready sched).poll h.1, fun x hx => ?_⟩
    cases ha : arrival sched s with
    | some f =>
      rw [poll_of_arrival ready sched h.1 ha,
        store_data_beyond _ _ (arrival_eq_some sched ha).2 hx, h.2 x hx]
    | none => rw [poll_of_no_arrival ready sched h.1 ha, h.2 x hx]
  handOver _ hr h := ⟨(Installed.preserved ready sched).handOver _ hr h.1, h.2⟩

theorem beyond_run (ctx : DtlsNetCtx) (s : UdpState RxState) (calls : List Call) :
    Beyond s.app.gRx.data (run (step ready sched ctx) (installed s) calls) :=
  (Beyond.preserved ready sched _).run ctx ⟨installed_installed s, fun _ _ => rfl⟩ calls

/-! ## The copy and the received frame -/

/-- The last frame that the first `n` polls stored in `g_rx`. -/
def lastAccepted : Nat → Option RxFrame
  | 0 => none
  | n + 1 =>
    match (sched n).filter fun f => decide (Accepts f) with
    | some f => some f
    | none => lastAccepted n

theorem lastAccepted_of_arrival {s : UdpState RxState} {f : RxFrame}
    (h : arrival sched s = some f) : lastAccepted sched (s.polls + 1) = some f := by
  unfold arrival at h
  simp [lastAccepted, h]

theorem lastAccepted_of_no_arrival {s : UdpState RxState} (h : arrival sched s = none) :
    lastAccepted sched (s.polls + 1) = lastAccepted sched s.polls := by
  unfold arrival at h
  simp [lastAccepted, h]

/-- The frame is as long as the part of it that `udp_rx_cb` copies. -/
def Carries (f : RxFrame) : Prop := min f.announced dtlsMaxRx ≤ f.bytes.length - offPayload

instance (f : RxFrame) : Decidable (Carries f) := inferInstanceAs (Decidable (_ ≤ _))

/-- `l` is part of the frame that the last accepting one of `n` polls found, from its UDP
payload on. -/
def OfFrame (n : Nat) (l : List UInt8) : Prop :=
  ∃ f, lastAccepted sched n = some f ∧ l <+: f.bytes.drop offPayload

/-- The slot holds the bytes of the frame, so a read of no more of them is a part of it. -/
theorem receive_payload (f : RxFrame) (s : UdpState RxState) {n : Nat}
    (hlen : offPayload ≤ f.bytes.length) (h : n ≤ f.bytes.length - offPayload) :
    (receive f s).mem.read f.payloadAddr n = (f.bytes.drop offPayload).take n :=
  Mem.read_write_sub _ _ _ (by omega)

structure Own (s : UdpState RxState) : Prop where
  held : s.app.gRx.ready = true →
    OfFrame sched s.polls (s.app.gRx.data.read 0 s.app.gRx.length)
  handed : ∀ d ∈ s.app.handed, OfFrame sched d.polls d.bytes

/-- Once a frame was stored that carries less than it announces, nothing is said. -/
def OwnIf (s : UdpState RxState) : Prop :=
  Installed s ∧
    ((∀ i < s.polls, ∀ f, sched i = some f → Accepts f → Carries f) → Own sched s)

theorem OwnIf.preserved : Preserved ready sched (OwnIf sched) where
  frame f h := by
    refine ⟨(Installed.preserved ready sched).frame f h.1, fun hc => ?_⟩
    rw [f.polls] at hc
    obtain ⟨held, handed⟩ := h.2 hc
    exact ⟨by rw [f.app, f.polls]; exact held, by rw [f.app]; exact handed⟩
  poll {s} h := by
    refine ⟨(Installed.preserved ready sched).poll h.1, fun hc => ?_⟩
    have polls := (udpService_rest ready sched s).2.2
    rw [polls] at hc
    obtain ⟨held, handed⟩ := h.2 fun i hi => hc i (by omega)
    cases ha : arrival sched s with
    | some f =>
      obtain ⟨hf, hacc⟩ := arrival_eq_some sched ha
      have hst := (poll_of_arrival ready sched h.1 ha).trans (store_of_accepts _ _ hacc)
      have bytes := receive_payload f s hacc.1.1 (hc s.polls (by omega) f hf hacc)
      refine ⟨fun _ => ⟨f, polls ▸ lastAccepted_of_arrival sched ha, ?_⟩, ?_⟩ <;> rw [hst]
      · rw [Mem.read_write_of_length _ _ _ (Mem.length_read _ _ _).symm, bytes]
        exact List.take_prefix _ _
      · exact handed
    | none =>
      have happ := poll_of_no_arrival ready sched h.1 ha
      refine ⟨?_, ?_⟩ <;> rw [happ]
      · unfold OfFrame
        rw [polls, lastAccepted_of_no_arrival sched ha]
        exact held
      · exact handed
  handOver {s} sz hr h := by
    refine ⟨(Installed.preserved ready sched).handOver sz hr h.1, fun hc => ?_⟩
    obtain ⟨held, handed⟩ := h.2 hc
    refine ⟨fun hr' => absurd hr' (by simp [handOver, udpRxReset]), fun d hd => ?_⟩
    rcases List.mem_append.mp hd with hd | hd
    · exact handed d hd
    · rw [List.mem_singleton.mp hd]
      obtain ⟨f, hf, hpre⟩ := held hr
      refine ⟨f, hf, List.IsPrefix.trans ?_ hpre⟩
      have hcopy : copyLen s.app.gRx sz = min sz.toUInt32.toNat s.app.gRx.length := by
        rw [copyLen_eq, Nat.min_comm]
      simp only [hcopy]
      rw [← Mem.take_read]
      exact List.take_prefix _ _

/-- When every stored frame carries what it announces, every string handed to wolfSSL is a
part of its own frame; the copy stays inside the slot and inside `g_rx.data` in any case. -/
theorem handed_of_frame (ctx : DtlsNetCtx) (s : UdpState RxState) (calls : List Call) :
    ((∀ i < (run (step ready sched ctx) (installed s) calls).polls, ∀ f,
        sched i = some f → Accepts f → Carries f) →
      ∀ d ∈ (run (step ready sched ctx) (installed s) calls).app.handed,
        ∃ f, lastAccepted sched d.polls = some f ∧ d.bytes <+: f.bytes.drop offPayload ∧
          d.bytes.length ≤ f.bytes.length - offPayload) ∧
    (∀ (f : RxFrame) (m m' : Mem UInt8) (a : RxState),
      (∀ x, slotAddr f.slot ≤ x → x < slotAddr f.slot + ethmacSlotSize → m x = m' x) →
      (store m f a).gRx = (store m' f a).gRx) ∧
    ∀ x, dtlsMaxRx ≤ x →
      (run (step ready sched ctx) (installed s) calls).app.gRx.data x = s.app.gRx.data x := by
  refine ⟨fun hc d hd => ?_, fun f m m' a => store_congr f a,
    (beyond_run ready sched ctx s calls).2⟩
  have start : OwnIf sched (installed s) :=
    ⟨installed_installed s, fun _ => ⟨fun hr => absurd hr (by simp [installed, udpRxReset]),
      fun d hd => absurd hd (by simp [installed])⟩⟩
  have own := ((OwnIf.preserved ready sched).run ctx start calls).2 hc
  obtain ⟨f, hf, hpre⟩ := own.handed d hd
  exact ⟨f, hf, hpre, by simpa using hpre.length_le⟩

/-- A datagram of 5 bytes in slot 0, and after it in the same slot one of a single byte
whose UDP header still announces 5. -/
def longFrame : RxFrame :=
  udpRxFrame kRemoteIp kLocalIp dtlsServerPort dtlsClientPort 13 0xb6e5 [1, 2, 3, 4, 5]
    (by decide)
def shortFrame : RxFrame :=
  udpRxFrame kRemoteIp kLocalIp dtlsServerPort dtlsClientPort 13 0xb6e9 [6] (by decide)

theorem handed_of_frame_server :
    ∃ f, lastAccepted (fun _ => some serverFrame)
        (deliveryOf serverFrame 1500 (installed resetState)).polls = some f ∧
      (deliveryOf serverFrame 1500 (installed resetState)).bytes <+: f.bytes.drop offPayload ∧
      (deliveryOf serverFrame 1500 (installed resetState)).bytes.length ≤
        f.bytes.length - offPayload :=
  (handed_of_frame (fun _ => true) (fun _ => some serverFrame) net resetState
    [.recv 1500 []]).1 (by
      rintro i _ f hf _
      cases hf
      decide) _ (first_handed (by decide))

/-- The two frames, one after the other. -/
def reusedSlot (i : Nat) : Option RxFrame := if i = 0 then some longFrame else some shortFrame

/-- The state after a receive call that got the longer frame. -/
def afterLong : UdpState RxState :=
  (dtlsIoRecv (fun _ => true) reusedSlot (some net) 1500 [] (installed resetState)).2

/-- Four bytes of the longer frame are handed over as bytes of the shorter one. -/
theorem handed_stale :
    ¬ ∀ (ready : Nat → Bool) (sched : Nat → Option RxFrame) (ctx : DtlsNetCtx)
      (s : UdpState RxState) (calls : List Call),
      ∀ d ∈ (run (step ready sched ctx) (installed s) calls).app.handed,
        ∃ f, lastAccepted sched d.polls = some f ∧ d.bytes <+: f.bytes.drop offPayload ∧
          d.bytes.length ≤ f.bytes.length - offPayload := by
  intro h
  have first : arrival reusedSlot (installed resetState) = some longFrame :=
    arrival_of_accepts _ rfl (by decide)
  have polls : afterLong.polls = 1 := by
    rw [afterLong, dtlsIoRecv_of_arrival _ _ (installed_installed resetState) first]
    exact (udpService_rest _ _ _).2.2
  have inst : Installed afterLong :=
    (Installed.preserved _ _).dtlsIoRecv _ _ _ (installed_installed resetState)
  have second : arrival reusedSlot afterLong = some shortFrame :=
    arrival_of_accepts _ (by rw [polls]; rfl) (by decide)
  have handed := handed_of_arrival (fun _ => true) _ inst second (some net) 1500 []
  obtain ⟨f, hf, _, hlen⟩ := h (fun _ => true) reusedSlot net resetState
    [.recv 1500 [], .recv 1500 []] (deliveryOf shortFrame 1500 afterLong)
    (by
      change _ ∈ (dtlsIoRecv _ _ (some net) 1500 [] afterLong).2.app.handed
      rw [handed]
      simp)
  have short : lastAccepted reusedSlot (afterLong.polls + 1) = some shortFrame :=
    lastAccepted_of_arrival _ second
  have hfs : f = shortFrame := Option.some.inj (hf.symm.trans short)
  rw [hfs, deliveryOf, Mem.length_read] at hlen
  exact absurd hlen (by decide)

example : (deliveryOf shortFrame 1500
    (handOver 1500 (udpService (fun _ => true) reusedSlot (installed resetState)))).bytes =
      [6, 2, 3, 4, 5] := by decide

end LitexDtls.Client
