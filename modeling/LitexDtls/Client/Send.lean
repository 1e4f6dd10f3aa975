import LitexDtls.Client.Calls
import LitexDtls.LiteEth.Transmit

/-!
# What a result of `dtls_io_send` means

`udp_send` reports an unresolved peer and nothing else: when `send_packet` gives up on a
busy MAC, it returns, and `udp_send` and `dtls_io_send` report success.
-/
namespace LitexDtls.Client
open Library LiteEth

variable {γ : Type} (ready : Nat → Bool)

/-- Exactly one frame was started, a UDP datagram to the peer's port that carries the first
`sz` bytes of the buffer. -/
def Transmitted (ctx : Option DtlsNetCtx) (buf : Mem UInt8) (sz : Int32)
    (s t : UdpState γ) : Prop :=
  ∃ net f, ctx = some net ∧ t.started = s.started ++ [f] ∧
    udpDstPort f.bytes = net.peerPort ∧ ((udpLength f.bytes).toNat : Int) = sz.toInt + 8 ∧
    udpPayload f.bytes = buf.read 0 sz.toInt.toNat

/-- Nothing was started and the transmit slot is the same. -/
def Untouched (s t : UdpState γ) : Prop := t.started = s.started ∧ t.txslot = s.txslot

/-- What a caller relies on: `sz` is returned exactly for a transmission, and an error
leaves the transmitter alone. -/
def SendMeansSent (ctx : Option DtlsNetCtx) (buf : Mem UInt8) (sz : Int32)
    (s : UdpState γ) : Prop :=
  ((dtlsIoSend ready ctx buf sz s).1 = sz ↔
      Transmitted ctx buf sz s (dtlsIoSend ready ctx buf sz s).2) ∧
    ((dtlsIoSend ready ctx buf sz s).1.toInt < 0 → Untouched s (dtlsIoSend ready ctx buf sz s).2)

/-- The requests that `dtls_io_send` refuses before it asks for the MAC. -/
def Refused (ctx : Option DtlsNetCtx) (sz : Int32) (s : UdpState γ) : Prop :=
  ctx = none ∨ sz ≤ 0 ∨ sz.toInt > dtlsMaxRx ∨ s.cachedMac.isZero = true

theorem not_transmitted {ctx : Option DtlsNetCtx} {buf : Mem UInt8} {sz : Int32}
    {s t : UdpState γ} (h : t.started = s.started) : ¬ Transmitted ctx buf sz s t := by
  rintro ⟨net, f, _, hstarted, _⟩
  rw [h] at hstarted
  simpa using congrArg List.length hstarted

theorem dtlsIoSend_of_refused {ctx : Option DtlsNetCtx} {sz : Int32} {s : UdpState γ}
    (h : Refused ctx sz s) (buf : Mem UInt8) :
    (dtlsIoSend ready ctx buf sz s).1 = wolfsslCbioErrGeneral ∧
      Untouched s (dtlsIoSend ready ctx buf sz s).2 := by
  unfold dtlsIoSend
  cases ctx with
  | none => exact ⟨rfl, rfl, rfl⟩
  | some net =>
    dsimp only
    split_ifs with hsz
    · exact ⟨rfl, rfl, rfl⟩
    · have hmac : s.cachedMac.isZero = true := by
        rcases h with h | h | h | h
        · simp at h
        · exact absurd (.inl h) hsz
        · exact absurd (.inr h) hsz
        · exact h
      rw [udpSend_of_no_mac ready (by exact hmac)]
      exact ⟨rfl, rfl, rfl⟩

/-- The slot as `dtls_io_send` hands it to `udp_send`. -/
def copied (buf : Mem UInt8) (sz : Int32) (s : UdpState γ) : UdpState γ :=
  { s with mem := s.mem.write (udpGetTxBuffer s) (buf.read 0 sz.toInt.toNat) }

/-- A request that is not refused reaches `udp_send`, and is reported as sent. -/
theorem dtlsIoSend_of_not_refused {ctx : Option DtlsNetCtx} {sz : Int32} {s : UdpState γ}
    (h : ¬ Refused ctx sz s) (buf : Mem UInt8) :
    ∃ net, ctx = some net ∧ 0 < sz.toInt ∧ sz.toInt ≤ dtlsMaxRx ∧
      s.cachedMac.isZero = false ∧
      dtlsIoSend ready ctx buf sz s = (sz, (udpSend ready dtlsClientPort net.peerPort
        sz.toInt.toNat (copied buf sz s)).2) := by
  simp only [Refused, not_or] at h
  obtain ⟨hctx, hpos, hmax, hmac⟩ := h
  obtain ⟨net, rfl⟩ := Option.ne_none_iff_exists'.mp hctx
  have hmac' : s.cachedMac.isZero = false := by simpa using hmac
  have hpos' : 0 < sz.toInt := by
    rw [Int32.le_iff_toInt_le] at hpos
    exact Int.not_le.mp hpos
  refine ⟨net, rfl, hpos', Int.not_lt.mp hmax, hmac', ?_⟩
  have hres : (udpSend ready dtlsClientPort net.peerPort sz.toInt.toNat (copied buf sz s)).1 = 1 := by
    rw [udpSend, if_neg (by simpa [copied] using hmac')]
  unfold dtlsIoSend
  dsimp only
  rw [if_neg (not_or.mpr ⟨hpos, hmax⟩)]
  split <;> rename_i he <;> change udpSend _ _ _ _ (copied buf sz s) = _ at he
  · rw [he] at hres
    simp at hres
  · rw [he]

/-- A frame that `dtls_io_send` starts carries the caller's bytes. -/
theorem transmitted_of_ready {net : DtlsNetCtx} {sz : Int32} {s : UdpState γ}
    (hpos : 0 < sz.toInt) (hmax : sz.toInt ≤ dtlsMaxRx) (hmac : s.cachedMac.isZero = false)
    (h : ReadyInTime ready s) (buf : Mem UInt8) :
    Transmitted (some net) buf sz s (udpSend ready dtlsClientPort net.peerPort sz.toInt.toNat
      (copied buf sz s)).2 := by
  have h' : ReadyInTime ready (copied buf sz s) := h
  obtain ⟨_, hstarted, _⟩ := udpSend_of_ready ready (s := copied buf sz s) hmac h'
    dtlsClientPort net.peerPort sz.toInt.toNat
  have hle : sz.toInt.toNat + 8 < 65536 := by
    have : dtlsMaxRx = 1600 := rfl
    omega
  refine ⟨net, _, rfl, hstarted, udpTxFrame_dstPort _ _ _ _, ?_, ?_⟩
  · rw [udpTxFrame_length, UInt16.toNat_ofNat_of_lt' (by simpa using hle)]
    rw [sizeofUdpHeader]
    omega
  · rw [udpTxFrame_payload _ _ _ _ (by simpa using hle)]
    exact Mem.read_write_of_length _ _ _ (by simp)

/-- `dtls_io_send` keeps its promise exactly when it refuses the request or the MAC becomes
ready within the bound of `send_packet`; a request of -1 bytes is refused with its own size. -/
theorem sendMeansSent_iff (ctx : Option DtlsNetCtx) (buf : Mem UInt8) (sz : Int32)
    (s : UdpState γ) :
    SendMeansSent ready ctx buf sz s ↔
      sz ≠ wolfsslCbioErrGeneral ∧ (Refused ctx sz s ∨ ReadyInTime ready s) := by
  by_cases hrefused : Refused ctx sz s
  · obtain ⟨hres, same⟩ := dtlsIoSend_of_refused ready hrefused buf
    have hno : ¬ Transmitted ctx buf sz s _ := not_transmitted (s := s) same.1
    unfold SendMeansSent
    rw [hres]
    simp [hno, same, hrefused, eq_comm]
  · obtain ⟨net, rfl, hpos, hmax, hmac, hsend⟩ := dtlsIoSend_of_not_refused ready hrefused buf
    have hne : sz ≠ wolfsslCbioErrGeneral := by
      rintro rfl
      exact absurd hpos (by decide)
    unfold SendMeansSent
    rw [hsend]
    by_cases hready : ReadyInTime ready s
    · have sent : Transmitted (some net) buf sz s _ :=
        transmitted_of_ready ready hpos hmax hmac hready buf
      simp only [true_iff, hne, hready, or_true, ne_eq, not_false_eq_true, and_true, iff_true]
      exact ⟨sent, fun hneg => by omega⟩
    · have hnot : ¬ ReadyInTime ready (copied buf sz s) := hready
      obtain ⟨_, hstarted⟩ := udpSend_of_not_ready ready (s := copied buf sz s) hmac hnot
        dtlsClientPort net.peerPort sz.toInt.toNat
      have hno : ¬ Transmitted (some net) buf sz s _ := not_transmitted (s := s) hstarted
      simp only [true_iff, hno, hrefused, hready, or_false, and_false, false_and]

/-- The client after address resolution, with the MAC of the server. -/
def resolvedState : UdpState RxState :=
  { installed resetState with cachedIp := kRemoteIp, cachedMac := serverMac }

/-- A MAC that never becomes ready: one byte is reported as sent and no frame is started. -/
theorem sent_without_transmission :
    ¬ ∀ (ready : Nat → Bool) (ctx : Option DtlsNetCtx) (buf : Mem UInt8) (sz : Int32)
      (s : UdpState RxState), SendMeansSent ready ctx buf sz s := by
  intro h
  have good : ¬ Refused (some net) 1 resolvedState := by
    unfold Refused
    decide
  have busy : ¬ ReadyInTime (fun _ => false) (copied (fun _ => 0) 1 resolvedState) := by
    rintro ⟨i, _, hi⟩
    cases hi
  obtain ⟨net', _, _, _, hmac, hsend⟩ :=
    dtlsIoSend_of_not_refused (fun _ => false) good fun _ => 0
  obtain ⟨_, hstarted⟩ := udpSend_of_not_ready (s := copied (fun _ => 0) 1 resolvedState) _
    hmac busy dtlsClientPort net'.peerPort (1 : Int32).toInt.toNat
  have hno : ¬ Transmitted (some net) (fun _ => 0) 1 resolvedState _ :=
    not_transmitted (s := resolvedState) hstarted
  have sent := (h (fun _ => false) (some net) (fun _ => 0) 1 resolvedState).1.mp
  rw [hsend] at sent
  dsimp only at sent
  exact hno (sent rfl)

end LitexDtls.Client
