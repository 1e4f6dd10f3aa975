import LitexDtls.Client.Connect
import LitexDtls.Host.Accept
import Mathlib.Algebra.Ring.Nat

/-!
# Recovery from lost handshake records

Both endpoints of a handshake and the condition under which each of them sends its
unacknowledged records again after an expired receive window. Two kinds of silence break it: on
the client a seventh expired window in a row, on the server the first one.
-/
namespace LitexDtls
open Library LiteEth WolfSsl

/-! ## A silent network -/

namespace Client

variable (ready : Nat → Bool)

theorem dtlsIoSend_cachedMac (ctx : Option DtlsNetCtx) (buf : Mem UInt8) (sz : Int32)
    (s : UdpState RxState) : (dtlsIoSend ready ctx buf sz s).2.cachedMac = s.cachedMac := by
  have packet (t : UdpState RxState) : (sendPacket ready t).cachedMac = t.cachedMac := by
    unfold sendPacket
    split <;> rfl
  have send (src dst : UInt16) (n : Nat) (t : UdpState RxState) :
      (udpSend ready src dst n t).2.cachedMac = t.cachedMac := by
    unfold udpSend
    split_ifs
    · rfl
    · exact packet _
  unfold dtlsIoSend
  cases ctx with
  | none => rfl
  | some net =>
    dsimp only
    split_ifs
    · rfl
    · split <;> rename_i he <;> exact (congrArg (fun t => t.2.cachedMac) he).symm.trans (send _ _ _ _)

/-- Polls of a silent network are only counted. -/
theorem recvLoop_silent (left : Nat) {s : UdpState RxState} (h : s.app.gRx.ready = false) :
    recvLoop ready (fun _ => none) left s = { s with polls := s.polls + left } := by
  induction left generalizing s with
  | zero => rfl
  | succ left ih =>
    have poll : udpService ready (fun _ => none) s = { s with polls := s.polls + 1 } := rfl
    rw [recvLoop, poll]
    simp only [h, Bool.false_eq_true, if_false]
    rw [ih (s := { s with polls := s.polls + 1 }) h, Nat.add_right_comm, Nat.add_assoc]

namespace Connecting

/-- A ClientHello without a body. -/
def clientHello : RtxRecord := ⟨1, 0, [1, 0, 0, 0, 0, 0, 0, 0, 0, 0, 0, 0]⟩

/-- Records in the clear, with the header of `Dtls13RlAddPlaintextHeader`. -/
def plaintext (seq : Nat) : Content → List UInt8
  | .handshake r => [22, 254, 253] ++ be16 r.epoch.toUInt16 ++ be16 0 ++ be32 (UInt32.ofNat seq) ++
      be16 (UInt16.ofNat r.data.length) ++ r.data
  | .ack _ => [26, 254, 253] ++ be16 0 ++ be16 0 ++ be32 (UInt32.ofNat seq) ++ be16 0

/-- The peer's address is known and `g_rx` is empty. -/
def Idle (s : UdpState RxState) : Prop := s.cachedMac.isZero = false ∧ s.app.gRx.ready = false

theorem takes_clientHello : Conn.Takes plaintext (sendRecord ready) Idle clientHello := by
  rintro n s ⟨hmac, hempty⟩
  have hlen : (plaintext n (.handshake clientHello)).length = 25 := rfl
  constructor
  · rw [sendRecord_neg_iff, hlen]
    rintro (h | h | h | h)
    · cases h
    · exact absurd h (by decide)
    · exact absurd h (by decide)
    · rw [hmac] at h
      cases h
  · constructor
    · rw [sendRecord, dtlsIoSend_cachedMac]
      exact hmac
    · rw [sendRecord, (dtlsIoSend_frame ready _ _ _ s).app]
      exact hempty

/-- The handshake after `k` windows in which nothing has arrived. -/
structure Silent (k : Nat) (c : Connecting) : Prop where
  stage : c.stage = .waiting
  attempts : c.attempts = k
  timeout : c.conn.timeout = 2 ^ k
  timeoutMax : c.conn.timeoutMax = dtlsTimeoutMax
  fastTimeout : c.conn.fastTimeout = false
  rtxRecords : c.conn.rtxRecords = [clientHello]
  seenRecords : c.conn.seenRecords = []
  outputBuffer : c.conn.outputBuffer = []
  idle : Idle c.conn.io

namespace Silent

variable {ready} {k : Nat} {c : Connecting}

theorem not_ackDue (h : Silent k c) : ¬ c.conn.AckDue := fun hack => hack.1 h.seenRecords

theorem polled_eq (h : Silent k c) : polled ready (fun _ => none) c =
    { c with conn := { c.conn with
        io := { c.conn.io with polls := c.conn.io.polls + dtlsIoTimeoutLoops } } } := by
  rw [polled, recvLoop_silent ready _ h.idle.2]

theorem polled (h : Silent k c) : Silent k (polled ready (fun _ => none) c) := by
  rw [h.polled_eq]
  exact ⟨h.stage, h.attempts, h.timeout, h.timeoutMax, h.fastTimeout, h.rtxRecords,
    h.seenRecords, h.outputBuffer, h.idle⟩

theorem expires (h : Silent k c) : Expires ready (fun _ => none) c := ⟨h.stage, h.polled.idle.2⟩

theorem overdue (h : Silent k c) : c.conn.Overdue := by
  refine ⟨by simp [h.rtxRecords], fun hfast => ?_⟩
  have := h.fastTimeout.symm.trans hfast.1
  cases this

/-- One more silent window, as long as the timeout is below its cap. -/
theorem step (h : Silent k c) (hk : k < 6) (a : Arrival) :
    Silent (k + 1) (step ready (fun _ => none) plaintext c a) := by
  rw [step_of_expires _ _ _ h.expires]
  have hp : Silent k (Connecting.polled ready (fun _ => none) c) := h.polled
  generalize Connecting.polled ready (fun _ => none) c = d at hp
  have takes : ∀ r ∈ d.conn.rtxRecords, Conn.Takes plaintext (sendRecord ready) Idle r := by
    intro r hr
    rw [hp.rtxRecords, List.mem_singleton] at hr
    rw [hr]
    exact takes_clientHello ready
  have hcap : d.conn.timeout < d.conn.timeoutMax := by
    rw [hp.timeout, hp.timeoutMax]
    exact Nat.pow_lt_pow_right (by decide) hk
  obtain ⟨n, io, sent, idle, hrun⟩ := Conn.dtls13RtxTimeout_of_takes plaintext takes
    hp.outputBuffer hp.idle hp.not_ackDue hp.fastTimeout hcap
  have htimed : timedOut ready plaintext d = { d with conn := { d.conn with
      timeout := d.conn.timeout * dtlsTimeoutMultiplier
      nextSeqNumber := n
      outputBuffer := []
      error := wantReadE
      io := io
      sent := sent } } := by
    simp [timedOut, Conn.dtlsGotTimeout, hrun]
  have hmore : ¬ kMaxAttempts ≤ d.attempts + 1 := by
    rw [hp.attempts]
    simp only [kMaxAttempts]
    omega
  have hretry : retry ready (timedOut ready plaintext d) =
      { timedOut ready plaintext d with attempts := d.attempts + 1 } :=
    retry_of_empty ready (c := timedOut ready plaintext d) (by rw [htimed]) (by rw [htimed]) hmore
  rw [expire, hretry, htimed]
  exact ⟨hp.stage, congrArg (· + 1) hp.attempts,
    (congrArg (· * dtlsTimeoutMultiplier) hp.timeout).trans (Nat.pow_succ 2 k).symm, hp.timeoutMax,
    hp.fastTimeout, hp.rtxRecords, hp.seenRecords, rfl, idle⟩

/-- After `k` silent windows, up to the one that takes the timeout to its cap. -/
theorem run (h : Silent 0 c) (a : Arrival) (hk : k ≤ 6) :
    Silent k (Library.run (Connecting.step ready (fun _ => none) plaintext) c
      (List.replicate k a)) := by
  induction k with
  | zero => exact h
  | succ k ih =>
    rw [List.replicate_succ', run_append]
    exact (ih (by omega)).step (by omega) a

/-- At the cap a silent window is not recovered from. -/
theorem not_guard (h : Silent 6 c) (a : Arrival) :
    ¬ Guard ready (fun _ => none) plaintext c a := by
  intro guard
  rcases guard h.expires h.overdue with hcap | hlast | href
  · rw [h.timeout, h.timeoutMax] at hcap
    exact absurd hcap (by decide)
  · rw [h.attempts] at hlast
    exact absurd hlast (by decide)
  · exact h.polled.not_ackDue href.1

end Silent

theorem silent_init : Silent 0 (init [clientHello] resolvedState) :=
  ⟨rfl, rfl, rfl, rfl, rfl, rfl, rfl, rfl, by decide, rfl⟩

end Connecting

end Client

/-! ## Both endpoints -/

section

variable (ready : Nat → Bool) (sched : Nat → Option RxFrame)
  (protect : Nat → Content → List UInt8)

/-- Every expired window of the run is recovered from on the client exactly when, at each of
them, the timeout is below its cap, the attempts are used up, or the ACK that goes first is
refused; and on the server exactly when none expires with records unacknowledged, except before
a failure of the socket. -/
theorem loss_recovered_iff (flight : List RtxRecord) (s : UdpState Client.RxState)
    (as : List Client.Arrival) (net : Host.NetCtx) (sz : Int32)
    (found : Except Host.Errno Progress) (rounds : List Host.Round) :
    (Meets (Client.Connecting.step ready sched protect)
        (Client.Connecting.Recovers ready sched protect) (.init flight s) as ↔
      Meets (Client.Connecting.step ready sched protect)
        (Client.Connecting.Guard ready sched protect) (.init flight s) as) ∧
    (Meets Host.Accepting.step Host.Accepting.Recovers (.init net sz found) rounds ↔
      Meets Host.Accepting.step Host.Accepting.Guard (.init net sz found) rounds) :=
  ⟨Client.Connecting.recovers_iff ready sched protect flight s as,
    Host.Accepting.recovers_iff net sz found rounds⟩

end

/-- The first ClientHello, answered with a HelloRetryRequest that is not kept. -/
def retriedHello : Host.Round :=
  ⟨.readable, 1500, .ok ⟨[], [], false, false, false, false, 1, false, .waiting⟩⟩

/-- The second ClientHello, answered with a ServerHello without a body. Its record sets the
short timeout, and sending the flight clears the list of seen records. -/
def answeredHello : Host.Round :=
  ⟨.readable, 1500, .ok ⟨[⟨2, 0, [2, 0, 0, 0, 0, 1, 0, 0, 0, 0, 0, 0]⟩], [], true, false, true,
    false, 2, true, .waiting⟩⟩

/-- A window without a datagram. -/
def silentRound : Host.Round := ⟨.timeout, 1500, .error .eagain⟩

/-- The client is silent in the seventh window of a silent network, the server in the first one
after its flight. -/
theorem silent_after_expiry :
    (¬ ∀ (ready : Nat → Bool) (sched : Nat → Option RxFrame)
      (protect : Nat → Content → List UInt8) (flight : List RtxRecord)
      (s : UdpState Client.RxState) (as : List Client.Arrival),
      Meets (Client.Connecting.step ready sched protect)
        (Client.Connecting.Recovers ready sched protect) (.init flight s) as) ∧
    ¬ ∀ (net : Host.NetCtx) (sz : Int32) (found : Except Host.Errno Progress)
      (rounds : List Host.Round),
      Meets Host.Accepting.step Host.Accepting.Recovers (.init net sz found) rounds := by
  constructor
  · intro h
    let a : Client.Arrival :=
      ⟨1500, [], ⟨[], [], false, false, false, false, 0, false, .waiting⟩⟩
    have recovers := h (fun _ => true) (fun _ => none) Client.Connecting.plaintext
      [Client.Connecting.clientHello] Client.resolvedState (List.replicate 6 a ++ [a])
    rw [Client.Connecting.recovers_iff, Meets.append] at recovers
    exact (Client.Connecting.silent_init.run a (Nat.le_refl 6)).not_guard a recovers.2.1
  · intro h
    have recovers := h ⟨⟨0, 0⟩, false⟩ 1500 (.error .eagain)
      [retriedHello, answeredHello, silentRound]
    rw [Host.Accepting.recovers_iff] at recovers
    obtain ⟨n, hn⟩ := recovers.2.2.1 ⟨rfl, rfl, .eagain, rfl⟩ (by decide)
    cases hn

end LitexDtls
