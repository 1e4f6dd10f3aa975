import LitexDtls.Client.Calls
import LitexDtls.LiteEth.Containment

/-!
# What the client starts

Every frame that the client starts, in whatever order its callbacks, the address resolution and
the polls come and whatever arrives, is an ARP packet, a UDP datagram with both checksums right,
or the answer to an echo request (`started_run`). As long as no echo request to the client announces
more than a slot holds, nothing but the slots is written (`mem_run`).
-/
namespace LitexDtls.Client
open Library LiteEth

variable (ready : Nat → Bool) (sched : Nat → Option RxFrame)

/-- A relation between states that `dtls_io_send` leads to as well. -/
structure AlongCalls (R : UdpState RxState → UdpState RxState → Prop) : Prop extends
    Along ready sched R where
  send : ∀ c s, R s (SendCall.run ready s c)

namespace AlongCalls

variable {ready sched} {R : UdpState RxState → UdpState RxState → Prop}

theorem sends (h : AlongCalls ready sched R) (calls : List SendCall) (s : UdpState RxState) :
    R s (calls.foldl (SendCall.run ready) s) := by
  induction calls generalizing s with
  | nil => exact h.same rfl rfl rfl rfl
  | cons c calls ih => exact h.trans (h.send c s) (ih _)

theorem recvLoop (h : AlongCalls ready sched R) (left : Nat) (s : UdpState RxState) :
    R s (recvLoop ready sched left s) := by
  induction left generalizing s with
  | zero => exact h.same rfl rfl rfl rfl
  | succ left ih =>
    unfold Client.recvLoop
    dsimp only
    split_ifs
    · exact h.service s
    · exact h.trans (h.service s) (ih _)

theorem dtlsIoRecv (h : AlongCalls ready sched R) (ctx : Option DtlsNetCtx) (sz : Int32)
    (resends : List SendCall) (s : UdpState RxState) :
    R s (dtlsIoRecv ready sched ctx sz resends s).2 := by
  have looped := h.recvLoop dtlsIoTimeoutLoops s
  unfold Client.dtlsIoRecv
  dsimp only
  split_ifs
  · exact h.trans looped (h.sends resends _)
  · exact h.trans looped (h.same rfl rfl rfl rfl)

theorem step (h : AlongCalls ready sched R) (ctx : DtlsNetCtx) (s : UdpState RxState) (c : Call) :
    R s (step ready sched ctx s c) := by
  cases c with
  | arpResolve ip => exact h.arpResolve ip s
  | service => exact h.service s
  | recv sz resends => exact h.dtlsIoRecv (some ctx) sz resends s
  | send call => exact h.send call s

/-- The run rule: what every call leads to, a run leads to. -/
theorem run (h : AlongCalls ready sched R) (ctx : DtlsNetCtx) (s : UdpState RxState)
    (calls : List Call) : R s (Library.run (Client.step ready sched ctx) s calls) := by
  induction calls generalizing s with
  | nil => exact h.same rfl rfl rfl rfl
  | cons c calls ih => exact h.trans (h.step ctx s c) (ih _)

end AlongCalls

/-! ## Headers -/

theorem starts_dtlsIoSend {γ : Type} (ctx : Option DtlsNetCtx) (buf : Mem UInt8) (sz : Int32)
    (s : UdpState γ) : Starts s (dtlsIoSend ready ctx buf sz s).2 := by
  unfold dtlsIoSend
  cases ctx with
  | none => exact .of_eq rfl
  | some net =>
    dsimp only
    split_ifs with hsz
    · exact .of_eq rfl
    · have hmax : sz.toInt ≤ 1600 := Int.not_lt.mp (not_or.mp hsz).2
      have sent := starts_udpSend ready dtlsClientPort net.peerPort (n := sz.toInt.toNat)
        (by rw [sizeofUdpHeader]; omega)
        { s with mem := s.mem.write (udpGetTxBuffer s) (buf.read 0 sz.toInt.toNat) }
      split <;> rename_i he <;> rw [he] at sent <;> exact sent

/-- Nothing is started that a receiver does not take for its headers, but an answer to an echo
request whose checksum leaves out a last byte. -/
theorem started_run (ctx : DtlsNetCtx) (s : UdpState RxState) (calls : List Call) :
    ∀ f ∈ (run (step ready sched ctx) s calls).started, f ∈ s.started ∨ Taken f.bytes := by
  have along : AlongCalls ready sched Starts :=
    { along_starts ready sched with send := fun c => starts_dtlsIoSend ready c.ctx c.buf c.sz }
  exact along.run ctx s calls

/-- An echo request with four bytes. -/
def echoBytes : List UInt8 :=
  broadcast.toList ++ List.replicate 6 0 ++ be16 ethertypeIp ++
    ipHeader 32 ipProtoIcmp kRemoteIp kLocalIp 0 ++ [icmpEcho, 0, 0, 0, 0, 1, 0, 1, 1, 2, 3, 4]

theorem length_echoBytes : echoBytes.length ≤ ethmacSlotSize := by decide

def echoFrame : RxFrame := ⟨0, echoBytes, Nat.zero_lt_two, length_echoBytes⟩

/-- The answer to an echo request. -/
theorem started_run_echo :
    ∃ f ∈ (run (step (fun _ => true) (fun _ => some echoFrame) net) (installed resetState)
      [.service]).started, Taken f.bytes := by
  have hne : (run (step (fun _ => true) (fun _ => some echoFrame) net) (installed resetState)
      [.service]).started ≠ [] := List.ne_nil_of_length_pos (by decide)
  exact ⟨_, List.head_mem hne, (started_run (fun _ => true) (fun _ => some echoFrame) net
    (installed resetState) [.service] _ (List.head_mem hne)).resolve_left List.not_mem_nil⟩

/-! ## Memory behind the slots -/

theorem stays_dtlsIoSend {γ : Type} (ctx : Option DtlsNetCtx) (buf : Mem UInt8) (sz : Int32)
    (s : UdpState γ) : Stays s (dtlsIoSend ready ctx buf sz s).2 := by
  unfold dtlsIoSend
  cases ctx with
  | none => exact .of_eq rfl rfl
  | some net =>
    dsimp only
    split_ifs with hsz
    · exact .of_eq rfl rfl
    · have hmax : sz.toInt ≤ 1600 := Int.not_lt.mp (not_or.mp hsz).2
      have copied : Stays s
          { s with mem := s.mem.write (udpGetTxBuffer s) (buf.read 0 sz.toInt.toNat) } := by
        refine fun h => ⟨h, fun x hx => Mem.write_outside _ _ _ (.inr ?_)⟩
        have hslot := (txbuffer_le h).trans hx
        simp only [udpGetTxBuffer, ethmacSlotSize, offPayload, Mem.length_read] at hslot ⊢
        omega
      have sent := copied.trans (stays_udpSend ready dtlsClientPort net.peerPort
        (n := sz.toInt.toNat) (by omega) _)
      split <;> rename_i he <;> rw [he] at sent <;> exact sent

/-- As long as no echo request to the client announces more than a slot holds, the client changes
memory only in the slots of the MAC. -/
theorem mem_run (hfits : ∀ k f, sched k = some f → f.IsEcho kLocalIp → f.AnswerFits)
    (ctx : DtlsNetCtx) (s : UdpState RxState) (calls : List Call) {x : Nat} (hx : slotsEnd ≤ x) :
    (run (step ready sched ctx) (installed s) calls).mem x = s.mem x := by
  have along : AlongCalls ready sched (StaysAt kLocalIp) :=
    { along_staysAt ready hfits with
      send := fun c t hip => ⟨(dtlsIoSend_frame ready c.ctx c.buf c.sz t).myIp.trans hip,
        stays_dtlsIoSend ready c.ctx c.buf c.sz t⟩ }
  exact ((along.run ctx (installed s) calls rfl).2 Nat.zero_lt_two).2 x hx

theorem mem_run_echo :
    (run (step (fun _ => true) (fun _ => some echoFrame) net) (installed resetState)
      [.service, .recv 1500 []]).mem slotsEnd = resetState.mem slotsEnd :=
  mem_run (fun _ => true) (fun _ => some echoFrame) (by
    rintro _ f hf
    cases hf
    exact fun _ => by decide) net resetState [.service, .recv 1500 []] (Nat.le_refl _)

end LitexDtls.Client
