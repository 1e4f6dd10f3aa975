import LitexDtls.Client.Demo
import LitexDtls.Client.Send
import LitexDtls.WolfSsl.Dtls13

/-!
# The handshake loop of the client

The loop around `wolfSSL_connect` in `run_dtls13_demo`, from one receive window of
`dtls_io_recv` to the next. A window expires when its polls have put nothing into `g_rx`;
`dtls_io_recv` then calls `wolfSSL_dtls_got_timeout`, whose result it ignores, and the loop
goes on until it has made `kMaxAttempts` attempts.

Six expired windows bring the timeout to its cap. From the seventh on wolfSSL reports a
failure that nobody looks at, and the loop waits without sending anything.
-/
namespace LitexDtls.Client
open Library LiteEth WolfSsl

variable (ready : Nat → Bool) (sched : Nat → Option RxFrame)
  (protect : Nat → Content → List UInt8)

/-- The send callback, on bytes at the start of a buffer. -/
def sendRecord (bytes : List UInt8) (s : UdpState RxState) : Int32 × UdpState RxState :=
  dtlsIoSend ready (some net) (Mem.write (fun _ => 0) 0 bytes) (Int32.ofNat bytes.length) s

/-- `wolfSSL_get_error`, for a call that has failed. -/
def wolfsslGetError (error : Int32) : Int32 :=
  if error = wantReadE then wolfsslErrorWantRead
  else if error = wantWriteE then wolfsslErrorWantWrite
  else error

/-- What wolfSSL makes of a datagram: the room it has for it, the datagrams that it sends in
answer, and its progress. -/
structure Arrival where
  sz : Int32
  answers : List SendCall
  progress : Progress

/-- The handshake loop in front of a receive window, or left. -/
structure Connecting where
  conn : Conn (UdpState RxState)
  attempts : Nat
  stage : Stage

namespace Connecting

/-- The loop after a call of `wolfSSL_connect` that failed, up to the next window. The next
call first sends what the output buffer holds. -/
def retry (c : Connecting) : Connecting :=
  let err := wolfsslGetError c.conn.error
  if err = wolfsslErrorWantRead ∨ err = wolfsslErrorWantWrite then
    if kMaxAttempts ≤ c.attempts + 1 then { c with attempts := c.attempts + 1, stage := .failed }
    else
      let (ret, conn) := Conn.sendBuffered (sendRecord ready) c.conn
      if ret = 0 then { c with conn := conn, attempts := c.attempts + 1 }
      else retry { c with conn := { conn with error := ret }, attempts := c.attempts + 1 }
  else { c with stage := .failed }
termination_by kMaxAttempts - c.attempts
decreasing_by omega

/-- The polls of a receive window. -/
def polled (c : Connecting) : Connecting :=
  { c with conn := { c.conn with io := recvLoop ready sched dtlsIoTimeoutLoops c.conn.io } }

/-- The end of a window without a datagram: `dtls_io_recv` reports `WANT_READ` whatever
`wolfSSL_dtls_got_timeout` returns. -/
def timedOut (c : Connecting) : Connecting :=
  { c with
    conn := { (Conn.dtlsGotTimeout protect (sendRecord ready) c.conn).2 with error := wantReadE } }

def expire (c : Connecting) : Connecting := retry ready (timedOut ready protect c)

/-- The end of a window with a datagram. -/
def arrive (a : Arrival) (c : Connecting) : Connecting :=
  { c with
    conn := { c.conn.processed a.progress with
      io := a.answers.foldl (SendCall.run ready) (handOver a.sz c.conn.io) }
    stage := a.progress.stage }

/-- One receive window; `a` is what wolfSSL makes of its datagram if one arrives. -/
def step (c : Connecting) (a : Arrival) : Connecting :=
  match c.stage with
  | .waiting =>
    let c := polled ready sched c
    if c.conn.io.app.gRx.ready = false then expire ready protect c else arrive ready a c
  | _ => c

/-- The loop at its first window. -/
def init (flight : List RtxRecord) (s : UdpState RxState) : Connecting :=
  ⟨.first flight s, 0, .waiting⟩

/-- The next window expires. -/
def Expires (c : Connecting) : Prop :=
  c.stage = .waiting ∧ (polled ready sched c).conn.io.app.gRx.ready = false

/-- When the next window expires and records have to be sent again, they are, or the loop has
failed, before the window after it. -/
def Recovers (c : Connecting) (a : Arrival) : Prop :=
  Expires ready sched c → c.conn.Overdue →
    (step ready sched protect c a).stage = .failed ∨
      c.conn.SentAgain (step ready sched protect c a).conn

/-- The timeout has not reached its cap, the attempts are used up, or the ACK that goes first
is refused. -/
def Guard (c : Connecting) (_ : Arrival) : Prop :=
  Expires ready sched c → c.conn.Overdue →
    c.conn.timeout < c.conn.timeoutMax ∨ kMaxAttempts ≤ c.attempts + 1 ∨
      Conn.AckRefused protect (sendRecord ready) (polled ready sched c).conn

end Connecting

/-! ## The send callback -/

/-- A refusal does not change what it depends on. -/
theorem refused_again {ctx : Option DtlsNetCtx} {sz : Int32} {s : UdpState RxState}
    (h : Refused ctx sz s) (buf : Mem UInt8) : Refused ctx sz (dtlsIoSend ready ctx buf sz s).2 := by
  unfold dtlsIoSend
  cases ctx with
  | none => exact .inl rfl
  | some net =>
    dsimp only
    split_ifs with hsz
    · exact h
    · have hmac : s.cachedMac.isZero = true := by
        rcases h with h | h | h | h
        · cases h
        · exact absurd (.inl h) hsz
        · exact absurd (.inr h) hsz
        · exact h
      rw [udpSend_of_no_mac ready (by exact hmac)]
      exact .inr (.inr (.inr hmac))

/-- The send callback fails exactly when it refuses the record, and in one way. -/
theorem sendRecord_neg_iff (bytes : List UInt8) (s : UdpState RxState) :
    (sendRecord ready bytes s).1 < 0 ↔ Refused (some net) (Int32.ofNat bytes.length) s := by
  constructor
  · intro hneg
    by_contra hgood
    obtain ⟨_, _, hpos, _, _, hsend⟩ := dtlsIoSend_of_not_refused ready hgood
      (Mem.write (fun _ => 0) 0 bytes)
    rw [sendRecord, hsend, Int32.lt_iff_toInt_lt] at hneg
    exact absurd hneg (Int.not_lt.mpr (Int.le_of_lt hpos))
  · intro hrefused
    rw [sendRecord, (dtlsIoSend_of_refused ready hrefused _).1]
    decide

theorem sendRecord_of_neg {bytes : List UInt8} {s : UdpState RxState}
    (h : (sendRecord ready bytes s).1 < 0) :
    (sendRecord ready bytes s).1 = wolfsslCbioErrGeneral :=
  (dtlsIoSend_of_refused ready ((sendRecord_neg_iff ready bytes s).mp h) _).1

theorem sendRecord_steady : Conn.Steady (sendRecord ready) := by
  intro bytes s hneg
  rw [sendRecord_neg_iff] at hneg ⊢
  exact refused_again ready hneg _

namespace Connecting

/-! ## One window -/

/-- After a socket error the loop is left. -/
theorem retry_of_socket_error {c : Connecting} (h : c.conn.error = socketErrorE) :
    (retry ready c).stage = .failed := by
  rw [retry, h]
  rfl

theorem retry_of_last {c : Connecting} (h : kMaxAttempts ≤ c.attempts + 1)
    (herr : c.conn.error = wantReadE) : (retry ready c).stage = .failed := by
  have hread : wolfsslGetError wantReadE = wolfsslErrorWantRead := by decide
  rw [retry, herr]
  simp [hread, h]

/-- A record that the callback refuses ends the loop at the next call of `wolfSSL_connect`. -/
theorem retry_of_stuck {c : Connecting} (h : Conn.Stuck (sendRecord ready) c.conn)
    (herr : c.conn.error = wantReadE) : (retry ready c).stage = .failed := by
  by_cases hlast : kMaxAttempts ≤ c.attempts + 1
  · exact retry_of_last ready hlast herr
  · have hread : wolfsslGetError wantReadE = wolfsslErrorWantRead := by decide
    have hsend : (Conn.sendBuffered (sendRecord ready) c.conn).1 = socketErrorE := by
      rw [Conn.sendBuffered_of_stuck h, sendRecord_of_neg ready h.2]
      rfl
    have hne : socketErrorE ≠ 0 := by decide
    rw [retry, herr]
    simp only [hread, true_or, if_true, if_neg hlast, hsend, if_neg hne]
    exact retry_of_socket_error ready rfl

theorem retry_of_empty {c : Connecting} (h : c.conn.outputBuffer = [])
    (herr : c.conn.error = wantReadE) (hmore : ¬ kMaxAttempts ≤ c.attempts + 1) :
    retry ready c = { c with attempts := c.attempts + 1 } := by
  have hread : wolfsslGetError wantReadE = wolfsslErrorWantRead := by decide
  rw [retry, herr]
  simp [hread, hmore, Conn.sendBuffered_of_empty _ h]

theorem timedOut_error (c : Connecting) : (timedOut ready protect c).conn.error = wantReadE := rfl

theorem timedOut_rest (c : Connecting) :
    (timedOut ready protect c).conn.outputBuffer =
        (Conn.dtls13RtxTimeout protect (sendRecord ready) c.conn).2.outputBuffer ∧
      (timedOut ready protect c).conn.io =
        (Conn.dtls13RtxTimeout protect (sendRecord ready) c.conn).2.io ∧
      (timedOut ready protect c).conn.sent =
        (Conn.dtls13RtxTimeout protect (sendRecord ready) c.conn).2.sent :=
  Conn.dtlsGotTimeout_rest protect c.conn

/-- The loop after an expired window, in terms of what the timeout has done. -/
theorem expire_cases {c : Connecting} (h : c.conn.outputBuffer = []) (hslow : ¬ c.conn.FastOnly) :
    (expire ready protect c).stage = .failed ∧
        (c.conn.timeout < c.conn.timeoutMax ∨ kMaxAttempts ≤ c.attempts + 1 ∨
          Conn.AckRefused protect (sendRecord ready) c.conn) ∨
      c.conn.timeout < c.conn.timeoutMax ∧ (expire ready protect c).conn.sent =
        c.conn.sent ++ (c.conn.acks ++ c.conn.rtxRecords.map Content.handshake) ∨
      ¬ (c.conn.timeout < c.conn.timeoutMax ∨ kMaxAttempts ≤ c.attempts + 1 ∨
          Conn.AckRefused protect (sendRecord ready) c.conn) ∧
        (expire ready protect c).stage = c.stage ∧
        (expire ready protect c).conn.sent = c.conn.sent ++ c.conn.acks := by
  obtain ⟨hbuf, hio, hsent⟩ := timedOut_rest ready protect c
  have herr := timedOut_error ready protect c
  unfold expire
  by_cases hlast : kMaxAttempts ≤ c.attempts + 1
  · exact .inl ⟨retry_of_last ready (c := timedOut ready protect c) hlast herr, .inr (.inl hlast)⟩
  · have empty (he : (Conn.dtls13RtxTimeout protect (sendRecord ready) c.conn).2.outputBuffer = []) :
        retry ready (timedOut ready protect c) =
          { timedOut ready protect c with attempts := c.attempts + 1 } :=
      retry_of_empty ready (c := timedOut ready protect c) (hbuf.trans he) herr hlast
    rcases Conn.dtls13RtxTimeout_cases protect (sendRecord_steady ready) h hslow with
      ⟨⟨_, stuck⟩, hwhy⟩ | ⟨_, hcap, out⟩ | ⟨hok, hcap, hempty, hacks⟩
    · have stuck' : Conn.Stuck (sendRecord ready) (timedOut ready protect c).conn :=
        stuck.congr hbuf hio
      exact .inl ⟨retry_of_stuck ready stuck' herr, hwhy.elim (fun href => .inr (.inr href)) .inl⟩
    · right; left
      rw [empty out.outputBuffer]
      exact ⟨hcap, hsent.trans out.sent⟩
    · right; right
      rw [empty hempty]
      refine ⟨?_, rfl, hsent.trans hacks⟩
      rintro (hlt | hmax | href)
      · exact hcap hlt
      · exact hlast hmax
      · exact hok href

/-- While the loop waits, nothing is left in the output buffer. -/
def Flushed (c : Connecting) : Prop := c.stage = .waiting → c.conn.outputBuffer = []

theorem retry_flushed (c : Connecting) : Flushed (retry ready c) := by
  fun_induction retry ready c with
  | case1 => intro h; cases h
  | case2 c _ _ _ conn hsend =>
    intro _
    have hbuf := Conn.outputBuffer_of_sent (sendRecord ready) (c := c.conn)
    rw [hsend] at hbuf
    exact hbuf rfl
  | case3 _ _ _ _ _ _ _ _ ih => exact ih
  | case4 => intro h; cases h

theorem Flushed.step {c : Connecting} (h : Flushed c) (a : Arrival) :
    Flushed (step ready sched protect c a) := by
  unfold Connecting.step
  cases hs : c.stage with
  | waiting =>
    dsimp only
    split_ifs
    · exact retry_flushed ready _
    · exact fun _ => h hs
  | connected => exact h
  | failed => exact h

theorem step_of_expires {c : Connecting} (h : Expires ready sched c) (a : Arrival) :
    step ready sched protect c a = expire ready protect (polled ready sched c) := by
  unfold Connecting.step
  rw [h.1]
  exact if_pos h.2

/-- Exactly under the guard does the loop recover from an expired window. -/
theorem recovers_iff_guard {c : Connecting} (h : Flushed c) (a : Arrival) :
    Recovers ready sched protect c a ↔ Guard ready sched protect c a := by
  unfold Recovers Guard
  refine forall_congr' fun hexp => forall_congr' fun hdue => ?_
  have hslow : ¬ (polled ready sched c).conn.FastOnly := hdue.2
  rw [step_of_expires ready sched protect hexp]
  rcases expire_cases ready protect (c := polled ready sched c) (h hexp.1) hslow with
    ⟨hfail, hok⟩ | ⟨hcap, hsent⟩ | ⟨hbad, hstage, hsent⟩
  · exact iff_of_true (.inl hfail) hok
  · refine iff_of_true (.inr fun r hr => ?_) (.inl hcap)
    rw [hsent]
    simp [polled, hr]
  · refine iff_of_false ?_ hbad
    rintro (hfail | hagain)
    · rw [hstage] at hfail
      have := hexp.1.symm.trans hfail
      cases this
    · obtain ⟨r, hr⟩ := List.exists_mem_of_ne_nil _ hdue.1
      have hmem := hagain r hr
      rw [hsent] at hmem
      change _ ∈ (c.conn.sent ++ (polled ready sched c).conn.acks).drop c.conn.sent.length at hmem
      rw [List.drop_left] at hmem
      unfold Conn.acks at hmem
      split_ifs at hmem <;> simp at hmem

/-- In a run of the handshake loop every expired window is recovered from exactly when each
of them meets the guard. -/
theorem recovers_iff (flight : List RtxRecord) (s : UdpState RxState) (as : List Arrival) :
    Meets (step ready sched protect) (Recovers ready sched protect) (init flight s) as ↔
      Meets (step ready sched protect) (Guard ready sched protect) (init flight s) as :=
  Meets.congr (I := Flushed) (fun _ a h _ => Flushed.step ready sched protect h a)
    (fun _ a h => recovers_iff_guard ready sched protect h a) (fun _ => rfl) as

/-! ## The driver during the handshake -/

/-- The calls of the send callback as calls of `dtls_io_send`. -/
def asSendCall (bytes : List UInt8) : SendCall :=
  ⟨some net, Mem.write (fun _ => 0) 0 bytes, Int32.ofNat bytes.length⟩

theorem foldl_sendRecord (datagrams : List (List UInt8)) (s : UdpState RxState) :
    datagrams.foldl (fun io d => (sendRecord ready d io).2) s =
      (datagrams.map asSendCall).foldl (SendCall.run ready) s := by
  rw [List.foldl_map]
  rfl

theorem run_sends (calls : List SendCall) (s : UdpState RxState) :
    run (Client.step ready sched net) s (calls.map .send) = calls.foldl (SendCall.run ready) s := by
  rw [run, List.foldl_map]
  rfl

theorem retry_calls (c : Connecting) :
    Conn.Calls (sendRecord ready) c.conn (retry ready c).conn := by
  fun_induction retry ready c with
  | case1 => exact .of_io rfl
  | case2 c _ _ _ conn hsend =>
    have sent := Conn.sendBuffered_calls (sendRecord ready) c.conn
    rwa [hsend] at sent
  | case3 c _ _ _ ret conn hsend _ ih =>
    have sent := Conn.sendBuffered_calls (sendRecord ready) c.conn
    rw [hsend] at sent
    exact (sent.trans (.of_io rfl)).trans ih
  | case4 => exact .of_io rfl

/-- A window of the handshake changes the driver as calls of the two I/O callbacks do. -/
theorem step_calls (c : Connecting) (a : Arrival) :
    ∃ calls, (step ready sched protect c a).conn.io =
      run (Client.step ready sched net) c.conn.io calls := by
  unfold Connecting.step
  cases c.stage with
  | connected => exact ⟨[], rfl⟩
  | failed => exact ⟨[], rfl⟩
  | waiting =>
    dsimp only
    split_ifs with hready
    · obtain ⟨resends, hresends⟩ := Conn.dtls13RtxTimeout_calls protect (sendRecord ready)
        (polled ready sched c).conn
      obtain ⟨flushes, hflushes⟩ := retry_calls ready (timedOut ready protect (polled ready sched c))
      refine ⟨.recv 0 (resends.map asSendCall) :: (flushes.map asSendCall).map .send, ?_⟩
      have recv : (dtlsIoRecv ready sched (some net) 0 (resends.map asSendCall) c.conn.io).2 =
          (resends.map asSendCall).foldl (SendCall.run ready) (polled ready sched c).conn.io :=
        congrArg Prod.snd (if_pos hready)
      rw [expire, hflushes, (timedOut_rest ready protect _).2.1, hresends, run_cons, run_sends,
        foldl_sendRecord, foldl_sendRecord, Client.step, recv]
    · refine ⟨.recv a.sz [] :: a.answers.map .send, ?_⟩
      have recv : (dtlsIoRecv ready sched (some net) a.sz [] c.conn.io).2 =
          handOver a.sz (polled ready sched c).conn.io := congrArg Prod.snd (if_neg hready)
      rw [run_cons, run_sends, Client.step, recv]
      rfl

/-- What the calls of the client keep, the handshake keeps. -/
theorem Preserved.handshake {P : UdpState RxState → Prop} (h : Preserved ready sched P)
    (flight : List RtxRecord) {s : UdpState RxState} (hs : P s) (as : List Arrival) :
    P (run (step ready sched protect) (init flight s) as).conn.io := by
  refine run_invariant (I := fun c : Connecting => P c.conn.io) (fun c a hc => ?_) hs as
  obtain ⟨calls, hcalls⟩ := step_calls ready sched protect c a
  rw [hcalls]
  exact h.run net hc calls

end Connecting

end LitexDtls.Client
