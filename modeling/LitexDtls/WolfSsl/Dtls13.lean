import Mathlib.Data.List.Basic

/-!
# Retransmission in DTLS 1.3

What wolfSSL does about a receive timeout: `wolfSSL_dtls_got_timeout`, `Dtls13RtxTimeout` and
what these call. The send callback is a parameter with a state of its own, and so is the
protection of a record, which depends on the number under which the record is sent. `sent` is
a history of what the callback has taken.

The results are about a callback that goes on refusing what it has refused. A long timeout
then ends in one of three ways: all unacknowledged records are out, the cap of the timeout is
reached and none is, or a refused record stays in the output buffer (`rtxTimeout_cases`).
-/
namespace LitexDtls.WolfSsl

def wolfsslFatalError : Int32 := -1
def wolfsslSuccess : Int32 := 1
def wolfsslCbioErrWantWrite : Int32 := -2
def socketErrorE : Int32 := -308
def wantReadE : Int32 := -323
def wantWriteE : Int32 := -327

def dtlsTimeoutInit : Nat := 1
def dtlsTimeoutMax : Nat := 64
def dtlsTimeoutMultiplier : Nat := 2

/-- `Dtls13RtxRecord`, less the numbers under which it was sent. -/
structure RtxRecord where
  handshakeType : UInt8
  epoch : UInt64
  data : List UInt8
  deriving DecidableEq, Repr

/-- `Dtls13RecordNumber`. -/
structure RecordNumber where
  epoch : UInt64
  seq : UInt64
  deriving DecidableEq, Repr

/-- What a record carries. -/
inductive Content where
  | handshake (r : RtxRecord)
  | ack (seen : List RecordNumber)
  deriving DecidableEq, Repr

/-- A record in the output buffer. -/
structure Sealed where
  content : Content
  bytes : List UInt8
  deriving DecidableEq, Repr

/-- The fields of `WOLFSSL` that a timeout reads or writes, the state `io` of the send
callback and the history of what it has taken. -/
structure Conn (σ : Type) where
  timeoutInit : Nat
  timeoutMax : Nat
  timeout : Nat
  fastTimeout : Bool
  rtxRecords : List RtxRecord
  seenRecords : List RecordNumber
  sendAcks : Bool
  serverHelloComplete : Bool
  seenUnifiedHdr : Bool
  nextSeqNumber : Nat
  outputBuffer : List Sealed
  error : Int32
  io : σ
  sent : List Content

variable {σ : Type} (protect : Nat → Content → List UInt8) (send : List UInt8 → σ → Int32 × σ)

namespace Conn

/-- The bytes in the output buffer. -/
def pending (c : Conn σ) : List UInt8 := c.outputBuffer.flatMap Sealed.bytes

/-- Put a protected record behind the contents of the output buffer. -/
def buffer (x : Content) (c : Conn σ) : Conn σ :=
  { c with
    outputBuffer := c.outputBuffer ++ [⟨x, protect c.nextSeqNumber x⟩]
    nextSeqNumber := c.nextSeqNumber + 1 }

/-- `SendBuffered`. A callback that does not fail takes the whole buffer, as a datagram. -/
def sendBuffered (c : Conn σ) : Int32 × Conn σ :=
  if c.outputBuffer.isEmpty then (0, c)
  else
    let (res, io) := send c.pending c.io
    if res < 0 then
      (if res = wolfsslCbioErrWantWrite then wantWriteE else socketErrorE, { c with io := io })
    else
      (0, { c with
        io := io
        outputBuffer := []
        sent := c.sent ++ c.outputBuffer.map Sealed.content })

/-- `SendDtls13Ack`; the list of seen records is flushed before the ACK is sent. -/
def sendDtls13Ack (c : Conn σ) : Int32 × Conn σ :=
  sendBuffered send { c.buffer protect (.ack c.seenRecords) with seenRecords := [] }

/-- `DtlsMsgPoolTimeout`. -/
def dtlsMsgPoolTimeout (c : Conn σ) : Int32 × Conn σ :=
  if c.timeout < c.timeoutMax then (0, { c with timeout := c.timeout * dtlsTimeoutMultiplier })
  else (-1, c)

/-- The loop of `Dtls13RtxSendBuffered`, with the records before `r` already sent. -/
def rtxSendLoop : List RtxRecord → List RtxRecord → Conn σ → Int32 × Conn σ
  | _, [], c => (0, c)
  | before, r :: rs, c =>
    let (ret, next) := sendBuffered send (c.buffer protect (.handshake r))
    -- a record that has to wait moves to the end of the list
    if ret = wantWriteE then (ret, { next with rtxRecords := before ++ rs ++ [r] })
    else if ret ≠ 0 then (ret, next)
    else rtxSendLoop (before ++ [r]) rs next

/-- `Dtls13RtxSendBuffered`, built with `NO_ASN_TIME`. -/
def dtls13RtxSendBuffered (c : Conn σ) : Int32 × Conn σ :=
  rtxSendLoop protect send [] c.rtxRecords c

/-- The condition under which a timeout sends an ACK. -/
def AckDue (c : Conn σ) : Prop :=
  c.seenRecords ≠ [] ∧ (c.serverHelloComplete = true ∨ c.seenUnifiedHdr = true)

instance (c : Conn σ) : Decidable c.AckDue := inferInstanceAs (Decidable (_ ∧ _))

/-- The first part of `Dtls13RtxTimeout`. -/
def timeoutAck (c : Conn σ) : Int32 × Conn σ :=
  if c.AckDue then sendDtls13Ack protect send { c with sendAcks := false, fastTimeout := false }
  else (0, c)

/-- The last part of `Dtls13RtxTimeout`: the long timeout. -/
def timeoutLong (c : Conn σ) : Int32 × Conn σ :=
  let (ret, c) := c.dtlsMsgPoolTimeout
  if ret ≠ 0 then (wolfsslFatalError, c) else dtls13RtxSendBuffered protect send c

/-- `Dtls13RtxTimeout`. -/
def dtls13RtxTimeout (c : Conn σ) : Int32 × Conn σ :=
  let (ret, c) := timeoutAck protect send c
  if ret ≠ 0 then (ret, c)
  else if c.fastTimeout then (0, { c with fastTimeout := false })
  else timeoutLong protect send c

/-- `wolfSSL_dtls_got_timeout` on a connection of version 1.3. -/
def dtlsGotTimeout (c : Conn σ) : Int32 × Conn σ :=
  let (ret, c) := dtls13RtxTimeout protect send c
  if ret < 0 then (wolfsslFatalError, { c with error := ret }) else (wolfsslSuccess, c)

/-- The timeout is the short one, after which nothing is sent again. -/
def FastOnly (c : Conn σ) : Prop := c.fastTimeout = true ∧ ¬ c.AckDue

/-- A timeout of this connection has to send records again. -/
def Overdue (c : Conn σ) : Prop := c.rtxRecords ≠ [] ∧ ¬ c.FastOnly

instance (c : Conn σ) : Decidable c.FastOnly := inferInstanceAs (Decidable (_ ∧ _))
instance (c : Conn σ) : Decidable c.Overdue := inferInstanceAs (Decidable (_ ∧ _))

/-- The unacknowledged records of `c` are among what was sent from `c` to `t`. -/
def SentAgain (c t : Conn σ) : Prop :=
  ∀ r ∈ c.rtxRecords, Content.handshake r ∈ t.sent.drop c.sent.length

/-! ## Datagrams -/

end Conn

/-- Where a handshake loop is. -/
inductive Stage where
  | waiting
  | connected
  | failed
  deriving DecidableEq, Repr

/-- What the processing of a datagram leaves behind: the records that are unacknowledged
afterwards, the other fields, and where the loop is. `valid` says that a handshake message was
valid, which starts the timeout over. -/
structure Progress where
  rtxRecords : List RtxRecord
  seenRecords : List RecordNumber
  fastTimeout : Bool
  sendAcks : Bool
  serverHelloComplete : Bool
  seenUnifiedHdr : Bool
  nextSeqNumber : Nat
  valid : Bool
  stage : Stage

namespace Conn

def processed (p : Progress) (c : Conn σ) : Conn σ :=
  { c with
    timeout := if p.valid then c.timeoutInit else c.timeout
    fastTimeout := p.fastTimeout
    rtxRecords := p.rtxRecords
    seenRecords := p.seenRecords
    sendAcks := p.sendAcks
    serverHelloComplete := p.serverHelloComplete
    seenUnifiedHdr := p.seenUnifiedHdr
    nextSeqNumber := p.nextSeqNumber }

/-- The connection at the first window of a handshake, after its first flight. -/
def first (flight : List RtxRecord) (io : σ) : Conn σ :=
  ⟨dtlsTimeoutInit, dtlsTimeoutMax, dtlsTimeoutInit, false, flight, [],
    false, false, false, flight.length, [], 0, io, []⟩

/-! ## The send callback -/

/-- A callback that refuses some bytes refuses them again. -/
def Steady : Prop := ∀ bytes io, (send bytes io).1 < 0 → (send bytes (send bytes io).2).1 < 0

/-- The output buffer holds what the callback refuses. -/
def Stuck (c : Conn σ) : Prop := c.outputBuffer ≠ [] ∧ (send c.pending c.io).1 < 0

variable {send}

/-- A buffer goes out as a whole or stays. -/
theorem sendBuffered_cases (steady : Steady send) {c : Conn σ} (hne : c.outputBuffer ≠ []) :
    ((send c.pending c.io).1 < 0 ∧ (sendBuffered send c).1 < 0 ∧
        Stuck send (sendBuffered send c).2) ∨
      ¬ (send c.pending c.io).1 < 0 ∧ sendBuffered send c =
        (0, { c with
          io := (send c.pending c.io).2
          outputBuffer := []
          sent := c.sent ++ c.outputBuffer.map Sealed.content }) := by
  have hemp : c.outputBuffer.isEmpty = false := by simpa using hne
  by_cases hres : (send c.pending c.io).1 < 0
  · left
    have hsend : sendBuffered send c =
        (if (send c.pending c.io).1 = wolfsslCbioErrWantWrite then wantWriteE else socketErrorE,
          { c with io := (send c.pending c.io).2 }) := by
      simp [sendBuffered, hemp, hres]
    rw [hsend]
    refine ⟨hres, ?_, hne, steady _ _ hres⟩
    dsimp only
    split_ifs <;> decide
  · right
    exact ⟨hres, by simp [sendBuffered, hemp, hres]⟩

theorem sendBuffered_of_stuck {c : Conn σ} (h : Stuck send c) :
    (sendBuffered send c).1 =
      if (send c.pending c.io).1 = wolfsslCbioErrWantWrite then wantWriteE else socketErrorE := by
  have hemp : c.outputBuffer.isEmpty = false := by simpa using h.1
  simp [sendBuffered, hemp, h.2]

theorem Stuck.congr {c d : Conn σ} (h : Stuck send c) (hbuf : d.outputBuffer = c.outputBuffer)
    (hio : d.io = c.io) : Stuck send d := by
  unfold Stuck pending at *
  rwa [hbuf, hio]

/-- A call of `SendBuffered` that succeeds leaves nothing behind. -/
theorem outputBuffer_of_sent (send : List UInt8 → σ → Int32 × σ) {c : Conn σ}
    (h : (sendBuffered send c).1 = 0) : (sendBuffered send c).2.outputBuffer = [] := by
  unfold sendBuffered at h ⊢
  dsimp only at h ⊢
  split_ifs at h ⊢ with hemp hneg hwrite
  · simpa using hemp
  · exact absurd (show wantWriteE = 0 from h) (by decide)
  · exact absurd (show socketErrorE = 0 from h) (by decide)
  · rfl

theorem sendBuffered_of_empty (send : List UInt8 → σ → Int32 × σ) {c : Conn σ}
    (h : c.outputBuffer = []) : sendBuffered send c = (0, c) := by
  simp [sendBuffered, h]

/-! ## What a timeout sends -/

/-- A call has failed and left in the output buffer what the callback refuses. -/
def Blocked (send : List UInt8 → σ → Int32 × σ) (t : Int32 × Conn σ) : Prop :=
  t.1 < 0 ∧ Stuck send t.2

/-- A call has sent exactly the records `xs`. -/
structure Out (c : Conn σ) (xs : List Content) (t : Int32 × Conn σ) : Prop where
  ret : t.1 = 0
  outputBuffer : t.2.outputBuffer = []
  sent : t.2.sent = c.sent ++ xs

/-- A single record goes out or stays in the buffer. -/
theorem buffer_cases (steady : Steady send) {c : Conn σ} (h : c.outputBuffer = [])
    (x : Content) :
    ((send (protect c.nextSeqNumber x) c.io).1 < 0 ∧
        Blocked send (sendBuffered send (c.buffer protect x))) ∨
      ¬ (send (protect c.nextSeqNumber x) c.io).1 < 0 ∧
        Out c [x] (sendBuffered send (c.buffer protect x)) := by
  have hbuf : (c.buffer protect x).outputBuffer = [⟨x, protect c.nextSeqNumber x⟩] := by
    simp [buffer, h]
  have hpending : (c.buffer protect x).pending = protect c.nextSeqNumber x := by
    simp [pending, hbuf]
  have hne : (c.buffer protect x).outputBuffer ≠ [] := by simp [hbuf]
  rcases sendBuffered_cases steady hne with ⟨hres, blocked⟩ | ⟨hres, hsend⟩
  · exact .inl ⟨hpending ▸ hres, blocked⟩
  · refine .inr ⟨hpending ▸ hres, ?_⟩
    rw [hsend]
    exact ⟨rfl, rfl, by rw [hbuf]; rfl⟩

/-- The loop over the records sends all of them or is blocked at one. -/
theorem rtxSendLoop_cases (steady : Steady send) (before rs : List RtxRecord) {c : Conn σ}
    (h : c.outputBuffer = []) :
    Blocked send (rtxSendLoop protect send before rs c) ∨
      Out c (rs.map Content.handshake) (rtxSendLoop protect send before rs c) := by
  induction rs generalizing before c with
  | nil => exact .inr ⟨rfl, h, by simp [rtxSendLoop]⟩
  | cons r rs ih =>
    rcases buffer_cases protect steady h (.handshake r) with ⟨_, hneg, stuck⟩ | ⟨_, out⟩
    · left
      have hzero : (sendBuffered send (c.buffer protect (.handshake r))).1 ≠ 0 := by
        intro hz
        rw [hz] at hneg
        exact absurd hneg (by decide)
      unfold rtxSendLoop
      dsimp only
      rw [if_pos hzero]
      split_ifs
      · exact ⟨hneg, stuck⟩
      · exact ⟨hneg, stuck⟩
    · have hloop : rtxSendLoop protect send before (r :: rs) c =
          rtxSendLoop protect send (before ++ [r]) rs
            (sendBuffered send (c.buffer protect (.handshake r))).2 := by
        rw [rtxSendLoop]
        dsimp only
        rw [out.ret, if_neg (by decide), if_neg (by simp)]
      rw [hloop]
      refine (ih (before ++ [r]) out.outputBuffer).imp_right fun rest => ?_
      exact ⟨rest.ret, rest.outputBuffer, by rw [rest.sent, out.sent]; simp⟩

/-- The ACK that a timeout sends. -/
def acks (c : Conn σ) : List Content := if c.AckDue then [.ack c.seenRecords] else []

/-- The callback refuses the ACK that is due. -/
def AckRefused (send : List UInt8 → σ → Int32 × σ) (c : Conn σ) : Prop :=
  c.AckDue ∧ (send (protect c.nextSeqNumber (.ack c.seenRecords)) c.io).1 < 0

/-- The ACK part of a timeout leaves the records and the timer alone. -/
theorem timeoutAck_cases (steady : Steady send) {c : Conn σ} (h : c.outputBuffer = []) :
    AckRefused protect send c ∧ Blocked send (timeoutAck protect send c) ∨
      ¬ AckRefused protect send c ∧
        Out c c.acks (timeoutAck protect send c) := by
  unfold acks
  by_cases hack : c.AckDue
  · have cases := buffer_cases protect steady
      (c := { c with sendAcks := false, fastTimeout := false, seenRecords := [] }) h
      (.ack c.seenRecords)
    rw [timeoutAck, if_pos hack, if_pos hack]
    rcases cases with ⟨hres, blocked⟩ | ⟨hres, out⟩
    · exact .inl ⟨⟨hack, hres⟩, blocked⟩
    · exact .inr ⟨fun href => hres href.2, out.ret, out.outputBuffer, out.sent⟩
  · rw [timeoutAck, if_neg hack, if_neg hack]
    exact .inr ⟨fun href => hack href.1, rfl, h, by simp⟩

theorem sendBuffered_rest (send : List UInt8 → σ → Int32 × σ) (c : Conn σ) :
    (sendBuffered send c).2.rtxRecords = c.rtxRecords ∧
      (sendBuffered send c).2.timeout = c.timeout ∧
      (sendBuffered send c).2.timeoutMax = c.timeoutMax ∧
      (sendBuffered send c).2.fastTimeout = c.fastTimeout := by
  unfold sendBuffered
  dsimp only
  split_ifs <;> exact ⟨rfl, rfl, rfl, rfl⟩

theorem timeoutAck_rest (send : List UInt8 → σ → Int32 × σ) (c : Conn σ) :
    (timeoutAck protect send c).2.rtxRecords = c.rtxRecords ∧
      (timeoutAck protect send c).2.timeout = c.timeout ∧
      (timeoutAck protect send c).2.timeoutMax = c.timeoutMax ∧
      ((timeoutAck protect send c).2.fastTimeout = true ↔ c.FastOnly) := by
  unfold timeoutAck FastOnly
  split_ifs with hack
  · obtain ⟨hrtx, htimeout, hmax, hfast⟩ := sendBuffered_rest send
      { ({ c with sendAcks := false, fastTimeout := false } : Conn σ).buffer protect
          (.ack c.seenRecords) with seenRecords := [] }
    exact ⟨hrtx, htimeout, hmax, iff_of_false (by rw [sendDtls13Ack, hfast]; simp [buffer])
      fun hfo => hfo.2 hack⟩
  · exact ⟨rfl, rfl, rfl, by simp [hack]⟩

theorem timeoutLong_of_lt {c : Conn σ} (hcap : c.timeout < c.timeoutMax) :
    timeoutLong protect send c = rtxSendLoop protect send [] c.rtxRecords
      { c with timeout := c.timeout * dtlsTimeoutMultiplier } := by
  simp [timeoutLong, dtlsMsgPoolTimeout, hcap, dtls13RtxSendBuffered]

/-- A long timeout sends the records again unless the timeout has reached its cap. -/
theorem timeoutLong_cases (steady : Steady send) {c : Conn σ} (h : c.outputBuffer = []) :
    c.timeout < c.timeoutMax ∧ (Blocked send (timeoutLong protect send c) ∨
        Out c (c.rtxRecords.map Content.handshake) (timeoutLong protect send c)) ∨
      ¬ c.timeout < c.timeoutMax ∧ timeoutLong protect send c = (wolfsslFatalError, c) := by
  by_cases hcap : c.timeout < c.timeoutMax
  · left
    rw [timeoutLong_of_lt protect hcap]
    refine ⟨hcap, (rtxSendLoop_cases protect steady [] c.rtxRecords
      (c := { c with timeout := c.timeout * dtlsTimeoutMultiplier }) h).imp_right fun out => ?_⟩
    exact ⟨out.ret, out.outputBuffer, out.sent⟩
  · exact .inr ⟨hcap, by simp [timeoutLong, dtlsMsgPoolTimeout, hcap]⟩

/-- What a timeout of an overdue connection comes to. -/
theorem dtls13RtxTimeout_cases (steady : Steady send) {c : Conn σ} (h : c.outputBuffer = [])
    (hslow : ¬ c.FastOnly) :
    Blocked send (dtls13RtxTimeout protect send c) ∧
        (AckRefused protect send c ∨ c.timeout < c.timeoutMax) ∨
      ¬ AckRefused protect send c ∧ c.timeout < c.timeoutMax ∧
        Out c (c.acks ++ c.rtxRecords.map Content.handshake) (dtls13RtxTimeout protect send c) ∨
      ¬ AckRefused protect send c ∧ ¬ c.timeout < c.timeoutMax ∧
        (dtls13RtxTimeout protect send c).2.outputBuffer = [] ∧
        (dtls13RtxTimeout protect send c).2.sent = c.sent ++ c.acks := by
  obtain ⟨hrtx, htimeout, hmax, hfast⟩ := timeoutAck_rest protect send c
  rcases timeoutAck_cases protect steady h with ⟨href, hneg, stuck⟩ | ⟨hok, out⟩
  · left
    have hzero : (timeoutAck protect send c).1 ≠ 0 := by
      intro hz
      rw [hz] at hneg
      exact absurd hneg (by decide)
    have hrun : dtls13RtxTimeout protect send c = timeoutAck protect send c := by
      unfold dtls13RtxTimeout
      dsimp only
      rw [if_pos hzero]
    rw [hrun]
    exact ⟨⟨hneg, stuck⟩, .inl href⟩
  · have hrun : dtls13RtxTimeout protect send c =
        timeoutLong protect send (timeoutAck protect send c).2 := by
      have hoff : (timeoutAck protect send c).2.fastTimeout = false := by
        simpa [hslow] using hfast
      simp [dtls13RtxTimeout, out.ret, hoff]
    have long := timeoutLong_cases protect steady out.outputBuffer
    rw [htimeout, hmax, hrtx] at long
    rw [hrun]
    rcases long with ⟨hcap, blocked | sent⟩ | ⟨hcap, hlong⟩
    · exact .inl ⟨blocked, .inr hcap⟩
    · refine .inr (.inl ⟨hok, hcap, sent.ret, sent.outputBuffer, ?_⟩)
      rw [sent.sent, out.sent, List.append_assoc, acks]
    · rw [hlong]
      exact .inr (.inr ⟨hok, hcap, out.outputBuffer, out.sent⟩)

theorem dtlsGotTimeout_rest (c : Conn σ) :
    (dtlsGotTimeout protect send c).2.outputBuffer = (dtls13RtxTimeout protect send c).2.outputBuffer ∧
      (dtlsGotTimeout protect send c).2.io = (dtls13RtxTimeout protect send c).2.io ∧
      (dtlsGotTimeout protect send c).2.sent = (dtls13RtxTimeout protect send c).2.sent := by
  unfold dtlsGotTimeout
  dsimp only
  split_ifs <;> exact ⟨rfl, rfl, rfl⟩

/-! ## A callback that takes everything -/

/-- While `I` holds, the callback takes the record `r` and keeps `I`. -/
def Takes (send : List UInt8 → σ → Int32 × σ) (I : σ → Prop) (r : RtxRecord) : Prop :=
  ∀ n io, I io → ¬ (send (protect n (.handshake r)) io).1 < 0 ∧
    I (send (protect n (.handshake r)) io).2

theorem rtxSendLoop_of_takes {I : σ → Prop} (before : List RtxRecord) {rs : List RtxRecord}
    (takes : ∀ r ∈ rs, Takes protect send I r) {c : Conn σ} (h : c.outputBuffer = [])
    (hI : I c.io) :
    ∃ n io sent, I io ∧ rtxSendLoop protect send before rs c =
      (0, { c with nextSeqNumber := n, outputBuffer := [], io := io, sent := sent }) := by
  induction rs generalizing before c with
  | nil =>
    refine ⟨c.nextSeqNumber, c.io, c.sent, hI, ?_⟩
    rw [rtxSendLoop, ← h]
  | cons r rs ih =>
    obtain ⟨hres, hnext⟩ := takes r (by simp) c.nextSeqNumber c.io hI
    have hpending : (c.buffer protect (.handshake r)).pending =
        protect c.nextSeqNumber (.handshake r) := by
      simp [pending, buffer, h]
    have hsend : sendBuffered send (c.buffer protect (.handshake r)) =
        (0, { c with
          nextSeqNumber := c.nextSeqNumber + 1
          outputBuffer := []
          io := (send (protect c.nextSeqNumber (.handshake r)) c.io).2
          sent := c.sent ++ [.handshake r] }) := by
      have hemp : (c.buffer protect (.handshake r)).outputBuffer.isEmpty = false := by
        simp [buffer]
      rw [sendBuffered, hpending, hemp]
      simp [buffer, h, hres]
    obtain ⟨n, io, sent, hio, hrest⟩ := ih (before ++ [r])
      (fun r' hr' => takes r' (List.mem_cons_of_mem r hr')) (c := { c with
      nextSeqNumber := c.nextSeqNumber + 1
      outputBuffer := []
      io := (send (protect c.nextSeqNumber (.handshake r)) c.io).2
      sent := c.sent ++ [.handshake r] }) rfl hnext
    have hwait : (0 : Int32) ≠ wantWriteE := by decide
    refine ⟨n, io, sent, hio, ?_⟩
    simp only [rtxSendLoop, hsend, if_neg hwait, ne_eq, not_true_eq_false, if_false, hrest]

/-- A long timeout below the cap, without an ACK, doubles the timeout and leaves the records
where they are. -/
theorem dtls13RtxTimeout_of_takes {I : σ → Prop} {c : Conn σ}
    (takes : ∀ r ∈ c.rtxRecords, Takes protect send I r) (h : c.outputBuffer = [])
    (hI : I c.io) (hack : ¬ c.AckDue) (hfast : c.fastTimeout = false)
    (hcap : c.timeout < c.timeoutMax) :
    ∃ n io sent, I io ∧ dtls13RtxTimeout protect send c =
      (0, { c with
        timeout := c.timeout * dtlsTimeoutMultiplier
        nextSeqNumber := n
        outputBuffer := []
        io := io
        sent := sent }) := by
  obtain ⟨n, io, sent, hio, hloop⟩ := rtxSendLoop_of_takes protect [] takes
    (c := { c with timeout := c.timeout * dtlsTimeoutMultiplier }) h hI
  have hacked : timeoutAck protect send c = (0, c) := if_neg hack
  have hlong : dtls13RtxTimeout protect send c = timeoutLong protect send c := by
    simp [dtls13RtxTimeout, hacked, hfast]
  exact ⟨n, io, sent, hio, hlong.trans ((timeoutLong_of_lt protect hcap).trans hloop)⟩

/-! ## The state of the send callback -/

variable (send)

/-- From `c` to `t` the callback was called on the given datagrams. -/
def Calls (c t : Conn σ) : Prop :=
  ∃ datagrams : List (List UInt8), t.io = datagrams.foldl (fun io d => (send d io).2) c.io

theorem Calls.of_io {send : List UInt8 → σ → Int32 × σ} {c t : Conn σ} (h : t.io = c.io) :
    Calls send c t := ⟨[], h⟩

theorem Calls.trans {send : List UInt8 → σ → Int32 × σ} {c t u : Conn σ} (h : Calls send c t)
    (g : Calls send t u) : Calls send c u := by
  obtain ⟨xs, hx⟩ := h
  obtain ⟨ys, hy⟩ := g
  exact ⟨xs ++ ys, by rw [hy, hx, List.foldl_append]⟩

theorem sendBuffered_calls (c : Conn σ) : Calls send c (sendBuffered send c).2 := by
  unfold sendBuffered
  dsimp only
  split_ifs
  · exact .of_io rfl
  all_goals exact ⟨[c.pending], rfl⟩

theorem rtxSendLoop_calls (before rs : List RtxRecord) (c : Conn σ) :
    Calls send c (rtxSendLoop protect send before rs c).2 := by
  induction rs generalizing before c with
  | nil => exact .of_io rfl
  | cons r rs ih =>
    have first : Calls send c (sendBuffered send (c.buffer protect (.handshake r))).2 :=
      (Calls.of_io rfl).trans (sendBuffered_calls send _)
    unfold rtxSendLoop
    dsimp only
    split_ifs
    · exact first.trans (.of_io rfl)
    · exact first
    · exact first.trans (ih _ _)

theorem timeoutAck_calls (c : Conn σ) : Calls send c (timeoutAck protect send c).2 := by
  unfold timeoutAck
  split_ifs
  · exact (Calls.of_io rfl).trans (sendBuffered_calls send _)
  · exact .of_io rfl

theorem timeoutLong_calls (c : Conn σ) : Calls send c (timeoutLong protect send c).2 := by
  unfold timeoutLong dtlsMsgPoolTimeout
  dsimp only
  split_ifs
  all_goals first
    | exact .of_io rfl
    | exact (Calls.of_io rfl).trans (rtxSendLoop_calls _ send _ _ _)

/-- A timeout changes the state of the callback by calls of the callback only. -/
theorem dtls13RtxTimeout_calls (c : Conn σ) :
    Calls send c (dtls13RtxTimeout protect send c).2 := by
  have acked := timeoutAck_calls protect send c
  unfold dtls13RtxTimeout
  dsimp only
  split_ifs
  · exact acked
  · exact acked.trans (.of_io rfl)
  · exact acked.trans (timeoutLong_calls _ send _)

end Conn

end LitexDtls.WolfSsl
