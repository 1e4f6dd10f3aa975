import LitexDtls.Host.Bio

/-!
# The loops of the Dilithium server

The accept loop and the data loop of `dtls13_dilithium_server.c` over the calls that they make
into wolfSSL. A call of the library invokes the two I/O callbacks, each with the outcome of its
system call. The first callback that reports an error ends the call, and what the caller sees
of it is fixed by `wolfSSLReceive`, `GetInputData` and `SendBuffered`; a call in which no
callback fails returns what the library decides.
-/
namespace LitexDtls.Host
open Library

def wolfsslSuccess : Int32 := 1
def wolfsslFatalError : Int32 := -1
def wolfsslErrorWantRead : Int32 := 2
def wolfsslErrorWantWrite : Int32 := 3
def socketErrorE : Int32 := -308

/-- A call into wolfSSL: the callbacks that it invokes as long as none fails, and its result,
its error and the contents of the caller's buffer when none does. -/
structure LibCall where
  ios : List BioCall
  ret : Int32
  err : Int32
  buf : List UInt8

/-- What a call returns: the result, `wolfSSL_get_error` and the message read. -/
structure LibResult where
  ret : Int32
  err : Int32
  buf : List UInt8

/-- The result of a callback for wolfSSL, and the context afterwards. -/
def callback (net : NetCtx) : BioCall → Int32 × NetCtx
  | .recv sz outcome =>
    ((bioRecv (some net) sz outcome).1, (bioRecv (some net) sz outcome).2.2.getD net)
  | .send outcome => ((bioSend (some net) outcome).1, net)

/-- The error that a failed callback becomes: `wolfSSLReceive` and `GetInputData` for
`bio_recv`, `SendBuffered` for `bio_send`. -/
def callbackError (c : BioCall) (res : Int32) : Int32 :=
  match c with
  | .recv _ _ => if res = wolfsslCbioErrWantRead then wolfsslErrorWantRead else socketErrorE
  | .send _ => if res = wolfsslCbioErrWantWrite then wolfsslErrorWantWrite else socketErrorE

/-- Invoke callbacks up to the first one that fails: the context afterwards, the invocations
with their results, and the error when one has failed. -/
def runIos (net : NetCtx) : List BioCall → NetCtx × List (BioCall × Int32) × Option Int32
  | [] => (net, [], none)
  | c :: cs =>
    let (res, next) := callback net c
    if res < 0 then (next, [(c, res)], some (callbackError c res))
    else
      let (last, trace, failure) := runIos next cs
      (last, (c, res) :: trace, failure)

/-- Where the server is. -/
inductive Phase where
  | accepting
  | reading
  | echoing (message : List UInt8)
  | failed
  deriving DecidableEq, Repr

/-- The phase in which the loop receives again: after a write it reads. -/
def Phase.receiving : Phase → Phase
  | .echoing _ => .reading
  | p => p

/-- The server: `stuck` says that wolfSSL refuses to go on after a socket error. `trace` are the
callbacks with what they reported, `messages` the messages that were read and `echoed` those that
were written back completely. -/
structure Server where
  net : NetCtx
  phase : Phase
  stuck : Bool
  trace : List (BioCall × Int32)
  messages : List (List UInt8)
  echoed : List (List UInt8)

namespace Server

/-- Make a call into wolfSSL. After a socket error wolfSSL stays in its error state. -/
def call (s : Server) (c : LibCall) : LibResult × Server :=
  if s.stuck then (⟨wolfsslFatalError, socketErrorE, []⟩, s)
  else
    let (net, trace, failure) := runIos s.net c.ios
    let next := { s with net := net, trace := s.trace ++ trace }
    match failure with
    | some err => (⟨wolfsslFatalError, err, []⟩, { next with stuck := err = socketErrorE })
    | none => (⟨c.ret, c.err, c.buf⟩, next)

/-- The error branches of both loops: wait and go on, or leave. -/
def onError (s : Server) (r : LibResult) : Server :=
  if r.err = wolfsslErrorWantRead then s
  else if r.err = wolfsslErrorWantWrite then s
  else { s with phase := .failed }

/-- One call of the accept loop or of the data loop. -/
def step (s : Server) (c : LibCall) : Server :=
  match s.phase with
  | .failed => s
  | .accepting =>
    let (r, next) := s.call c
    if r.ret = wolfsslSuccess then { next with phase := .reading } else next.onError r
  | .reading =>
    let (r, next) := s.call c
    if r.ret > 0 then
      let message := r.buf.take r.ret.toInt.toNat
      { next with phase := .echoing message, messages := next.messages ++ [message] }
    else next.onError r
  | .echoing message =>
    let (r, next) := s.call c
    if r.ret = Int32.ofNat message.length then
      { next with phase := .reading, echoed := next.echoed ++ [message] }
    else { next with phase := .reading }

/-- The server when the accept loop begins, with the peer known. -/
def init (peer : SockaddrIn) : Server := ⟨⟨peer, true⟩, .accepting, false, [], [], []⟩

end Server

/-! ## What the callbacks report -/

/-- The error of a failed system call. -/
def errnoOf : BioCall → Option Errno
  | .recv _ (.error errno) => some errno
  | .send (.error errno) => some errno
  | _ => none

/-- A failure that says only that the call has to be repeated. -/
def Transient (c : BioCall) : Prop := errnoOf c = some .eintr ∨ errnoOf c = some .eagain

/-- A failure of the socket. -/
def Fatal (c : BioCall) : Prop := ∃ n, errnoOf c = some (.other n)

/-- A transient failure is reported as a request to repeat the call. -/
def ReportedRight (e : BioCall × Int32) : Prop :=
  Transient e.1 → e.2 = match e.1 with
    | .recv _ _ => wolfsslCbioErrWantRead
    | .send _ => wolfsslCbioErrWantWrite

/-- Not a `sendto` that fails transiently. -/
def GoodSend : BioCall → Prop
  | .send (.error .eintr) => False
  | .send (.error .eagain) => False
  | _ => True

theorem ofNat_nonneg {n : Nat} (h : n < 65536) : ¬ Int32.ofNat n < 0 := by
  have hz : (0 : Int32).toInt = 0 := rfl
  rw [Int32.lt_iff_toInt_lt, Int32.toInt_ofNat_of_lt (by omega), hz]
  omega

theorem callback_nonneg (net : NetCtx) {c : BioCall} (hp : net.peerSet = true)
    (h : errnoOf c = none) : ¬ (callback net c).1 < 0 := by
  cases c with
  | recv sz outcome =>
    cases outcome with
    | error errno => simp [errnoOf] at h
    | datagram sender payload =>
      have hlen : (received sz payload).length < 65536 :=
        Nat.lt_of_le_of_lt (List.length_take_le' _ _) payload.fits
      exact ofNat_nonneg hlen
  | send outcome =>
    cases outcome with
    | error errno => simp [errnoOf] at h
    | sent n =>
      have hn : ¬ Int32.ofNat n.toNat < 0 := ofNat_nonneg n.toNat_lt
      simpa [callback, bioSend, hp] using hn

/-- A failed `recvfrom` is a request to repeat it or fatal; a failed `sendto` is always
reported as a socket error. -/
theorem callback_error {net : NetCtx} (hp : net.peerSet = true) {c : BioCall} {errno : Errno}
    (h : errnoOf c = some errno) :
    (callback net c).1 < 0 ∧
      (callbackError c (callback net c).1 = wolfsslErrorWantRead ∨
        callbackError c (callback net c).1 = socketErrorE ∧ (Fatal c ∨ ¬ GoodSend c)) := by
  cases c with
  | recv sz outcome =>
    cases outcome with
    | datagram sender payload => simp [errnoOf] at h
    | error errno =>
      cases errno with
      | eintr => exact ⟨show wolfsslCbioErrWantRead < 0 by decide, .inl rfl⟩
      | eagain => exact ⟨show wolfsslCbioErrWantRead < 0 by decide, .inl rfl⟩
      | other n =>
        exact ⟨show wolfsslCbioErrGeneral < 0 by decide, .inr ⟨rfl, .inl ⟨n, rfl⟩⟩⟩
  | send outcome =>
    cases outcome with
    | sent n => simp [errnoOf] at h
    | error errno =>
      have hres : (callback net (.send (.error errno))).1 = wolfsslCbioErrGeneral := by
        simp [callback, bioSend, hp]
      rw [hres]
      refine ⟨by decide, .inr ⟨rfl, ?_⟩⟩
      cases errno with
      | eintr => exact .inr id
      | eagain => exact .inr id
      | other n => exact .inl ⟨n, rfl⟩

theorem reportedRight_iff {net : NetCtx} (hp : net.peerSet = true) (c : BioCall) :
    ReportedRight (c, (callback net c).1) ↔ GoodSend c := by
  unfold ReportedRight Transient
  cases c with
  | recv sz outcome =>
    cases outcome with
    | datagram sender payload => simp [errnoOf, GoodSend]
    | error errno => cases errno <;> simp [errnoOf, GoodSend, callback, bioRecv]
  | send outcome =>
    cases outcome with
    | sent n => simp [errnoOf, GoodSend]
    | error errno =>
      cases errno <;> simp [errnoOf, GoodSend, callback, bioSend, hp] <;> decide

/-! ## What a call into wolfSSL does -/

/-- The callbacks that a call invokes: all up to the first that fails. -/
def executed : List BioCall → List BioCall
  | [] => []
  | c :: cs => if errnoOf c = none then c :: executed cs else [c]

/-- All callbacks up to the first that fails are invoked, and that one decides the error. -/
theorem runIos_cases {net : NetCtx} (hp : net.peerSet = true) (ios : List BioCall) :
    ∃ failure, runIos net ios =
        (net, (executed ios).map fun c => (c, (callback net c).1), failure) ∧
      (failure = none ∧ (∀ c ∈ executed ios, errnoOf c = none) ∨
        ∃ b ∈ executed ios, (∀ c ∈ executed ios, errnoOf c ≠ none → c = b) ∧
          ∃ err, failure = some err ∧
            (err = wolfsslErrorWantRead ∨ err = socketErrorE ∧ (Fatal b ∨ ¬ GoodSend b))) := by
  induction ios with
  | nil => exact ⟨none, rfl, .inl ⟨rfl, by simp [executed]⟩⟩
  | cons c cs ih =>
    have hnext : (callback net c).2 = net := by
      cases c with
      | send outcome => rfl
      | recv sz outcome =>
        cases outcome with
        | error errno => cases errno <;> rfl
        | datagram sender payload => simp [callback, bioRecv, hp]
    cases he : errnoOf c with
    | none =>
      obtain ⟨failure, hrun, hcases⟩ := ih
      refine ⟨failure, ?_, ?_⟩
      · simp only [runIos, if_neg (callback_nonneg net hp he), hnext, hrun, executed, if_pos he,
          List.map_cons]
      · rw [executed, if_pos he]
        rcases hcases with ⟨hnone, hall⟩ | ⟨b, hb, hall, err, hsome, herr⟩
        · exact .inl ⟨hnone, by simpa [he] using hall⟩
        · exact .inr ⟨b, List.mem_cons_of_mem _ hb, by simpa [he] using hall, err, hsome, herr⟩
    | some errno =>
      obtain ⟨hneg, herr⟩ := callback_error hp he
      have hexec : executed (c :: cs) = [c] := by simp [executed, he]
      refine ⟨some (callbackError c (callback net c).1), ?_, ?_⟩
      · simp only [runIos, if_pos hneg, hnext, hexec, List.map_cons, List.map_nil]
      · rw [hexec]
        exact .inr ⟨c, List.mem_singleton_self c, by simp, _, rfl, herr⟩

namespace Server

/-- The server with a call noted in its trace. -/
def noted (s : Server) (c : LibCall) : Server :=
  { s with trace := s.trace ++ (executed c.ios).map fun b => (b, (callback s.net b).1) }

theorem mem_noted {s : Server} {bs : List BioCall} {b : BioCall} (hb : b ∈ bs) :
    (b, (callback s.net b).1) ∈ bs.map fun b => (b, (callback s.net b).1) :=
  List.mem_map_of_mem hb

theorem call_of_stuck {s : Server} (h : s.stuck = true) (c : LibCall) :
    s.call c = (⟨wolfsslFatalError, socketErrorE, []⟩, s) := if_pos h

/-- A call in which no callback fails returns what the library decides; one in which a callback
fails returns the error of that callback. -/
theorem call_of_live {s : Server} (hp : s.net.peerSet = true) (hs : s.stuck = false)
    (c : LibCall) :
    (∀ b ∈ executed c.ios, errnoOf b = none) ∧ s.call c = (⟨c.ret, c.err, c.buf⟩, s.noted c) ∨
      ∃ b ∈ executed c.ios, (∀ d ∈ executed c.ios, errnoOf d ≠ none → d = b) ∧
        ∃ err, (err = wolfsslErrorWantRead ∨ err = socketErrorE ∧ (Fatal b ∨ ¬ GoodSend b)) ∧
          s.call c = (⟨wolfsslFatalError, err, []⟩,
            { s.noted c with stuck := err = socketErrorE }) := by
  obtain ⟨failure, hrun, ⟨rfl, hall⟩ | ⟨b, hb, hall, err, rfl, herr⟩⟩ := runIos_cases hp c.ios
  · exact .inl ⟨hall, by simp [call, hs, hrun, noted]⟩
  · exact .inr ⟨b, hb, hall, err, herr, by simp [call, hs, hrun, noted]⟩

theorem call_phase (s : Server) (c : LibCall) : (s.call c).2.phase = s.phase := by
  fun_cases call s c <;> rfl

/-! ## What a step does -/

/-- The loops themselves touch neither the socket nor wolfSSL. -/
structure SameIo (s t : Server) : Prop where
  net : t.net = s.net
  trace : t.trace = s.trace
  stuck : t.stuck = s.stuck

theorem onError_io (s : Server) (r : LibResult) : SameIo s (s.onError r) := by
  unfold onError
  split_ifs <;> exact ⟨rfl, rfl, rfl⟩

/-- Until the loops are left, a step is a call into wolfSSL. -/
theorem step_io {s : Server} (h : s.phase ≠ .failed) (c : LibCall) :
    SameIo (s.call c).2 (s.step c) := by
  unfold step
  cases hp : s.phase with
  | failed => exact absurd hp h
  | echoing message =>
    dsimp only
    split_ifs <;> exact ⟨rfl, rfl, rfl⟩
  | accepting | reading =>
    dsimp only
    split_ifs
    · exact ⟨rfl, rfl, rfl⟩
    · exact onError_io _ _

theorem step_of_failed {s : Server} (h : s.phase = .failed) (c : LibCall) : s.step c = s := by
  rw [step, h]

/-- After an error that asks for a repetition the loop is where it was. -/
theorem onError_phase {s : Server} (h : s.phase ≠ .failed) (r : LibResult) :
    (s.onError r).phase = .failed ↔
      r.err ≠ wolfsslErrorWantRead ∧ r.err ≠ wolfsslErrorWantWrite := by
  unfold onError
  split_ifs with hread hwrite
  · exact iff_of_false h fun herr => herr.1 hread
  · exact iff_of_false h fun herr => herr.2 hwrite
  · exact iff_of_true rfl ⟨hread, hwrite⟩

/-- A loop is left only on an error that does not ask for a repetition. -/
theorem err_of_ended {s : Server} (h : s.phase ≠ .failed) {c : LibCall}
    (hend : (s.step c).phase = .failed) :
    (s.call c).1.err ≠ wolfsslErrorWantRead ∧ (s.call c).1.err ≠ wolfsslErrorWantWrite := by
  have hphase : (s.call c).2.phase ≠ .failed := by rwa [call_phase]
  unfold step at hend
  cases hp : s.phase with
  | failed => exact absurd hp h
  | echoing message =>
    rw [hp] at hend
    dsimp only at hend
    split_ifs at hend
  | accepting | reading =>
    rw [hp] at hend
    dsimp only at hend
    split_ifs at hend
    exact (onError_phase hphase _).mp hend

/-- After a call that asks for another receive, the loop makes one. -/
theorem phase_of_wantRead {s : Server} (h : s.phase ≠ .failed) {c : LibCall}
    (hret : (s.call c).1.ret = wolfsslFatalError) (herr : (s.call c).1.err = wolfsslErrorWantRead) :
    (s.step c).phase = s.phase.receiving := by
  have onError_same : ((s.call c).2.onError (s.call c).1).phase = s.phase := by
    rw [onError, if_pos herr, call_phase]
  unfold step
  cases hp : s.phase with
  | failed => exact absurd hp h
  | echoing message =>
    dsimp only
    split_ifs <;> rfl
  | accepting =>
    dsimp only
    rw [hret, if_neg (by decide), onError_same, hp]
    rfl
  | reading =>
    dsimp only
    rw [hret, if_neg (by decide), onError_same, hp]
    rfl

/-- The callbacks that a step invokes. -/
def invoked (s : Server) (c : LibCall) : List BioCall :=
  if s.stuck = true ∨ s.phase = .failed then [] else executed c.ios

theorem invoked_of_live {s : Server} (hs : s.stuck = false) (h : s.phase ≠ .failed)
    (c : LibCall) : s.invoked c = executed c.ios := by
  simp [invoked, hs, h]

theorem step_trace {s : Server} (hp : s.net.peerSet = true) (c : LibCall) :
    (s.step c).net = s.net ∧
      (s.step c).trace = s.trace ++ (s.invoked c).map fun b => (b, (callback s.net b).1) := by
  by_cases hf : s.phase = .failed
  · rw [step_of_failed hf]
    simp [invoked, hf]
  · have same := step_io hf c
    rw [same.net, same.trace]
    cases hs : s.stuck with
    | true =>
      rw [call_of_stuck hs]
      simp [invoked, hs]
    | false =>
      rw [invoked_of_live hs hf]
      rcases call_of_live hp hs c with ⟨_, hcall⟩ | ⟨_, _, _, _, _, hcall⟩ <;> rw [hcall] <;>
        exact ⟨rfl, rfl⟩

/-! ## Transient failures -/

/-- The callbacks that a step adds to the trace, with what they report. -/
def reports (s : Server) (c : LibCall) : List (BioCall × Int32) :=
  (s.step c).trace.drop s.trace.length

theorem reports_eq {s : Server} (hp : s.net.peerSet = true) (c : LibCall) :
    s.reports c = (s.invoked c).map fun b => (b, (callback s.net b).1) := by
  rw [reports, (step_trace hp c).2, List.drop_left]

/-- wolfSSL itself gives up: no callback of the call fails, and its error does not ask for a
repetition. -/
structure OwnError (s : Server) (c : LibCall) : Prop where
  live : s.stuck = false
  quiet : ∀ e ∈ s.reports c, errnoOf e.1 = none
  err : c.err ≠ wolfsslErrorWantRead ∧ c.err ≠ wolfsslErrorWantWrite

/-- wolfSSL goes on, and the loop is where the next call repeats the callback: anywhere that
receives after a `recvfrom`, at the same call after a `sendto`. -/
def Retried (s t : Server) : BioCall → Prop
  | .recv _ _ => t.stuck = false ∧ t.phase = s.phase.receiving
  | .send _ => t.stuck = false ∧ t.phase = s.phase

/-- A step ends the session only after a failure of the socket or an error of wolfSSL itself;
every transient failure is reported as a request to repeat the call, and is followed by the
repetition. -/
structure Tolerates (s : Server) (c : LibCall) : Prop where
  ended : s.phase ≠ .failed → (s.step c).phase = .failed →
    (∃ e ∈ (s.step c).trace, Fatal e.1) ∨ s.OwnError c
  reported : ∀ e ∈ s.reports c, ReportedRight e
  retried : ∀ e ∈ s.reports c, Transient e.1 → Retried s (s.step c) e.1

/-- No `sendto` of the call fails transiently. -/
def Guard (s : Server) (c : LibCall) : Prop := ∀ b ∈ s.invoked c, GoodSend b

/-- As long as no `sendto` has failed transiently, only a failure of the socket makes wolfSSL
refuse to go on. -/
structure Sane (s : Server) : Prop where
  peer : s.net.peerSet = true
  stuck : s.stuck = true → ∃ e ∈ s.trace, Fatal e.1

theorem sane_init (peer : SockaddrIn) : (init peer).Sane := ⟨rfl, by simp [init]⟩

/-- Under the guard, a call that a callback ends asks for another receive, or the socket has
failed. -/
theorem call_of_guard {s : Server} (h : s.Sane) (hs : s.stuck = false) (hf : s.phase ≠ .failed)
    {c : LibCall} (hg : s.Guard c) :
    (∀ b ∈ executed c.ios, errnoOf b = none) ∧ s.call c = (⟨c.ret, c.err, c.buf⟩, s.noted c) ∨
      ∃ b ∈ executed c.ios, (∀ d ∈ executed c.ios, errnoOf d ≠ none → d = b) ∧
        ∃ err, (err = wolfsslErrorWantRead ∨ err = socketErrorE ∧ Fatal b) ∧
          s.call c = (⟨wolfsslFatalError, err, []⟩,
            { s.noted c with stuck := err = socketErrorE }) := by
  rcases call_of_live h.peer hs c with quiet | ⟨b, hb, hall, err, herr, hcall⟩
  · exact .inl quiet
  · have good : GoodSend b := hg b (by rwa [invoked_of_live hs hf])
    exact .inr ⟨b, hb, hall, err,
      herr.imp_right fun hsock => ⟨hsock.1, hsock.2.resolve_right fun hbad => hbad good⟩, hcall⟩

theorem Sane.step {s : Server} (h : s.Sane) {c : LibCall} (hg : s.Guard c) :
    (s.step c).Sane := by
  obtain ⟨hnet, _⟩ := step_trace h.peer c
  refine ⟨by rw [hnet]; exact h.peer, ?_⟩
  by_cases hf : s.phase = .failed
  · rw [step_of_failed hf]
    exact h.stuck
  · have same := step_io hf c
    rw [same.stuck, same.trace]
    cases hs : s.stuck with
    | true =>
      rw [call_of_stuck hs]
      exact h.stuck
    | false =>
      rcases call_of_guard h hs hf hg with ⟨_, hcall⟩ | ⟨b, hb, _, err, herr, hcall⟩ <;>
        rw [hcall]
      · intro hstuck
        exact absurd (hs.symm.trans hstuck) (by decide)
      · intro hstuck
        have hsock : err = socketErrorE := by simpa using hstuck
        have fatal : Fatal b := (herr.resolve_left (by rw [hsock]; decide)).2
        exact ⟨(b, (callback s.net b).1), List.mem_append_right _ (mem_noted hb), fatal⟩

/-- Under the guard a session ends for one of the two reasons. -/
theorem ended_of_guard {s : Server} (h : s.Sane) {c : LibCall} (hg : s.Guard c)
    (hf : s.phase ≠ .failed) (hend : (s.step c).phase = .failed) :
    (∃ e ∈ (s.step c).trace, Fatal e.1) ∨ s.OwnError c := by
  have herr := err_of_ended hf hend
  cases hs : s.stuck with
  | true =>
    obtain ⟨e, he, fatal⟩ := h.stuck hs
    exact .inl ⟨e, by rw [(step_trace h.peer c).2]; exact List.mem_append_left _ he, fatal⟩
  | false =>
    have hinvoked := invoked_of_live hs hf c
    rcases call_of_guard h hs hf hg with ⟨hall, hcall⟩ | ⟨b, hb, _, err, hwhy, hcall⟩ <;>
      rw [hcall] at herr
    · refine .inr ⟨hs, ?_, herr⟩
      rw [reports_eq h.peer, hinvoked]
      simpa using hall
    · refine .inl ⟨(b, (callback s.net b).1), ?_, (hwhy.resolve_left herr.1).2⟩
      rw [(step_trace h.peer c).2, hinvoked]
      exact List.mem_append_right _ (mem_noted hb)

/-- Under the guard a transient failure is one of `recvfrom`, and the loop receives again. -/
theorem retried_of_guard {s : Server} (h : s.Sane) {c : LibCall} (hg : s.Guard c) {b : BioCall}
    (hb : b ∈ s.invoked c) (ht : Transient b) : Retried s (s.step c) b := by
  have hs : s.stuck = false := by
    by_contra hstuck
    simp [invoked, hstuck] at hb
  have hf : s.phase ≠ .failed := by
    intro hf
    simp [invoked, hf] at hb
  have hfails : errnoOf b ≠ none := by
    rcases ht with ht | ht <;> simp [ht]
  have good := hg b hb
  rw [invoked_of_live hs hf] at hb
  rcases call_of_guard h hs hf hg with ⟨hall, _⟩ | ⟨d, _, hall, err, hwhy, hcall⟩
  · exact absurd (hall b hb) hfails
  · obtain rfl : b = d := hall b hb hfails
    have hread : err = wolfsslErrorWantRead := by
      refine hwhy.resolve_right ?_
      rintro ⟨_, n, hn⟩
      rcases ht with ht | ht <;> simp [ht] at hn
    have hphase : (s.step c).phase = s.phase.receiving :=
      phase_of_wantRead hf (by rw [hcall]) (by rw [hcall, hread])
    have hgoes : (s.step c).stuck = false := by
      rw [(step_io hf c).stuck, hcall, hread]
      rfl
    cases b with
    | recv sz outcome => exact ⟨hgoes, hphase⟩
    | send outcome =>
      cases outcome with
      | sent n => exact absurd rfl hfails
      | error errno =>
        cases errno with
        | eintr => exact good.elim
        | eagain => exact good.elim
        | other n => rcases ht with ht | ht <;> simp [errnoOf] at ht

theorem tolerates_iff_guard {s : Server} (h : s.Sane) (c : LibCall) :
    s.Tolerates c ↔ s.Guard c := by
  have right (b : BioCall) := reportedRight_iff h.peer b
  have reports := reports_eq h.peer c
  constructor
  · intro ht b hb
    refine (right b).mp (ht.reported _ ?_)
    rw [reports]
    exact mem_noted hb
  · intro hg
    refine ⟨ended_of_guard h hg, ?_, ?_⟩ <;> rw [reports] <;>
      simp only [List.forall_mem_map]
    · exact fun b hb => (right b).mpr (hg b hb)
    · exact fun b hb ht => retried_of_guard h hg hb ht

/-- The loops tolerate every transient condition of the socket exactly when none of the
`sendto` calls meets one. -/
theorem transient_tolerated_iff (peer : SockaddrIn) (calls : List LibCall) :
    Meets step Tolerates (init peer) calls ↔ Meets step Guard (init peer) calls :=
  Meets.congr (I := Sane) (G := Tolerates) (H := Guard) (fun _ _ h hg => h.step hg)
    (fun _ c h => tolerates_iff_guard h c) (sane_init peer) calls

/-- The first flight of the server meets a full socket buffer, and the accept loop ends. -/
theorem failed_transiently :
    ¬ ∀ (peer : SockaddrIn) (calls : List LibCall), Meets step Tolerates (init peer) calls := by
  intro h
  have tolerates := (h ⟨0xc0a80132, 60000⟩ [⟨[.recv 1500 (.datagram ⟨0xc0a80132, 60000⟩
    ⟨[22], by decide⟩), .send (.error .eagain)], 0, 0, []⟩]).1
  rcases tolerates.ended (by decide) (by decide) with ⟨e, he, n, hn⟩ | own
  · have herr : errnoOf e.1 = none ∨ errnoOf e.1 = some .eagain := by
      clear hn
      revert e
      decide
    rcases herr with herr | herr <;> simp [herr] at hn
  · have quiet := own.quiet (.send (.error .eagain), wolfsslCbioErrGeneral) (by decide)
    cases quiet

end Server

end LitexDtls.Host
