import Mathlib.Data.List.Basic
import LitexDtls.Client.Mailbox

/-!
# The client's demo run

`run_dtls13_demo` and `main` of `boot/main.c`, over the results that the network, wolfSSL
and the cycle counter can give. The result keeps the library calls in their order, with the
clean-up of every exit written out as in the source.
-/
namespace LitexDtls.Client

def wolfsslSuccess : Int32 := 1
def wolfsslErrorWantRead : Int32 := 2
def wolfsslErrorWantWrite : Int32 := 3

def kMaxAttempts : Nat := 300
def cpuHzEst : UInt64 := 1000000
def dtlsAppMsg : String := "Hello from LiteX PQC-DTLS 1.3 client"
/-- `sizeof(app_msg)`, with the terminating zero. -/
def sizeofAppMsg : Int32 := Int32.ofNat (dtlsAppMsg.length + 1)

/-- Results of the calls that `run_dtls13_demo` makes, and the readings of `cycle_count`. The
`i`-th call of `wolfSSL_connect` returns `connect i`, and `getError i` is the error after it. -/
structure DemoEnv where
  udpArpResolve : Int32
  ctxNew : Bool
  loadVerifyBuffer : Int32
  useCertificateBuffer : Int32
  usePrivateKeyBuffer : Int32
  sslNew : Bool
  connect : Nat → Int32
  getError : Nat → Int32
  write : Int32
  read : Int32
  hsStartCycles : UInt64
  hsEndCycles : UInt64
  dataStartCycles : UInt64
  dataEndCycles : UInt64

/-- The calls that change what the client holds. -/
inductive ExtCall where
  | ethInit
  | udpStart
  | udpSetCallback (installed : Bool)
  | udpRxReset
  | udpArpResolve
  | wolfsslInit
  | wolfsslDebuggingOn
  | wolfsslCtxNew
  | wolfsslCtxLoadVerifyBuffer
  | wolfsslCtxUseCertificateBuffer
  | wolfsslCtxUsePrivateKeyBuffer
  | wolfsslCtxSetVerify
  | wolfsslCtxSetCipherList
  | wolfsslSetIoRecv
  | wolfsslSetIoSend
  | wolfsslNew
  | wolfsslCtxSetOptions
  | wolfsslSetIoReadCtx
  | wolfsslSetIoWriteCtx
  | wolfsslConnect
  | wolfsslGetError
  | wolfsslErrErrorString
  | wolfsslGetCipher
  | wolfsslGetVersion
  | wolfsslWrite
  | wolfsslRead
  | wolfsslFree
  | wolfsslCtxFree
  | wolfsslCleanup
  deriving DecidableEq, Repr

/-- The `g_…` measurement variables. -/
structure Globals where
  hsCycles : UInt64
  hsMs : UInt64
  pqcCycles : UInt64
  dataCycles : UInt64
  dataMs : UInt64
  dataBytes : UInt32
  deriving DecidableEq, Repr

/-- The measurement variables before the run. -/
def Globals.initial : Globals := ⟨0, 0, 0, 0, 0, 0⟩

structure DemoResult where
  status : Int32
  calls : List ExtCall
  globals : Globals

/-- How the handshake loop ends. -/
inductive Handshake where
  | success
  | stuck
  | failed
  deriving DecidableEq, Repr

/-- The handshake loop from the `i`-th attempt on, with `left` further attempts allowed after
this one. -/
def handshakeLoop (env : DemoEnv) : Nat → Nat → Handshake × List ExtCall
  | left, i =>
    if env.connect i = wolfsslSuccess then (.success, [.wolfsslConnect])
    else if env.getError i = wolfsslErrorWantRead ∨ env.getError i = wolfsslErrorWantWrite then
      match left with
      | 0 => (.stuck, [.wolfsslConnect, .wolfsslGetError])
      | left + 1 =>
        let (outcome, calls) := handshakeLoop env left (i + 1)
        (outcome, [.wolfsslConnect, .wolfsslGetError] ++ calls)
    else (.failed, [.wolfsslConnect, .wolfsslGetError, .wolfsslErrErrorString])

def handshake (env : DemoEnv) : Handshake × List ExtCall := handshakeLoop env (kMaxAttempts - 1) 0

/-- `x * 1000u / CPU_HZ_EST`, in 64 bit arithmetic. -/
def cyclesToMs (cycles : UInt64) : UInt64 :=
  if cpuHzEst > 0 then cycles * 1000 / cpuHzEst else 0

/-- The clean-up of the exits after `wolfSSL_new`. -/
def releaseAll : List ExtCall :=
  [.wolfsslFree, .wolfsslCtxFree, .udpSetCallback false, .wolfsslCleanup]

/-- The clean-up of the exits after `wolfSSL_CTX_new`. -/
def releaseCtx : List ExtCall := [.wolfsslCtxFree, .udpSetCallback false, .wolfsslCleanup]

/-- From the first `wolfSSL_connect` on, after the calls in `done`. -/
def runSession (env : DemoEnv) (done : List ExtCall) : DemoResult :=
  let hs := handshake env
  let done := done ++ hs.2
  match hs.1 with
  | .stuck => ⟨-1, done ++ releaseAll, .initial⟩
  | .failed => ⟨-1, done ++ releaseAll, .initial⟩
  | .success =>
    let hsCycles := env.hsEndCycles - env.hsStartCycles
    let globals : Globals := { Globals.initial with
      hsCycles := hsCycles
      hsMs := cyclesToMs hsCycles
      pqcCycles := hsCycles }
    let done := done ++ [.wolfsslGetCipher, .wolfsslGetVersion, .wolfsslWrite]
    if env.write ≠ sizeofAppMsg then ⟨-1, done ++ [.wolfsslGetError] ++ releaseAll, globals⟩
    else
      let done := done ++ [.wolfsslRead]
      if env.read < 0 then ⟨-1, done ++ [.wolfsslGetError] ++ releaseAll, globals⟩
      else
        let dataCycles := env.dataEndCycles - env.dataStartCycles
        ⟨0, done ++ [.wolfsslFree, .wolfsslCtxFree, .wolfsslCleanup, .udpSetCallback false],
          { globals with
            dataCycles := dataCycles
            dataMs := cyclesToMs dataCycles
            dataBytes := env.read.toUInt32 }⟩

/-- `run_dtls13_demo`. -/
def runDtls13Demo (env : DemoEnv) : DemoResult :=
  let done : List ExtCall :=
    [.ethInit, .udpStart, .udpSetCallback true, .udpRxReset, .udpArpResolve]
  if env.udpArpResolve = 0 then ⟨-1, done ++ [.udpSetCallback false], .initial⟩
  else
    let done := done ++ [.wolfsslInit, .wolfsslDebuggingOn, .wolfsslCtxNew]
    if env.ctxNew = false then
      ⟨-1, done ++ [.udpSetCallback false, .wolfsslCleanup], .initial⟩
    else
      let done := done ++ [.wolfsslCtxLoadVerifyBuffer]
      if env.loadVerifyBuffer ≠ wolfsslSuccess then ⟨-1, done ++ releaseCtx, .initial⟩
      else
        let done := done ++ [.wolfsslCtxUseCertificateBuffer]
        if env.useCertificateBuffer ≠ wolfsslSuccess then ⟨-1, done ++ releaseCtx, .initial⟩
        else
          let done := done ++ [.wolfsslCtxUsePrivateKeyBuffer]
          if env.usePrivateKeyBuffer ≠ wolfsslSuccess then ⟨-1, done ++ releaseCtx, .initial⟩
          else
            let done := done ++ [.wolfsslCtxSetVerify, .wolfsslCtxSetCipherList,
              .wolfsslSetIoRecv, .wolfsslSetIoSend, .wolfsslNew]
            if env.sslNew = false then ⟨-1, done ++ releaseCtx, .initial⟩
            else
              runSession env (done ++
                [.wolfsslCtxSetOptions, .wolfsslSetIoReadCtx, .wolfsslSetIoWriteCtx])

/-- What `main` prints about the run: the verdict, the handshake line and the throughput line
with its bytes, milliseconds and kbit/s. -/
structure Report where
  verdict : String
  handshake : Option (UInt64 × UInt64)
  throughput : Option (UInt32 × UInt64 × UInt64)
  deriving DecidableEq, Repr

/-- `main`, after `run_dtls13_demo` has returned. -/
def mainReport (r : DemoResult) : Report where
  verdict := if r.status = 0 then "Demo PASSED." else "Demo FAILED."
  handshake :=
    if r.status = 0 ∧ r.globals.hsCycles > 0 then some (r.globals.hsCycles, r.globals.hsMs)
    else none
  throughput :=
    if r.status = 0 ∧ r.globals.dataCycles > 0 ∧ r.globals.dataMs > 0 then
      some (r.globals.dataBytes, r.globals.dataMs,
        r.globals.dataBytes.toUInt64 * 8 * 1000 / r.globals.dataMs)
    else none

/-- `main`. -/
def main (env : DemoEnv) : Report := mainReport (runDtls13Demo env)

/-! ## When the handshake succeeds -/

/-- The errors on which the handshake loop goes on. -/
def Wants (err : Int32) : Prop := err = wolfsslErrorWantRead ∨ err = wolfsslErrorWantWrite

theorem handshakeLoop_success_iff (env : DemoEnv) (left i : Nat) :
    (handshakeLoop env left i).1 = .success ↔ ∃ k ≤ left,
      env.connect (i + k) = wolfsslSuccess ∧
        ∀ j < k, env.connect (i + j) ≠ wolfsslSuccess ∧ Wants (env.getError (i + j)) := by
  induction left generalizing i with
  | zero =>
    unfold handshakeLoop
    split_ifs with hc <;> simp [hc]
  | succ left ih =>
    unfold handshakeLoop
    split_ifs with hc hw
    · simpa using ⟨0, by omega, by simpa using hc, by omega⟩
    · simp only [ih]
      constructor
      · rintro ⟨k, hk, hsucc, hbefore⟩
        refine ⟨k + 1, by omega, by rwa [show i + (k + 1) = i + 1 + k by omega], fun j hj => ?_⟩
        cases j with
        | zero => exact ⟨hc, hw⟩
        | succ j => simpa [show i + (j + 1) = i + 1 + j by omega] using hbefore j (by omega)
      · rintro ⟨k, hk, hsucc, hbefore⟩
        cases k with
        | zero => exact absurd hsucc hc
        | succ k =>
          refine ⟨k, by omega, by rwa [show i + 1 + k = i + (k + 1) by omega], fun j hj => ?_⟩
          simpa [show i + (j + 1) = i + 1 + j by omega] using hbefore (j + 1) (by omega)
    · simp only [false_iff, not_exists, not_and]
      rintro k hk hsucc hbefore
      cases k with
      | zero => exact hc hsucc
      | succ k => exact hw (hbefore 0 (by omega)).2

/-- `wolfSSL_connect` returns `WOLFSSL_SUCCESS` in one of 300 attempts, and the attempts before
it ask to be repeated. -/
def Connected (env : DemoEnv) : Prop :=
  ∃ k < kMaxAttempts, env.connect k = wolfsslSuccess ∧
    ∀ j < k, env.connect j ≠ wolfsslSuccess ∧ Wants (env.getError j)

theorem handshake_success_iff (env : DemoEnv) : (handshake env).1 = .success ↔ Connected env := by
  have hmax : kMaxAttempts = 299 + 1 := rfl
  rw [handshake, handshakeLoop_success_iff, Connected]
  simp only [Nat.zero_add, hmax, Nat.add_sub_cancel, Nat.lt_add_one_iff]

/-! ## What a verdict means -/

theorem one_le_of_ne_zero {x : Int32} (h : 0 ≤ x) (hne : x ≠ 0) : 1 ≤ x := by
  have hne' : x.toInt ≠ 0 := fun h0 => hne (Int32.toInt_inj.mp h0)
  rw [Int32.le_iff_toInt_le] at h ⊢
  have h0 : (0 : Int32).toInt = 0 := rfl
  have h1 : (1 : Int32).toInt = 1 := rfl
  omega

/-- Every call before `wolfSSL_connect` succeeds. -/
def SetUp (env : DemoEnv) : Prop :=
  env.udpArpResolve ≠ 0 ∧ env.ctxNew = true ∧ env.loadVerifyBuffer = wolfsslSuccess ∧
    env.useCertificateBuffer = wolfsslSuccess ∧ env.usePrivateKeyBuffer = wolfsslSuccess ∧
    env.sslNew = true

/-- Handshake, message and reply all went through. -/
def Passed (env : DemoEnv) : Prop :=
  SetUp env ∧ Connected env ∧ env.write = sizeofAppMsg ∧ 1 ≤ env.read

/-- The message went out and `wolfSSL_read` returned 0: the peer closed without an answer. -/
def ClosedUnanswered (env : DemoEnv) : Prop :=
  SetUp env ∧ Connected env ∧ env.write = sizeofAppMsg ∧ env.read = 0

theorem runSession_status (env : DemoEnv) (done : List ExtCall) :
    ((runSession env done).status = 0 ∨ (runSession env done).status = -1) ∧
      ((runSession env done).status = 0 ↔
        Connected env ∧ env.write = sizeofAppMsg ∧ 0 ≤ env.read) := by
  rw [← handshake_success_iff]
  unfold runSession
  dsimp only
  cases (handshake env).1 with
  | stuck => simp
  | failed => simp
  | success =>
    dsimp only
    split_ifs with hw hr
    · simp [hw]
    · simp [hr]
    · simpa using ⟨not_not.mp hw, Int32.not_lt.mp hr⟩

theorem runDtls13Demo_status (env : DemoEnv) :
    ((runDtls13Demo env).status = 0 ∨ (runDtls13Demo env).status = -1) ∧
      ((runDtls13Demo env).status = 0 ↔
        SetUp env ∧ Connected env ∧ env.write = sizeofAppMsg ∧ 0 ≤ env.read) := by
  unfold runDtls13Demo SetUp
  dsimp only
  split_ifs with harp hctx hca hcert hkey hssl
  · simp [harp]
  · simp [hctx]
  · simp [hca]
  · simp [hcert]
  · simp [hkey]
  · simp [hssl]
  · have setUp : env.udpArpResolve ≠ 0 ∧ env.ctxNew = true ∧
        env.loadVerifyBuffer = wolfsslSuccess ∧ env.useCertificateBuffer = wolfsslSuccess ∧
        env.usePrivateKeyBuffer = wolfsslSuccess ∧ env.sslNew = true :=
      ⟨harp, by simpa using hctx, not_not.mp hca, not_not.mp hcert, not_not.mp hkey,
        by simpa using hssl⟩
    simpa only [setUp, ne_eq, not_false_eq_true, true_and] using runSession_status env _

/-- A pass is reported only for a run that passed, and every other run returns -1. -/
def VerdictSound (env : DemoEnv) : Prop :=
  ((runDtls13Demo env).status = 0 → Passed env) ∧
    ((main env).verdict = "Demo PASSED." → Passed env) ∧
    (¬ Passed env → (runDtls13Demo env).status = -1)

theorem verdict_passed_iff (env : DemoEnv) :
    (main env).verdict = "Demo PASSED." ↔ (runDtls13Demo env).status = 0 := by
  unfold main mainReport
  dsimp only
  split_ifs with h <;> simp [h]

/-- The verdict is sound except when the peer closes without an answer. -/
theorem verdictSound_iff (env : DemoEnv) : VerdictSound env ↔ ¬ ClosedUnanswered env := by
  obtain ⟨hrange, hzero⟩ := runDtls13Demo_status env
  constructor
  · rintro ⟨hpass, _⟩ ⟨setUp, connected, hw, hr⟩
    have passed := hpass (hzero.mpr ⟨setUp, connected, hw, by rw [hr]; decide⟩)
    rw [Passed, hr] at passed
    exact absurd passed.2.2.2 (by decide)
  · intro hclosed
    have hpass : (runDtls13Demo env).status = 0 → Passed env := by
      intro h
      obtain ⟨setUp, connected, hw, hr⟩ := hzero.mp h
      have hne : env.read ≠ 0 := fun h0 => hclosed ⟨setUp, connected, hw, h0⟩
      exact ⟨setUp, connected, hw, one_le_of_ne_zero hr hne⟩
    refine ⟨hpass, fun h => hpass ((verdict_passed_iff env).mp h), fun h => ?_⟩
    exact hrange.resolve_left fun h0 => h (hpass h0)

/-- Everything succeeds at once, and `wolfSSL_read` returns 0. -/
def closedEnv : DemoEnv where
  udpArpResolve := 1
  ctxNew := true
  loadVerifyBuffer := wolfsslSuccess
  useCertificateBuffer := wolfsslSuccess
  usePrivateKeyBuffer := wolfsslSuccess
  sslNew := true
  connect := fun _ => wolfsslSuccess
  getError := fun _ => 0
  write := sizeofAppMsg
  read := 0
  hsStartCycles := 0
  hsEndCycles := 0
  dataStartCycles := 0
  dataEndCycles := 0

/-- A run without an answer is reported as passed. -/
theorem passed_unanswered : ¬ ∀ env : DemoEnv, VerdictSound env := by
  intro h
  have passed := (h closedEnv).1 (by decide)
  exact absurd passed.2.2.2 (by decide)

end LitexDtls.Client
