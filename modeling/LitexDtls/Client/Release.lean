import LitexDtls.Client.Demo
import LitexDtls.Library.Lifetime

/-!
# What the client's run leaves behind

`run_dtls13_demo` has eleven exits, each with its own clean-up. Three resources are acquired on
the way, each while the one before it is alive: the library, the context and the session.
A call that works on the session is a use of it, and creating or freeing the session is a use of
the context and of the library, so that a run in which every resource is released once frees
them in the opposite order. The receive callback and the pointer to the I/O context, which
lives on the stack of the function, have to be gone as well.
-/
namespace LitexDtls.Client
open Library

/-- What a call does to the `WOLFSSL`. The I/O callbacks run inside such calls only. -/
def sslTouch (env : DemoEnv) : ExtCall → Touch
  | .wolfsslNew => if env.sslNew then .acquire else .idle
  | .wolfsslSetIoReadCtx => .use
  | .wolfsslSetIoWriteCtx => .use
  | .wolfsslConnect => .use
  | .wolfsslGetError => .use
  | .wolfsslGetCipher => .use
  | .wolfsslGetVersion => .use
  | .wolfsslWrite => .use
  | .wolfsslRead => .use
  | .wolfsslFree => .release
  | _ => .idle

/-- What a call does to the `WOLFSSL_CTX`. -/
def ctxTouch (env : DemoEnv) : ExtCall → Touch
  | .wolfsslCtxNew => if env.ctxNew then .acquire else .idle
  | .wolfsslCtxLoadVerifyBuffer => .use
  | .wolfsslCtxUseCertificateBuffer => .use
  | .wolfsslCtxUsePrivateKeyBuffer => .use
  | .wolfsslCtxSetVerify => .use
  | .wolfsslCtxSetCipherList => .use
  | .wolfsslSetIoRecv => .use
  | .wolfsslSetIoSend => .use
  | .wolfsslNew => .use
  | .wolfsslCtxSetOptions => .use
  | .wolfsslFree => .use
  | .wolfsslCtxFree => .release
  | _ => .idle

/-- What a call does to the library between `wolfSSL_Init` and `wolfSSL_Cleanup`. -/
def libraryTouch : ExtCall → Touch
  | .ethInit => .idle
  | .udpStart => .idle
  | .udpSetCallback _ => .idle
  | .udpRxReset => .idle
  | .udpArpResolve => .idle
  | .wolfsslInit => .acquire
  | .wolfsslCleanup => .release
  | _ => .use

/-- Whether `udp_rx_cb` is the receive callback after a call. -/
def callbackAfter (installed : Bool) : ExtCall → Bool
  | .udpSetCallback installed' => installed'
  | _ => installed

/-- Whether a `WOLFSSL` points to the I/O context of the run after a call. -/
def netAfter (reachable : Bool) : ExtCall → Bool
  | .wolfsslSetIoReadCtx => true
  | .wolfsslSetIoWriteCtx => true
  | .wolfsslFree => false
  | _ => reachable

/-- The calls of a run release what they acquire, each resource once and the inner ones first,
and leave neither the callback nor a pointer to the I/O context. -/
structure ReleasesAll (env : DemoEnv) (calls : List ExtCall) : Prop where
  ssl : ReleasedOnce (calls.map (sslTouch env))
  ctx : ReleasedOnce (calls.map (ctxTouch env))
  library : ReleasedOnce (calls.map libraryTouch)
  callback : calls.foldl callbackAfter false = false
  net : calls.foldl netAfter false = false

/-! ## Following the calls -/

/-- What the run holds. -/
structure Holding where
  ssl : Handle
  ctx : Handle
  library : Handle
  callback : Bool
  net : Bool
  deriving DecidableEq, Repr

namespace Holding

def nothing : Holding := ⟨.absent, .absent, .absent, false, false⟩

/-- One call; none for one that finds a resource in the wrong state. -/
def step (env : DemoEnv) (h : Holding) (c : ExtCall) : Option Holding :=
  (h.ssl.step (sslTouch env c)).bind fun ssl =>
    (h.ctx.step (ctxTouch env c)).bind fun ctx =>
      (h.library.step (libraryTouch c)).map fun library =>
        ⟨ssl, ctx, library, callbackAfter h.callback c, netAfter h.net c⟩

/-- Nothing is left to release. -/
structure Done (h : Holding) : Prop where
  ssl : h.ssl ≠ .live
  ctx : h.ctx ≠ .live
  library : h.library ≠ .live
  callback : h.callback = false
  net : h.net = false

instance (h : Holding) : Decidable h.Done :=
  decidable_of_iff (h.ssl ≠ .live ∧ h.ctx ≠ .live ∧ h.library ≠ .live ∧ h.callback = false ∧
    h.net = false)
    ⟨fun ⟨hs, hc, hl, hb, hn⟩ => ⟨hs, hc, hl, hb, hn⟩, fun h => ⟨h.1, h.2, h.3, h.4, h.5⟩⟩

variable {env : DemoEnv}

theorem step_eq_some {h h' : Holding} {c : ExtCall} (hstep : h.step env c = some h') :
    h.ssl.step (sslTouch env c) = some h'.ssl ∧ h.ctx.step (ctxTouch env c) = some h'.ctx ∧
      h.library.step (libraryTouch c) = some h'.library ∧
      h'.callback = callbackAfter h.callback c ∧ h'.net = netAfter h.net c := by
  simp only [step, Option.bind_eq_some_iff, Option.map_eq_some_iff] at hstep
  obtain ⟨ssl, hssl, ctx, hctx, library, hlibrary, rfl⟩ := hstep
  exact ⟨hssl, hctx, hlibrary, rfl, rfl⟩

/-- A run of calls is a run of each of the three handles. -/
theorem run_eq_some {h h' : Holding} {calls : List ExtCall}
    (hrun : calls.foldlM (step env) h = some h') :
    (calls.map (sslTouch env)).foldlM Handle.step h.ssl = some h'.ssl ∧
      (calls.map (ctxTouch env)).foldlM Handle.step h.ctx = some h'.ctx ∧
      (calls.map libraryTouch).foldlM Handle.step h.library = some h'.library ∧
      h'.callback = calls.foldl callbackAfter h.callback ∧
      h'.net = calls.foldl netAfter h.net := by
  induction calls generalizing h with
  | nil =>
    simp only [List.foldlM_nil, Option.pure_def, Option.some.injEq] at hrun
    subst hrun
    simp
  | cons c calls ih =>
    simp only [List.foldlM_cons, Option.bind_eq_bind, Option.bind_eq_some_iff] at hrun
    obtain ⟨h₁, hstep, hrest⟩ := hrun
    obtain ⟨hssl, hctx, hlibrary, hcallback, hnet⟩ := step_eq_some hstep
    obtain ⟨hssl', hctx', hlibrary', hcallback', hnet'⟩ := ih hrest
    simp [hssl, hctx, hlibrary, hssl', hctx', hlibrary', hcallback', hnet', hcallback, hnet]

/-- The calls of a run so far, and what it holds after them. -/
def Holds (env : DemoEnv) (calls : List ExtCall) (h : Holding) : Prop :=
  calls.foldlM (step env) nothing = some h

theorem Done.releasesAll {h : Holding} {calls : List ExtCall} (hdone : h.Done)
    (hrun : Holds env calls h) : ReleasesAll env calls := by
  obtain ⟨hssl, hctx, hlibrary, hcallback, hnet⟩ := run_eq_some hrun
  exact ⟨Handle.releasedOnce hssl hdone.ssl, Handle.releasedOnce hctx hdone.ctx,
    Handle.releasedOnce hlibrary hdone.library, hcallback ▸ hdone.callback, hnet ▸ hdone.net⟩

theorem Holds.append {t u : Holding} {calls : List ExtCall} (hcalls : Holds env calls t)
    (more : List ExtCall) (hmore : more.foldlM (step env) t = some u) :
    Holds env (calls ++ more) u := by
  rw [Holds, List.foldlM_append, hcalls]
  exact hmore

/-- After `wolfSSL_CTX_new`. -/
def withCtx : Holding := ⟨.absent, .live, .live, true, false⟩

/-- After the I/O contexts are set. -/
def inSession : Holding := ⟨.live, .live, .live, true, true⟩

/-- The handshake loop uses the session and nothing else. -/
theorem run_handshakeLoop (left i : Nat) :
    (handshakeLoop env left i).2.foldlM (step env) inSession = some inSession := by
  induction left generalizing i with
  | zero =>
    unfold handshakeLoop
    split_ifs <;> rfl
  | succ left ih =>
    unfold handshakeLoop
    split_ifs
    · rfl
    · exact ih (i + 1)
    · rfl

theorem done_of_releaseCtx {calls : List ExtCall} (h : Holds env calls withCtx) :
    ∃ t, Holds env (calls ++ releaseCtx) t ∧ t.Done :=
  ⟨_, h.append releaseCtx rfl, by decide⟩

theorem done_of_releaseAll {calls : List ExtCall} (h : Holds env calls inSession) :
    ∃ t, Holds env (calls ++ releaseAll) t ∧ t.Done :=
  ⟨_, h.append releaseAll rfl, by decide⟩

/-- Every exit from the first `wolfSSL_connect` on. -/
theorem runSession_done {calls : List ExtCall} (h : Holds env calls inSession) :
    ∃ t, Holds env (runSession env calls).calls t ∧ t.Done := by
  have shaken : Holds env (calls ++ (handshake env).2) inSession :=
    h.append _ (run_handshakeLoop (kMaxAttempts - 1) 0)
  unfold runSession
  dsimp only
  cases (handshake env).1 with
  | stuck => exact done_of_releaseAll shaken
  | failed => exact done_of_releaseAll shaken
  | success =>
    have written : Holds env (calls ++ (handshake env).2 ++
        [.wolfsslGetCipher, .wolfsslGetVersion, .wolfsslWrite]) inSession := shaken.append _ rfl
    have read : Holds env (calls ++ (handshake env).2 ++
        [.wolfsslGetCipher, .wolfsslGetVersion, .wolfsslWrite] ++ [.wolfsslRead]) inSession :=
      written.append _ rfl
    dsimp only
    split_ifs
    · exact done_of_releaseAll (written.append _ rfl)
    · exact done_of_releaseAll (read.append _ rfl)
    · exact ⟨_, read.append _ rfl, by decide⟩

theorem holds_ctxNew {calls : List ExtCall}
    (h : Holds env calls ⟨.absent, .absent, .absent, true, false⟩) :
    Holds env (calls ++ [.wolfsslInit, .wolfsslDebuggingOn, .wolfsslCtxNew])
      ⟨.absent, if env.ctxNew then .live else .absent, .live, true, false⟩ := by
  apply h.append
  cases hctx : env.ctxNew <;> simp [step, ctxTouch, hctx] <;> rfl

theorem holds_sslNew {calls : List ExtCall} (h : Holds env calls withCtx) :
    Holds env (calls ++ [.wolfsslCtxSetVerify, .wolfsslCtxSetCipherList, .wolfsslSetIoRecv,
        .wolfsslSetIoSend, .wolfsslNew])
      ⟨if env.sslNew then .live else .absent, .live, .live, true, false⟩ := by
  apply h.append
  cases hssl : env.sslNew <;> simp [withCtx, step, sslTouch, hssl] <;> rfl

/-- Every exit of the run. -/
theorem runDtls13Demo_done (env : DemoEnv) :
    ∃ t, Holds env (runDtls13Demo env).calls t ∧ t.Done := by
  have started : Holds env [.ethInit, .udpStart, .udpSetCallback true, .udpRxReset,
      .udpArpResolve] ⟨.absent, .absent, .absent, true, false⟩ := rfl
  have created := holds_ctxNew started
  unfold runDtls13Demo
  dsimp only
  split_ifs with harp hctx hca hcert hkey hssl
  · exact ⟨_, started.append _ rfl, by decide⟩
  · simp only [hctx, Bool.false_eq_true, if_false] at created
    exact ⟨_, created.append _ rfl, by decide⟩
  all_goals
    simp only [Bool.not_eq_false] at hctx
    simp only [hctx, if_true] at created
    have loaded := (created.append (u := withCtx) [.wolfsslCtxLoadVerifyBuffer] rfl)
  · exact done_of_releaseCtx loaded
  · exact done_of_releaseCtx (loaded.append _ rfl)
  · exact done_of_releaseCtx ((loaded.append _ rfl).append _ rfl)
  all_goals
    have configured := holds_sslNew ((loaded.append (u := withCtx)
      [.wolfsslCtxUseCertificateBuffer] rfl).append (u := withCtx)
      [.wolfsslCtxUsePrivateKeyBuffer] rfl)
  · simp only [hssl, Bool.false_eq_true, if_false] at configured
    exact done_of_releaseCtx configured
  · simp only [Bool.not_eq_false] at hssl
    simp only [hssl, if_true] at configured
    exact runSession_done (configured.append _ rfl)

end Holding

/-- Every exit of `run_dtls13_demo` releases what the run acquired. -/
theorem runDtls13Demo_releasesAll (env : DemoEnv) :
    ReleasesAll env (runDtls13Demo env).calls := by
  obtain ⟨t, hrun, hdone⟩ := Holding.runDtls13Demo_done env
  exact hdone.releasesAll hrun

end LitexDtls.Client
