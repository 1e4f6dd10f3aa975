import LitexDtls.Host.Server
import LitexDtls.WolfSsl.Dtls13

/-!
# The accept loop of the Dilithium server

The loop around `wolfSSL_accept` in `dtls13_dilithium_server.c`, from one `select` to the next.
The first call is made before the first `select`. After each `select` the loop calls
`wolfSSL_accept` again whatever the result was, and `wolfSSL_dtls_got_timeout` is never called.
So a window that expires changes nothing, and records that the client has not acknowledged stay
where they are. The short timeout excuses no window here: nothing that runs at an expiry reads
`dtls13FastTimeout`, and only `Dtls13RtxTimeout` clears it.
-/
namespace LitexDtls.Host
open Library WolfSsl

/-- The result of `select`. -/
inductive Select where
  | readable
  | timeout
  | failed
  deriving DecidableEq, Repr

/-- One round of the loop: the result of `select`, and what the call of `wolfSSL_accept` that
follows finds on the socket. It makes its progress out of datagrams, or the first `recvfrom`
fails. -/
structure Round where
  sel : Select
  sz : Int32
  found : Except Errno Progress

/-- The accept loop in front of `select`, or left. A call of `wolfSSL_accept` that leaves
something in the output buffer has failed on it: `bio_send` never asks to be called again. -/
structure Accepting where
  conn : Conn NetCtx
  stage : Stage

namespace Accepting

/-- The loop after a call of `wolfSSL_accept` that failed. -/
def onError (s : Accepting) (err : Int32) : Accepting :=
  if err = wolfsslErrorWantRead then s
  else if err = wolfsslErrorWantWrite then s
  else { s with stage := .failed }

/-- One call of `wolfSSL_accept`, and the branch that the loop takes after it. -/
def accept (s : Accepting) (sz : Int32) (found : Except Errno Progress) : Accepting :=
  match found with
  | .ok p => { s with conn := s.conn.processed p, stage := p.stage }
  | .error errno =>
    let c : BioCall := .recv sz (.error errno)
    s.onError (callbackError c (callback s.conn.io c).1)

/-- One round. The results of `select` differ only in what the loop prints. -/
def step (s : Accepting) (r : Round) : Accepting :=
  match s.stage with
  | .waiting => s.accept r.sz r.found
  | _ => s

/-- The loop at its first `select`, after the first call of `wolfSSL_accept` on a connection
that has sent nothing. -/
def init (net : NetCtx) (sz : Int32) (found : Except Errno Progress) : Accepting :=
  accept ⟨.first [] net, .waiting⟩ sz found

/-- The window of the round expires without a datagram. -/
def Expires (s : Accepting) (r : Round) : Prop :=
  s.stage = .waiting ∧ r.sel = .timeout ∧ ∃ errno, r.found = .error errno

/-- When the window expires with records unacknowledged, they are sent again or the loop has
failed before the next window. -/
def Recovers (s : Accepting) (r : Round) : Prop :=
  Expires s r → s.conn.rtxRecords ≠ [] →
    (s.step r).stage = .failed ∨ s.conn.SentAgain (s.step r).conn

/-- A window expires with records unacknowledged only when the socket fails after it. -/
def Guard (s : Accepting) (r : Round) : Prop :=
  Expires s r → s.conn.rtxRecords ≠ [] → ∃ n, r.found = .error (.other n)

theorem step_of_error {s : Accepting} (hs : s.stage = .waiting) {r : Round} {errno : Errno}
    (h : r.found = .error errno) :
    (∃ n, errno = .other n) ∧ s.step r = { s with stage := .failed } ∨
      (∀ n, errno ≠ .other n) ∧ s.step r = s := by
  unfold step accept
  rw [hs, h]
  cases errno with
  | eintr => exact .inr ⟨fun n hn => (by cases hn), rfl⟩
  | eagain => exact .inr ⟨fun n hn => (by cases hn), rfl⟩
  | other n => exact .inl ⟨⟨n, rfl⟩, rfl⟩

theorem recovers_iff_guard (s : Accepting) (r : Round) : Recovers s r ↔ Guard s r := by
  unfold Recovers Guard
  refine forall_congr' fun hexp => forall_congr' fun hdue => ?_
  obtain ⟨hs, _, errno, hfound⟩ := hexp
  rcases step_of_error hs hfound with ⟨⟨n, rfl⟩, hstep⟩ | ⟨hother, hstep⟩
  · rw [hstep]
    exact iff_of_true (.inl rfl) ⟨n, hfound⟩
  · rw [hstep]
    refine iff_of_false ?_ ?_
    · rintro (hfail | hagain)
      · rw [hs] at hfail
        cases hfail
      · obtain ⟨r, hr⟩ := List.exists_mem_of_ne_nil _ hdue
        simpa using hagain r hr
    · rintro ⟨n, hn⟩
      rw [hfound] at hn
      exact hother n (Except.error.inj hn)

/-- In a run of the accept loop every expired window is recovered from exactly when each of
them meets the guard. -/
theorem recovers_iff (net : NetCtx) (sz : Int32) (found : Except Errno Progress)
    (rounds : List Round) :
    Meets step Recovers (init net sz found) rounds ↔ Meets step Guard (init net sz found) rounds :=
  Meets.congr (I := fun _ => True) (fun _ _ _ _ => trivial) (fun s r _ => recovers_iff_guard s r)
    trivial rounds

end Accepting

end LitexDtls.Host
