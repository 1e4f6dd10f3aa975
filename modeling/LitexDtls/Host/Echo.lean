import LitexDtls.Host.Server

/-!
# What the data loop echoes

The data loop of `dtls13_dilithium_server.c` reads a message, writes it back and reads the next
one. Whatever the write returns, the loop goes on reading: a write that is short, blocked or
failed is reported and its message is given up. So all messages come back, in order, exactly as
long as every write takes its whole message.
-/
namespace LitexDtls.Host
open Library

/-- A buffer that `wolfSSL_read` filled: the length of the message is the result of the call,
with which the loop compares the result of `wolfSSL_write`. -/
theorem length_message {ret : Int32} {buf : List UInt8} (h : 0 < ret)
    (hbuf : ret.toInt.toNat ≤ buf.length) :
    Int32.ofNat (buf.take ret.toInt.toNat).length = ret := by
  have hpos : (0 : Int) < ret.toInt := Int32.lt_iff_toInt_lt.mp h
  have hmax := ret.toInt_lt
  rw [List.length_take_of_le hbuf]
  apply Int32.toInt_inj.mp
  rw [Int32.toInt_ofNat_of_lt (by omega)]
  omega

namespace Server

/-- What a state may show: the messages written back completely are the first ones read, and
when the next message is read they are all of them. -/
structure Faithful (s : Server) : Prop where
  inOrder : s.echoed <+: s.messages
  complete : s.phase = .reading → s.echoed = s.messages

/-- The messages that are read and not yet echoed. -/
def Level (s : Server) : Prop :=
  match s.phase with
  | .accepting => s.echoed = s.messages
  | .reading => s.echoed = s.messages
  | .echoing message => s.messages = s.echoed ++ [message]
  | .failed => s.echoed <+: s.messages

theorem Level.faithful {s : Server} (h : s.Level) : s.Faithful := by
  unfold Level at h
  constructor
  · cases hp : s.phase <;> grind
  · intro hp
    simpa only [hp] using h

/-- `wolfSSL_write` takes the whole message. -/
def Taken (s : Server) (c : LibCall) : Prop :=
  ∀ message, s.phase = .echoing message → (s.call c).1.ret = Int32.ofNat message.length

/-- A call into wolfSSL changes neither what was read nor what was echoed. -/
theorem call_messages (s : Server) (c : LibCall) :
    (s.call c).2.messages = s.messages ∧ (s.call c).2.echoed = s.echoed := by
  fun_cases call s c <;> exact ⟨rfl, rfl⟩

/-- After an error of `wolfSSL_accept` or `wolfSSL_read` nothing is missing. -/
theorem level_onError {s : Server} (h : s.echoed = s.messages) (r : LibResult)
    (hp : s.phase = .accepting ∨ s.phase = .reading) : (s.onError r).Level := by
  have level : s.Level := by
    rcases hp with hp | hp <;> simpa only [Level, hp] using h
  fun_cases onError s r with
  | case1 => exact level
  | case2 => exact level
  | case3 => exact h ▸ List.prefix_rfl

theorem level_step {s : Server} (h : s.Level) (c : LibCall) (hg : s.Taken c) :
    (s.step c).Level := by
  have hphase := call_phase s c
  obtain ⟨hmessages, hechoed⟩ := call_messages s c
  unfold Level at h
  unfold step
  cases hp : s.phase with
  | failed =>
    simp only [hp] at h
    simpa only [Level, hp] using h
  | accepting =>
    simp only [hp] at h
    have same : (s.call c).2.echoed = (s.call c).2.messages := by rw [hechoed, hmessages, h]
    dsimp only
    split_ifs
    · exact same
    · exact level_onError same _ (.inl (hphase.trans hp))
  | reading =>
    simp only [hp] at h
    have same : (s.call c).2.echoed = (s.call c).2.messages := by rw [hechoed, hmessages, h]
    dsimp only
    split_ifs
    · simp only [Level, same]
    · exact level_onError same _ (.inr (hphase.trans hp))
  | echoing message =>
    simp only [hp] at h
    have all : (s.call c).2.echoed ++ [message] = (s.call c).2.messages := by
      rw [hechoed, hmessages, h]
    dsimp only
    rw [if_pos (hg message hp)]
    exact all

/-- After a write that does not take its message the loop reads on without it. -/
theorem taken_of_faithful {s : Server} (h : s.Level) (c : LibCall)
    (hf : (s.step c).Faithful) : s.Taken c := by
  intro message hp
  by_contra hret
  obtain ⟨hmessages, hechoed⟩ := call_messages s c
  simp only [Level, hp] at h
  have hstep : s.step c = { (s.call c).2 with phase := .reading } := by
    simp only [step, hp, if_neg hret]
  have missing : s.echoed = s.echoed ++ [message] := by
    have complete := hf.complete (by rw [hstep])
    rwa [hstep, hechoed, hmessages, h] at complete
  simp at missing

theorem level_init (peer : SockaddrIn) : (init peer).Level := rfl

/-- Every message comes back, in order and before the next one is read, exactly in the runs in
which every write takes its whole message. -/
theorem faithful_iff (peer : SockaddrIn) (calls : List LibCall) :
    (∀ done, done <+: calls → (run step (init peer) done).Faithful) ↔
      Meets step Taken (init peer) calls :=
  forall_prefix_iff_meets (I := Level) (Q := Faithful) (fun _ h => h.faithful)
    (fun _ c h hg => level_step h c hg) (fun _ c h hf => taken_of_faithful h c hf) calls
    (level_init peer)

/-- The echo of the first message would block; the second message is read and echoed. -/
def blockedEcho : List LibCall :=
  [⟨[], wolfsslSuccess, 0, []⟩, ⟨[], 1, 0, [7]⟩, ⟨[], wolfsslFatalError, wolfsslErrorWantWrite, []⟩,
    ⟨[], 1, 0, [8]⟩, ⟨[], 1, 0, []⟩]

/-- The message whose echo would block is never sent. -/
theorem dropped_when_blocked :
    ¬ ∀ (peer : SockaddrIn) (calls : List LibCall), ∀ done, done <+: calls →
      (run step (init peer) done).Faithful := by
  intro h
  have faithful := h ⟨0xc0a80132, 60000⟩ blockedEcho blockedEcho List.prefix_rfl
  have hmessages : (run step (init ⟨0xc0a80132, 60000⟩) blockedEcho).messages = [[7], [8]] := by
    decide
  have hechoed : (run step (init ⟨0xc0a80132, 60000⟩) blockedEcho).echoed = [[8]] := by
    decide
  have inOrder := faithful.inOrder
  rw [hmessages, hechoed] at inOrder
  exact absurd inOrder (by decide)

end Server

end LitexDtls.Host
