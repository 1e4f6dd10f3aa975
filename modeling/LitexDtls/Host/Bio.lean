import Mathlib.Data.List.Basic
import LitexDtls.Library.Run

/-!
# The I/O callbacks of the host servers

`bio_recv` and `bio_send`, whose copies in the four host servers differ only in what they
print. The socket is a parameter: each call carries the outcome of its system call. A
session keeps what was handed to wolfSSL and what was sent, with the addresses.

`bio_recv` keeps the address of the first datagram as the peer and hands over the later ones
whatever their sender is, so a session stays with one peer exactly as long as nobody else
sends to the socket.
-/
namespace LitexDtls.Host
open Library

def wolfsslCbioErrGeneral : Int32 := -1
def wolfsslCbioErrWantRead : Int32 := -2
def wolfsslCbioErrWantWrite : Int32 := -2

/-- `errno` after a failed system call; `EWOULDBLOCK` is `EAGAIN`. -/
inductive Errno where
  | eintr
  | eagain
  | other (n : Nat)
  deriving DecidableEq, Repr

/-- `struct sockaddr_in`. -/
structure SockaddrIn where
  sinAddr : UInt32
  sinPort : UInt16
  deriving DecidableEq, Repr

/-- The payload of a UDP datagram. -/
structure UdpPayload where
  bytes : List UInt8
  fits : bytes.length < 65536
  deriving DecidableEq, Repr

/-- Outcome of `recvfrom` on a datagram socket: the next datagram with its sender. -/
inductive RecvOutcome where
  | datagram (sender : SockaddrIn) (payload : UdpPayload)
  | error (errno : Errno)
  deriving DecidableEq, Repr

/-- Outcome of `sendto`: the number of bytes sent or the error. -/
inductive SendOutcome where
  | sent (n : UInt16)
  | error (errno : Errno)
  deriving DecidableEq, Repr

/-- `net_ctx_t`, less the socket and the length of the address. -/
structure NetCtx where
  peer : SockaddrIn
  peerSet : Bool
  deriving DecidableEq, Repr

/-- The conversion of an `int` to `size_t`. -/
def sizeT (sz : Int32) : Nat := sz.toInt64.toUInt64.toNat

/-- What `recvfrom` copies of a payload into a buffer of `sz` bytes. -/
def received (sz : Int32) (payload : UdpPayload) : List UInt8 := payload.bytes.take (sizeT sz)

/-- `bio_recv`: the result, the bytes in the caller's buffer, and the context afterwards. -/
def bioRecv (net : Option NetCtx) (sz : Int32) (outcome : RecvOutcome) :
    Int32 × List UInt8 × Option NetCtx :=
  match net with
  | none => (wolfsslCbioErrGeneral, [], none)
  | some net =>
    match outcome with
    | .error errno =>
      if errno = .eintr ∨ errno = .eagain then (wolfsslCbioErrWantRead, [], some net)
      else (wolfsslCbioErrGeneral, [], some net)
    | .datagram sender payload =>
      (Int32.ofNat (received sz payload).length, received sz payload,
        some (if net.peerSet = false then ⟨sender, true⟩ else net))

/-- `bio_send`: the result, and the address given to `sendto` when it is called. -/
def bioSend (net : Option NetCtx) (outcome : SendOutcome) : Int32 × Option SockaddrIn :=
  match net with
  | none => (wolfsslCbioErrGeneral, none)
  | some net =>
    if net.peerSet = false then (wolfsslCbioErrGeneral, none)
    else
      match outcome with
      | .sent n => (Int32.ofNat n.toNat, some net.peer)
      | .error _ => (wolfsslCbioErrGeneral, some net.peer)

/-! ## Sessions -/

/-- A byte string handed to wolfSSL and the sender of its datagram. -/
structure Handed where
  sender : SockaddrIn
  bytes : List UInt8
  deriving DecidableEq, Repr

/-- The context of a session, the strings handed to wolfSSL and the destinations of the
datagrams that were sent. -/
structure Session where
  net : NetCtx
  handed : List Handed
  sent : List SockaddrIn
  deriving DecidableEq, Repr

/-- A call of one of the two callbacks, with the outcome of its system call. -/
inductive BioCall where
  | recv (sz : Int32) (outcome : RecvOutcome)
  | send (outcome : SendOutcome)
  deriving DecidableEq, Repr

namespace Session

def recv (s : Session) (sz : Int32) (outcome : RecvOutcome) : Session :=
  let (_, bytes, net) := bioRecv (some s.net) sz outcome
  { s with
    net := net.getD s.net
    handed := match outcome with
      | .datagram sender _ => s.handed ++ [⟨sender, bytes⟩]
      | .error _ => s.handed }

def send (s : Session) (outcome : SendOutcome) : Session :=
  match bioSend (some s.net) outcome, outcome with
  | (_, some dest), .sent _ => { s with sent := s.sent ++ [dest] }
  | _, _ => s

def step (s : Session) : BioCall → Session
  | .recv sz outcome => s.recv sz outcome
  | .send outcome => s.send outcome

/-- A new session: the context is zero. -/
def fresh : Session := ⟨⟨⟨0, 0⟩, false⟩, [], []⟩

theorem recv_error (s : Session) (sz : Int32) (errno : Errno) : s.recv sz (.error errno) = s := by
  unfold recv bioRecv
  dsimp only
  split_ifs <;> rfl

theorem recv_datagram (s : Session) (sz : Int32) (sender : SockaddrIn) (payload : UdpPayload) :
    s.recv sz (.datagram sender payload) =
      { s with
        net := if s.net.peerSet = false then ⟨sender, true⟩ else s.net
        handed := s.handed ++ [⟨sender, received sz payload⟩] } := rfl

theorem send_eq (s : Session) (outcome : SendOutcome) :
    s.send outcome = s ∨
      s.net.peerSet = true ∧ s.send outcome = { s with sent := s.sent ++ [s.net.peer] } := by
  unfold send bioSend
  cases hp : s.net.peerSet with
  | false => exact .inl (by simp [hp])
  | true =>
    cases outcome with
    | error errno => exact .inl (by simp [hp])
    | sent n => exact .inr ⟨rfl, by simp [hp]⟩

/-- Everything that was handed over comes from one address, everything that was sent went
there, and it is the address of the peer. -/
def Coherent (s : Session) : Prop :=
  (∀ d ∈ s.handed, ∀ e ∈ s.handed, d.sender = e.sender) ∧
    (∀ dest ∈ s.sent, ∀ d ∈ s.handed, dest = d.sender) ∧
    ∀ d ∈ s.handed, d.sender = s.net.peer

/-- Once the peer is set, only its datagrams arrive. -/
def Guard (s : Session) : BioCall → Prop
  | .recv _ (.datagram sender _) => s.net.peerSet = true → sender = s.net.peer
  | _ => True

/-- The peer is the sender of the first datagram, and nothing happens before it. -/
structure Latched (s : Session) : Prop where
  unset : s.net.peerSet = false → s.handed = [] ∧ s.sent = []
  first : s.net.peerSet = true → ∃ d rest, s.handed = d :: rest ∧ d.sender = s.net.peer
  sent : ∀ dest ∈ s.sent, dest = s.net.peer

theorem latched_fresh : fresh.Latched :=
  ⟨fun _ => ⟨rfl, rfl⟩, fun h => (by cases h), fun _ h => (by cases h)⟩

theorem Latched.step {s : Session} (h : s.Latched) (c : BioCall) : (s.step c).Latched := by
  cases c with
  | recv sz outcome =>
    cases outcome with
    | error errno =>
      rw [Session.step, recv_error]
      exact h
    | datagram sender payload =>
      rw [Session.step, recv_datagram]
      cases hp : s.net.peerSet with
      | false =>
        obtain ⟨hhanded, hsent⟩ := h.unset hp
        constructor
        · grind
        · intro _
          exact ⟨⟨sender, received sz payload⟩, [], by simp [hhanded], rfl⟩
        · grind
      | true =>
        obtain ⟨d, rest, hd, hsender⟩ := h.first hp
        constructor
        · grind
        · intro _
          exact ⟨d, rest ++ [⟨sender, received sz payload⟩], by simp [hd], by simpa using hsender⟩
        · grind [h.sent]
  | send outcome =>
    rcases send_eq s outcome with hs | ⟨hp, hs⟩ <;> rw [Session.step, hs]
    · exact h
    · constructor
      · grind
      · exact h.first
      · grind [h.sent]

/-- Under the latch a session is coherent when everything comes from the peer. -/
theorem Latched.coherent_of_peer {s : Session} (h : s.Latched) :
    s.Coherent ↔ ∀ d ∈ s.handed, d.sender = s.net.peer := by
  refine ⟨fun hc => hc.2.2, fun hd => ⟨fun d hd' e he => ?_, fun dest hdest d hd' => ?_, hd⟩⟩
  · rw [hd d hd', hd e he]
  · rw [h.sent dest hdest, hd d hd']

/-- One call keeps a session coherent exactly when it does not receive from a stranger. -/
theorem coherent_step {s : Session} (h : s.Latched) (c : BioCall) :
    (s.step c).Coherent ↔ s.Coherent ∧ s.Guard c := by
  rw [(h.step c).coherent_of_peer, h.coherent_of_peer]
  cases c with
  | recv sz outcome =>
    cases outcome with
    | error errno =>
      rw [Session.step, recv_error]
      simp [Guard]
    | datagram sender payload =>
      rw [Session.step, recv_datagram]
      cases hp : s.net.peerSet with
      | false => simp [Guard, hp, (h.unset hp).1]
      | true => simp [Guard, hp, or_imp, forall_and]
  | send outcome =>
    rcases send_eq s outcome with hs | ⟨_, hs⟩ <;> rw [Session.step, hs] <;> simp [Guard]

/-- A session is coherent exactly when, once the peer is set, every datagram that arrives at
the socket comes from the peer. -/
theorem coherent_iff (calls : List BioCall) :
    (run step fresh calls).Coherent ↔ Meets step Guard fresh calls :=
  run_iff_meets (fun _ c h => Latched.step h c) (fun _ c h => coherent_step h c) calls
    latched_fresh ⟨by simp [fresh], by simp [fresh], by simp [fresh]⟩

/-- After the first datagram a second one arrives from another port. -/
theorem incoherent_second_sender :
    ¬ ∀ calls : List BioCall, (run step fresh calls).Coherent := by
  intro h
  have coherent := h [.recv 1500 (.datagram ⟨0xc0a80132, 60000⟩ ⟨[22], by decide⟩),
    .recv 1500 (.datagram ⟨0xc0a80132, 60001⟩ ⟨[22], by decide⟩)]
  exact absurd coherent.1 (by decide)

end Session

end LitexDtls.Host
