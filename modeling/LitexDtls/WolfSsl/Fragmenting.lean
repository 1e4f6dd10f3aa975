import LitexDtls.WolfSsl.Delivery
import LitexDtls.WolfSsl.HandshakeOrder
import LitexDtls.WolfSsl.Reassembly

/-!
# Messages in fragments

`Dtls13HandshakeSend` of one message other than a HelloRetryRequest, which is not kept, and the
calls of `Dtls13FragmentsContinue` after it that `wolfSSL_connect_TLSv13` and
`wolfSSL_accept_TLSv13` make as long as there are fragments left. Whatever the network does in
between, the records of the message get into the list in their order, none twice and none left
out, and the message is counted once all of them have and none is pending (`handshakeSend_run`).
A call that does not succeed and is not to be continued leaves some of them in the list and
drops the others. The length of a message is a `word16` in the source.

A message of two to four fragments is put together by the other side, when it has memory for
each record (`reassembled_run`).
-/
namespace LitexDtls.WolfSsl
open Library HandShakeType

variable {κ : Type} {c : RecordCipher κ}

/-! ## The records of a message -/

namespace HsMsg

/-- A part of message `n` behind its header. -/
def piece (m : HsMsg) (n : UInt16) (offset len : Nat) : List UInt8 :=
  HandShakeHeader.bytes ⟨m.type, m.body.length, n, offset, len⟩ ++ (m.body.drop offset).take len

/-- The message in fragments of `size` bytes. -/
def pieces (m : HsMsg) (n : UInt16) (size : Nat) : List (List UInt8) :=
  (List.range ((m.body.length + size - 1) / size)).map fun i =>
    m.piece n (i * size) (min size (m.body.length - i * size))

/-- What `Dtls13HandshakeSend` makes of the message. -/
def records (m : HsMsg) (c : RecordCipher κ) (encryptionOn : Bool) (n : UInt16) :
    List (List UInt8) :=
  if dtls13GetRlHeaderLength (dtls13TypeIsEncrypted m.type) + (m.piece n 0 m.body.length).length <
      getMaxFragSize c encryptionOn then [m.piece n 0 m.body.length]
  else m.pieces n (fragSize c encryptionOn m.type)

variable {m : HsMsg} {n : UInt16} {size j : Nat}

theorem length_piece : (m.piece n 0 m.body.length).length =
    dtlsHandshakeHeaderSz + m.body.length := by
  simp [piece]

/-- Behind the header of the whole message is its body. -/
theorem drop_piece : (m.piece n 0 m.body.length).drop dtlsHandshakeHeaderSz = m.body := by
  rw [piece, List.drop_left' (by rfl), List.drop_zero, List.take_length]

theorem ofBytes_piece (hlength : m.body.length < 16777216) {offset len : Nat}
    (hin : offset + len ≤ m.body.length) :
    HandShakeHeader.ofBytes (m.piece n offset len) = ⟨m.type, m.body.length, n, offset, len⟩ :=
  HandShakeHeader.ofBytes_bytes ⟨hlength, by dsimp only; omega, by dsimp only; omega⟩ _

theorem lt_length_pieces (hsize : 0 < size) :
    j < (m.pieces n size).length ↔ j * size < m.body.length := by
  rw [pieces, List.length_map, List.length_range, Nat.lt_iff_add_one_le,
    Nat.le_div_iff_mul_le hsize, Nat.succ_mul]
  omega

theorem take_succ_pieces (hsize : 0 < size) (hj : j * size < m.body.length) :
    (m.pieces n size).take (j + 1) = (m.pieces n size).take j ++
      [m.piece n (j * size) (min size (m.body.length - j * size))] := by
  have hlt := (lt_length_pieces (n := n) hsize).mpr hj
  rw [List.take_succ_eq_append_getElem hlt]
  simp [pieces]

end HsMsg

/-- There is room for a fragment in every record. -/
theorem fragSize_pos (c : RecordCipher κ) (encryptionOn : Bool) (type : UInt8) :
    0 < fragSize c encryptionOn type := by
  have hmac := c.aeadMacSize_le
  have hheader : dtls13GetRlHeaderLength (dtls13TypeIsEncrypted type) ≤ 13 := by
    unfold dtls13GetRlHeaderLength dtls13UnifiedHeaderSize dtlsRecordHeaderSz
    split_ifs <;> decide
  unfold fragSize getMaxFragSize maxMtu maxRecordSize dtls13UnifiedHeaderSize
    dtlsHandshakeHeaderSz dtlsRecordHeaderSz
  dsimp only
  cases encryptionOn <;> simp only [if_true, Bool.false_eq_true, if_false] <;> split_ifs <;> omega

theorem fragSize_le (c : RecordCipher κ) (encryptionOn : Bool) (type : UInt8) :
    fragSize c encryptionOn type ≤ maxRecordSize := by
  unfold fragSize getMaxFragSize maxMtu maxRecordSize
  dsimp only
  split_ifs <;> omega

namespace Dtls13Session
variable {s s' : Dtls13Session κ} {r : Dtls13RtxRecord} {msg : List UInt8}

/-! ## One record -/

/-- What sending a record does not change. -/
def pending (s : Dtls13Session κ) :
    (List UInt8 × Nat × Nat × UInt8 × Bool) × UInt16 × Bool × UInt64 :=
  ((s.fragmentsBuffer, s.messageLength, s.fragOffset, s.fragHandshakeType, s.sendingFragments),
    s.handshakeNumber, s.encryptionOn, s.layer.nextNumber.epoch)

theorem Advanced.epoch {l l' : RecordLayer κ} (h : Advanced l l') :
    l'.nextNumber.epoch = l.nextNumber.epoch := by
  have hslots := congrArg (·.getD l.dtls13EncryptEpoch .cleared) h.2
  rw [RecordLayer.nextNumber, RecordLayer.nextNumber, h.1, RecordLayer.slot, hslots]
  by_cases hi : l.dtls13EncryptEpoch < l.dtls13Epochs.length
  · have := RecordLayer.slot_modifySlot (s := l)
      (fun e => { e with nextSeqNumber := e.nextSeqNumber + 1 }) hi l.dtls13EncryptEpoch
    rw [if_pos rfl] at this
    exact (congrArg Dtls13Epoch.epochNumber this).trans rfl
  · rw [RecordLayer.modifySlot, List.modify_eq_self (Nat.not_lt.mp hi)]
    rfl

theorem Unsent.pending (h : Unsent s s') : s'.pending = s.pending ∧ s'.queued = s.queued := by
  have hepoch : s'.layer.nextNumber.epoch = s.layer.nextNumber.epoch := by
    rcases h.layer with ⟨heq, -⟩ | ⟨hadvanced, -⟩
    · rw [heq]
    · exact hadvanced.epoch
  unfold Dtls13Session.pending
  rw [hepoch, h.eq]
  exact ⟨rfl, rfl⟩

theorem Sent.pending (h : Sent msg s s') : s'.pending = s.pending ∧ s'.queued = s.queued := by
  have hepoch := h.layer.epoch
  unfold Dtls13Session.pending
  rw [hepoch, h.eq]
  exact ⟨rfl, rfl⟩

/-- A record goes to the end of the list, or the call is refused. -/
theorem sendOneFragmentRtx_queued (hc : c.Refuses) (t : Trip) (inOutputBuffer : Bool)
    {type : UInt8} (htype : type ≠ helloRetryRequest) (outputSize : Nat) (msg : List UInt8)
    (hashOutput : Bool) (s : Dtls13Session κ) :
    let out := s.sendOneFragmentRtx c t inOutputBuffer type outputSize msg hashOutput
    out.2.pending = s.pending ∧
      (Refused out.1 ∧ out.2.queued = s.queued ∨
        ¬ Refused out.1 ∧ out.2.queued = s.queued ++ [⟨type, s.layer.nextNumber.epoch, msg⟩]) := by
  intro out
  rcases sendOneFragmentRtx_cases hc t inOutputBuffer type outputSize msg hashOutput s with
    ⟨hret, hunsent | hsent⟩ | ⟨hret, s₁, hsent, heq⟩
  · exact ⟨hunsent.pending.1, .inl ⟨hret, hunsent.pending.2⟩⟩
  · exact ⟨hsent.pending.1, .inl ⟨hret, hsent.pending.2⟩⟩
  · rw [if_neg htype] at heq
    refine ⟨?_, .inr ⟨hret, ?_⟩⟩
    · rw [heq]
      exact hsent.pending.1
    · rw [heq]
      exact congrArg (· ++ _) hsent.pending.2

/-! ## The loop -/

/-- The parts of message `m` up to the `j`-th are in the list, behind the records `base`, and the
rest is to be sent. -/
structure Sending (c : RecordCipher κ) (m : HsMsg) (n : UInt16) (epoch : UInt64)
    (encryptionOn : Bool) (base : List RtxRecord) (j : Nat) (s : Dtls13Session κ) : Prop where
  le : j ≤ (m.pieces n (fragSize c encryptionOn m.type)).length
  pending : s.pending = ((m.body, m.body.length,
    min (j * fragSize c encryptionOn m.type) m.body.length, m.type, true), n, encryptionOn, epoch)
  queued : s.queued = base ++ ((m.pieces n (fragSize c encryptionOn m.type)).take j).map
    (RtxRecord.mk m.type epoch)

variable {m : HsMsg} {n : UInt16} {epoch : UInt64} {encryptionOn : Bool} {base : List RtxRecord}
  {j : Nat}

/-- The next record is the next part of the message. -/
theorem Sending.nextFragment (h : Sending c m n epoch encryptionOn base j s)
    (hj : j * fragSize c encryptionOn m.type < m.body.length) :
    s.nextFragment c = m.piece n (j * fragSize c encryptionOn m.type)
      (min (fragSize c encryptionOn m.type)
        (m.body.length - j * fragSize c encryptionOn m.type)) := by
  have hpending := h.pending
  simp only [Dtls13Session.pending, Prod.mk.injEq] at hpending
  obtain ⟨⟨hbuffer, hlength, hoffset, htype, -⟩, hnumber, hon, -⟩ := hpending
  rw [Nat.min_eq_left hj.le] at hoffset
  unfold Dtls13Session.nextFragment fragHeader fragLength maxFragLength HsMsg.piece
  rw [hbuffer, hlength, hoffset, htype, hnumber, hon]

theorem Sending.skipFragment (h : Sending c m n epoch encryptionOn base j s)
    (hj : j * fragSize c encryptionOn m.type < m.body.length)
    (hpending : s'.pending = s.pending)
    (hqueued : s'.queued = s.queued ++ [⟨m.type, epoch, s.nextFragment c⟩]) :
    Sending c m n epoch encryptionOn base (j + 1) (s'.skipFragment c) := by
  have hsame := hpending.trans h.pending
  refine ⟨(HsMsg.lt_length_pieces (fragSize_pos c encryptionOn m.type)).mpr hj, ?_, ?_⟩
  · simp only [Dtls13Session.pending, Prod.mk.injEq] at hsame ⊢
    obtain ⟨⟨hbuffer, hlength, hoffset, htype, hsending⟩, hnumber, hon, hepoch⟩ := hsame
    refine ⟨⟨hbuffer, hlength, ?_, htype, hsending⟩, hnumber, hon, hepoch⟩
    change s'.fragOffset + min (fragSize c s'.encryptionOn s'.fragHandshakeType)
      (s'.messageLength - s'.fragOffset) = _
    rw [hlength, hoffset, htype, hon, Nat.succ_mul]
    omega
  · rw [HsMsg.take_succ_pieces (fragSize_pos c encryptionOn m.type) hj, List.map_append,
      ← List.append_assoc, ← h.queued]
    change s'.queued = _
    rw [hqueued, h.nextFragment hj]
    rfl

/-- Nothing is left of a message that was being sent in fragments. -/
structure Idle (s : Dtls13Session κ) : Prop where
  sendingFragments : s.sendingFragments = false
  fragOffset : s.fragOffset = 0

/-- How a call ends: the message is out, the rest of it has to wait, or it is given up. -/
inductive Ends (c : RecordCipher κ) (m : HsMsg) (n : UInt16) (epoch : UInt64) (encryptionOn : Bool)
    (base : List RtxRecord) : Int32 × Dtls13Session κ → Prop
  | done {s : Dtls13Session κ} (number : s.handshakeNumber = n) (idle : s.Idle)
      (queued : s.queued = base ++ (m.pieces n (fragSize c encryptionOn m.type)).map
        (RtxRecord.mk m.type epoch)) : Ends c m n epoch encryptionOn base (0, s)
  | waits {s : Dtls13Session κ} {j : Nat} (sending : Sending c m n epoch encryptionOn base j s) :
      Ends c m n epoch encryptionOn base (wantWriteE, s)
  | givenUp {ret : Int32} {s : Dtls13Session κ} {j : Nat} (hret : ret ≠ 0)
      (number : s.handshakeNumber = n) (idle : s.Idle)
      (lt : j < (m.pieces n (fragSize c encryptionOn m.type)).length)
      (queued : s.queued = base ++ ((m.pieces n (fragSize c encryptionOn m.type)).take j).map
        (RtxRecord.mk m.type epoch)) : Ends c m n epoch encryptionOn base (ret, s)

theorem Sending.number (h : Sending c m n epoch encryptionOn base j s) : s.handshakeNumber = n :=
  congrArg (·.2.1) h.pending

/-- The loop with the next part, once there is room for it. -/
theorem Sending.loop (hc : c.Refuses) (htype : m.type ≠ helloRetryRequest) (fuel : Nat)
    (trips : Nat → Trip) (h : Sending c m n epoch encryptionOn base j s)
    (hfuel : m.body.length ≤ j * fragSize c encryptionOn m.type + fuel) :
    Ends c m n epoch encryptionOn base (s.sendFragmentsLoop c fuel trips) := by
  have hsize := fragSize_pos c encryptionOn m.type
  -- all parts are in the list
  have hdone {s : Dtls13Session κ} {j : Nat} (h : Sending c m n epoch encryptionOn base j s)
      (hj : m.body.length ≤ j * fragSize c encryptionOn m.type) :
      Ends c m n epoch encryptionOn base (0, s.freeFragmentsBuffer) := by
    refine .done h.number ⟨rfl, rfl⟩ ?_
    have hlength : (m.pieces n (fragSize c encryptionOn m.type)).length ≤ j :=
      Nat.le_of_not_lt (mt (HsMsg.lt_length_pieces hsize).mp (Nat.not_lt.mpr hj))
    rw [← List.take_of_length_le hlength]
    exact h.queued
  induction fuel generalizing s j trips with
  | zero => exact hdone h hfuel
  | succ fuel ih =>
    have hpending := h.pending
    simp only [Dtls13Session.pending, Prod.mk.injEq] at hpending
    obtain ⟨⟨hbuffer, hlength, hoffset, hs_type, -⟩, hnumber, hon, hepoch⟩ := hpending
    unfold sendFragmentsLoop
    by_cases hj : m.body.length ≤ j * fragSize c encryptionOn m.type
    · rw [if_pos (by rw [hlength, hoffset]; omega)]
      exact hdone h hj
    rw [if_neg (by rw [hlength, hoffset]; omega)]
    have hlt : j < (m.pieces n (fragSize c encryptionOn m.type)).length :=
      (HsMsg.lt_length_pieces hsize).mpr (Nat.lt_of_not_le hj)
    obtain ⟨bytes, hroom⟩ := checkAvailableSize_eq (trips 0) (s.fragRecordLength c + maxMsgExtra) s
    generalize s.checkAvailableSize (trips 0) (s.fragRecordLength c + maxMsgExtra) = room at hroom ⊢
    dsimp only
    by_cases hret : room.1 ≠ 0
    · rw [if_pos hret]
      rw [hroom]
      exact .givenUp hret hnumber ⟨rfl, rfl⟩ hlt h.queued
    rw [if_neg hret]
    have hroom' : Sending c m n epoch encryptionOn base j room.2 := by
      rw [hroom]
      exact ⟨h.le, h.pending, h.queued⟩
    have hnext := hroom'.pending
    simp only [Dtls13Session.pending, Prod.mk.injEq] at hnext
    obtain ⟨⟨-, -, -, hnext_type, -⟩, hnext_number, -, hnext_epoch⟩ := hnext
    obtain ⟨hsame, hqueued⟩ := sendOneFragmentRtx_queued hc (trips 0) true (hnext_type ▸ htype)
      (room.2.fragRecordLength c + maxMsgExtra) (room.2.nextFragment c) false room.2
    rw [hnext_epoch, hnext_type] at hqueued
    unfold sendNextFragment
    rw [hnext_type] at hsame ⊢
    generalize room.2.sendOneFragmentRtx c (trips 0) true m.type
      (room.2.fragRecordLength c + maxMsgExtra) (room.2.nextFragment c) false = sent
      at hsame hqueued ⊢
    have hskip (hrefused : ¬ Refused sent.1) :
        Sending c m n epoch encryptionOn base (j + 1) (sent.2.skipFragment c) :=
      hroom'.skipFragment (Nat.lt_of_not_le hj) hsame
        (hqueued.resolve_left fun h => hrefused h.1).2
    by_cases hwait : sent.1 = wantWriteE
    · rw [if_pos hwait, hwait]
      exact .waits (hskip fun h => h.2 hwait)
    rw [if_neg hwait]
    by_cases hzero : sent.1 ≠ 0
    · rw [if_pos hzero]
      have hrefused := (hqueued.resolve_right fun h => h.1 ⟨hzero, hwait⟩).2
      have hsame_number : sent.2.handshakeNumber = n :=
        (congrArg (·.2.1) hsame).trans hnext_number
      exact .givenUp hzero hsame_number ⟨rfl, rfl⟩ hlt (hrefused.trans hroom'.queued)
    · rw [if_neg hzero]
      refine ih _ (hskip fun h => hzero h.1) ?_
      rw [Nat.succ_mul]
      omega

/-! ## The whole message -/

/-- `Dtls13FragmentsContinue`, called as long as there are fragments left. -/
def resume (c : RecordCipher κ) : List (Nat → Trip) → Int32 × Dtls13Session κ →
    Int32 × Dtls13Session κ
  | [], out => out
  | trips :: more, out =>
    if out.2.sendingFragments then resume c more (out.2.fragmentsContinue c trips) else out

/-- How far message `n` has got: `j` of its records are in the list, and it is counted when all
are and none is to be sent. -/
structure Outcome (records : List RtxRecord) (n : UInt16) (base : List RtxRecord) (j : Nat)
    (out : Int32 × Dtls13Session κ) : Prop where
  queued : out.2.queued = base ++ records.take j
  le : j ≤ records.length
  waits : out.2.sendingFragments = true → out.1 = wantWriteE
  number : out.2.handshakeNumber =
    if j = records.length ∧ out.2.sendingFragments = false then n + 1 else n
  done : out.1 = 0 → j = records.length ∧ out.2.Idle

/-- The message is counted when it is out. -/
def counted (out : Int32 × Dtls13Session κ) : Int32 × Dtls13Session κ :=
  if out.1 = 0 then (out.1, out.2.countMessage) else (out.1, out.2)

/-- How far the message has got, and what is left to be sent of it. -/
def Continues (c : RecordCipher κ) (m : HsMsg) (n : UInt16) (epoch : UInt64) (encryptionOn : Bool)
    (base : List RtxRecord) (out : Int32 × Dtls13Session κ) : Prop :=
  ∃ j, Outcome ((m.pieces n (fragSize c encryptionOn m.type)).map (RtxRecord.mk m.type epoch)) n
      base j out ∧
    (out.2.sendingFragments = true → Sending c m n epoch encryptionOn base j out.2)

theorem Ends.continues {out : Int32 × Dtls13Session κ}
    (h : Ends c m n epoch encryptionOn base out) :
    Continues c m n epoch encryptionOn base (counted out) := by
  cases h with
  | @done s number idle queued =>
    have hidle : s.sendingFragments ≠ true := Bool.eq_false_iff.mp idle.1
    refine ⟨_, ⟨?_, Nat.le_refl _, fun h => absurd h hidle, ?_, fun _ => ⟨rfl, ⟨idle.1, idle.2⟩⟩⟩,
      fun h => absurd h hidle⟩
    · rw [List.take_length]
      exact queued
    · exact (congrArg (· + 1) number).trans (if_pos ⟨rfl, idle.1⟩).symm
  | @waits s j sending =>
    have hpending : s.sendingFragments = true := congrArg (·.1.2.2.2.2) sending.pending
    have hwait : wantWriteE ≠ 0 := by decide
    rw [counted, if_neg hwait]
    refine ⟨j, ⟨?_, ?_, fun _ => rfl, ?_, fun h => absurd h hwait⟩, fun _ => sending⟩
    · rw [← List.map_take]
      exact sending.queued
    · rw [List.length_map]
      exact sending.le
    · rw [if_neg (by simp [hpending])]
      exact sending.number
  | @givenUp ret s j hret number idle lt queued =>
    have hidle : s.sendingFragments ≠ true := Bool.eq_false_iff.mp idle.1
    rw [counted, if_neg hret]
    refine ⟨j, ⟨?_, ?_, fun h => absurd h hidle, ?_, fun h => absurd h hret⟩,
      fun h => absurd h hidle⟩
    · rw [← List.map_take]
      exact queued
    · rw [List.length_map]
      exact lt.le
    · rw [if_neg (by rw [List.length_map]; omega)]
      exact number

/-- The calls that go on with the fragments. -/
theorem Continues.resume (hc : c.Refuses) (htype : m.type ≠ helloRetryRequest)
    (more : List (Nat → Trip)) {out : Int32 × Dtls13Session κ}
    (h : Continues c m n epoch encryptionOn base out) :
    Continues c m n epoch encryptionOn base (resume c more out) := by
  induction more generalizing out with
  | nil => exact h
  | cons trips more ih =>
    unfold Dtls13Session.resume
    by_cases hpending : out.2.sendingFragments = true
    · rw [if_pos hpending]
      obtain ⟨j, -, hsending⟩ := h
      have hs := hsending hpending
      have hleft := hs.pending
      simp only [Dtls13Session.pending, Prod.mk.injEq] at hleft
      have hends := hs.loop hc htype (out.2.messageLength - out.2.fragOffset) trips (by
        rw [hleft.1.2.1, hleft.1.2.2.1]
        omega)
      exact ih hends.continues
    · rw [if_neg hpending]
      exact h

/-- The message does not go into one record. -/
theorem lt_length_body (h : ¬ dtls13GetRlHeaderLength (dtls13TypeIsEncrypted m.type) +
      (m.piece n 0 m.body.length).length < getMaxFragSize c encryptionOn) :
    0 < (m.pieces n (fragSize c encryptionOn m.type)).length := by
  have hsize := fragSize_pos c encryptionOn m.type
  rw [HsMsg.length_piece] at h
  rw [HsMsg.lt_length_pieces hsize, Nat.zero_mul]
  unfold fragSize at hsize
  omega

/-- The first call for a message in fragments. -/
theorem Idle.sendFragmented (h : s.Idle) (hc : c.Refuses) (htype : m.type ≠ helloRetryRequest)
    (hlong : 0 < (m.pieces s.handshakeNumber (fragSize c s.encryptionOn m.type)).length)
    (trips : Nat → Trip) (hashOutput : Bool) :
    Ends c m s.handshakeNumber s.layer.nextNumber.epoch s.encryptionOn s.queued
      (s.sendFragmented c trips m.type (m.piece s.handshakeNumber 0 m.body.length) hashOutput) := by
  have hrefused {ret : Int32} (hret : ret ≠ 0) :
      Ends c m s.handshakeNumber s.layer.nextNumber.epoch s.encryptionOn s.queued (ret, s) :=
    .givenUp hret rfl h hlong (by simp)
  unfold Dtls13Session.sendFragmented
  rw [HsMsg.drop_piece, HsMsg.length_piece, Nat.add_sub_cancel_left,
    if_neg (Bool.eq_false_iff.mp h.1)]
  by_cases hhash : hashOutput = true ∧ (trips 0).hash ≠ 0
  · rw [if_pos hhash]
    exact hrefused hhash.2
  rw [if_neg hhash]
  by_cases hmemory : (trips 0).memory = false
  · rw [if_pos hmemory]
    exact hrefused (by decide)
  rw [if_neg hmemory]
  have hstart : Sending c m s.handshakeNumber s.layer.nextNumber.epoch s.encryptionOn s.queued 0
      { s with
        fragmentsBuffer := m.body
        messageLength := m.body.length
        fragHandshakeType := m.type
        sendingFragments := true } := by
    refine ⟨Nat.zero_le _, ?_, by simp⟩
    simp [pending, h.2]
  exact hstart.loop hc htype _ _ (by simp [h.2])

/-- Without fragments there is nothing to go on with. -/
theorem resume_of_idle (h : s.sendingFragments = false) (ret : Int32)
    (more : List (Nat → Trip)) : resume c more (ret, s) = (ret, s) := by
  cases more with
  | nil => rfl
  | cons => rw [resume, if_neg (Bool.eq_false_iff.mp h)]

/-- A message that goes into one record, or is cut into fragments. -/
theorem sendMessage_run (hc : c.Refuses) (htype : m.type ≠ helloRetryRequest)
    (hidle : s.Idle) (trips : Nat → Trip) (inOutputBuffer : Bool) (outputSize : Nat)
    (hashOutput : Bool) (more : List (Nat → Trip)) :
    ∃ j, Outcome ((m.records c s.encryptionOn s.handshakeNumber).map
        (RtxRecord.mk m.type s.layer.nextNumber.epoch)) s.handshakeNumber s.queued j
      (resume c more (s.sendMessage c trips inOutputBuffer m.type outputSize
        (m.piece s.handshakeNumber 0 m.body.length) hashOutput)) := by
  unfold HsMsg.records sendMessage
  by_cases hshort : dtls13GetRlHeaderLength (dtls13TypeIsEncrypted m.type) +
      (m.piece s.handshakeNumber 0 m.body.length).length < getMaxFragSize c s.encryptionOn
  · rw [if_pos hshort]
    simp only [if_pos hshort]
    obtain ⟨hsame, hqueued⟩ := sendOneFragmentRtx_queued hc (trips 0) inOutputBuffer htype
      outputSize (m.piece s.handshakeNumber 0 m.body.length) hashOutput s
    generalize s.sendOneFragmentRtx c (trips 0) inOutputBuffer m.type outputSize
      (m.piece s.handshakeNumber 0 m.body.length) hashOutput = sent at hsame hqueued ⊢
    simp only [pending, Prod.mk.injEq] at hsame
    obtain ⟨⟨-, -, hoffset, -, hsending⟩, hnumber, -⟩ := hsame
    rw [hidle.1] at hsending
    rw [hidle.2] at hoffset
    have hcases : Refused sent.1 ↔ ¬ (sent.1 = 0 ∨ sent.1 = wantWriteE) := by
      unfold Refused
      tauto
    by_cases hret : sent.1 = 0 ∨ sent.1 = wantWriteE
    · have hcounted : sent.2.countMessage.sendingFragments = false := hsending
      rw [if_pos hret, resume_of_idle hcounted]
      have hqueued := (hqueued.resolve_left fun h => hcases.mp h.1 hret).2
      refine ⟨1, hqueued, Nat.le_refl _, fun h => absurd (hsending.symm.trans h) (by decide), ?_,
        fun _ => ⟨rfl, ⟨hsending, hoffset⟩⟩⟩
      exact (congrArg (· + 1) hnumber).trans (if_pos ⟨rfl, hsending⟩).symm
    · rw [if_neg hret, resume_of_idle hsending]
      have hqueued := (hqueued.resolve_right fun h => h.1 (hcases.mpr hret)).2
      refine ⟨0, ?_, Nat.zero_le _, fun h => absurd (hsending.symm.trans h) (by decide), ?_,
        fun h => absurd (.inl h) hret⟩
      · rw [hqueued]
        simp
      · rw [hnumber, if_neg (by simp)]
  · rw [if_neg hshort]
    simp only [if_neg hshort]
    have hends := hidle.sendFragmented hc htype (lt_length_body hshort) trips hashOutput
    exact (hends.continues.resume hc htype more).imp fun _ h => h.1

theorem selectEncrypt_eq (n : UInt64) (s : Dtls13Session κ) :
    ∃ layer, (s.selectEncrypt n).2 = { s with layer := layer } := by
  unfold selectEncrypt
  split_ifs
  · exact ⟨_, rfl⟩
  · exact ⟨s.layer, rfl⟩

/-- `Dtls13HandshakeSend` and the calls that go on with the fragments, in the highest epoch. -/
theorem Idle.handshakeSend (hidle : s.Idle) (hc : c.Refuses) (htype : m.type ≠ helloRetryRequest)
    (trips : Nat → Trip) (inOutputBuffer : Bool) (outputSize : Nat) (hashOutput : Bool)
    (more : List (Nat → Trip)) :
    ∃ j, Outcome ((m.records c s.encryptionOn s.handshakeNumber).map
        (RtxRecord.mk m.type s.layer.dtls13Epoch)) s.handshakeNumber s.queued j
      (resume c more (s.handshakeSend c trips inOutputBuffer m.type outputSize
        (m.piece s.handshakeNumber 0 m.body.length) hashOutput)) := by
  have hlength : 0 < (m.records c s.encryptionOn s.handshakeNumber).length := by
    unfold HsMsg.records
    split_ifs with hshort
    · exact Nat.zero_lt_one
    · exact lt_length_body hshort
  unfold Dtls13Session.handshakeSend
  extract_lets seenRecords
  obtain ⟨layer, hselect⟩ := selectEncrypt_eq s.layer.dtls13Epoch { s with seenRecords }
  have hepoch := selectEncrypt_epoch (s := { s with seenRecords }) (n := s.layer.dtls13Epoch)
  generalize selectEncrypt s.layer.dtls13Epoch { s with seenRecords } = selected at hselect hepoch ⊢
  dsimp only
  by_cases hret : selected.1 ≠ 0
  · have hsame : { s with seenRecords := seenRecords, layer := layer }.sendingFragments = false :=
      hidle.1
    rw [if_pos hret, hselect, resume_of_idle hsame]
    refine ⟨0, by simp, Nat.zero_le _, fun h => absurd (hidle.1.symm.trans h) (by decide), ?_,
      fun h => absurd h hret⟩
    rw [if_neg (by rw [List.length_map]; omega)]
  · rw [if_neg hret]
    have hepoch := hepoch (not_not.mp hret)
    rw [hselect] at hepoch ⊢
    rw [← hepoch]
    exact sendMessage_run (s := { s with
      seenRecords := seenRecords
      layer := layer
      waitKeyUpdateAck := s.waitKeyUpdateAck || m.type == keyUpdate }) hc htype
      ⟨hidle.1, hidle.2⟩ trips inOutputBuffer outputSize hashOutput more

/-- A message that is sent, and no HelloRetryRequest, whatever the network says to each record: the
records get into the list in their order, none twice and none left out, and the message is
counted when all have and no fragment is pending. When the last fragment has to wait, it is in
the list already, and the message is counted by the next `Dtls13FragmentsContinue`. -/
theorem handshakeSend_run (hc : c.Refuses) {m : HsMsg} (htype : m.type ≠ helloRetryRequest)
    {s : Dtls13Session κ} (hidle : s.Idle) (trips : Nat → Trip) (inOutputBuffer : Bool)
    (outputSize : Nat) (hashOutput : Bool) (more : List (Nat → Trip)) :
    let records := (m.records c s.encryptionOn s.handshakeNumber).map
      (RtxRecord.mk m.type s.layer.dtls13Epoch)
    let out := resume c more (s.handshakeSend c trips inOutputBuffer m.type outputSize
      (m.piece s.handshakeNumber 0 m.body.length) hashOutput)
    (∃ j ≤ records.length, out.2.queued = s.queued ++ records.take j ∧
      out.2.handshakeNumber = if j = records.length ∧ out.2.sendingFragments = false then
        s.handshakeNumber + 1 else s.handshakeNumber) ∧
      (out.2.sendingFragments = true → out.1 = wantWriteE) ∧
      (out.1 = 0 → out.2.queued = s.queued ++ records ∧
        out.2.handshakeNumber = s.handshakeNumber + 1 ∧ out.2.Idle) := by
  intro records out
  obtain ⟨j, h⟩ := hidle.handshakeSend hc htype trips inOutputBuffer outputSize hashOutput more
  refine ⟨⟨j, h.le, h.queued, h.number⟩, h.waits, fun hret => ?_⟩
  obtain ⟨hj, hend⟩ := h.done hret
  refine ⟨?_, h.number.trans (if_pos ⟨hj, hend.1⟩), hend⟩
  rw [h.queued, hj, List.take_length]

def sampleStart : Dtls13Session UInt8 := init false

def sampleCertificate : HsMsg := ⟨certificate, List.replicate 1400 7⟩

/-- A certificate in two fragments, with a network that makes the first of them wait. -/
def sampleOut : Int32 × Dtls13Session UInt8 :=
  resume RecordLayer.sampleCipher [fun _ => Link.sampleTrip]
    (sampleStart.handshakeSend RecordLayer.sampleCipher
      (fun _ => { Link.sampleTrip with flush := wantWriteE }) true sampleCertificate.type 1600
      (sampleCertificate.piece sampleStart.handshakeNumber 0 sampleCertificate.body.length) false)

theorem handshakeSend_run_sample :
    sampleOut.2.queued = sampleStart.queued ++
        (sampleCertificate.records RecordLayer.sampleCipher sampleStart.encryptionOn
          sampleStart.handshakeNumber).map
            (RtxRecord.mk sampleCertificate.type sampleStart.layer.dtls13Epoch) ∧
      sampleOut.2.handshakeNumber = sampleStart.handshakeNumber + 1 ∧ sampleOut.2.Idle := by
  unfold sampleOut
  exact (handshakeSend_run RecordLayer.refuses_sampleCipher (by decide) ⟨rfl, rfl⟩ _ true 1600 false
    _).2.2 (by decide +kernel)

end Dtls13Session

/-! ## The other side -/

/-- The call of `DtlsMsgSet` for the record. -/
def HsRecord.arrival (r : HsRecord) : DtlsMsg.Arrival UInt8 :=
  (r.fragment (HandShakeHeader.ofBytes r.input), r.memory.block)

namespace HsMsg
variable {m : HsMsg} {n : UInt16} {size : Nat}

/-- The parts of the message as pieces of its body. -/
def cuts (m : HsMsg) (n : UInt16) (size : Nat) (hsize : 0 < size) :
    DtlsMsg.Pieces (m.pieces n size).length m.body.length where
  cut i := min (i * size) m.body.length
  first := by simp
  last := by
    have := mt (lt_length_pieces (m := m) (n := n) hsize).mpr (Nat.lt_irrefl _)
    omega
  grows i hi := by
    have := (lt_length_pieces hsize).mp hi
    rw [Nat.succ_mul]
    omega

/-- A record with one of the parts. -/
theorem fragment_piece (hsize : 0 < size) (hlength : m.body.length < 16777216) {r : HsRecord}
    {i : Nat} (hi : i < (m.pieces n size).length) (hinput : r.input = (m.pieces n size)[i]) :
    r.fragment (HandShakeHeader.ofBytes r.input) = (m.cuts n size hsize).fragment m.mem n.toUInt32
      r.epoch.toUInt16 m.type r.decryptedCur i := by
  have hlt := (lt_length_pieces hsize).mp hi
  have hcut : (m.cuts n size hsize).cut i = i * size := Nat.min_eq_left hlt.le
  have hnext : (m.cuts n size hsize).cut (i + 1) - i * size =
      min size (m.body.length - i * size) := by
    simp only [cuts, Nat.succ_mul]
    omega
  have hpiece : r.input = m.piece n (i * size) (min size (m.body.length - i * size)) := by
    rw [hinput]
    simp [pieces]
  have hheader : HandShakeHeader.ofBytes r.input =
      ⟨m.type, m.body.length, n, i * size, min size (m.body.length - i * size)⟩ := by
    rw [hpiece]
    exact ofBytes_piece hlength (by omega)
  have hdata : (r.input.drop dtlsHandshakeHeaderSz).take (min size (m.body.length - i * size)) =
      m.mem.read (i * size) (min size (m.body.length - i * size)) := by
    rw [hpiece, piece, List.drop_left' (by rfl), List.take_take, Nat.min_self,
      m.read_mem _ _ (by omega)]
  rw [hheader, HsRecord.fragment, DtlsMsg.Pieces.fragment, hcut, hnext, hdata]

/-- What comes of a record that was sent. -/
def received (r : RtxRecord) (encrypted : Bool) (block : Mem UInt8) : HsRecord :=
  ⟨r.epoch, encrypted, true, r.data, ⟨true, some block⟩⟩

/-- A message of at most four records is put together from what comes of them. -/
theorem assembles (hsize : 0 < size) (hlength : m.body.length < 16777216) {epoch : UInt64}
    {sent : List RtxRecord} (hsent : sent = (m.pieces n size).map (RtxRecord.mk m.type epoch))
    (hfew : sent.length ≤ 4) (encrypted : Bool) (as : List (Fin sent.length × Mem UInt8)) :
    let msg := run DtlsMsg.step (DtlsMsg.new m.body.length) (as.map fun a =>
      (received sent[a.1] encrypted a.2).arrival)
    msg.Sound m.mem ∧ (msg.ready = true ↔ as ≠ [] ∧ ∀ i, ∃ a ∈ as, a.1 = i) := by
  have hk : sent.length = (m.pieces n size).length := by rw [hsent, List.length_map]
  have harrivals : (as.map fun a => (received sent[a.1] encrypted a.2).arrival) =
      (as.map fun a => (Fin.cast hk a.1, a.2)).map fun a =>
        (m.cuts n size hsize).arrival m.mem n.toUInt32 epoch.toUInt16 m.type encrypted a.1 a.2 := by
    rw [List.map_map]
    refine List.map_congr_left fun a _ => Prod.ext ?_ rfl
    refine (fragment_piece hsize hlength (a.1.isLt.trans_eq hk) ?_).trans ?_
    · simp [received, hsent]
    · simp [received, hsent]
  intro msg
  have hsound := (m.cuts n size hsize).sound_arrivals (hk.symm.le.trans hfew) m.mem n.toUInt32
    epoch.toUInt16 m.type encrypted (as.map fun a => (Fin.cast hk a.1, a.2))
  have hready := (m.cuts n size hsize).ready_arrivals (hk.symm.le.trans hfew) m.mem n.toUInt32
    epoch.toUInt16 m.type encrypted (as.map fun a => (Fin.cast hk a.1, a.2))
  rw [← harrivals] at hsound hready
  refine ⟨hsound, hready.trans (and_congr (by simp) ⟨fun hall i => ?_, fun hall i => ?_⟩)⟩
  · obtain ⟨a, ha, hi⟩ := hall (Fin.cast hk i)
    obtain ⟨b, hb, rfl⟩ := List.mem_map.mp ha
    exact ⟨b, hb, Fin.cast_injective hk hi⟩
  · obtain ⟨a, ha, hi⟩ := hall (Fin.cast hk.symm i)
    exact ⟨_, List.mem_map.mpr ⟨a, ha, rfl⟩, by simp [hi]⟩

/-- Four fragments hold less than a length of three bytes can say. -/
theorem length_lt_of_few (c : RecordCipher κ) (encryptionOn : Bool) (type : UInt8)
    (hfew : (m.pieces n (fragSize c encryptionOn type)).length ≤ 4) :
    m.body.length < 16777216 := by
  have hlast := mt (lt_length_pieces (m := m) (n := n) (fragSize_pos c encryptionOn type)).mpr
    (Nat.not_lt.mpr hfew)
  have hsize := fragSize_le c encryptionOn type
  unfold maxRecordSize at hsize
  omega

end HsMsg

/-- A message that is sent in two to four fragments, and no HelloRetryRequest, and the records that
come of it, in whatever order and however often, with memory for each of them: the other side has
the message when each record has come, and has no other. -/
theorem reassembled_run (hc : c.Refuses) {m : HsMsg} (htype : m.type ≠ helloRetryRequest)
    {s : Dtls13Session κ} (hidle : s.Idle) (trips : Nat → Trip) (inOutputBuffer : Bool)
    (outputSize : Nat) (hashOutput : Bool) (more : List (Nat → Trip)) :
    let out := s.handshakeSend c trips inOutputBuffer m.type outputSize
      (m.piece s.handshakeNumber 0 m.body.length) hashOutput |> Dtls13Session.resume c more
    let sent := out.2.queued.drop s.queued.length
    out.1 = 0 → 2 ≤ sent.length → sent.length ≤ 4 →
      ∀ (encrypted : Bool) (as : List (Fin sent.length × Mem UInt8)),
        let msg := run DtlsMsg.step (DtlsMsg.new m.body.length) (as.map fun a =>
          (HsMsg.received sent[a.1] encrypted a.2).arrival)
        msg.Sound m.mem ∧ (msg.ready = true ↔ as ≠ [] ∧ ∀ i, ∃ a ∈ as, a.1 = i) := by
  intro out sent hret hmany hfew encrypted as
  obtain ⟨j, h⟩ := hidle.handshakeSend hc htype trips inOutputBuffer outputSize hashOutput more
  have hsent : sent = (m.records c s.encryptionOn s.handshakeNumber).map
      (RtxRecord.mk m.type s.layer.dtls13Epoch) := by
    simp only [sent]
    rw [h.queued, (h.done hret).1, List.drop_left, List.take_length]
  have hrecords : m.records c s.encryptionOn s.handshakeNumber =
      m.pieces s.handshakeNumber (fragSize c s.encryptionOn m.type) := by
    unfold HsMsg.records
    refine if_neg fun hshort => ?_
    rw [hsent, List.length_map, HsMsg.records, if_pos hshort] at hmany
    exact absurd hmany (by simp)
  rw [hrecords] at hsent
  have hlength : m.body.length < 16777216 := by
    refine HsMsg.length_lt_of_few (n := s.handshakeNumber) c s.encryptionOn m.type ?_
    rwa [hsent, List.length_map] at hfew
  exact HsMsg.assembles (fragSize_pos c s.encryptionOn m.type) hlength hsent hfew encrypted as

/-- Both fragments of the certificate, the second one first. -/
theorem reassembled_run_sample :
    let sent := Dtls13Session.sampleOut.2.queued.drop Dtls13Session.sampleStart.queued.length
    let as := (List.finRange sent.length).reverse.map fun i => (i, fun _ => (0 : UInt8))
    let msg := run DtlsMsg.step (DtlsMsg.new Dtls13Session.sampleCertificate.body.length)
      (as.map fun a => (HsMsg.received sent[a.1] true a.2).arrival)
    msg.Sound Dtls13Session.sampleCertificate.mem ∧
      (msg.ready = true ↔ as ≠ [] ∧ ∀ i, ∃ a ∈ as, a.1 = i) := by
  unfold Dtls13Session.sampleOut
  exact reassembled_run RecordLayer.refuses_sampleCipher (by decide) ⟨rfl, rfl⟩ _ true 1600 false _
    (by decide +kernel) (by decide +kernel) (by decide +kernel) true _

end LitexDtls.WolfSsl
