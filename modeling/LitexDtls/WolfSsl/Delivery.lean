import Mathlib.Logic.Function.Basic
import LitexDtls.WolfSsl.Flights

/-!
# Delivery of handshake records

A client and a server that send each other handshake records and ACKs over a network that
loses, repeats and reorders what it carries, in any interleaving with everything else that the
sessions do. A record that was sent is not forgotten: it waits for its ACK, it has left the list
without one, or the peer has noted it (`accounted_run`), and what is acknowledged was sent and
has been noted (`acknowledged_run`). So the handshake does not end by an ACK, and a new key is
not taken, before the peer has noted what was sent and still waited
(`serverFinishedAcked_run`, `waitKeyUpdateAck_run`).

The network does not forge: a record that passes the record layer is one that the peer has
sealed, with its number, and so is an ACK. What the messages in the records say to a session is
not constrained: `Dtls13RtxMsgRecvd` may be called at any time and with any message. That the
messages in the noted records are handled in their order is shown apart (`handled_in_order`).
-/
namespace LitexDtls.WolfSsl
open Library HandShakeType

variable {κ : Type} {c : RecordCipher κ}

/-- What a session does, and what happens to it. -/
inductive SessionEvent (κ : Type) where
  | layer (ev : RecordEvent κ)
  | setOptions (encryptionOn groupMessages handShakeStateDone waitFinishedAck : Bool)
  | sendBuffered (ret : Int32)
  | handshakeSend (trips : Nat → Trip) (inOutputBuffer : Bool) (type : UInt8) (outputSize : Nat)
      (msg : List UInt8) (hashOutput : Bool)
  | fragmentsContinue (trips : Nat → Trip)
  | rtxSendBuffered (trips : Nat → Trip)
  | sendDtls13Ack (t : Trip)
  | recordRecvd (memory : Bool) (rn : RecordNumber) (msg : List UInt8)
  | rtxMsgRecvd (m : Dtls13Session.Recvd)
  | rtxProcessingCertificate (input : List UInt8)
  | doDtls13Ack (keys : Except Int32 (DerivedKeys κ)) (input : List UInt8)

namespace Dtls13Session

/-- A session whose record layer is as `InitSSL` sets it up. -/
def init (serverEnd : Bool) : Dtls13Session κ where
  layer := .init serverEnd
  encryptionOn := false
  groupMessages := false
  handShakeStateDone := false
  waitFinishedAck := false
  serverFinishedAcked := false
  waitKeyUpdateAck := false
  retransmit := false
  handshakeNumber := 0
  fragmentsBuffer := []
  messageLength := 0
  fragOffset := 0
  fragHandshakeType := 0
  sendingFragments := false
  rtxRecords := []
  seenRecords := []
  outputBuffer := []
  built := []
  queued := []
  released := []
  got := []
  acks := []
  heard := []
  attempts := 0

/-- The record layer does something else: other records, other epochs. -/
def layerStep (c : RecordCipher κ) (ev : RecordEvent κ) (s : Dtls13Session κ) : Dtls13Session κ :=
  { s with layer := s.layer.step c ev, attempts := s.attempts + 1 }

def step (c : RecordCipher κ) (s : Dtls13Session κ) : SessionEvent κ → Dtls13Session κ
  | .layer ev => s.layerStep c ev
  | .setOptions encryptionOn groupMessages handShakeStateDone waitFinishedAck =>
    { s with encryptionOn, groupMessages, handShakeStateDone, waitFinishedAck }
  | .sendBuffered ret => (s.sendBuffered ret).2
  | .handshakeSend trips inOutputBuffer type outputSize msg hashOutput =>
    (s.handshakeSend c trips inOutputBuffer type outputSize msg hashOutput).2
  | .fragmentsContinue trips => (s.fragmentsContinue c trips).2
  | .rtxSendBuffered trips => (s.rtxSendBuffered c trips).2
  | .sendDtls13Ack t => (s.sendDtls13Ack c t).2
  | .recordRecvd memory rn msg => (s.recordRecvd memory rn msg).2
  | .rtxMsgRecvd m => s.rtxMsgRecvd m
  | .rtxProcessingCertificate input => (s.rtxProcessingCertificate input).2
  | .doDtls13Ack keys input => (s.doDtls13Ack keys input).2

/-- What a step has to be, with what the peer has sealed and written: the network does not
forge, and no epoch is entered again that has been used and has lost its slot. -/
def Allowed (s peer : Dtls13Session κ) : SessionEvent κ → Prop
  | .layer (.newEpoch n _ _) => s.Fresh n
  | .recordRecvd _ rn msg => (rn, msg) ∈ peer.built
  | .doDtls13Ack _ input => input ∈ peer.acks ∧ s.Fresh (s.layer.dtls13Epoch + 1)
  | _ => True

instance (n : UInt64) (s : Dtls13Session κ) : Decidable (s.Fresh n) :=
  inferInstanceAs (Decidable (_ → _))

instance (s peer : Dtls13Session κ) : ∀ ev, Decidable (s.Allowed peer ev)
  | .layer (.newEpoch n _ _) => inferInstanceAs (Decidable (s.Fresh n))
  | .recordRecvd _ rn msg => inferInstanceAs (Decidable ((rn, msg) ∈ peer.built))
  | .doDtls13Ack _ input =>
    inferInstanceAs (Decidable (input ∈ peer.acks ∧ s.Fresh (s.layer.dtls13Epoch + 1)))
  | .layer (.setEpochKeys ..) | .layer (.setEpochs ..) | .layer (.setOptions ..)
  | .layer (.build ..) | .layer (.recvProtected ..) | .layer (.recvPlaintext ..)
  | .setOptions .. | .sendBuffered .. | .handshakeSend .. | .fragmentsContinue ..
  | .rtxSendBuffered .. | .sendDtls13Ack .. | .rtxMsgRecvd .. | .rtxProcessingCertificate .. =>
    inferInstanceAs (Decidable True)

variable {s s' peer : Dtls13Session κ}

theorem own_init (serverEnd : Bool) : (init serverEnd : Dtls13Session κ).Own where
  numbered := RecordLayer.numbered_init serverEnd 0
  one_message h := absurd h List.not_mem_nil
  tracked _ h := absurd h List.not_mem_nil
  distinct := List.nodup_nil
  accounted _ h := absurd h List.not_mem_nil
  seen_sorted := List.Pairwise.nil
  seen_got _ h := absurd h List.not_mem_nil
  acks_got _ h := absurd h List.not_mem_nil

theorem keeps_layerStep {ev : RecordEvent κ} (h : s.Allowed peer (.layer ev)) :
    Keeps s (s.layerStep c ev) := by
  refine ⟨⟨fun hlt hown => ?_, Nat.le_succ _, List.Subset.refl _, rfl, rfl⟩, rfl, id⟩
  refine { hown with numbered := hown.numbered.step hlt c ?_ }
  rintro n side keys rfl hnone seq hmem
  obtain ⟨p, hp, heq⟩ := List.mem_map.mp hmem
  exact h hnone p hp (congrArg Prod.fst heq)

/-- Every step but the receiving of a handshake record or of an ACK. -/
theorem keeps_step (hc : c.Refuses) {ev : SessionEvent κ} (h : s.Allowed peer ev)
    (hrecord : ∀ memory rn msg, ev ≠ .recordRecvd memory rn msg)
    (hack : ∀ keys input, ev ≠ .doDtls13Ack keys input) : Keeps s (s.step c ev) := by
  cases ev with
  | layer ev => exact keeps_layerStep h
  | setOptions encryptionOn groupMessages handShakeStateDone waitFinishedAck =>
    exact ⟨⟨fun _ h => { h with }, Nat.le_refl _, List.Subset.refl _, rfl, rfl⟩, rfl, id⟩
  | sendBuffered ret =>
    obtain ⟨bytes, heq⟩ := sendBuffered_eq ret s
    rw [step, heq]
    exact ⟨⟨fun _ h => { h with }, Nat.le_refl _, List.Subset.refl _, rfl, rfl⟩, rfl, id⟩
  | handshakeSend trips inOutputBuffer type outputSize msg hashOutput =>
    exact keeps_handshakeSend hc trips inOutputBuffer type outputSize msg hashOutput s
  | fragmentsContinue trips => exact keeps_fragmentsContinue hc trips s
  | rtxSendBuffered trips => exact keeps_rtxSendBuffered hc trips s
  | sendDtls13Ack t => exact keeps_sendDtls13Ack hc t s
  | recordRecvd memory rn msg => exact absurd rfl (hrecord memory rn msg)
  | rtxMsgRecvd m => exact keeps_rtxMsgRecvd m s
  | rtxProcessingCertificate input => exact keeps_rtxProcessingCertificate input s
  | doDtls13Ack keys input => exact absurd rfl (hack keys input)

/-- What a step takes from the network is the peer's. -/
theorem takes_step (hc : c.Refuses) {ev : SessionEvent κ} (h : s.Allowed peer ev) :
    ∃ records numbers, Takes records numbers s (s.step c ev) ∧ records ⊆ peer.built ∧
      (peer.Own → ∀ rn ∈ numbers, ∃ d, (rn, d) ∈ peer.got) := by
  by_cases hrecord : ∃ memory rn msg, ev = .recordRecvd memory rn msg
  · obtain ⟨memory, rn, msg, rfl⟩ := hrecord
    rcases recordRecvd_cases memory rn msg s with htakes | htakes
    · exact ⟨[], [], htakes, List.nil_subset _, by simp⟩
    · refine ⟨[(rn, msg)], [], htakes, ?_, by simp⟩
      exact List.cons_subset.mpr ⟨h, List.nil_subset _⟩
  by_cases hack : ∃ keys input, ev = .doDtls13Ack keys input
  · obtain ⟨keys, input, rfl⟩ := hack
    rcases doDtls13Ack_cases h.2 keys input with heq | ⟨numbers, length, hread, htakes⟩
    · refine ⟨[], [], ?_, List.nil_subset _, by simp⟩
      rw [step, heq]
      exact (Keeps.refl s).toTakes
    · exact ⟨[], numbers, htakes, List.nil_subset _, fun hown =>
        hown.acks_got input h.1 numbers length hread⟩
  · have hkeeps := keeps_step hc h (fun memory rn msg heq => hrecord ⟨memory, rn, msg, heq⟩)
      (fun keys input heq => hack ⟨keys, input, heq⟩)
    exact ⟨[], [], hkeeps.toTakes, List.nil_subset _, by simp⟩

/-- Only an ACK says what an ACK says. -/
theorem says_step (hc : c.Refuses) {ev : SessionEvent κ} (h : s.Allowed peer ev) :
    Says s (s.step c ev) := by
  by_cases hrecord : ∃ memory rn msg, ev = .recordRecvd memory rn msg
  · obtain ⟨memory, rn, msg, rfl⟩ := hrecord
    rw [step, recordRecvd]
    dsimp only
    split_ifs <;> exact ⟨.inl, .inl⟩
  by_cases hack : ∃ keys input, ev = .doDtls13Ack keys input
  · obtain ⟨keys, input, rfl⟩ := hack
    exact says_doDtls13Ack keys input s
  · have hkeeps := keeps_step hc h (fun memory rn msg heq => hrecord ⟨memory, rn, msg, heq⟩)
      (fun keys input heq => hack ⟨keys, input, heq⟩)
    exact ⟨fun hacked => .inl (hkeeps.acked ▸ hacked), fun hwait => .inl (hkeeps.waits hwait)⟩

end Dtls13Session

/-! ## Two sessions -/

/-- The client (`false`) and the server (`true`). -/
abbrev Link (κ : Type) := Bool → Dtls13Session κ

namespace Link

def step (c : RecordCipher κ) (l : Link κ) (ev : Bool × SessionEvent κ) : Link κ :=
  Function.update l ev.1 ((l ev.1).step c ev.2)

def Allowed (l : Link κ) (ev : Bool × SessionEvent κ) : Prop := (l ev.1).Allowed (l !ev.1) ev.2

instance (l : Link κ) (ev : Bool × SessionEvent κ) : Decidable (l.Allowed ev) :=
  inferInstanceAs (Decidable (Dtls13Session.Allowed ..))

/-- Neither side makes up what the other has sent. -/
structure Right (l : Link κ) : Prop where
  own : ∀ side, (l side).attempts < Dtls13Session.maxAttempts → (l side).Own
  got_built : ∀ side, (l side).got ⊆ (l !side).built
  heard_got : ∀ side, (l !side).attempts < Dtls13Session.maxAttempts →
    ∀ rn ∈ (l side).heard, ∃ d, (rn, d) ∈ (l !side).got

variable {l : Link κ}

theorem right_init : Right (Dtls13Session.init : Link κ) where
  own side _ := Dtls13Session.own_init side
  got_built _ := List.nil_subset _
  heard_got _ _ _ h := absurd h List.not_mem_nil

theorem Right.step (h : l.Right) (hc : c.Refuses) {ev : Bool × SessionEvent κ}
    (hallowed : l.Allowed ev) : (l.step c ev).Right := by
  obtain ⟨side, ev⟩ := ev
  obtain ⟨records, numbers, htakes, hrecords, hnumbers⟩ := Dtls13Session.takes_step hc hallowed
  have hself : l.step c (side, ev) side = (l side).step c ev := Function.update_self ..
  have hother : l.step c (side, ev) (!side) = l !side :=
    Function.update_of_ne (Bool.not_ne_self side) ..
  have hsides (other : Bool) : other = side ∨ other = !side := by
    cases other <;> cases side <;> simp
  constructor
  · intro other hlt
    rcases hsides other with rfl | rfl
    · rw [hself] at hlt ⊢
      exact htakes.own hlt (h.own other (Nat.lt_of_le_of_lt htakes.attempts hlt))
    · rw [hother] at hlt ⊢
      exact h.own _ hlt
  · intro other
    rcases hsides other with rfl | rfl
    · rw [hself, hother, htakes.got]
      exact List.append_subset.mpr ⟨hrecords, h.got_built other⟩
    · rw [hother, Bool.not_not, hself]
      have := h.got_built !side
      rw [Bool.not_not] at this
      exact fun x hx => htakes.built (this hx)
  · intro other hlt rn hrn
    rcases hsides other with rfl | rfl
    · rw [hother] at hlt ⊢
      rw [hself, htakes.heard] at hrn
      rcases List.mem_append.mp hrn with hrn | hrn
      · exact hnumbers (h.own _ hlt) rn hrn
      · exact h.heard_got other hlt rn hrn
    · rw [Bool.not_not, hself] at hlt ⊢
      rw [hother] at hrn
      have := h.heard_got !side
      rw [Bool.not_not] at this
      obtain ⟨d, hd⟩ := this (Nat.lt_of_le_of_lt htakes.attempts hlt) rn hrn
      exact ⟨d, htakes.got ▸ List.mem_append_right _ hd⟩

/-- The peer has noted a record with this content, under a number of its epoch. -/
def Has (peer : Dtls13Session κ) (q : RtxRecord) : Prop :=
  ∃ rn, rn.epoch = q.epoch ∧ (rn, q.data) ∈ peer.got

/-- What is named in an ACK was received, with the one content that has the number. -/
theorem Right.accounted (h : l.Right)
    (hattempts : ∀ side, (l side).attempts < Dtls13Session.maxAttempts) {side : Bool}
    {q : RtxRecord} (hq : q ∈ (l side).queued) :
    (l side).Waits q ∨ q ∈ (l side).released ∨ Has (l !side) q := by
  have hown := h.own side (hattempts side)
  refine (hown.accounted q hq).imp_right (.imp_right fun ⟨rn, hrn, hepoch, hbuilt⟩ => ?_)
  obtain ⟨d, hd⟩ := h.heard_got side (hattempts _) rn hrn
  have hbuilt' := h.got_built (!side) hd
  rw [Bool.not_not] at hbuilt'
  exact ⟨rn, hepoch, hown.one_message hbuilt hbuilt' ▸ hd⟩

theorem says_step (hc : c.Refuses) {ev : Bool × SessionEvent κ} (hallowed : l.Allowed ev)
    (side : Bool) : (l side).Says (l.step c ev side) := by
  by_cases hside : side = ev.1
  · subst hside
    rw [step, Function.update_self]
    exact Dtls13Session.says_step hc hallowed
  · rw [step, Function.update_of_ne hside]
    exact ⟨.inl, .inl⟩

/-- The link after these events, from the start. -/
def after (c : RecordCipher κ) (evs : List (Bool × SessionEvent κ)) : Link κ :=
  run (Link.step c) Dtls13Session.init evs

theorem right_after (hc : c.Refuses) {evs : List (Bool × SessionEvent κ)}
    (h : Meets (Link.step c) Allowed Dtls13Session.init evs) : (after c evs).Right :=
  Meets.invariant (fun _ _ hl hallowed => hl.step hc hallowed) h right_init

/-- No side comes near to the end of its numbers. -/
def InRange (l : Link κ) : Prop := ∀ side, (l side).attempts < Dtls13Session.maxAttempts

instance (l : Link κ) : Decidable l.InRange :=
  decidable_of_iff ((l false).attempts < Dtls13Session.maxAttempts ∧
      (l true).attempts < Dtls13Session.maxAttempts)
    ⟨fun h => Bool.forall_bool.mpr h, fun h => ⟨h false, h true⟩⟩

/-- No record is forgotten: it waits for its ACK, it has left the list without one, or the peer
has noted it. -/
theorem accounted_run (hc : c.Refuses) {evs : List (Bool × SessionEvent κ)}
    (h : Meets (Link.step c) Allowed Dtls13Session.init evs) (hrange : (after c evs).InRange)
    {side : Bool} {q : RtxRecord} (hq : q ∈ (after c evs side).queued) :
    (after c evs side).Waits q ∨ q ∈ (after c evs side).released ∨
      Has (after c evs !side) q :=
  (right_after hc h).accounted hrange hq

def sampleTrip : Trip := ⟨true, 0, by decide, 0, true, 0⟩

def sampleMessage (type : UInt8) : List UInt8 := [type, 0, 0, 1, 0, 0, 0, 0, 0, 0, 0, 1, 7]

/-- The client sends a message, which comes to the server and is acknowledged. -/
def sampleEvents (type : UInt8) : List (Bool × SessionEvent UInt8) :=
  [(false, .setOptions false false false true),
    (false, .handshakeSend (fun _ => sampleTrip) true type 200 (sampleMessage type) false),
    (true, .recordRecvd true ⟨0, 0⟩ (sampleMessage type)), (true, .sendDtls13Ack sampleTrip)]

/-- The ACK comes to the client. -/
def sampleAck : Bool × SessionEvent UInt8 :=
  (false, .doDtls13Ack (.ok ⟨3, 4⟩) (ackMessage [⟨0, 0⟩]))

/-- The links after these events, and the record of the message. -/
def sampleLink (type : UInt8) : Link UInt8 := after RecordLayer.sampleCipher (sampleEvents type)

def ackedLink (type : UInt8) : Link UInt8 :=
  after RecordLayer.sampleCipher (sampleEvents type ++ [sampleAck])

def sampleRecord (type : UInt8) : RtxRecord := ⟨type, 0, sampleMessage type⟩

theorem accounted_run_sample :
    (sampleLink finished false).Waits (sampleRecord finished) ∨
      sampleRecord finished ∈ (sampleLink finished false).released ∨
      Has (sampleLink finished true) (sampleRecord finished) :=
  accounted_run RecordLayer.refuses_sampleCipher (by decide) (by decide) (by decide)

/-- What a side acknowledges, or is going to acknowledge, the peer has sealed and it has noted. The
numbers that wait for an ACK are in order and without duplicates. -/
theorem acknowledged_run (hc : c.Refuses) {evs : List (Bool × SessionEvent κ)}
    (h : Meets (Link.step c) Allowed Dtls13Session.init evs) (hrange : (after c evs).InRange)
    (side : Bool) :
    (after c evs side).seenRecords.Pairwise RecordNumber.Before ∧
      (∀ rn ∈ (after c evs side).seenRecords, ∃ d, (rn, d) ∈ (after c evs side).got ∧
        (rn, d) ∈ (after c evs !side).built) ∧
      ∀ ack ∈ (after c evs side).acks, ∀ numbers length,
        readAckMessage ack = .ok (numbers, length) →
          ∀ rn ∈ numbers, ∃ d, (rn, d) ∈ (after c evs side).got ∧
            (rn, d) ∈ (after c evs !side).built := by
  have hright := right_after hc h
  have hown := hright.own side (hrange side)
  have hbuilt {rn : RecordNumber} : (∃ d, (rn, d) ∈ (after c evs side).got) →
      ∃ d, (rn, d) ∈ (after c evs side).got ∧ (rn, d) ∈ (after c evs !side).built :=
    .imp fun _ hgot => ⟨hgot, hright.got_built side hgot⟩
  refine ⟨hown.seen_sorted, fun rn hrn => hbuilt (hown.seen_got rn hrn), ?_⟩
  intro ack hack numbers length hread rn hrn
  exact hbuilt (hown.acks_got ack hack numbers length hread rn hrn)

/-- The server has acknowledged the message of the client. -/
theorem acknowledged_run_sample :
    (sampleLink finished true).acks = [ackMessage [⟨0, 0⟩]] ∧
      ∀ rn ∈ [RecordNumber.mk 0 0], ∃ d, (rn, d) ∈ (sampleLink finished true).got ∧
        (rn, d) ∈ (sampleLink finished false).built :=
  ⟨by decide, (acknowledged_run RecordLayer.refuses_sampleCipher (by decide) (by decide) true).2.2
    (ackMessage [⟨0, 0⟩]) (by decide) _ 18 (by rfl)⟩

/-- The next ACK takes out exactly the records that it names one of the numbers of. These are the
numbers in the ring of the record, of three places, which starts over when it is full: after it
was sent four times, a record has only its last number left. From 4096 records on the ACK does
not name all that it is for. -/
theorem acked_run (hc : c.Refuses) {evs : List (Bool × SessionEvent κ)}
    (h : Meets (Link.step c) Allowed Dtls13Session.init evs) (hrange : (after c evs).InRange)
    (side : Bool) (keys : Except Int32 (DerivedKeys κ)) (seen : List RecordNumber)
    (r : Dtls13RtxRecord) :
    r ∈ ((after c evs side).doDtls13Ack keys (ackMessage seen)).2.rtxRecords ↔
      r ∈ (after c evs side).rtxRecords ∧ ∀ rn ∈ seen.take (seen.length % 4096), rn ∉ r.numbers :=
  Dtls13Session.mem_rtxRecords_doDtls13Ack ((right_after hc h).own side (hrange side)).distinct
    keys seen

theorem acked_run_sample :
    .new finished 0 (sampleMessage finished) 0 ∈ ((sampleLink finished false).doDtls13Ack
        (.ok ⟨3, 4⟩) (ackMessage [⟨0, 0⟩])).2.rtxRecords ↔
      .new finished 0 (sampleMessage finished) 0 ∈ (sampleLink finished false).rtxRecords ∧
        ∀ rn ∈ [RecordNumber.mk 0 0].take (1 % 4096),
          rn ∉ (Dtls13RtxRecord.new finished 0 (sampleMessage finished) 0).numbers :=
  acked_run RecordLayer.refuses_sampleCipher (by decide) (by decide) false _ _ _

/-- The end of the last event of a run. -/
theorem last_step (hc : c.Refuses) {evs : List (Bool × SessionEvent κ)}
    {ev : Bool × SessionEvent κ}
    (h : Meets (Link.step c) Allowed Dtls13Session.init (evs ++ [ev])) (side : Bool) :
    (after c evs side).Says (after c (evs ++ [ev]) side) := by
  have hlast : after c (evs ++ [ev]) = (after c evs).step c ev := run_append _ _ _ _
  rw [hlast]
  exact says_step hc (Meets.append.mp h).2.1 side

/-- The flag that ends the handshake of the client is set when the peer has noted all that was
sent and has not left the list otherwise. -/
theorem serverFinishedAcked_run (hc : c.Refuses) {evs : List (Bool × SessionEvent κ)}
    {ev : Bool × SessionEvent κ}
    (h : Meets (Link.step c) Allowed Dtls13Session.init (evs ++ [ev]))
    (hrange : (after c (evs ++ [ev])).InRange) {side : Bool}
    (hbefore : (after c evs side).serverFinishedAcked = false)
    (hafter : (after c (evs ++ [ev]) side).serverFinishedAcked = true) {q : RtxRecord}
    (hq : q ∈ (after c (evs ++ [ev]) side).queued) :
    q ∈ (after c (evs ++ [ev]) side).released ∨ Has (after c (evs ++ [ev]) !side) q := by
  have hempty := ((last_step hc h side).acked hafter).resolve_left (Bool.eq_false_iff.mp hbefore)
  refine ((right_after hc h).accounted hrange hq).resolve_left fun ⟨r, hr, _⟩ => ?_
  rw [hempty] at hr
  cases hr

theorem serverFinishedAcked_run_sample :
    sampleRecord finished ∈ (ackedLink finished false).released ∨
      Has (ackedLink finished true) (sampleRecord finished) :=
  serverFinishedAcked_run RecordLayer.refuses_sampleCipher (by decide) (by decide) (by decide)
    (by decide) (by decide)

/-- The new keys for sending are taken when the peer has noted the key updates that have not left
the list otherwise. -/
theorem waitKeyUpdateAck_run (hc : c.Refuses) {evs : List (Bool × SessionEvent κ)}
    {ev : Bool × SessionEvent κ}
    (h : Meets (Link.step c) Allowed Dtls13Session.init (evs ++ [ev]))
    (hrange : (after c (evs ++ [ev])).InRange) {side : Bool}
    (hbefore : (after c evs side).waitKeyUpdateAck = true)
    (hafter : (after c (evs ++ [ev]) side).waitKeyUpdateAck = false) {q : RtxRecord}
    (hq : q ∈ (after c (evs ++ [ev]) side).queued) (htype : q.handshakeType = keyUpdate) :
    q ∈ (after c (evs ++ [ev]) side).released ∨ Has (after c (evs ++ [ev]) !side) q := by
  have hnone := ((last_step hc h side).waits hbefore).resolve_left (Bool.eq_false_iff.mp hafter)
  refine ((right_after hc h).accounted hrange hq).resolve_left fun ⟨r, hr, heq⟩ => ?_
  subst heq
  exact hnone r hr htype

theorem waitKeyUpdateAck_run_sample :
    sampleRecord keyUpdate ∈ (ackedLink keyUpdate false).released ∨
      Has (ackedLink keyUpdate true) (sampleRecord keyUpdate) :=
  waitKeyUpdateAck_run RecordLayer.refuses_sampleCipher (by decide) (by decide) (by decide)
    (by decide) (by decide) rfl

end Link
end LitexDtls.WolfSsl
