import LitexDtls.WolfSsl.Numbers

/-!
# The bookkeeping of sent records

What a session knows about the handshake records that it has sent: each number belongs to one of
them, the records in the list are tracked under numbers of their own, and a record that has left
the list was named by an ACK, or released (`Own`). Every function that sends, sends again or
reads ACKs keeps this (`Keeps`), whatever the network and the allocator say, as long as there are
less than 2^64 records.
-/
namespace LitexDtls.WolfSsl
open Library HandShakeType

/-! ## Tracking -/

namespace Dtls13RtxRecord
variable {r : Dtls13RtxRecord} {rn : RecordNumber}

theorem isTrackedByRn_iff : r.isTrackedByRn rn = true ↔ rn ∈ r.numbers := by
  obtain ⟨epoch, seq⟩ := rn
  simp only [isTrackedByRn, numbers, Bool.and_eq_true, decide_eq_true_eq, List.contains_iff_mem,
    List.mem_map, RecordNumber.mk.injEq]
  constructor
  · exact fun ⟨hepoch, hseq⟩ => ⟨seq, hseq, hepoch, rfl⟩
  · rintro ⟨_, hseq, hepoch, rfl⟩
    exact ⟨hepoch, hseq⟩

@[simp] theorem numbers_new (type : UInt8) (epoch : UInt64) (data : List UInt8) (seq : UInt64) :
    (new type epoch data seq).numbers = [⟨epoch, seq⟩] := rfl

/-- With the array full, all earlier numbers are forgotten. -/
theorem numbers_track (r : Dtls13RtxRecord) (seq : UInt64) : (r.track seq).numbers =
    (if dtls13RetransRnSize ≤ r.rnIdx then [] else r.numbers) ++ [⟨r.epoch, seq⟩] := by
  have hlength := r.length_seq
  unfold numbers track
  dsimp only
  split_ifs with hfull
  · rw [Nat.zero_add, List.take_set, List.take_add_one]
    cases hseq : r.seq with
    | nil => simp [hseq, dtls13RetransRnSize] at hlength
    | cons => simp
  · have hlt : r.rnIdx < (r.seq.set r.rnIdx seq).length := by
      rw [List.length_set, hlength]
      omega
    rw [List.take_succ_eq_append_getElem hlt, List.getElem_set_self,
      List.take_set_of_le (Nat.le_refl _)]
    simp

theorem epoch_of_mem_numbers (h : rn ∈ r.numbers) : rn.epoch = r.epoch := by
  obtain ⟨_, -, rfl⟩ := List.mem_map.mp h
  rfl

@[simp] theorem toRtxRecord_track (seq : UInt64) : (r.track seq).toRtxRecord = r.toRtxRecord := rfl

end Dtls13RtxRecord

/-! ## The invariant -/

/-- A result after which a record is not kept. -/
def Refused (ret : Int32) : Prop := ret ≠ 0 ∧ ret ≠ wantWriteE

instance (ret : Int32) : Decidable (Refused ret) := inferInstanceAs (Decidable (_ ∧ _))

variable {κ : Type} {c : RecordCipher κ}

/-- The errors of the cipher for record numbers are not taken for a success. -/
def RecordCipher.Refuses (c : RecordCipher κ) : Prop :=
  ∀ k bytes ret, c.rnMask k bytes = .error ret → Refused ret

theorem RecordLayer.refuses_sampleCipher : sampleCipher.Refuses := fun _ _ _ h => nomatch h

theorem refused_encryptRecordNumber (hc : c.Refuses) {k : Option κ} {record : List UInt8}
    {ret : Int32} (h : encryptRecordNumber (c.rnMask k) record = .error ret) : Refused ret := by
  unfold encryptRecordNumber encryptDecryptRecordNumber at h
  split_ifs at h
  · obtain rfl := Except.error.inj h
    decide
  all_goals
    dsimp only at h
    split at h
    · rename_i hmask
      split at hmask
      · rename_i hret
        obtain rfl := Except.error.inj hmask
        obtain rfl := Except.error.inj h
        exact hc _ _ _ hret
      · cases hmask
    · cases h

namespace Dtls13Session
variable {s : Dtls13Session κ}

/-- The numbers under which the list tracks its records. -/
def trackedNumbers (s : Dtls13Session κ) : List RecordNumber :=
  s.rtxRecords.flatMap Dtls13RtxRecord.numbers

/-- An ACK has named a number under which the record was sent. -/
def Named (s : Dtls13Session κ) (q : RtxRecord) : Prop :=
  ∃ rn ∈ s.heard, rn.epoch = q.epoch ∧ (rn, q.data) ∈ s.built

/-- The record is in the list. -/
def Waits (s : Dtls13Session κ) (q : RtxRecord) : Prop :=
  ∃ r ∈ s.rtxRecords, r.toRtxRecord = q

structure Own (s : Dtls13Session κ) : Prop where
  numbered : s.layer.Numbered (s.built.map (·.1.use)) s.attempts
  one_message : ∀ {rn d d'}, (rn, d) ∈ s.built → (rn, d') ∈ s.built → d = d'
  tracked : ∀ r ∈ s.rtxRecords, ∀ rn ∈ r.numbers, (rn, r.data) ∈ s.built
  distinct : s.trackedNumbers.Nodup
  accounted : ∀ q ∈ s.queued, s.Waits q ∨ q ∈ s.released ∨ s.Named q
  seen_sorted : s.seenRecords.Pairwise RecordNumber.Before
  seen_got : ∀ rn ∈ s.seenRecords, ∃ d, (rn, d) ∈ s.got
  acks_got : ∀ bytes ∈ s.acks, ∀ numbers length, readAckMessage bytes = .ok (numbers, length) →
    ∀ rn ∈ numbers, ∃ d, (rn, d) ∈ s.got

def maxAttempts : Nat := 18446744073709551616

/-- The bookkeeping is kept as long as there are numbers, and these records and the numbers of
these ACKs are taken from the network. -/
structure Takes (records : List (RecordNumber × List UInt8)) (numbers : List RecordNumber)
    (s s' : Dtls13Session κ) : Prop where
  own : s'.attempts < maxAttempts → s.Own → s'.Own
  attempts : s.attempts ≤ s'.attempts
  built : s.built ⊆ s'.built
  got : s'.got = records ++ s.got
  heard : s'.heard = numbers ++ s.heard

/-- Nothing is taken from the network, and what an ACK would say is not said. -/
structure Keeps (s s' : Dtls13Session κ) : Prop extends Takes [] [] s s' where
  acked : s'.serverFinishedAcked = s.serverFinishedAcked
  waits : s.waitKeyUpdateAck = true → s'.waitKeyUpdateAck = true

section
variable {s₁ s₂ s₃ : Dtls13Session κ} {records : List (RecordNumber × List UInt8)}
  {numbers : List RecordNumber}

theorem Takes.trans (h : Takes records numbers s₁ s₂) (h' : Takes [] [] s₂ s₃) :
    Takes records numbers s₁ s₃ where
  own hlt hown := h'.own hlt (h.own (Nat.lt_of_le_of_lt h'.attempts hlt) hown)
  attempts := Nat.le_trans h.attempts h'.attempts
  built _ hx := h'.built (h.built hx)
  got := h'.got.trans h.got
  heard := h'.heard.trans h.heard

theorem Keeps.refl (s : Dtls13Session κ) : Keeps s s :=
  ⟨⟨fun _ h => h, Nat.le_refl _, List.Subset.refl _, rfl, rfl⟩, rfl, id⟩

theorem Keeps.trans (h : Keeps s₁ s₂) (h' : Keeps s₂ s₃) : Keeps s₁ s₃ where
  toTakes := h.toTakes.trans h'.toTakes
  acked := h'.acked.trans h.acked
  waits hwait := h'.waits (h.waits hwait)

end

/-! ## Sealing -/

/-- A number of the epoch that encrypts has been taken. -/
def Advanced (l l' : RecordLayer κ) : Prop :=
  l'.dtls13EncryptEpoch = l.dtls13EncryptEpoch ∧
    l'.dtls13Epochs = (l.modifySlot l.dtls13EncryptEpoch fun e =>
      { e with nextSeqNumber := e.nextSeqNumber + 1 }).dtls13Epochs

theorem sealRecord_cases (hc : c.Refuses) (outputSize : Nat) (isProtected : Bool) (type : UInt8)
    (msg : List UInt8) (s : Dtls13Session κ) :
    ∃ layer, (s.sealRecord c outputSize isProtected type msg).2 =
        { s with layer := layer, attempts := s.attempts + 1 } ∧
      ((∃ ret, (s.sealRecord c outputSize isProtected type msg).1 = .error ret ∧ Refused ret) ∧
          (layer = s.layer ∨ Advanced s.layer layer) ∨
        (∃ record, (s.sealRecord c outputSize isProtected type msg).1 = .ok record) ∧
          Advanced s.layer layer) := by
  refine ⟨_, rfl, ?_⟩
  cases isProtected with
  | true =>
    by_cases hroom : outputSize < dtls13UnifiedHeaderSize + RecordLayer.messageSize c type msg
    · have hbuild : s.layer.buildTls13Message c outputSize type msg = (.error bufferE, s.layer) :=
        if_pos hroom
      rw [sealRecord]
      simp only [if_true, hbuild]
      exact .inl ⟨⟨_, rfl, by decide⟩, .inl rfl⟩
    · have hadvanced : Advanced s.layer (s.layer.buildTls13Message c outputSize type msg).2 := by
        rw [RecordLayer.buildTls13Message, if_neg hroom]
        exact ⟨rfl, rfl⟩
      rw [sealRecord]
      simp only [if_true]
      cases hrecord : (s.layer.buildTls13Message c outputSize type msg).1 with
      | ok record => exact .inr ⟨⟨record, rfl⟩, hadvanced⟩
      | error ret =>
        refine .inl ⟨⟨ret, rfl, ?_⟩, .inr hadvanced⟩
        rw [RecordLayer.buildTls13Message, if_neg hroom] at hrecord
        exact refused_encryptRecordNumber hc hrecord
  | false =>
    rw [sealRecord]
    simp only [RecordLayer.rlAddPlaintextHeader]
    by_cases hwrap : (s.layer.slot s.layer.dtls13EncryptEpoch).nextSeqNumber + 1 = 0
    · simp only [if_pos hwrap]
      exact .inl ⟨⟨_, rfl, by decide⟩, .inr ⟨rfl, rfl⟩⟩
    · simp only [if_neg hwrap]
      exact .inr ⟨⟨_, rfl⟩, rfl, rfl⟩

/-- Nothing but the layer, the output buffer and `attempts` has changed. -/
structure Unsent (s s' : Dtls13Session κ) : Prop where
  eq : s' = { s with layer := s'.layer, outputBuffer := s'.outputBuffer, attempts := s'.attempts }
  layer : s'.layer = s.layer ∧ s.attempts ≤ s'.attempts ∨
    Advanced s.layer s'.layer ∧ s'.attempts = s.attempts + 1

/-- The message was sealed with the next number. -/
structure Sent (msg : List UInt8) (s s' : Dtls13Session κ) : Prop where
  eq : s' = { s with
    layer := s'.layer
    outputBuffer := s'.outputBuffer
    attempts := s.attempts + 1
    built := (s.layer.nextNumber, msg) :: s.built }
  layer : Advanced s.layer s'.layer

theorem sendBuffered_eq (ret : Int32) (s : Dtls13Session κ) :
    ∃ bytes, (s.sendBuffered ret).2 = { s with outputBuffer := bytes } := by
  unfold sendBuffered
  split_ifs <;> exact ⟨_, rfl⟩

theorem checkAvailableSize_eq (t : Trip) (size : Nat) (s : Dtls13Session κ) :
    ∃ bytes, (s.checkAvailableSize t size).2 = { s with outputBuffer := bytes } := by
  have hroom : ∃ bytes, (if maxMtu < size + s.outputBuffer.length then s.sendBuffered t.makeRoom
      else (0, s)).2 = { s with outputBuffer := bytes } := by
    split_ifs
    · exact sendBuffered_eq _ _
    · exact ⟨_, rfl⟩
  unfold checkAvailableSize
  generalize (if maxMtu < size + s.outputBuffer.length then s.sendBuffered t.makeRoom
    else (0, s)) = out at hroom ⊢
  dsimp only
  split_ifs <;> exact hroom

theorem sendFragFromBuffer_eq (t : Trip) (record : List UInt8) (s : Dtls13Session κ) :
    ∃ bytes, (s.sendFragFromBuffer t record).2 = { s with outputBuffer := bytes } := by
  obtain ⟨_, hroom⟩ := checkAvailableSize_eq t record.length s
  obtain ⟨_, hsend⟩ := sendBuffered_eq t.flush
    ((s.checkAvailableSize t record.length).2.buffer record)
  unfold sendFragFromBuffer
  dsimp only
  split_ifs
  · exact ⟨_, hroom⟩
  · rw [hsend, hroom]
    exact ⟨_, rfl⟩

/-- A message is sealed, or the call is refused. -/
theorem sendFragment_cases (hc : c.Refuses) (t : Trip) (inOutputBuffer : Bool)
    (outputSize : Nat) (type : UInt8) (msg : List UInt8) (hashOutput sendImmediately : Bool)
    (s : Dtls13Session κ) :
    let out := s.sendFragment c t inOutputBuffer outputSize type msg hashOutput sendImmediately
    Refused out.1 ∧ Unsent s out.2 ∨ Sent msg s out.2 := by
  intro out
  have hsame (ret : Int32) (hret : Refused ret) (hout : out = (ret, s)) :
      Refused out.1 ∧ Unsent s out.2 ∨ Sent msg s out.2 := by
    rw [hout]
    exact .inl ⟨hret, rfl, .inl ⟨rfl, Nat.le_refl _⟩⟩
  have hdef : out = s.sendFragment c t inOutputBuffer outputSize type msg hashOutput
      sendImmediately := rfl
  unfold sendFragment at hdef
  dsimp only at hdef
  by_cases hroom : outputSize < dtls13GetRlHeaderLength (dtls13TypeIsEncrypted type) + msg.length
  · rw [if_pos hroom] at hdef
    exact hsame _ (by decide) hdef
  rw [if_neg hroom] at hdef
  by_cases hempty : msg = []
  · rw [if_pos hempty] at hdef
    exact hsame _ (by decide) hdef
  rw [if_neg hempty] at hdef
  by_cases hhash : (dtls13TypeIsEncrypted type && hashOutput && decide (t.hash ≠ 0)) = true
  · rw [if_pos hhash] at hdef
    simp only [Bool.and_eq_true, decide_eq_true_eq] at hhash
    exact hsame _ ⟨hhash.2, t.hash_ne⟩ hdef
  rw [if_neg hhash] at hdef
  obtain ⟨layer, hseal, hcases⟩ := sealRecord_cases hc outputSize (dtls13TypeIsEncrypted type)
    handshakeType msg s
  rcases hcases with ⟨⟨ret, hret, hrefused⟩, hlayer⟩ | ⟨⟨record, hrecord⟩, hlayer⟩
  · rw [← Prod.mk.eta
        (p := s.sealRecord c outputSize (dtls13TypeIsEncrypted type) handshakeType msg),
      hret, hseal] at hdef
    rw [hdef]
    exact .inl ⟨hrefused, rfl, hlayer.imp (⟨·, Nat.le_succ _⟩) (⟨·, rfl⟩)⟩
  · rw [← Prod.mk.eta
        (p := s.sealRecord c outputSize (dtls13TypeIsEncrypted type) handshakeType msg),
      hrecord, hseal] at hdef
    dsimp only at hdef
    refine .inr ?_
    rw [hdef]
    split_ifs
    · obtain ⟨_, heq⟩ := sendFragFromBuffer_eq t record { s with
        layer := layer
        attempts := s.attempts + 1
        built := (s.layer.nextNumber, msg) :: s.built }
      rw [heq]
      exact ⟨rfl, hlayer⟩
    · obtain ⟨_, heq⟩ := sendBuffered_eq t.flush (buffer record { s with
        layer := layer
        attempts := s.attempts + 1
        built := (s.layer.nextNumber, msg) :: s.built })
      rw [heq]
      exact ⟨rfl, hlayer⟩
    · exact ⟨rfl, hlayer⟩

end Dtls13Session
end LitexDtls.WolfSsl
