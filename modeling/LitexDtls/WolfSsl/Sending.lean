import LitexDtls.WolfSsl.Acks
import LitexDtls.WolfSsl.Handshake
import LitexDtls.WolfSsl.Records

/-!
# Sending handshake messages

`Dtls13HandshakeSend` puts a message into one record, or cuts it into fragments when it is too
long for one, and `Dtls13FragmentsContinue` goes on with the fragments when the network was not
ready. Each of these records stays in a list until it is acknowledged, together with the last
numbers that it was sent under, and `Dtls13RtxSendBuffered` sends the list again.

What the rest of the library says to a record is a parameter of each call (`Trip`). There are
histories: `built` of the handshake records that were sealed, with their numbers, `queued` of
those that got into the list, `released` of those that left it without an ACK for them, `got` of
the records whose numbers `Dtls13RecordRecvd` has noted, which it does before the messages in
them are handled, `acks` of the ACKs that were written and `heard` of the numbers in those that
came; and `attempts` counts the records that were to be sealed.
-/
namespace LitexDtls.WolfSsl
open Library HandShakeType

def dtlsRecordHeaderSz : Nat := 13
def maxRecordSize : Nat := 16384
def maxMtu : Nat := 1400
def maxMsgExtra : Nat := 102
def dtls13RetransRnSize : Nat := 3

def messageHash : UInt8 := 254

/-- `Dtls13TypeIsEncrypted`. -/
def dtls13TypeIsEncrypted (type : UInt8) : Bool :=
  type ∈ [encryptedExtensions, sessionTicket, endOfEarlyData, certificate, serverKeyExchange,
    certificateRequest, serverHelloDone, certificateVerify, clientKeyExchange, finished,
    certificateStatus, keyUpdate, changeCipherHs, messageHash, noShake]

/-- `Dtls13GetRlHeaderLength`. -/
def dtls13GetRlHeaderLength (isEncrypted : Bool) : Nat :=
  if isEncrypted then dtls13UnifiedHeaderSize else dtlsRecordHeaderSz

/-- `wolfSSL_GetMaxFragSize` of the size `MAX_RECORD_SIZE`. -/
def getMaxFragSize {κ : Type} (c : RecordCipher κ) (encryptionOn : Bool) : Nat :=
  let outputSz :=
    if encryptionOn then
      dtls13UnifiedHeaderSize + (maxRecordSize + dtlsHandshakeHeaderSz) + 1 + c.aeadMacSize
    else maxRecordSize + dtlsRecordHeaderSz + dtlsHandshakeHeaderSz
  if maxMtu < outputSz then maxMtu - (outputSz - maxRecordSize) else maxRecordSize

/-- The room for a part of a message in a record of that size. -/
def fragSize {κ : Type} (c : RecordCipher κ) (encryptionOn : Bool) (type : UInt8) : Nat :=
  getMaxFragSize c encryptionOn - dtls13GetRlHeaderLength (dtls13TypeIsEncrypted type) -
    dtlsHandshakeHeaderSz

/-! ## Records that wait for an ACK -/

/-- `Dtls13RtxRecord`. -/
structure Dtls13RtxRecord extends RtxRecord where
  seq : List UInt64
  rnIdx : Nat
  length_seq : seq.length = dtls13RetransRnSize
  rnIdx_le : rnIdx ≤ dtls13RetransRnSize
  deriving DecidableEq, Repr

namespace Dtls13RtxRecord

/-- `Dtls13RtxNewRecord`. -/
def new (handshakeType : UInt8) (epoch : UInt64) (data : List UInt8) (seq : UInt64) :
    Dtls13RtxRecord :=
  ⟨⟨handshakeType, epoch, data⟩, [seq, 0, 0], 1, rfl, by decide⟩

/-- `Dtls13RtxSendBuffered` notes the number that the record was sent under. -/
def track (seq : UInt64) (r : Dtls13RtxRecord) : Dtls13RtxRecord :=
  let rnIdx := if dtls13RetransRnSize ≤ r.rnIdx then 0 else r.rnIdx
  { r with
    seq := r.seq.set rnIdx seq
    rnIdx := rnIdx + 1
    length_seq := by rw [List.length_set, r.length_seq]
    rnIdx_le := by
      dsimp only [rnIdx]
      split_ifs
      · decide
      · omega }

/-- The numbers that an ACK for the record may name. -/
def numbers (r : Dtls13RtxRecord) : List RecordNumber :=
  (r.seq.take r.rnIdx).map (⟨r.epoch, ·⟩)

/-- `Dtls13RtxIsTrackedByRn`. -/
def isTrackedByRn (rn : RecordNumber) (r : Dtls13RtxRecord) : Bool :=
  r.epoch = rn.epoch && (r.seq.take r.rnIdx).contains rn.seq

/-- `Dtls13RtxRecordMatchesReqCtx`. The data begins with the handshake header. -/
def matchesReqCtx (ctx : List UInt8) (r : Dtls13RtxRecord) : Bool :=
  r.handshakeType == certificateRequest && ctx.length + 1 < r.data.length &&
    (r.data.drop 1).take ctx.length == ctx

end Dtls13RtxRecord

/-! ## The session -/

/-- The fields of `WOLFSSL` that sending handshake messages and ACKs works with, and the
histories. -/
structure Dtls13Session (κ : Type) where
  layer : RecordLayer κ
  encryptionOn : Bool
  groupMessages : Bool
  handShakeStateDone : Bool
  waitFinishedAck : Bool
  serverFinishedAcked : Bool
  waitKeyUpdateAck : Bool
  retransmit : Bool
  handshakeNumber : UInt16
  fragmentsBuffer : List UInt8
  messageLength : Nat
  fragOffset : Nat
  fragHandshakeType : UInt8
  sendingFragments : Bool
  rtxRecords : List Dtls13RtxRecord
  seenRecords : List RecordNumber
  outputBuffer : List UInt8
  built : List (RecordNumber × List UInt8)
  queued : List RtxRecord
  released : List RtxRecord
  got : List (RecordNumber × List UInt8)
  acks : List (List UInt8)
  heard : List RecordNumber
  attempts : Nat

/-- What becomes of a record: whether there is memory to keep it, what the hash of the transcript
gives, which has nothing to do with the network, what `SendBuffered` gives when there has to be
room for the record, whether the output buffer can grow, and what `SendBuffered` gives when the
record is to go out. -/
structure Trip where
  memory : Bool
  hash : Int32
  hash_ne : hash ≠ wantWriteE
  makeRoom : Int32
  grow : Bool
  flush : Int32
  deriving DecidableEq, Repr

namespace RecordLayer
variable {κ : Type}

/-- The number of the next record that is sent. -/
def nextNumber (s : RecordLayer κ) : RecordNumber :=
  ⟨(s.slot s.dtls13EncryptEpoch).epochNumber, (s.slot s.dtls13EncryptEpoch).nextSeqNumber⟩

/-- `Dtls13RlAddPlaintextHeader`, with `Dtls13GetSeq`. The field for the epoch has the highest
bits of the sequence number. -/
def rlAddPlaintextHeader (type : UInt8) (length : UInt16) (s : RecordLayer κ) :
    Except Int32 (List UInt8) × RecordLayer κ :=
  let seq := (s.slot s.dtls13EncryptEpoch).nextSeqNumber
  (if seq + 1 = 0 then .error badStateE else .ok ([type, 0xfe, 0xfd] ++ be64 seq ++ be16 length),
    s.modifySlot s.dtls13EncryptEpoch fun e => { e with nextSeqNumber := e.nextSeqNumber + 1 })

end RecordLayer

namespace Dtls13Session
variable {κ : Type} (c : RecordCipher κ)

/-- `Dtls13NewEpoch`. -/
def newEpoch (n : UInt64) (side : EncryptSide) (keys : DerivedKeys κ) (s : Dtls13Session κ) :
    Int32 × Dtls13Session κ :=
  let (ret, layer) := s.layer.newEpoch n side keys
  (ret, { s with layer := layer })

/-- `Dtls13SetEpochKeys`. -/
def setEpochKeys (n : UInt64) (side : EncryptSide) (s : Dtls13Session κ) :
    Int32 × Dtls13Session κ :=
  let (ret, layer) := s.layer.setEpochKeys n side
  (ret, { s with layer := layer })

/-- The epoch `n` becomes the one that encrypts, if it is not already. -/
def selectEncrypt (n : UInt64) (s : Dtls13Session κ) : Int32 × Dtls13Session κ :=
  if s.layer.nextNumber.epoch ≠ n then s.setEpochKeys n .encryptSideOnly else (0, s)

/-- The record with the content `msg`, plain or protected. -/
def sealRecord (outputSize : Nat) (isProtected : Bool) (type : UInt8) (msg : List UInt8)
    (s : Dtls13Session κ) : Except Int32 (List UInt8) × Dtls13Session κ :=
  let (record, layer) :=
    if isProtected then s.layer.buildTls13Message c outputSize type msg
    else
      let (header, layer) := s.layer.rlAddPlaintextHeader type (UInt16.ofNat msg.length)
      (header.map (· ++ msg), layer)
  (record, { s with layer := layer, attempts := s.attempts + 1 })

/-- A record goes to the end of the output buffer. -/
def buffer (record : List UInt8) (s : Dtls13Session κ) : Dtls13Session κ :=
  { s with outputBuffer := s.outputBuffer ++ record }

/-- `SendBuffered`, with the send callback giving `ret`. -/
def sendBuffered (ret : Int32) (s : Dtls13Session κ) : Int32 × Dtls13Session κ :=
  if s.outputBuffer = [] then (0, s)
  else (ret, if ret = 0 then { s with outputBuffer := [] } else s)

/-- `CheckAvailableSize`. -/
def checkAvailableSize (t : Trip) (size : Nat) (s : Dtls13Session κ) : Int32 × Dtls13Session κ :=
  let (ret, s) :=
    if maxMtu < size + s.outputBuffer.length then s.sendBuffered t.makeRoom else (0, s)
  if ret ≠ 0 then (ret, s) else if t.grow then (0, s) else (memoryError, s)

/-- `Dtls13SendNow`. -/
def sendNow (type : UInt8) (s : Dtls13Session κ) : Bool :=
  !s.groupMessages || s.sendingFragments ||
    type ∈ [clientHello, helloRetryRequest, finished, sessionTicket, keyUpdate] ||
    type = certificateRequest && s.handShakeStateDone

/-- `Dtls13SendFragFromBuffer`. -/
def sendFragFromBuffer (t : Trip) (record : List UInt8) (s : Dtls13Session κ) :
    Int32 × Dtls13Session κ :=
  let (ret, s) := s.checkAvailableSize t record.length
  if ret ≠ 0 then (ret, s) else (s.buffer record).sendBuffered t.flush

/-- `Dtls13SendFragment`; `inOutputBuffer` says where the record was written. -/
def sendFragment (t : Trip) (inOutputBuffer : Bool) (outputSize : Nat) (type : UInt8)
    (msg : List UInt8) (hashOutput sendImmediately : Bool) (s : Dtls13Session κ) :
    Int32 × Dtls13Session κ :=
  let isProtected := dtls13TypeIsEncrypted type
  if outputSize < dtls13GetRlHeaderLength isProtected + msg.length then (bufferError, s)
  else if msg = [] then (bufferError, s)
  else if isProtected && hashOutput && t.hash ≠ 0 then (t.hash, s)
  else
    let rn := s.layer.nextNumber
    match s.sealRecord c outputSize isProtected handshakeType msg with
    | (.error ret, s) => (ret, s)
    | (.ok record, s) =>
      let s := { s with built := (rn, msg) :: s.built }
      if inOutputBuffer = false then s.sendFragFromBuffer t record
      else if sendImmediately then (s.buffer record).sendBuffered t.flush
      else (0, s.buffer record)

/-- `Dtls13RtxAddRecord`. -/
def rtxAddRecord (r : Dtls13RtxRecord) (s : Dtls13Session κ) : Dtls13Session κ :=
  { s with rtxRecords := s.rtxRecords ++ [r], queued := s.queued ++ [r.toRtxRecord] }

/-- `Dtls13SendOneFragmentRtx`. A HelloRetryRequest is not kept. -/
def sendOneFragmentRtx (t : Trip) (inOutputBuffer : Bool) (type : UInt8) (outputSize : Nat)
    (msg : List UInt8) (hashOutput : Bool) (s : Dtls13Session κ) : Int32 × Dtls13Session κ :=
  if type ≠ helloRetryRequest ∧ t.memory = false then (memoryError, s)
  else
    let rn := s.layer.nextNumber
    let (ret, s) :=
      s.sendFragment c t inOutputBuffer outputSize type msg hashOutput (s.sendNow type)
    if type ≠ helloRetryRequest ∧ (ret = 0 ∨ ret = wantWriteE) then
      (ret, s.rtxAddRecord (.new type rn.epoch msg rn.seq))
    else (ret, s)

/-! ### Fragments -/

/-- `Dtls13FreeFragmentsBuffer`. -/
def freeFragmentsBuffer (s : Dtls13Session κ) : Dtls13Session κ :=
  { s with fragmentsBuffer := [], sendingFragments := false, messageLength := 0, fragOffset := 0 }

/-- The room for the message in a record of the largest size. -/
def maxFragLength (s : Dtls13Session κ) : Nat := fragSize c s.encryptionOn s.fragHandshakeType

/-- The length of the next fragment. -/
def fragLength (s : Dtls13Session κ) : Nat :=
  min (s.maxFragLength c) (s.messageLength - s.fragOffset)

/-- The length of its record, before it is protected. -/
def fragRecordLength (s : Dtls13Session κ) : Nat :=
  dtls13GetRlHeaderLength (dtls13TypeIsEncrypted s.fragHandshakeType) + dtlsHandshakeHeaderSz +
    s.fragLength c

/-- The header of the next fragment, as `Dtls13HandshakeAddHeaderFrag` writes it. -/
def fragHeader (s : Dtls13Session κ) : HandShakeHeader where
  type := s.fragHandshakeType
  length := s.messageLength
  messageSeq := s.handshakeNumber
  fragmentOffset := s.fragOffset
  fragmentLength := s.fragLength c

/-- The next fragment behind its header. -/
def nextFragment (s : Dtls13Session κ) : List UInt8 :=
  (s.fragHeader c).bytes ++ (s.fragmentsBuffer.drop s.fragOffset).take (s.fragLength c)

/-- The next fragment, once there is room for it. -/
def sendNextFragment (t : Trip) (s : Dtls13Session κ) : Int32 × Dtls13Session κ :=
  s.sendOneFragmentRtx c t true s.fragHandshakeType (s.fragRecordLength c + maxMsgExtra)
    (s.nextFragment c) false

/-- The next fragment is done with. -/
def skipFragment (s : Dtls13Session κ) : Dtls13Session κ :=
  { s with fragOffset := s.fragOffset + s.fragLength c }

/-- `Dtls13SendFragmentedInternal`. The first argument is larger than the number of turns. -/
def sendFragmentsLoop : Nat → (Nat → Trip) → Dtls13Session κ → Int32 × Dtls13Session κ
  | 0, _, s => (0, s.freeFragmentsBuffer)
  | fuel + 1, trips, s =>
    if s.messageLength ≤ s.fragOffset then (0, s.freeFragmentsBuffer)
    else
      let (ret, s) := s.checkAvailableSize (trips 0) (s.fragRecordLength c + maxMsgExtra)
      if ret ≠ 0 then (ret, s.freeFragmentsBuffer)
      else
        let (ret, s) := s.sendNextFragment c (trips 0)
        if ret = wantWriteE then (ret, s.skipFragment c)
        else if ret ≠ 0 then (ret, s.freeFragmentsBuffer)
        else sendFragmentsLoop fuel (fun i => trips (i + 1)) (s.skipFragment c)

def sendFragmentedInternal (trips : Nat → Trip) (s : Dtls13Session κ) :
    Int32 × Dtls13Session κ :=
  s.sendFragmentsLoop c (s.messageLength - s.fragOffset) trips

/-- `Dtls13SendFragmented`. The first trip is for the hash and the buffer. -/
def sendFragmented (trips : Nat → Trip) (type : UInt8) (msg : List UInt8) (hashOutput : Bool)
    (s : Dtls13Session κ) : Int32 × Dtls13Session κ :=
  if s.sendingFragments then (badStateE, s)
  else if hashOutput ∧ (trips 0).hash ≠ 0 then ((trips 0).hash, s)
  else if (trips 0).memory = false then (memoryError, s)
  else
    sendFragmentedInternal c (fun i => trips (i + 1)) { s with
      fragmentsBuffer := msg.drop dtlsHandshakeHeaderSz
      messageLength := msg.length - dtlsHandshakeHeaderSz
      fragHandshakeType := type
      sendingFragments := true }

/-- The next message gets the next number. -/
def countMessage (s : Dtls13Session κ) : Dtls13Session κ :=
  { s with handshakeNumber := s.handshakeNumber + 1 }

/-- `Dtls13FragmentsContinue`. -/
def fragmentsContinue (trips : Nat → Trip) (s : Dtls13Session κ) : Int32 × Dtls13Session κ :=
  let (ret, s) := s.sendFragmentedInternal c trips
  if ret = 0 then (ret, s.countMessage) else (ret, s)

/-- The last part of `Dtls13HandshakeSend`. -/
def sendMessage (trips : Nat → Trip) (inOutputBuffer : Bool) (type : UInt8) (outputSize : Nat)
    (msg : List UInt8) (hashOutput : Bool) (s : Dtls13Session κ) : Int32 × Dtls13Session κ :=
  let length := dtls13GetRlHeaderLength (dtls13TypeIsEncrypted type) + msg.length
  if length < getMaxFragSize c s.encryptionOn then
    let (ret, s) := s.sendOneFragmentRtx c (trips 0) inOutputBuffer type outputSize msg hashOutput
    if ret = 0 ∨ ret = wantWriteE then (ret, s.countMessage) else (ret, s)
  else
    let (ret, s) := s.sendFragmented c trips type msg hashOutput
    if ret = 0 then (ret, s.countMessage) else (ret, s)

/-- `Dtls13HandshakeSend`, of the message behind its handshake header. -/
def handshakeSend (trips : Nat → Trip) (inOutputBuffer : Bool) (type : UInt8) (outputSize : Nat)
    (msg : List UInt8) (hashOutput : Bool) (s : Dtls13Session κ) : Int32 × Dtls13Session κ :=
  let seenRecords :=
    if s.layer.handShakeDone = false ∧
        type ∈ [certificate, finished, serverHello, clientHello] then []
    else s.seenRecords
  -- a message is sent with the highest epoch
  let (ret, s) := { s with seenRecords := seenRecords }.selectEncrypt s.layer.dtls13Epoch
  if ret ≠ 0 then (ret, s)
  else
    sendMessage c trips inOutputBuffer type outputSize msg hashOutput
      { s with waitKeyUpdateAck := s.waitKeyUpdateAck || type == keyUpdate }

/-! ### Sending again -/

/-- `Dtls13RtxSendBuffered` makes ready for one record. -/
def rtxReady (t : Trip) (r : Dtls13RtxRecord) (s : Dtls13Session κ) : Int32 × Dtls13Session κ :=
  let headerLength := dtls13GetRlHeaderLength (r.epoch ≠ 0)
  let (ret, s) := s.checkAvailableSize t
    (r.data.length + headerLength + if r.epoch ≠ 0 then maxMsgExtra else 0)
  if ret ≠ 0 then (ret, s) else s.selectEncrypt r.epoch

/-- It sends the record. The header is counted by the epoch, where `sendFragment` counts it by the
type. -/
def rtxSendOne (t : Trip) (isLast : Bool) (r : Dtls13RtxRecord) (s : Dtls13Session κ) :
    Int32 × Dtls13Session κ :=
  let headerLength := dtls13GetRlHeaderLength (r.epoch ≠ 0)
  let sendSz := r.data.length + headerLength + if r.epoch ≠ 0 then maxMsgExtra else 0
  -- both are right for what the library sends: the hellos, the only messages without protection,
  -- are in epoch 0, and the others come after the keys of the handshake
  s.sendFragment c t true sendSz r.handshakeType r.data false (isLast || !s.groupMessages)

/-- The loop of `Dtls13RtxSendBuffered`, with the records in `before` already sent. -/
def rtxSendLoop : List Dtls13RtxRecord → List Dtls13RtxRecord → (Nat → Trip) →
    Dtls13Session κ → Int32 × Dtls13Session κ
  | _, [], _, s => (0, s)
  | before, r :: rs, trips, s =>
    let (ret, s) := s.rtxReady (trips 0) r
    if ret ≠ 0 then (ret, s)
    else
      let seq := s.layer.nextNumber.seq
      let (ret, s) := s.rtxSendOne c (trips 0) rs.isEmpty r
      if ret ≠ 0 ∧ ret ≠ wantWriteE then (ret, s)
      -- a record that has to wait moves to the end of the list
      else if ret = wantWriteE then (ret, { s with rtxRecords := before ++ rs ++ [r.track seq] })
      else
        rtxSendLoop (before ++ [r.track seq]) rs (fun i => trips (i + 1))
          { s with rtxRecords := before ++ r.track seq :: rs }

/-- `Dtls13RtxSendBuffered`. -/
def rtxSendBuffered (trips : Nat → Trip) (s : Dtls13Session κ) : Int32 × Dtls13Session κ :=
  s.rtxSendLoop c [] s.rtxRecords trips

/-! ### Records that leave the list -/

/-- `Dtls13RtxFlushBuffered`. -/
def rtxFlushBuffered (keepNewSessionTicket : Bool) (s : Dtls13Session κ) : Dtls13Session κ :=
  let keep (r : Dtls13RtxRecord) := keepNewSessionTicket && r.handshakeType == sessionTicket
  { s with
    rtxRecords := s.rtxRecords.filter keep
    released := s.released ++ (s.rtxRecords.filter (!keep ·)).map Dtls13RtxRecord.toRtxRecord }

/-- The first record for which `p` holds is unlinked, without an ACK for it. -/
def release (p : Dtls13RtxRecord → Bool) (s : Dtls13Session κ) : Dtls13Session κ :=
  { s with
    rtxRecords := s.rtxRecords.eraseP p
    released := s.released ++ (s.rtxRecords.find? p).toList.map Dtls13RtxRecord.toRtxRecord }

/-- `Dtls13MaybeSaveClientHello` of a client that may still downgrade. -/
def maybeSaveClientHello (s : Dtls13Session κ) : Dtls13Session κ :=
  s.release (·.handshakeType == clientHello)

/-- `Dtls13RtxProcessingCertificate`. -/
def rtxProcessingCertificate (input : List UInt8) (s : Dtls13Session κ) :
    Int32 × Dtls13Session κ :=
  if input.length ≤ 1 then (badFuncArg, s)
  else
    let ctxLength := (input.getD 0 0).toNat
    if input.length < ctxLength + 1 then (badFuncArg, s)
    else (0, s.release (·.matchesReqCtx ((input.drop 1).take ctxLength)))

/-- What `Dtls13RtxMsgRecvd` is told: the type of the message and its number, the number that is
expected, whether the client may still fall back to an older version, whether the version has
been negotiated, and the number of the record. -/
structure Recvd where
  handshakeType : UInt8
  number : UInt16
  expected : UInt16
  mayDowngrade : Bool
  negotiated : Bool
  rn : RecordNumber
  deriving DecidableEq, Repr

/-- `Dtls13RtxMsgRecvd`. -/
def rtxMsgRecvd (m : Recvd) (s : Dtls13Session κ) : Dtls13Session κ :=
  let s :=
    if s.layer.handShakeDone = false ∧ m.expected ≤ m.number then
      let s :=
        if m.handshakeType = serverHello ∧ s.layer.serverEnd = false ∧ m.mayDowngrade then
          s.maybeSaveClientHello
        else s
      -- a part of the next flight acknowledges the whole flight
      if m.negotiated then s.rtxFlushBuffered true else s
    else s
  let s := if m.number < m.expected then { s with retransmit := true } else s
  if m.number = m.expected ∧ s.layer.handShakeDone = true ∧
      m.handshakeType = certificateRequest then
    { s with seenRecords := rtxRemoveCurAck m.rn s.seenRecords }
  else s

/-- `Dtls13RtxRemoveRecord`. -/
def rtxRemoveRecord (s : Dtls13Session κ) (rn : RecordNumber) : Dtls13Session κ :=
  { s with rtxRecords := s.rtxRecords.eraseP (·.isTrackedByRn rn) }

/-- `Dtls13KeyUpdateAckReceived`; `keys` is what `DeriveTls13Keys` derives. -/
def keyUpdateAckReceived (keys : Except Int32 (DerivedKeys κ)) (s : Dtls13Session κ) :
    Int32 × Dtls13Session κ :=
  match keys with
  | .error ret => (ret, s)
  | .ok keys =>
    let epoch := s.layer.dtls13Epoch + 1
    let (ret, s) := s.newEpoch epoch .encryptSideOnly keys
    if ret ≠ 0 then (ret, s)
    else
      let s := { s with layer := { s.layer with dtls13Epoch := epoch } }
      if epoch = 0 then (badStateE, s) else s.setEpochKeys epoch .encryptSideOnly

/-- `DoDtls13KeyUpdateAck`. -/
def doDtls13KeyUpdateAck (keys : Except Int32 (DerivedKeys κ)) (s : Dtls13Session κ) :
    Int32 × Dtls13Session κ :=
  if s.rtxRecords.any (·.handshakeType == keyUpdate) then (0, s)
  else { s with waitKeyUpdateAck := false }.keyUpdateAckReceived keys

/-- The part of `DoDtls13Ack` behind the loop over the numbers. -/
def ackRead (keys : Except Int32 (DerivedKeys κ)) (s : Dtls13Session κ) :
    Int32 × Dtls13Session κ :=
  let s := { s with serverFinishedAcked := s.serverFinishedAcked ||
    !s.layer.serverEnd && s.waitFinishedAck && s.rtxRecords.isEmpty }
  let (ret, s) := if s.waitKeyUpdateAck then s.doDtls13KeyUpdateAck keys else (0, s)
  if ret ≠ 0 then (ret, s)
  else (0, { s with retransmit := s.retransmit || !s.rtxRecords.isEmpty })

/-- `DoDtls13Ack`. -/
def doDtls13Ack (keys : Except Int32 (DerivedKeys κ)) (input : List UInt8) (s : Dtls13Session κ) :
    Int32 × Dtls13Session κ :=
  match readAckMessage input with
  | .error ret => (ret, s)
  | .ok (numbers, _) =>
    (numbers.foldl rtxRemoveRecord { s with heard := numbers ++ s.heard }).ackRead keys

/-! ### ACKs for the peer -/

/-- `Dtls13RecordRecvd` for a handshake record, whose message is handled after it. When the number
cannot be kept, the message is not handled. -/
def recordRecvd (memory : Bool) (rn : RecordNumber) (msg : List UInt8) (s : Dtls13Session κ) :
    Int32 × Dtls13Session κ :=
  let (ret, seenRecords) := rtxAddAck memory rn s.seenRecords
  if ret ≠ 0 then (ret, { s with seenRecords := seenRecords })
  else (ret, { s with seenRecords := seenRecords, got := (rn, msg) :: s.got })

/-- `SendDtls13Ack`. -/
def sendDtls13Ack (t : Trip) (s : Dtls13Session κ) : Int32 × Dtls13Session κ :=
  let (ret, s) :=
    -- the client does not have the keys of the first epoch for data yet
    if s.layer.serverEnd && !s.layer.handShakeDone && 3 ≤ s.layer.dtls13Epoch then
      s.setEpochKeys 2 .encryptSideOnly
    else s.selectEncrypt s.layer.dtls13Epoch
  if ret ≠ 0 then (ret, s)
  else
    let isProtected := s.layer.nextNumber.epoch != 0
    let outputSize := dtls13GetRlHeaderLength isProtected + (ackMessage s.seenRecords).length +
      if isProtected then maxMsgExtra else 0
    let (ret, s) := s.checkAvailableSize t outputSize
    if ret ≠ 0 then (ret, s)
    else
      match s.sealRecord c outputSize isProtected ackType (ackMessage s.seenRecords) with
      | (.error ret, s) => (ret, s)
      | (.ok record, s) =>
        { s.buffer record with
          seenRecords := [], acks := ackMessage s.seenRecords :: s.acks }.sendBuffered t.flush

end Dtls13Session
end LitexDtls.WolfSsl
