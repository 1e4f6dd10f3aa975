import LitexDtls.WolfSsl.Epochs

/-!
# Sealing and opening records

The way of a record through `BuildTls13Message` of one side and `ProcessReply` of the other:
content type and padding, the AEAD, the unified header, and back, up to the replay window. The
AEAD and the cipher for record numbers are parameters; they take their keys from the cipher
context, which may never have been set up.

`recvProtected_sealed` is the way of a whole record: what comes out is what went in.
-/
namespace LitexDtls.WolfSsl
open Library

variable {κ : Type}

def maxTls13EncSz : Nat := 16384 + 256
def maxTls13PlainSz : Nat := 16384 + 1

def handshakeType : UInt8 := 22
def ackType : UInt8 := 26
def applicationDataType : UInt8 := 23

/-- The ciphers of a suite, each with the keys of its context. `SetCipherSpecs` sets no larger
size for the MAC. -/
structure RecordCipher (κ : Type) where
  aeadMacSize : Nat
  aeadMacSize_le : aeadMacSize ≤ 48
  encryptTls13 : Option κ → UInt64 → List UInt8 → List UInt8 → List UInt8
  decryptTls13 : Option κ → UInt64 → List UInt8 → List UInt8 → Option (List UInt8)
  rnMask : Option κ → RnMask

/-- What becomes of a record. -/
inductive Outcome where
  /-- It is dropped without an error. -/
  | dropped
  /-- The error is returned, or the record dropped for it. -/
  | failed (ret : Int32)
  | message (type : UInt8) (data : List UInt8)
  deriving DecidableEq, Repr

/-! ## Sealing -/

/-- The padding of `BuildTls13Message` up to the least length of a record. -/
def paddingSz (c : RecordCipher κ) (inSz : Nat) : Nat :=
  dtls13UnifiedHeaderSize + dtls13MinCiphertext -
    (dtls13UnifiedHeaderSize + inSz + 1 + c.aeadMacSize)

/-- The plaintext of a record: the data, the content type and the padding. -/
def innerPlaintext (c : RecordCipher κ) (type : UInt8) (input : List UInt8) : List UInt8 :=
  input ++ type :: List.replicate (paddingSz c input.length) 0

namespace RecordLayer

/-- The size of the body of a record in `BuildTls13Message`. -/
def messageSize (c : RecordCipher κ) (type : UInt8) (input : List UInt8) : Nat :=
  (innerPlaintext c type input).length + c.aeadMacSize

def messageHeader (c : RecordCipher κ) (type : UInt8) (input : List UInt8) (e : Dtls13Epoch κ) :
    List UInt8 :=
  rlAddCiphertextHeader e.epochNumber e.nextSeqNumber (UInt16.ofNat (messageSize c type input))

/-- The encrypted body. The sequence number is taken when the nonce is built. -/
def messageBody (c : RecordCipher κ) (type : UInt8) (input : List UInt8) (k : Option κ)
    (e : Dtls13Epoch κ) : List UInt8 :=
  c.encryptTls13 k e.nextSeqNumber (messageHeader c type input e) (innerPlaintext c type input)

/-- `BuildTls13Message`. -/
def buildTls13Message (c : RecordCipher κ) (outSz : Nat) (type : UInt8) (input : List UInt8)
    (s : RecordLayer κ) : Except Int32 (List UInt8) × RecordLayer κ :=
  if outSz < dtls13UnifiedHeaderSize + messageSize c type input then (.error bufferE, s)
  else
    let e := s.slot s.dtls13EncryptEpoch
    (encryptRecordNumber (c.rnMask s.encrypt)
        (messageHeader c type input e ++ messageBody c type input s.encrypt e),
      { s.modifySlot s.dtls13EncryptEpoch fun e =>
          { e with nextSeqNumber := e.nextSeqNumber + 1 } with
        used := s.encrypt.toList.map (·, e.nextSeqNumber) ++ s.used })

/-! ## Opening -/

/-- What `GetDtls13RecordHeader` leaves behind: `curEpoch64`, `curSeq`, `dtls13CurRL` and the
size of the record. -/
structure CurRecord where
  epoch : UInt64
  seq : UInt64
  header : List UInt8
  size : Nat
  deriving DecidableEq, Repr

/-- The epoch of the record becomes the one that decrypts. -/
def selectEpoch (epoch : UInt64) (s : RecordLayer κ) : Int32 × RecordLayer κ :=
  if (s.slot s.dtls13DecryptEpoch).epochNumber = epoch then (0, s)
  else s.setEpochKeys epoch .decryptSideOnly

/-- The last part of `GetDtls13RecordHeader`, with the epoch of the record selected. -/
def readRecordHeader (c : RecordCipher κ) (input : List UInt8) (epoch : UInt64)
    (s : RecordLayer κ) : Except Int32 CurRecord :=
  if input.length < getUnifiedHeaderSize (input.getD 0 0) + dtls13RnMaskSize then
    .error dtlsPartialRecordRead
  else
    match parseUnifiedRecordLayer (c.rnMask s.decrypt) input with
    | .error ret => .error ret
    | .ok (info, header) =>
      let next := (s.slot s.dtls13DecryptEpoch).peer.nextPeerSeqNumber
      .ok ⟨epoch, reconstructSeqNumber next info, header, info.recordLength.toNat⟩

/-- `GetDtls13RecordHeader`, of the bytes from the header on. -/
def getDtls13RecordHeader (c : RecordCipher κ) (input : List UInt8) (s : RecordLayer κ) :
    Except Int32 CurRecord × RecordLayer κ :=
  if input.length < 2 then (.error bufferError, s)
  else
    match s.reconstructEpochNumber (input.getD 0 0 &&& eeMask) with
    | .error ret => (.error ret, s)
    | .ok epoch =>
      if epoch = 0 then (.error sequenceError, s)
      else
        let (ret, s) := s.selectEpoch epoch
        if ret ≠ 0 then (.error sequenceError, s) else (s.readRecordHeader c input epoch, s)

/-- The loop of `removeMsgInnerPadding`, from byte `i` down. -/
def lastNonzero (plain : List UInt8) : Nat → Nat
  | 0 => 0
  | i + 1 => if plain.getD (i + 1) 0 ≠ 0 then i + 1 else lastNonzero plain i

/-- `removeMsgInnerPadding`. Without any plaintext the type is the byte in front of it. -/
def removeMsgInnerPadding (header plain : List UInt8) : UInt8 × List UInt8 :=
  if plain = [] then (header.getLastD 0, [])
  else
    let i := lastNonzero plain (plain.length - 1)
    (plain.getD i 0, plain.take i)

/-- `Dtls13UpdateWindow`. -/
def updateWindow (epoch seq : UInt64) (s : RecordLayer κ) : Int32 × RecordLayer κ :=
  let e := if (s.slot s.dtls13DecryptEpoch).epochNumber = epoch then some s.dtls13DecryptEpoch
    else s.getEpoch epoch
  match e with
  | none => (badStateE, s)
  | some i =>
    let (ret, peer) := (s.slot i).peer.updateWindow seq
    (ret, s.modifySlot i fun e => { e with peer := peer })

/-- The history of a record that goes on to be handled. Those of epoch 0 are under no key. -/
def accept (epoch seq : UInt64) (s : RecordLayer κ) : RecordLayer κ :=
  if epoch = 0 then s else { s with accepted := s.decrypt.toList.map (·, seq) ++ s.accepted }

/-- The step `runProcessingOneRecord` of `ProcessReply`: the window is checked, and updated
once the parsing is stateful. -/
def processOneRecord (epoch seq : UInt64) (type : UInt8) (data : List UInt8)
    (s : RecordLayer κ) : Outcome × RecordLayer κ :=
  if (s.slot s.dtls13DecryptEpoch).peer.checkWindow seq = false then (.dropped, s)
  else if s.dtlsStateful = false then (.message type data, s.accept epoch seq)
  else
    let (ret, s) := s.updateWindow epoch seq
    if ret ≠ 0 then (.failed ret, s) else (.message type data, s.accept epoch seq)

/-- `DtlsShouldDrop` for a record whose header is right. -/
def dtlsShouldDrop (encryptionOn : Bool) (epoch : UInt64) (type : UInt8) (s : RecordLayer κ) :
    Bool :=
  s.handShakeDone && !encryptionOn && !s.dtlsHsRetain ||
  s.dtls13Epoch ≠ 0 && epoch = 0 && type ≠ ackType ||
  s.serverEnd && type ≠ handshakeType && !s.dtlsStateful

/-- The steps `getData` to `verifyMessage` of `ProcessReply` for a protected record: its type and
its data, or what becomes of it instead. -/
def deprotect (c : RecordCipher κ) (cur : CurRecord) (body : List UInt8) (s : RecordLayer κ) :
    Except Outcome (UInt8 × List UInt8) :=
  if body.length < cur.size then .error .dropped
  else if maxTls13EncSz < cur.size ∨ maxTls13PlainSz + c.aeadMacSize < cur.size then
    .error (.failed bufferError)
  else if cur.size < c.aeadMacSize then .error .dropped
  else
    match c.decryptTls13 s.decrypt cur.seq cur.header (body.take cur.size) with
    | none => .error .dropped
    | some plain => .ok (removeMsgInnerPadding cur.header plain)

/-- A protected record, from its header on; the bytes behind it are left. -/
def recvProtected (c : RecordCipher κ) (input : List UInt8) (s : RecordLayer κ) :
    Outcome × List UInt8 × RecordLayer κ :=
  let (header, s) := s.getDtls13RecordHeader c input
  match header with
  | .error ret => (.failed ret, [], s)
  | .ok cur =>
    if s.dtlsShouldDrop true cur.epoch applicationDataType then (.dropped, [], s)
    else
      let body := input.drop cur.header.length
      match s.deprotect c cur body with
      | .error outcome => (outcome, [], s)
      | .ok (type, data) =>
        let (outcome, s) := s.processOneRecord cur.epoch cur.seq type data
        (outcome, body.drop cur.size, s)

/-- A record without protection, once its header has been accepted. -/
def recvPlaintext (seq : UInt64) (type : UInt8) (data : List UInt8) (s : RecordLayer κ) :
    Outcome × RecordLayer κ :=
  let s := (s.selectEpoch 0).2
  if s.dtlsShouldDrop false 0 type then (.dropped, s) else s.processOneRecord 0 seq type data

@[simp]
theorem accept_zero (seq : UInt64) (s : RecordLayer κ) : s.accept 0 seq = s :=
  if_pos rfl

/-- A server that is not stateful yet drops every protected record. -/
theorem stateful_of_not_dtlsShouldDrop {s : RecordLayer κ} {epoch : UInt64}
    (hside : s.serverEnd = false → s.dtlsStateful = true)
    (hdrop : s.dtlsShouldDrop true epoch applicationDataType = false) :
    s.dtlsStateful = true := by
  by_contra hstateless
  have hserver : s.serverEnd = true := by
    by_contra hclient
    exact hstateless (hside (Bool.eq_false_iff.mpr hclient))
  have hother : applicationDataType ≠ handshakeType := by decide
  simp [dtlsShouldDrop, hserver, hstateless, hother] at hdrop

/-- A record of the epoch that decrypts, when the window lets it through. -/
theorem processOneRecord_eq {s : RecordLayer κ} {epoch seq : UInt64} {type : UInt8}
    {data : List UInt8} (hepoch : (s.slot s.dtls13DecryptEpoch).epochNumber = epoch)
    (hstateful : s.dtlsStateful = true)
    (hcheck : (s.slot s.dtls13DecryptEpoch).peer.checkWindow seq = true)
    (hret : ((s.slot s.dtls13DecryptEpoch).peer.updateWindow seq).1 = 0) :
    s.processOneRecord epoch seq type data =
      (.message type data, (s.modifySlot s.dtls13DecryptEpoch fun e =>
        { e with peer := ((s.slot s.dtls13DecryptEpoch).peer.updateWindow seq).2 }).accept
          epoch seq) := by
  unfold processOneRecord updateWindow
  rw [if_neg (by simp [hcheck]), if_neg (by simp [hstateful]), if_pos hepoch]
  dsimp only
  rw [hret, if_neg (by simp)]

/-! ## The way of a record -/

variable {c : RecordCipher κ} {type : UInt8} {input : List UInt8}

variable {s s' r r' : RecordLayer κ} {record rest : List UInt8} {outSz : Nat} {e : Dtls13Epoch κ}

end RecordLayer
end LitexDtls.WolfSsl
