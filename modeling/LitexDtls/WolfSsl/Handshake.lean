import LitexDtls.WolfSsl.Dtls13
import LitexDtls.WolfSsl.Message

/-!
# Receiving handshake messages

`_Dtls13HandshakeRecv` and `Dtls13ProcessBufferedMessages`: a handshake record is checked, and
its message handled at once, when it is whole and the expected one, or stored. What is stored
and has become the expected message is handled after that. The processing of a message
(`DoTls13HandShakeMsgType`) and the tests that depend on it are parameters, with the rest of
the session as their state; `calls` is a history of what was given to it.
-/
namespace LitexDtls.WolfSsl
open Library

def dtlsPoolSz : Nat := 20
def dtlsHandshakeHeaderSz : Nat := 12

/-! ## The header -/

namespace HandShakeHeader

/-- `Dtls13HandshakeAddHeaderFrag`. -/
def bytes (h : HandShakeHeader) : List UInt8 :=
  h.type :: (be24 h.length ++ (be16 h.messageSeq ++ (be24 h.fragmentOffset ++ be24 h.fragmentLength)))

@[simp] theorem length_bytes (h : HandShakeHeader) : h.bytes.length = dtlsHandshakeHeaderSz := rfl

/-- The fields that `GetDtlsHandShakeHeader` reads. -/
def ofBytes (l : List UInt8) : HandShakeHeader where
  type := l.getD 0 0
  length := word24 (l.drop 1)
  messageSeq := word16 (l.drop 4)
  fragmentOffset := word24 (l.drop 6)
  fragmentLength := word24 (l.drop 9)

/-- The lengths fit into their fields. -/
structure Fits (h : HandShakeHeader) : Prop where
  length : h.length < 16777216
  offset : h.fragmentOffset < 16777216
  fragment : h.fragmentLength < 16777216

theorem ofBytes_bytes {h : HandShakeHeader} (hf : h.Fits) (data : List UInt8) :
    ofBytes (h.bytes ++ data) = h := by
  have hlength := word24_be24 hf.length
  have hoffset := word24_be24 hf.offset
  have hfragment := word24_be24 hf.fragment
  have hseq := word16_be16 h.messageSeq
  obtain ⟨type, length, messageSeq, fragmentOffset, fragmentLength⟩ := h
  simp only [ofBytes, bytes, HandShakeHeader.mk.injEq]
  exact ⟨rfl, hlength, hseq, hoffset, hfragment⟩

end HandShakeHeader

/-! ## The tests of a handshake record -/

namespace HandShakeType

def helloRequest : UInt8 := 0
def clientHello : UInt8 := 1
def serverHello : UInt8 := 2
def helloVerifyRequest : UInt8 := 3
def sessionTicket : UInt8 := 4
def endOfEarlyData : UInt8 := 5
def helloRetryRequest : UInt8 := 6
def encryptedExtensions : UInt8 := 8
def certificate : UInt8 := 11
def serverKeyExchange : UInt8 := 12
def certificateRequest : UInt8 := 13
def serverHelloDone : UInt8 := 14
def certificateVerify : UInt8 := 15
def clientKeyExchange : UInt8 := 16
def finished : UInt8 := 20
def certificateStatus : UInt8 := 22
def keyUpdate : UInt8 := 24
def changeCipherHs : UInt8 := 55

end HandShakeType
open HandShakeType

/-- What the tests read of the options of a session that has negotiated, or may still
negotiate, DTLS 1.3. -/
structure HsOptions where
  client : Bool
  dtlsStateful : Bool
  handShakeDone : Bool
  serverHelloComplete : Bool
  firstReplyDone : Bool
  encryptionOn : Bool
  dtls13ChFrag : Bool
  deriving DecidableEq, Repr

/-- `GetDtlsHandShakeHeader`: the result, and the header as far as it has been read.
`sameVersion` is the comparison of the version of the record with the one of the session. -/
def getDtlsHandShakeHeader (sameVersion : Bool) (input : List UInt8) :
    Int32 × Option HandShakeHeader :=
  if input.length < dtlsHandshakeHeaderSz then (bufferE, none)
  else
    let h := HandShakeHeader.ofBytes input
    if ¬ sameVersion ∧ h.type ∉ [clientHello, helloVerifyRequest, serverHello] then
      (versionError, some h)
    else (0, some h)

/-- `Dtls13CheckEpoch`. -/
def dtls13CheckEpoch (o : HsOptions) (epoch : UInt64) (type : UInt8) : Int32 :=
  -- before the ServerHello is processed the version is not known
  let hsEpoch := epoch = 2 ∨ o.client ∧ ¬ o.serverHelloComplete ∧ epoch = 0
  if type ∈ [clientHello, serverHello, helloVerifyRequest, helloRetryRequest, helloRequest] then
    if epoch = 0 then 0 else sanityMsgE
  else if type ∈ [encryptedExtensions, serverKeyExchange, serverHelloDone, clientKeyExchange] then
    if hsEpoch then 0 else sanityMsgE
  else if type ∈ [certificateRequest, certificate, certificateVerify, finished] then
    if o.handShakeDone then if 2 ≤ epoch then 0 else sanityMsgE
    else if hsEpoch then 0 else sanityMsgE
  else if type ∈ [certificateStatus, changeCipherHs, keyUpdate, sessionTicket] then
    if 3 ≤ epoch then 0 else sanityMsgE
  else sanityMsgE

/-- `Dtls13AcceptFragmented`. -/
def dtls13AcceptFragmented (o : HsOptions) (type : UInt8) : Bool :=
  o.encryptionOn || o.client && type == serverHello ||
    !o.client && type == clientHello && o.dtls13ChFrag && o.dtlsStateful

/-- `MsgCheckEncryption`. -/
def msgCheckEncryption (type : UInt8) (encrypted : Bool) : Int32 :=
  if type ∈ [clientHello, serverHello, helloVerifyRequest, helloRetryRequest, changeCipherHs] then
    if encrypted then outOfOrderE else 0
  else if type ∈ [helloRequest, sessionTicket, endOfEarlyData, encryptedExtensions, certificate,
      serverKeyExchange, certificateRequest, serverHelloDone, certificateVerify,
      clientKeyExchange, finished, certificateStatus, keyUpdate] then
    if encrypted then 0 else outOfOrderE
  else sanityMsgE

/-! ## The list of received messages -/

/-- `DtlsMsgInsert`. -/
def dtlsMsgInsert (item : DtlsMsg UInt8) : List (DtlsMsg UInt8) → List (DtlsMsg UInt8)
  | [] => [item]
  | cur :: rest =>
    if item.epoch ≤ cur.epoch ∧ item.seq < cur.seq then item :: cur :: rest
    else cur :: dtlsMsgInsert item rest

/-- The message that `DtlsMsgFind` finds, given to `DtlsMsgSet`; none if it finds none. -/
def dtlsMsgUpdate (f : Fragment UInt8) (block : Option (Mem UInt8)) :
    List (DtlsMsg UInt8) → Option (List (DtlsMsg UInt8))
  | [] => none
  | cur :: rest =>
    if cur.epoch = f.epoch ∧ cur.seq = f.seq then some ((cur.set f block).2 :: rest)
    else (dtlsMsgUpdate f block rest).map (cur :: ·)

/-- The memory that the allocator has for a call of `DtlsMsgStore`: whether there is some for a
new message, and the block for a bucket. -/
structure Memory where
  forMsg : Bool
  block : Option (Mem UInt8)

/-- `DtlsMsgStore`, with the number of messages in the list. -/
def dtlsMsgStore (f : Fragment UInt8) (memory : Memory) (list : List (DtlsMsg UInt8)) (sz : Nat) :
    List (DtlsMsg UInt8) × Nat :=
  match dtlsMsgUpdate f memory.block list with
  | some list => (list, sz)
  | none =>
    let (ret, msg) := (DtlsMsg.new f.totalLen).set f memory.block
    if memory.forMsg = true ∧ 0 ≤ ret then (dtlsMsgInsert msg list, sz + 1) else (list, sz)

/-- The message, if it is ready. -/
def DtlsMsg.complete? (msg : DtlsMsg UInt8) : Option (HandShakeHeader × Mem UInt8) :=
  if msg.ready then msg.fullMsg else none

/-! ## The session -/

/-- A call of the processing of a message: the header, the body, and whether the message was
counted as processed. -/
structure HsCall where
  header : HandShakeHeader
  body : List UInt8
  counted : Bool
  deriving DecidableEq, Repr

/-- What a session knows about the handshake messages of its peer, and the rest of it. -/
structure HsState (τ : Type) where
  expected : UInt16
  peer : UInt16
  rxMsgList : List (DtlsMsg UInt8)
  rxMsgListSz : Nat
  calls : List HsCall
  rest : τ

/-- The parts of a session that receiving goes through: the options, the processing of a
message and what is done around it. -/
structure HsEnv (τ : Type) where
  opts : τ → HsOptions
  usingAsyncCrypto : Bool
  earlySanityCheckMsgReceived : τ → UInt8 → Nat → Int32
  dtls13RtxMsgRecvd : HandShakeHeader → UInt16 → τ → τ
  doTls13HandShakeMsgType : HandShakeHeader → List UInt8 → τ → Int32 × τ
  setSendAcks : UInt8 → τ → τ
  sendAlert : τ → τ
  doClientHelloStateless : List UInt8 → τ → Bool × τ
  chGoodCb : τ → Int32 × τ

/-- A handshake record as it comes to `_Dtls13HandshakeRecv`. -/
structure HsRecord where
  epoch : UInt64
  decryptedCur : Bool
  sameVersion : Bool
  input : List UInt8
  memory : Memory

/-- The fragment in a record with header `h`. -/
def HsRecord.fragment (r : HsRecord) (h : HandShakeHeader) : Fragment UInt8 where
  seq := h.messageSeq.toUInt32
  epoch := r.epoch.toUInt16
  type := h.type
  offset := h.fragmentOffset
  data := (r.input.drop dtlsHandshakeHeaderSz).take h.fragmentLength
  totalLen := h.length
  encrypted := r.decryptedCur

namespace HsState
variable {τ : Type} (env : HsEnv τ)

/-- `DoTls13HandShakeMsgType`, and `Dtls13MsgWasProcessed` when the message counts. -/
def handle (counts : Int32 → τ → Bool) (h : HandShakeHeader) (body : List UInt8) (s : HsState τ) :
    Int32 × Bool × HsState τ :=
  let (ret, rest) := env.doTls13HandShakeMsgType h body s.rest
  if counts ret rest then
    let stateful := (env.opts rest).dtlsStateful
    (ret, true, { s with
      expected := if stateful then s.expected + 1 else s.expected
      calls := s.calls ++ [⟨h, body, stateful⟩]
      rest := env.setSendAcks h.type rest })
  else (ret, false, { s with calls := s.calls ++ [⟨h, body, false⟩], rest := rest })

/-- The results after which a stored message counts as processed. -/
def storedCounts (type : UInt8) (ret : Int32) (rest : τ) : Bool :=
  ret == 0 || ret == wantWriteE ||
    type == certificateRequest && (env.opts rest).handShakeDone && ret == wcPendingE

/-- A stored message that is given to the processing. -/
def handleStored (msg : DtlsMsg UInt8) (h : HandShakeHeader) (buf : Mem UInt8) (s : HsState τ) :
    Int32 × Bool × HsState τ :=
  let ret := msgCheckEncryption msg.type msg.encrypted
  if ret ≠ 0 then (ret, false, { s with rest := env.sendAlert s.rest })
  else s.handle env (storedCounts env msg.type) h (buf.read 0 msg.sz)

/-- The first message is taken from the list. -/
def unlink (s : HsState τ) : HsState τ :=
  { s with rxMsgList := s.rxMsgList.tail, rxMsgListSz := s.rxMsgListSz - 1 }

/-- `Dtls13ProcessBufferedMessages`; the first argument is the list of the state. -/
def processBuffered : List (DtlsMsg UInt8) → HsState τ → Int32 × HsState τ
  | [], s => (0, s)
  | msg :: rest, s =>
    if s.expected.toUInt32 ≠ msg.seq then (0, s)
    else
      match msg.complete? with
      | none => (0, s)
      | some (h, buf) =>
        match s.handleStored env msg h buf with
        | (ret, false, s) => (ret, s)
        | (ret, true, s) => if ret ≠ 0 then (ret, s.unlink) else processBuffered rest s.unlink

/-- `Dtls13NextMessageComplete`. -/
def nextMessageComplete (s : HsState τ) : Bool :=
  match s.rxMsgList with
  | [] => false
  | msg :: _ => msg.ready && msg.seq == s.expected.toUInt32

/-- What both ends of `_Dtls13HandshakeRecv` do with the list. -/
def processNext (s : HsState τ) : Int32 × HsState τ :=
  if s.nextMessageComplete then processBuffered env s.rxMsgList s else (0, s)

/-- The last part of `_Dtls13HandshakeRecv`: the message is stored, or handled at once. -/
def storeOrHandle (h : HandShakeHeader) (r : HsRecord) (s : HsState τ) : Int32 × HsState τ :=
  if ¬ (h.fragmentOffset = 0 ∧ h.fragmentLength = h.length) ∨ s.expected < s.peer ∨
      env.usingAsyncCrypto then
    if s.rxMsgListSz < dtlsPoolSz then
      let (list, sz) := dtlsMsgStore (r.fragment h) r.memory s.rxMsgList s.rxMsgListSz
      processNext env { s with rxMsgList := list, rxMsgListSz := sz }
    else (dtlsTooManyFragmentsE, s)
  else
    let (ret, _, s) := s.handle env (fun ret _ => ret == 0) h (r.fragment h).data
    if ret ≠ 0 then (ret, s) else processNext env s

/-- The part of `_Dtls13HandshakeRecv` for a fragment that may not be stored: the first one of a
ClientHello whose cookie can be verified makes the session a stateful one. -/
def fragmentRefused (h : HandShakeHeader) (r : HsRecord) (s : HsState τ) : Int32 × HsState τ :=
  let o := env.opts s.rest
  if o.dtls13ChFrag ∧ ¬ o.dtlsStateful ∧ h.fragmentOffset = 0 ∧ h.type = clientHello then
    match env.doClientHelloStateless (r.fragment h).data s.rest with
    | (true, rest) =>
      let (ret, rest) := env.chGoodCb rest
      if ret < 0 then (wolfsslFatalError, { s with rest := rest })
      else storeOrHandle env h r { s with rest := rest }
    | (false, rest) => (0, { s with rest := rest })
  else (0, s)

/-- `_Dtls13HandshakeRecv` behind the tests of the header. -/
def recvFragment (h : HandShakeHeader) (r : HsRecord) (s : HsState τ) : Int32 × HsState τ :=
  if r.input.length < dtlsHandshakeHeaderSz + h.fragmentLength then (incompleteData, s)
  else if h.length < h.fragmentOffset + h.fragmentLength then (bufferError, s)
  else
    let s := { s with rest := env.dtls13RtxMsgRecvd h s.expected s.rest }
    -- a retransmission is ignored
    if s.peer < s.expected then (0, s)
    else if ¬ (h.fragmentOffset = 0 ∧ h.fragmentLength = h.length) ∧
        ¬ dtls13AcceptFragmented (env.opts s.rest) h.type then
      fragmentRefused env h r s
    else storeOrHandle env h r s

/-- `_Dtls13HandshakeRecv`. -/
def recv (s : HsState τ) (r : HsRecord) : Int32 × HsState τ :=
  match getDtlsHandShakeHeader r.sameVersion r.input with
  | (_, none) => (parseError, s)
  | (ret, some h) =>
    let s := { s with peer := h.messageSeq }
    let o := env.opts s.rest
    let early := env.earlySanityCheckMsgReceived s.rest h.type
      (dtlsHandshakeHeaderSz + h.fragmentLength)
    let epoch := dtls13CheckEpoch o r.epoch h.type
    if ret ≠ 0 then (parseError, s)
    else if early ≠ 0 then (early, s)
    else if epoch ≠ 0 then (epoch, s)
    else if o.client ∨ o.firstReplyDone then recvFragment env h r s
    -- a server that has verified no ClientHello takes the number of the first one
    else if h.type ≠ clientHello then (0, s)
    else recvFragment env h r { s with expected := s.peer }

end HsState
end LitexDtls.WolfSsl
