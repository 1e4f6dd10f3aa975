import LitexDtls.WolfSsl.Fragmenting

/-!
# What the two sides say to each other

A client and a server that give their messages to `Dtls13HandshakeSend` one after the other, each
under the number that is next. Whatever they send, go on with and send again, each of their
records holds a part of one of these messages (`carries_after`). So the records that a side has
noted may be given to `_Dtls13HandshakeRecv`, in any order and any number of times: the messages
come out in the order of their numbers, each as the peer has sent it (`handled_in_order`).
-/
namespace LitexDtls.WolfSsl
open Library HandShakeType

/-- The bytes are a part of one of the messages, behind its header. -/
def PartOf (msgs : UInt16 → HsMsg) (data : List UInt8) : Prop :=
  ∃ n offset len, (msgs n).body.length < 16777216 ∧ offset + len ≤ (msgs n).body.length ∧
    data = (msgs n).piece n offset len

theorem PartOf.honest {msgs : UInt16 → HsMsg} {r : HsRecord} (h : PartOf msgs r.input) :
    r.Honest msgs := by
  obtain ⟨n, offset, len, hlength, hin, hinput⟩ := h
  have hheader : HandShakeHeader.ofBytes r.input =
      ⟨(msgs n).type, (msgs n).body.length, n, offset, len⟩ := by
    rw [hinput]
    exact HsMsg.ofBytes_piece hlength hin
  refine ⟨by rw [hheader], by rw [hheader], ?_⟩
  rw [hheader, HsRecord.fragment, hinput]
  dsimp only
  rw [HsMsg.piece, List.drop_left' (by rfl), List.take_take, Nat.min_self]

variable {κ : Type} {c : RecordCipher κ} {msgs : UInt16 → HsMsg}

namespace Dtls13Session
variable {s s' s₁ s₂ s₃ : Dtls13Session κ} {msg : List UInt8}

/-- What is left of a message in fragments, and the number of the next message. -/
def unsent (s : Dtls13Session κ) : (List UInt8 × Nat × UInt8 × Bool) × UInt16 :=
  ((s.fragmentsBuffer, s.messageLength, s.fragHandshakeType, s.sendingFragments),
    s.handshakeNumber)

/-- What is left is of the message with the next number. -/
structure Left (msgs : UInt16 → HsMsg) (s : Dtls13Session κ) : Prop where
  buffer : s.fragmentsBuffer = (msgs s.handshakeNumber).body
  length : s.messageLength = (msgs s.handshakeNumber).body.length
  type : s.fragHandshakeType = (msgs s.handshakeNumber).type
  short : (msgs s.handshakeNumber).body.length < 16777216

/-- What was sealed, and what may be sealed yet, are parts of the messages. -/
structure Carries (msgs : UInt16 → HsMsg) (s : Dtls13Session κ) : Prop where
  built : ∀ p ∈ s.built, PartOf msgs p.2
  list : ∀ q, s.Waits q → PartOf msgs q.data
  idle : s.sendingFragments = false → s.messageLength = 0
  left : s.sendingFragments = true → s.Left msgs

/-- Nothing is sealed, nothing comes into the list, and what is left stays. -/
structure AddsNothing (s s' : Dtls13Session κ) : Prop where
  unsent : s'.unsent = s.unsent
  built : s'.built = s.built
  list : ∀ q, s'.Waits q → s.Waits q

namespace AddsNothing

theorem refl (s : Dtls13Session κ) : AddsNothing s s := ⟨rfl, rfl, fun _ => id⟩

theorem trans (h : AddsNothing s₁ s₂) (h' : AddsNothing s₂ s₃) : AddsNothing s₁ s₃ :=
  ⟨h'.unsent.trans h.unsent, h'.built.trans h.built, fun q hq => h.list q (h'.list q hq)⟩

theorem ite {p : Prop} [Decidable p] (h₁ : AddsNothing s s₁) (h₂ : AddsNothing s s₂) :
    AddsNothing s (if p then s₁ else s₂) := by
  split_ifs
  · exact h₁
  · exact h₂

theorem of_sublist {l : List Dtls13RtxRecord} {released : List RtxRecord}
    (h : l ⊆ s.rtxRecords) :
    AddsNothing s { s with rtxRecords := l, released := released } :=
  ⟨rfl, rfl, fun _ ⟨r, hr, heq⟩ => ⟨r, h hr, heq⟩⟩

end AddsNothing

theorem Carries.of_addsNothing (h : s.Carries msgs) (hnothing : AddsNothing s s') :
    s'.Carries msgs := by
  obtain ⟨hunsent, hbuilt, hlist⟩ := hnothing
  simp only [unsent, Prod.mk.injEq] at hunsent
  obtain ⟨⟨hbuffer, hlength, htype, hsending⟩, hnumber⟩ := hunsent
  refine ⟨hbuilt ▸ h.built, fun q hq => h.list q (hlist q hq), fun hidle => ?_, fun hleft => ?_⟩
  · rw [hlength]
    exact h.idle (hsending.symm.trans hidle)
  · obtain ⟨hbuffer', hlength', htype', hshort⟩ := h.left (hsending.symm.trans hleft)
    constructor <;> rw [hnumber]
    · exact hbuffer.trans hbuffer'
    · exact hlength.trans hlength'
    · exact htype.trans htype'
    · exact hshort

/-! ## Sending -/

theorem Unsent.addsNothing (h : Unsent s s') : AddsNothing s s' := by
  rw [h.eq]
  exact ⟨rfl, rfl, fun _ => id⟩

theorem Sent.unsent (h : Sent msg s s') : s'.unsent = s.unsent := by
  rw [h.eq]
  rfl

theorem Carries.of_sent (h : s.Carries msgs) (hsent : Sent msg s s') (hmsg : PartOf msgs msg) :
    s'.Carries msgs := by
  rw [hsent.eq]
  exact ⟨List.forall_mem_cons.mpr ⟨hmsg, h.built⟩, h.list, h.idle, fun hleft =>
    ⟨(h.left hleft).buffer, (h.left hleft).length, (h.left hleft).type, (h.left hleft).short⟩⟩

theorem Carries.rtxAddRecord (h : s.Carries msgs) {r : Dtls13RtxRecord}
    (hr : PartOf msgs r.data) : (s.rtxAddRecord r).Carries msgs := by
  refine ⟨h.built, ?_, h.idle, fun hleft => ?_⟩
  · rintro q ⟨x, hx, rfl⟩
    rcases List.mem_append.mp hx with hx | hx
    · exact h.list _ ⟨x, hx, rfl⟩
    · rw [List.mem_singleton.mp hx]
      exact hr
  · obtain ⟨hbuffer, hlength, htype, hshort⟩ := h.left hleft
    exact ⟨hbuffer, hlength, htype, hshort⟩

/-- A record with a part of a message goes out, or the call is refused. -/
theorem Carries.sendOneFragmentRtx (h : s.Carries msgs) (hc : c.Refuses) (t : Trip)
    (inOutputBuffer : Bool) (type : UInt8) (outputSize : Nat) (hmsg : PartOf msgs msg)
    (hashOutput : Bool) :
    (s.sendOneFragmentRtx c t inOutputBuffer type outputSize msg hashOutput).2.Carries msgs ∧
      (s.sendOneFragmentRtx c t inOutputBuffer type outputSize msg hashOutput).2.unsent =
        s.unsent := by
  rcases sendOneFragmentRtx_cases hc t inOutputBuffer type outputSize msg hashOutput s with
    ⟨-, hunsent | hsent⟩ | ⟨-, s₁, hsent, heq⟩
  · exact ⟨h.of_addsNothing hunsent.addsNothing, hunsent.addsNothing.unsent⟩
  · exact ⟨h.of_sent hsent hmsg, hsent.unsent⟩
  · rw [heq]
    split_ifs
    · exact ⟨h.of_sent hsent hmsg, hsent.unsent⟩
    · exact ⟨(h.of_sent hsent hmsg).rtxAddRecord hmsg, hsent.unsent⟩

theorem addsNothing_checkAvailableSize (t : Trip) (size : Nat) (s : Dtls13Session κ) :
    AddsNothing s (s.checkAvailableSize t size).2 := by
  obtain ⟨_, heq⟩ := checkAvailableSize_eq t size s
  rw [heq]
  exact ⟨rfl, rfl, fun _ => id⟩

/-- With no message in fragments, the next one may be counted. -/
theorem Carries.countMessage (h : s.Carries msgs) (hidle : s.sendingFragments = false) :
    s.countMessage.Carries msgs :=
  ⟨h.built, h.list, h.idle, fun hleft => absurd (hidle.symm.trans hleft) (by decide)⟩

theorem Carries.freeFragmentsBuffer (h : s.Carries msgs) : s.freeFragmentsBuffer.Carries msgs :=
  ⟨h.built, h.list, fun _ => rfl, nofun⟩

theorem Carries.skipFragment (h : s.Carries msgs) : (s.skipFragment c).Carries msgs :=
  h.of_addsNothing ⟨rfl, rfl, fun _ => id⟩

/-- The next fragment is a part of the message that is left. -/
theorem Carries.nextFragment (h : s.Carries msgs) (c : RecordCipher κ)
    (hlt : s.fragOffset < s.messageLength) :
    PartOf msgs (s.nextFragment c) := by
  have hsending : s.sendingFragments = true := by
    by_contra hidle
    rw [h.idle (Bool.eq_false_iff.mpr hidle)] at hlt
    exact Nat.not_lt_zero _ hlt
  obtain ⟨hbuffer, hlength, htype, hshort⟩ := h.left hsending
  refine ⟨s.handshakeNumber, s.fragOffset, s.fragLength c, hshort, ?_, ?_⟩
  · unfold fragLength
    omega
  · unfold Dtls13Session.nextFragment fragHeader HsMsg.piece
    rw [hbuffer, hlength, htype]

/-- The loop over the fragments; it succeeds when none is left. -/
theorem Carries.sendFragmentsLoop (h : s.Carries msgs) (hc : c.Refuses) (fuel : Nat)
    (trips : Nat → Trip) :
    (s.sendFragmentsLoop c fuel trips).2.Carries msgs ∧
      ((s.sendFragmentsLoop c fuel trips).1 = 0 →
        (s.sendFragmentsLoop c fuel trips).2.sendingFragments = false) := by
  induction fuel generalizing s trips with
  | zero => exact ⟨h.freeFragmentsBuffer, fun _ => rfl⟩
  | succ fuel ih =>
    have hnothing := addsNothing_checkAvailableSize (trips 0)
      (s.fragRecordLength c + maxMsgExtra) s
    obtain ⟨_, heq⟩ := checkAvailableSize_eq (trips 0) (s.fragRecordLength c + maxMsgExtra) s
    unfold Dtls13Session.sendFragmentsLoop
    by_cases hdone : s.messageLength ≤ s.fragOffset
    · rw [if_pos hdone]
      exact ⟨h.freeFragmentsBuffer, fun _ => rfl⟩
    rw [if_neg hdone]
    generalize s.checkAvailableSize (trips 0) (s.fragRecordLength c + maxMsgExtra) = room
      at hnothing heq ⊢
    have hroom := h.of_addsNothing hnothing
    have hlt : room.2.fragOffset < room.2.messageLength := by
      rw [heq]
      exact Nat.lt_of_not_le hdone
    have hsend := (hroom.sendOneFragmentRtx hc (trips 0) true room.2.fragHandshakeType
      (room.2.fragRecordLength c + maxMsgExtra) (hroom.nextFragment c hlt) false).1
    dsimp only
    unfold sendNextFragment
    split_ifs with hret hwait hzero
    · exact ⟨hroom.freeFragmentsBuffer, fun hnone => absurd hnone hret⟩
    · exact ⟨hsend.skipFragment, fun hnone => absurd (hwait.symm.trans hnone) (by decide)⟩
    · exact ⟨hsend.freeFragmentsBuffer, fun hnone => absurd hnone hzero⟩
    · exact ih hsend.skipFragment _

theorem Carries.fragmentsContinue (h : s.Carries msgs) (hc : c.Refuses) (trips : Nat → Trip) :
    (s.fragmentsContinue c trips).2.Carries msgs := by
  obtain ⟨hloop, hdone⟩ := h.sendFragmentsLoop hc (s.messageLength - s.fragOffset) trips
  unfold Dtls13Session.fragmentsContinue sendFragmentedInternal
  dsimp only
  split_ifs with hret
  · exact hloop.countMessage (hdone hret)
  · exact hloop

/-- A message that does not go into one record. -/
theorem Carries.sendFragmented (h : s.Carries msgs) (hc : c.Refuses) (hidle : s.Idle)
    (hshort : (msgs s.handshakeNumber).body.length < 16777216) (trips : Nat → Trip)
    (hashOutput : Bool) :
    let out := s.sendFragmented c trips (msgs s.handshakeNumber).type
      ((msgs s.handshakeNumber).piece s.handshakeNumber 0 (msgs s.handshakeNumber).body.length)
      hashOutput
    out.2.Carries msgs ∧ (out.1 = 0 → out.2.sendingFragments = false) := by
  have hstart : { s with
      fragmentsBuffer := (msgs s.handshakeNumber).body
      messageLength := (msgs s.handshakeNumber).body.length
      fragHandshakeType := (msgs s.handshakeNumber).type
      sendingFragments := true }.Carries msgs :=
    ⟨h.built, h.list, nofun, fun _ => ⟨rfl, rfl, rfl, hshort⟩⟩
  unfold Dtls13Session.sendFragmented
  rw [HsMsg.drop_piece, HsMsg.length_piece, Nat.add_sub_cancel_left]
  split_ifs
  · exact ⟨h, fun _ => hidle.1⟩
  · exact ⟨h, fun _ => hidle.1⟩
  · exact ⟨h, fun _ => hidle.1⟩
  · exact hstart.sendFragmentsLoop hc _ _

/-! ## The steps of a session -/

/-- A message is given to `Dtls13HandshakeSend` under the next number, when none is left. The
header of a HelloRetryRequest is that of a ServerHello, and it goes into one record. -/
def Sends (c : RecordCipher κ) (msgs : UInt16 → HsMsg) (s : Dtls13Session κ) :
    SessionEvent κ → Prop
  | .handshakeSend _ _ type _ msg _ =>
    s.Idle ∧ (msgs s.handshakeNumber).body.length < 16777216 ∧
      msg = (msgs s.handshakeNumber).piece s.handshakeNumber 0
        (msgs s.handshakeNumber).body.length ∧
      (type = (msgs s.handshakeNumber).type ∨ type = helloRetryRequest ∧
        dtls13GetRlHeaderLength (dtls13TypeIsEncrypted type) + msg.length <
          getMaxFragSize c s.encryptionOn)
  | _ => True

theorem Carries.sendMessage (h : s.Carries msgs) (hc : c.Refuses) (trips : Nat → Trip)
    (inOutputBuffer : Bool) {type : UInt8} (outputSize : Nat) (hashOutput : Bool)
    (hsends : s.Sends c msgs (.handshakeSend trips inOutputBuffer type outputSize msg hashOutput)) :
    (s.sendMessage c trips inOutputBuffer type outputSize msg hashOutput).2.Carries msgs := by
  obtain ⟨hidle, hshort, rfl, htype⟩ := hsends
  have hpart : PartOf msgs ((msgs s.handshakeNumber).piece s.handshakeNumber 0
      (msgs s.handshakeNumber).body.length) := ⟨_, _, _, hshort, by omega, rfl⟩
  unfold Dtls13Session.sendMessage
  dsimp only
  by_cases hone : dtls13GetRlHeaderLength (dtls13TypeIsEncrypted type) +
      ((msgs s.handshakeNumber).piece s.handshakeNumber 0
        (msgs s.handshakeNumber).body.length).length < getMaxFragSize c s.encryptionOn
  · rw [if_pos hone]
    obtain ⟨hsent, hsame⟩ := h.sendOneFragmentRtx hc (trips 0) inOutputBuffer type outputSize
      hpart hashOutput
    split_ifs
    · exact hsent.countMessage ((congrArg (·.1.2.2.2) hsame).trans hidle.1)
    · exact hsent
  · rw [if_neg hone]
    obtain rfl := htype.resolve_right fun hretry => hone hretry.2
    obtain ⟨hsent, hdone⟩ := h.sendFragmented hc hidle hshort trips hashOutput
    split_ifs with hret
    · exact hsent.countMessage (hdone hret)
    · exact hsent

theorem Carries.handshakeSend (h : s.Carries msgs) (hc : c.Refuses) (trips : Nat → Trip)
    (inOutputBuffer : Bool) {type : UInt8} (outputSize : Nat) (hashOutput : Bool)
    (hsends : s.Sends c msgs (.handshakeSend trips inOutputBuffer type outputSize msg hashOutput)) :
    (s.handshakeSend c trips inOutputBuffer type outputSize msg hashOutput).2.Carries msgs := by
  unfold Dtls13Session.handshakeSend
  extract_lets seenRecords
  obtain ⟨layer, hselect⟩ := selectEncrypt_eq s.layer.dtls13Epoch { s with seenRecords }
  generalize selectEncrypt s.layer.dtls13Epoch { s with seenRecords } = selected at hselect ⊢
  have hready (wait : Bool) : { s with
      seenRecords := seenRecords, layer := layer, waitKeyUpdateAck := wait }.Carries msgs :=
    h.of_addsNothing ⟨rfl, rfl, fun _ => id⟩
  dsimp only
  rw [hselect]
  split_ifs
  · exact hready s.waitKeyUpdateAck
  · exact (hready _).sendMessage hc trips inOutputBuffer outputSize hashOutput
      ⟨⟨hsends.1.1, hsends.1.2⟩, hsends.2⟩

/-! ## Sending again -/

theorem addsNothing_selectEncrypt (n : UInt64) (s : Dtls13Session κ) :
    AddsNothing s (s.selectEncrypt n).2 := by
  obtain ⟨_, heq⟩ := selectEncrypt_eq n s
  rw [heq]
  exact ⟨rfl, rfl, fun _ => id⟩

theorem addsNothing_rtxReady (t : Trip) (r : Dtls13RtxRecord) (s : Dtls13Session κ) :
    AddsNothing s (s.rtxReady t r).2 := by
  unfold rtxReady
  dsimp only
  split_ifs
  all_goals first
    | exact addsNothing_checkAvailableSize t _ s
    | exact (addsNothing_checkAvailableSize t _ s).trans (addsNothing_selectEncrypt r.epoch _)

/-- A record of the list is a part of a message, and is sent again as it is. -/
theorem Carries.rtxSendLoop (h : s.Carries msgs) (hc : c.Refuses)
    (before rs : List Dtls13RtxRecord) (trips : Nat → Trip) (hlist : s.rtxRecords = before ++ rs) :
    (s.rtxSendLoop c before rs trips).2.Carries msgs := by
  induction rs generalizing before trips s with
  | nil => exact h
  | cons r rs ih =>
    have hready := h.of_addsNothing (addsNothing_rtxReady (trips 0) r s)
    have hready_list := (rtxReady_cases (trips 0) r s).2.1.trans hlist
    have hsend := sendFragment_cases hc (trips 0) true
      (r.data.length + dtls13GetRlHeaderLength (r.epoch ≠ 0) +
        if r.epoch ≠ 0 then maxMsgExtra else 0) r.handshakeType r.data false
      (rs.isEmpty || !(s.rtxReady (trips 0) r).2.groupMessages) (s.rtxReady (trips 0) r).2
    have hpart : PartOf msgs r.data := h.list _ ⟨r, by rw [hlist]; simp, rfl⟩
    unfold Dtls13Session.rtxSendLoop rtxSendOne
    dsimp only at hsend ⊢
    generalize s.rtxReady (trips 0) r = ready at hready hready_list hsend ⊢
    generalize ready.2.sendFragment c (trips 0) true _ r.handshakeType r.data false _ = sent
      at hsend ⊢
    have hsent : sent.2.Carries msgs := by
      rcases hsend with ⟨-, hunsent⟩ | hsent
      · exact hready.of_addsNothing hunsent.addsNothing
      · exact hready.of_sent hsent hpart
    have hsent_list : sent.2.rtxRecords = before ++ r :: rs := by
      rcases hsend with ⟨-, hunsent⟩ | hsent
      · rw [hunsent.eq, ← hready_list]
      · rw [hsent.eq, ← hready_list]
    -- the data of a record that is tracked is the same
    have htracked {l : List Dtls13RtxRecord} (seq : UInt64)
        (hperm : l.Perm (before ++ r.track seq :: rs)) :
        { sent.2 with rtxRecords := l }.Carries msgs := by
      refine hsent.of_addsNothing ⟨rfl, rfl, ?_⟩
      rintro _ ⟨x, hx, rfl⟩
      rcases List.mem_append.mp (hperm.mem_iff.mp hx) with hx | hx
      · exact ⟨x, by rw [hsent_list]; exact List.mem_append_left _ hx, rfl⟩
      · rcases List.mem_cons.mp hx with rfl | hx
        · exact ⟨r, by rw [hsent_list]; simp, rfl⟩
        · exact ⟨x, by rw [hsent_list]; simp [hx], rfl⟩
    split_ifs
    · exact hready
    · exact hsent
    · refine htracked ready.2.layer.nextNumber.seq ?_
      rw [List.append_assoc]
      exact List.Perm.append_left _ (List.perm_append_singleton _ _)
    · exact ih (htracked _ (List.Perm.refl _)) _ _ (by simp)

/-! ## What comes in -/

theorem addsNothing_release (p : Dtls13RtxRecord → Bool) (s : Dtls13Session κ) :
    AddsNothing s (s.release p) :=
  .of_sublist List.eraseP_subset

theorem addsNothing_rtxMsgRecvd (m : Recvd) (s : Dtls13Session κ) :
    AddsNothing s (s.rtxMsgRecvd m) := by
  have hflush (s : Dtls13Session κ) : AddsNothing s (s.rtxFlushBuffered true) :=
    .of_sublist (List.filter_subset_self _)
  unfold rtxMsgRecvd
  extract_lets s₁ s₂ s₃
  have h₁ : AddsNothing s s₁ := .ite (addsNothing_release _ s) (.refl s)
  have h₂ : AddsNothing s s₂ := .ite (.ite (h₁.trans (hflush s₁)) h₁) (.refl s)
  have h₃ : AddsNothing s s₃ := .ite (h₂.trans ⟨rfl, rfl, fun _ => id⟩) h₂
  exact .ite (h₃.trans ⟨rfl, rfl, fun _ => id⟩) h₃

theorem addsNothing_rtxProcessingCertificate (input : List UInt8) (s : Dtls13Session κ) :
    AddsNothing s (s.rtxProcessingCertificate input).2 := by
  unfold rtxProcessingCertificate
  dsimp only
  split_ifs
  · exact .refl s
  · exact .refl s
  · exact addsNothing_release _ s

theorem addsNothing_recordRecvd (memory : Bool) (rn : RecordNumber) (msg : List UInt8)
    (s : Dtls13Session κ) : AddsNothing s (s.recordRecvd memory rn msg).2 := by
  unfold recordRecvd
  dsimp only
  split_ifs <;> exact ⟨rfl, rfl, fun _ => id⟩

theorem addsNothing_keyUpdateAckReceived (keys : Except Int32 (DerivedKeys κ))
    (s : Dtls13Session κ) : AddsNothing s (s.keyUpdateAckReceived keys).2 := by
  unfold keyUpdateAckReceived
  cases keys with
  | error ret => exact .refl s
  | ok keys =>
    dsimp only
    split_ifs <;> exact ⟨rfl, rfl, fun _ => id⟩

theorem addsNothing_ackRead (keys : Except Int32 (DerivedKeys κ)) (s : Dtls13Session κ) :
    AddsNothing s (s.ackRead keys).2 := by
  unfold ackRead
  extract_lets s₁
  have h₁ : AddsNothing s s₁ := ⟨rfl, rfl, fun _ => id⟩
  have hupdate : AddsNothing s (s₁.doDtls13KeyUpdateAck keys).2 := by
    unfold doDtls13KeyUpdateAck
    split_ifs
    · exact h₁
    · have hwait : AddsNothing s₁ { s₁ with waitKeyUpdateAck := false } :=
        ⟨rfl, rfl, fun _ => id⟩
      exact (h₁.trans hwait).trans (addsNothing_keyUpdateAckReceived keys _)
  dsimp only
  split_ifs
  · exact hupdate
  · exact hupdate.trans ⟨rfl, rfl, fun _ => id⟩
  · exact absurd rfl ‹(0 : Int32) ≠ 0›
  · exact h₁.trans ⟨rfl, rfl, fun _ => id⟩

theorem addsNothing_doDtls13Ack (keys : Except Int32 (DerivedKeys κ)) (input : List UInt8)
    (s : Dtls13Session κ) : AddsNothing s (s.doDtls13Ack keys input).2 := by
  have hremove (numbers : List RecordNumber) (s : Dtls13Session κ) :
      AddsNothing s (numbers.foldl Dtls13Session.rtxRemoveRecord s) := by
    induction numbers generalizing s with
    | nil => exact .refl s
    | cons rn numbers ih =>
      have hone : AddsNothing s (s.rtxRemoveRecord rn) := .of_sublist List.eraseP_subset
      exact hone.trans (ih _)
  unfold doDtls13Ack
  cases readAckMessage input with
  | error ret => exact .refl s
  | ok read =>
    have hheard : AddsNothing s { s with heard := read.1 ++ s.heard } := ⟨rfl, rfl, fun _ => id⟩
    exact (hheard.trans (hremove read.1 _)).trans (addsNothing_ackRead keys _)

theorem addsNothing_sendDtls13Ack (t : Trip) (s : Dtls13Session κ) :
    AddsNothing s (s.sendDtls13Ack c t).2 := by
  have hselect : AddsNothing s (if s.layer.serverEnd && !s.layer.handShakeDone &&
      3 ≤ s.layer.dtls13Epoch then s.setEpochKeys 2 .encryptSideOnly
      else s.selectEncrypt s.layer.dtls13Epoch).2 := by
    split_ifs
    · exact ⟨rfl, rfl, fun _ => id⟩
    · exact addsNothing_selectEncrypt _ s
  unfold sendDtls13Ack
  generalize (if s.layer.serverEnd && !s.layer.handShakeDone && 3 ≤ s.layer.dtls13Epoch
      then s.setEpochKeys 2 .encryptSideOnly else s.selectEncrypt s.layer.dtls13Epoch) = selected
      at hselect ⊢
  dsimp only
  generalize (selected.2.layer.nextNumber.epoch != 0) = isProtected
  generalize dtls13GetRlHeaderLength isProtected + _ + _ = outputSize
  have hroom := hselect.trans (addsNothing_checkAvailableSize t outputSize selected.2)
  generalize selected.2.checkAvailableSize t outputSize = room at hroom ⊢
  split_ifs
  · exact hselect
  · exact hroom
  · have hseal : AddsNothing room.2
        (room.2.sealRecord c outputSize isProtected ackType (ackMessage room.2.seenRecords)).2 :=
      ⟨rfl, rfl, fun _ => id⟩
    have hsealed := hroom.trans hseal
    generalize room.2.sealRecord c outputSize isProtected ackType
      (ackMessage room.2.seenRecords) = out at hsealed ⊢
    obtain ⟨record, s₃⟩ := out
    cases record with
    | error ret => exact hsealed
    | ok record =>
      obtain ⟨_, hsend⟩ := sendBuffered_eq t.flush { s₃.buffer record with
        seenRecords := [], acks := ackMessage s₃.seenRecords :: s₃.acks }
      dsimp only
      rw [hsend]
      exact hsealed.trans ⟨rfl, rfl, fun _ => id⟩

/-- What one step keeps. -/
theorem Carries.step (h : s.Carries msgs) (hc : c.Refuses) {ev : SessionEvent κ}
    (hsends : s.Sends c msgs ev) : (s.step c ev).Carries msgs := by
  cases ev with
  | layer ev => exact h.of_addsNothing ⟨rfl, rfl, fun _ => id⟩
  | setOptions encryptionOn groupMessages handShakeStateDone waitFinishedAck =>
    exact h.of_addsNothing ⟨rfl, rfl, fun _ => id⟩
  | sendBuffered ret =>
    obtain ⟨_, heq⟩ := sendBuffered_eq ret s
    rw [Dtls13Session.step, heq]
    exact h.of_addsNothing ⟨rfl, rfl, fun _ => id⟩
  | handshakeSend trips inOutputBuffer type outputSize msg hashOutput =>
    exact h.handshakeSend hc trips inOutputBuffer outputSize hashOutput hsends
  | fragmentsContinue trips => exact h.fragmentsContinue hc trips
  | rtxSendBuffered trips => exact h.rtxSendLoop hc [] s.rtxRecords trips rfl
  | sendDtls13Ack t => exact h.of_addsNothing (addsNothing_sendDtls13Ack t s)
  | recordRecvd memory rn msg => exact h.of_addsNothing (addsNothing_recordRecvd memory rn msg s)
  | rtxMsgRecvd m => exact h.of_addsNothing (addsNothing_rtxMsgRecvd m s)
  | rtxProcessingCertificate input =>
    exact h.of_addsNothing (addsNothing_rtxProcessingCertificate input s)
  | doDtls13Ack keys input => exact h.of_addsNothing (addsNothing_doDtls13Ack keys input s)

theorem carries_init (msgs : UInt16 → HsMsg) (serverEnd : Bool) :
    (init serverEnd : Dtls13Session κ).Carries msgs where
  built _ h := absurd h List.not_mem_nil
  list := fun _ ⟨_, h, _⟩ => absurd h List.not_mem_nil
  idle _ := rfl
  left := nofun

end Dtls13Session

/-! ## Two sessions -/

namespace Link

/-- Each side gives its own messages to `Dtls13HandshakeSend`. -/
def Sends (c : RecordCipher κ) (msgs : Bool → UInt16 → HsMsg) (l : Link κ)
    (ev : Bool × SessionEvent κ) : Prop :=
  (l ev.1).Sends c (msgs ev.1) ev.2

variable {msgs : Bool → UInt16 → HsMsg} {evs : List (Bool × SessionEvent κ)}

/-- Each record that a side has sealed holds a part of one of its messages. -/
theorem carries_after (hc : c.Refuses)
    (h : Meets (Link.step c) (Sends c msgs) Dtls13Session.init evs) (side : Bool) :
    (after c evs side).Carries (msgs side) := by
  have hinit (side : Bool) := Dtls13Session.carries_init (κ := κ) (msgs side) side
  refine Meets.invariant (I := fun l : Link κ => ∀ side, (l side).Carries (msgs side))
    (fun l ev hl hsends other => ?_) h hinit side
  by_cases hother : other = ev.1
  · subst hother
    rw [step, Function.update_self]
    exact (hl ev.1).step hc hsends
  · rw [step, Function.update_of_ne hother]
    exact hl other

/-- Whatever the network does, and in whatever order the records that a side has noted are
handled: as long as no fragment is stored in a wrong place, the messages come out one after the
other, each as the peer has sent it. -/
theorem handled_in_order (hc : c.Refuses)
    (h : Meets (Link.step c) (fun l ev => l.Allowed ev ∧ l.Sends c msgs ev) Dtls13Session.init evs)
    (side : Bool) {τ : Type} (env : HsEnv τ)
    (hknown : ∀ t, (env.opts t).client = true ∨ (env.opts t).firstReplyDone = true)
    (start : UInt16) (rest : τ) (rs : List HsRecord)
    (hrs : Meets (fun s r => (HsState.recv env s r).2)
      (fun s r => (∃ rn, (rn, r.input) ∈ (after c evs side).got) ∧ s.Fits r)
      ⟨start, 0, [], 0, [], rest⟩ rs) :
    let s := run (fun s r => (HsState.recv env s r).2) ⟨start, 0, [], 0, [], rest⟩ rs
    Meets HsCall.next (IsCall (msgs !side)) start s.calls ∧
      s.expected = run HsCall.next start s.calls := by
  have hright := right_after hc (h.mono fun _ _ hev => hev.1)
  have hcarries := carries_after hc (h.mono fun _ _ hev => hev.2) !side
  have hpart (r : HsRecord) (hr : ∃ rn, (rn, r.input) ∈ (after c evs side).got) :
      r.Honest (msgs !side) := by
    obtain ⟨_, hr⟩ := hr
    exact (hcarries.built _ (hright.got_built side hr)).honest
  have hrun := ordered_run (msgs !side) env hknown (hrs.mono fun _ r hr => ⟨hpart r hr.1, hr.2⟩)
  exact ⟨hrun.calls, hrun.expected⟩

/-- The events in which the client sends a message with the number 0. -/
example : Meets (Link.step RecordLayer.sampleCipher)
    (Sends RecordLayer.sampleCipher fun _ _ => ⟨finished, [7]⟩) Dtls13Session.init
    (sampleEvents finished) :=
  ⟨trivial, ⟨⟨rfl, rfl⟩, by decide, rfl, .inl rfl⟩, trivial, trivial, trivial⟩

end Link
end LitexDtls.WolfSsl
