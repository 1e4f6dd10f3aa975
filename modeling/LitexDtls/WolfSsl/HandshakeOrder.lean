import LitexDtls.Library.Run
import LitexDtls.WolfSsl.Handshake

/-!
# Handshake messages are handled in order

The peer has numbered messages `msgs`, and the records that come are cut from them, in any
order, repeated or lost. As long as no fragment that is stored is a misplaced one (`Fits`), the
processing of messages is given the messages in the order of their numbers, each as it was
sent, and goes on to the next one exactly when a message has been counted as processed
(`recv_in_order`). A misplaced fragment can spoil a stored message, which is then handed on as
it is.
-/
namespace LitexDtls.WolfSsl
open Library

/-- A handshake message of the peer. -/
structure HsMsg where
  type : UInt8
  body : List UInt8
  deriving DecidableEq, Repr

/-- The body as memory. -/
def HsMsg.mem (m : HsMsg) : Mem UInt8 := fun i => m.body.getD i 0

theorem HsMsg.read_mem (m : HsMsg) (offset len : Nat) (h : offset + len ≤ m.body.length) :
    m.mem.read offset len = (m.body.drop offset).take len := by
  apply List.ext_getElem
  · rw [Mem.length_read, List.length_take, List.length_drop]
    omega
  · intro i hi hi'
    rw [Mem.length_read] at hi
    have hin : offset + i < m.body.length := by omega
    simp [HsMsg.mem, hin]

/-- The header of the message `n` in one piece. -/
def HsMsg.header (m : HsMsg) (n : UInt16) : HandShakeHeader :=
  ⟨m.type, m.body.length, n, 0, m.body.length⟩

variable (msgs : UInt16 → HsMsg)

/-- The call is for message `n`. -/
def IsCall (n : UInt16) (c : HsCall) : Prop :=
  c.header = (msgs n).header n ∧ c.body = (msgs n).body

instance (n : UInt16) (c : HsCall) : Decidable (IsCall msgs n c) :=
  inferInstanceAs (Decidable (_ ∧ _))

/-- The number after a call. -/
def HsCall.next (n : UInt16) (c : HsCall) : UInt16 := if c.counted then n + 1 else n

/-- The record holds a fragment of the message that its header names. -/
structure HsRecord.Honest (r : HsRecord) : Prop where
  type : (HandShakeHeader.ofBytes r.input).type =
    (msgs (HandShakeHeader.ofBytes r.input).messageSeq).type
  length : (HandShakeHeader.ofBytes r.input).length =
    (msgs (HandShakeHeader.ofBytes r.input).messageSeq).body.length
  data : (r.fragment (HandShakeHeader.ofBytes r.input)).data =
    ((msgs (HandShakeHeader.ofBytes r.input).messageSeq).body.drop
      (HandShakeHeader.ofBytes r.input).fragmentOffset).take
        (HandShakeHeader.ofBytes r.input).fragmentLength

/-- The stored message is message `n` of the peer. -/
structure StoredAs (n : UInt16) (m : DtlsMsg UInt8) : Prop where
  seq : m.seq = n.toUInt32
  type : m.type = (msgs n).type
  sz : m.sz = (msgs n).body.length
  sound : m.Sound (msgs n).mem

/-- What receiving keeps. -/
structure Ordered {τ : Type} (start : UInt16) (s : HsState τ) : Prop where
  calls : Meets HsCall.next (IsCall msgs) start s.calls
  expected : s.expected = run HsCall.next start s.calls
  stored : ∀ m ∈ s.rxMsgList, ∃ n, StoredAs msgs n m

/-- A fragment that is stored is not a misplaced one. -/
def HsState.Fits {τ : Type} (s : HsState τ) (r : HsRecord) : Prop :=
  ∀ m ∈ s.rxMsgList, m.epoch = r.epoch.toUInt16 →
    m.seq = (HandShakeHeader.ofBytes r.input).messageSeq.toUInt32 →
    m.Reaches (r.fragment (HandShakeHeader.ofBytes r.input)) r.memory.block →
      m.WellPlaced (r.fragment (HandShakeHeader.ofBytes r.input))

/-! ## The list -/

/-- The fragment is cut from message `n`. -/
structure CutFromMsg (n : UInt16) (f : Fragment UInt8) : Prop where
  seq : f.seq = n.toUInt32
  type : f.type = (msgs n).type
  total : f.totalLen = (msgs n).body.length
  data : f.data = (msgs n).mem.read f.offset f.data.length

section List
variable {msgs} {f : Fragment UInt8} {n : UInt16}

theorem StoredAs.set {m : DtlsMsg UInt8} (h : StoredAs msgs n m) (hf : CutFromMsg msgs n f)
    {block : Option (Mem UInt8)} (hw : m.Reaches f block → m.WellPlaced f) :
    StoredAs msgs n (m.set f block).2 := by
  have hsound := h.sound.set hf.data hw
  rcases h.sound.label_set f block with hl | hl
  · simp only [DtlsMsg.label, Prod.mk.injEq] at hl
    exact ⟨hl.2.2.2.trans h.seq, hl.2.1.trans h.type, hl.1.trans h.sz, hsound⟩
  · unfold DtlsMsg.populate at hl
    split_ifs at hl <;> simp only [DtlsMsg.label, Prod.mk.injEq] at hl
    · exact ⟨hl.2.2.2.trans hf.seq, hl.2.1.trans hf.type, hl.1.trans h.sz, hsound⟩
    · exact ⟨hl.2.2.2.trans h.seq, hl.2.1.trans h.type, hl.1.trans h.sz, hsound⟩

theorem storedAs_new (hf : CutFromMsg msgs n f) {block : Option (Mem UInt8)}
    (hret : 0 ≤ ((DtlsMsg.new f.totalLen).set f block).1) :
    StoredAs msgs n ((DtlsMsg.new f.totalLen).set f block).2 := by
  have hnew := DtlsMsg.sound_new (msgs n).mem f.totalLen
  have hplaced : (DtlsMsg.new f.totalLen : DtlsMsg UInt8).WellPlaced f := by
    intro cur hcur
    simp [DtlsMsg.combinedWith, DtlsMsg.new, DtlsMsg.findPlace] at hcur
  have hsound : ((DtlsMsg.new f.totalLen).set f block).2.Sound (msgs n).mem :=
    hnew.set hf.data fun _ => hplaced
  rcases hnew with hs | hs
  · have hl := hs.label_set hret
    simp only [DtlsMsg.label, DtlsMsg.populate, DtlsMsg.new, if_pos, Prod.mk.injEq] at hl
    exact ⟨hl.2.2.2.trans hf.seq, hl.2.1.trans hf.type, hl.1.trans hf.total, hsound⟩
  · simpa [DtlsMsg.new] using hs.ready

theorem mem_dtlsMsgInsert {item m : DtlsMsg UInt8} {list : List (DtlsMsg UInt8)}
    (h : m ∈ dtlsMsgInsert item list) : m = item ∨ m ∈ list := by
  fun_induction dtlsMsgInsert item list <;> grind

theorem mem_dtlsMsgUpdate {block : Option (Mem UInt8)} {list list' : List (DtlsMsg UInt8)}
    (h : dtlsMsgUpdate f block list = some list') {m : DtlsMsg UInt8} (hm : m ∈ list') :
    m ∈ list ∨ ∃ m₀ ∈ list, m₀.epoch = f.epoch ∧ m₀.seq = f.seq ∧ m = (m₀.set f block).2 := by
  fun_induction dtlsMsgUpdate f block list generalizing list' with
  | case1 => grind
  | case2 cur rest hkey => grind
  | case3 cur rest hkey ih =>
    obtain ⟨tail, htail, rfl⟩ := Option.map_eq_some_iff.mp h
    grind

theorem stored_dtlsMsgStore {memory : Memory} {list : List (DtlsMsg UInt8)} (sz : Nat)
    (hf : CutFromMsg msgs n f) (hlist : ∀ m ∈ list, ∃ n, StoredAs msgs n m)
    (hfits : ∀ m ∈ list, m.epoch = f.epoch → m.seq = f.seq →
      m.Reaches f memory.block → m.WellPlaced f) :
    ∀ m ∈ (dtlsMsgStore f memory list sz).1, ∃ n, StoredAs msgs n m := by
  intro m hm
  unfold dtlsMsgStore at hm
  cases hupdate : dtlsMsgUpdate f memory.block list with
  | some list' =>
    rw [hupdate] at hm
    rcases mem_dtlsMsgUpdate hupdate hm with hm | ⟨m₀, hm₀, hepoch, hseq, rfl⟩
    · exact hlist m hm
    · obtain ⟨k, hk⟩ := hlist m₀ hm₀
      have hkn : k = n := UInt16.toUInt32_inj.mp (hk.seq.symm.trans (hseq.trans hf.seq))
      subst hkn
      exact ⟨k, hk.set hf (hfits m₀ hm₀ hepoch hseq)⟩
  | none =>
    simp only [hupdate] at hm
    split_ifs at hm with hret
    · rcases mem_dtlsMsgInsert hm with rfl | hm
      · exact ⟨n, storedAs_new hf hret.2⟩
      · exact hlist m hm
    · exact hlist m hm

end List

/-! ## The steps of receiving -/

section Steps
variable {msgs} {τ : Type} (env : HsEnv τ) {start : UInt16} {s : HsState τ}

theorem Ordered.of_rest (h : Ordered msgs start s) (rest : τ) :
    Ordered msgs start { s with rest := rest } := ⟨h.calls, h.expected, h.stored⟩

/-- The processing is given the expected message. -/
theorem Ordered.handle (h : Ordered msgs start s) (counts : Int32 → τ → Bool) :
    Ordered msgs start
      (s.handle env counts ((msgs s.expected).header s.expected) (msgs s.expected).body).2.2 := by
  have hcall (counted : Bool) : Meets HsCall.next (IsCall msgs) start (s.calls ++
      [⟨(msgs s.expected).header s.expected, (msgs s.expected).body, counted⟩]) := by
    rw [Meets.append, ← h.expected]
    exact ⟨h.calls, ⟨rfl, rfl⟩, trivial⟩
  unfold HsState.handle
  dsimp only
  split_ifs with hcounts hstateful
  · exact ⟨hcall _, by rw [run_append, ← h.expected]; simp [HsCall.next, hstateful], h.stored⟩
  · exact ⟨hcall _, by rw [run_append, ← h.expected]; simp [HsCall.next, hstateful], h.stored⟩
  · exact ⟨hcall _, by rw [run_append, ← h.expected]; simp [HsCall.next], h.stored⟩

/-- A complete stored message is as the peer sent it. -/
theorem StoredAs.full {n : UInt16} {m : DtlsMsg UInt8} (h : StoredAs msgs n m)
    {header : HandShakeHeader} {buf : Mem UInt8} (hfull : m.complete? = some (header, buf)) :
    header = (msgs n).header n ∧ buf.read 0 m.sz = (msgs n).body := by
  unfold DtlsMsg.complete? at hfull
  split_ifs at hfull with hready
  rcases h.sound with hs | hs
  · simp [hs.waiting] at hready
  · obtain ⟨buf', hfull', hread⟩ := hs.full
    rw [hfull] at hfull'
    simp only [Option.some.injEq, Prod.mk.injEq] at hfull'
    obtain ⟨rfl, rfl⟩ := hfull'
    constructor
    · rw [h.seq, h.type, h.sz]
      simp [HsMsg.header]
    · rw [hread, h.sz, HsMsg.read_mem _ _ _ (by omega)]
      simp

theorem Ordered.unlink (h : Ordered msgs start s) : Ordered msgs start s.unlink :=
  ⟨h.calls, h.expected, fun m hm => h.stored m (List.mem_of_mem_tail hm)⟩

theorem Ordered.handleStored (h : Ordered msgs start s) {m : DtlsMsg UInt8}
    (hm : StoredAs msgs s.expected m) {header : HandShakeHeader} {buf : Mem UInt8}
    (hfull : m.complete? = some (header, buf)) :
    Ordered msgs start (s.handleStored env m header buf).2.2 := by
  obtain ⟨rfl, hbody⟩ := hm.full hfull
  unfold HsState.handleStored
  dsimp only
  split_ifs
  · exact h.of_rest _
  · rw [hbody]
    exact h.handle env _

theorem list_handleStored (s : HsState τ) (m : DtlsMsg UInt8) (header : HandShakeHeader)
    (buf : Mem UInt8) : (s.handleStored env m header buf).2.2.rxMsgList = s.rxMsgList := by
  unfold HsState.handleStored HsState.handle
  dsimp only
  split_ifs <;> rfl

theorem Ordered.processBuffered (h : Ordered msgs start s) :
    Ordered msgs start (HsState.processBuffered env s.rxMsgList s).2 := by
  generalize hlist : s.rxMsgList = list
  induction list generalizing s with
  | nil => exact h
  | cons m rest ih =>
    unfold HsState.processBuffered
    split_ifs with hseq
    · exact h
    · obtain ⟨n, hn⟩ := h.stored m (by simp [hlist])
      obtain rfl : n = s.expected :=
        UInt16.toUInt32_inj.mp (hn.seq.symm.trans (not_not.mp hseq).symm)
      cases hfull : m.complete? with
      | none => exact h
      | some full =>
        obtain ⟨header, buf⟩ := full
        have hs := h.handleStored env hn hfull
        have hkeep := list_handleStored env s m header buf
        dsimp only
        rcases hresult : s.handleStored env m header buf with ⟨ret, counted, s'⟩
        rw [hresult] at hs hkeep
        cases counted with
        | false => exact hs
        | true =>
          dsimp only
          split_ifs
          · exact hs.unlink
          · refine ih hs.unlink ?_
            exact congrArg List.tail (hkeep.trans hlist)

theorem Ordered.processNext (h : Ordered msgs start s) : Ordered msgs start (s.processNext env).2 := by
  unfold HsState.processNext
  split_ifs
  · exact h.processBuffered env
  · exact h

/-- The fragment in an honest record. -/
theorem cutFromMsg_fragment {r : HsRecord} (hr : r.Honest msgs)
    (hin : (HandShakeHeader.ofBytes r.input).fragmentOffset +
      (HandShakeHeader.ofBytes r.input).fragmentLength ≤ (HandShakeHeader.ofBytes r.input).length) :
    CutFromMsg msgs (HandShakeHeader.ofBytes r.input).messageSeq
      (r.fragment (HandShakeHeader.ofBytes r.input)) := by
  refine ⟨rfl, hr.type, hr.length, ?_⟩
  have hlen : (r.fragment (HandShakeHeader.ofBytes r.input)).data.length =
      (HandShakeHeader.ofBytes r.input).fragmentLength := by
    rw [hr.data, List.length_take, List.length_drop, ← hr.length]
    omega
  rw [hlen, HsMsg.read_mem _ _ _ (by rw [← hr.length]; exact hin)]
  exact hr.data

theorem Ordered.storeOrHandle {r : HsRecord} (h : Ordered msgs start s) (hr : r.Honest msgs)
    (hfits : s.Fits r) (hin : (HandShakeHeader.ofBytes r.input).fragmentOffset +
      (HandShakeHeader.ofBytes r.input).fragmentLength ≤ (HandShakeHeader.ofBytes r.input).length)
    (hpeer : s.peer = (HandShakeHeader.ofBytes r.input).messageSeq) (hnext : ¬ s.peer < s.expected) :
    Ordered msgs start (s.storeOrHandle env (HandShakeHeader.ofBytes r.input) r).2 := by
  have hcut := cutFromMsg_fragment hr hin
  unfold HsState.storeOrHandle
  split_ifs with hstore hroom
  · have hstored := stored_dtlsMsgStore s.rxMsgListSz hcut h.stored hfits
    rcases hlist : dtlsMsgStore (r.fragment (HandShakeHeader.ofBytes r.input)) r.memory s.rxMsgList
      s.rxMsgListSz with ⟨list, sz⟩
    rw [hlist] at hstored
    exact Ordered.processNext env ⟨h.calls, h.expected, hstored⟩
  · exact h
  · -- the message is whole and the expected one
    simp only [not_or, not_not, UInt16.not_lt] at hstore hnext
    obtain ⟨⟨hfirst, hwhole⟩, hle, -⟩ := hstore
    have heq : (HandShakeHeader.ofBytes r.input).messageSeq = s.expected := by
      rw [← hpeer]
      exact UInt16.le_antisymm hle hnext
    have hheader : HandShakeHeader.ofBytes r.input = (msgs s.expected).header s.expected := by
      have htype := hr.type
      have hlength := hr.length
      rw [heq] at htype hlength
      exact HandShakeHeader.ext htype hlength heq hfirst (hwhole.trans hlength)
    have hbody : (r.fragment (HandShakeHeader.ofBytes r.input)).data = (msgs s.expected).body := by
      rw [hr.data, hfirst, hwhole, hr.length, heq, List.drop_zero, List.take_length]
    have hs := h.handle env (fun ret _ => ret == 0)
    rw [hbody, hheader]
    rcases hresult : s.handle env (fun ret _ => ret == 0) ((msgs s.expected).header s.expected)
      (msgs s.expected).body with ⟨ret, counted, s'⟩
    rw [hresult] at hs
    dsimp only
    split_ifs
    · exact hs
    · exact hs.processNext env

theorem getDtlsHandShakeHeader_cases (sameVersion : Bool) (input : List UInt8) :
    getDtlsHandShakeHeader sameVersion input = (bufferE, none) ∨
      ∃ ret, getDtlsHandShakeHeader sameVersion input =
        (ret, some (HandShakeHeader.ofBytes input)) := by
  unfold getDtlsHandShakeHeader
  dsimp only
  split_ifs
  · exact .inl rfl
  · exact .inr ⟨_, rfl⟩
  · exact .inr ⟨_, rfl⟩

theorem Ordered.recvFragment {r : HsRecord} (h : Ordered msgs start s) (hr : r.Honest msgs)
    (hfits : s.Fits r) (hpeer : s.peer = (HandShakeHeader.ofBytes r.input).messageSeq) :
    Ordered msgs start (s.recvFragment env (HandShakeHeader.ofBytes r.input) r).2 := by
  unfold HsState.recvFragment
  dsimp only
  split_ifs with hsize hin hold hrefused
  · exact h
  · exact h
  · exact h.of_rest _
  · unfold HsState.fragmentRefused
    dsimp only
    split_ifs
    · split
      · split_ifs
        · exact h.of_rest _
        · exact (h.of_rest _).storeOrHandle env hr hfits (Nat.le_of_not_lt hin) hpeer hold
      · exact h.of_rest _
    · exact h.of_rest _
  · exact (h.of_rest _).storeOrHandle env hr hfits (Nat.le_of_not_lt hin) hpeer hold

/-- What one record keeps, when the numbers of the peer are known. -/
theorem Ordered.recv {r : HsRecord} (h : Ordered msgs start s) (hr : r.Honest msgs)
    (hfits : s.Fits r)
    (hknown : (env.opts s.rest).client = true ∨ (env.opts s.rest).firstReplyDone = true) :
    Ordered msgs start (s.recv env r).2 := by
  have hpeer (n : UInt16) : Ordered msgs start { s with peer := n } :=
    ⟨h.calls, h.expected, h.stored⟩
  unfold HsState.recv
  rcases getDtlsHandShakeHeader_cases r.sameVersion r.input with hshort | ⟨ret, hread⟩
  · rw [hshort]
    exact h
  · have hrest := (hpeer (HandShakeHeader.ofBytes r.input).messageSeq).recvFragment env
      hr hfits rfl
    rw [hread]
    simp only [hknown, if_true]
    split_ifs
    · exact hpeer _
    · exact hpeer _
    · exact hpeer _
    · exact hrest

end Steps

/-- What a run keeps. -/
theorem ordered_run {τ : Type} (env : HsEnv τ)
    (hknown : ∀ t, (env.opts t).client = true ∨ (env.opts t).firstReplyDone = true)
    {start : UInt16} {rest : τ} {rs : List HsRecord}
    (h : Meets (fun s r => (HsState.recv env s r).2) (fun s r => r.Honest msgs ∧ s.Fits r)
      ⟨start, 0, [], 0, [], rest⟩ rs) :
    Ordered msgs start (run (fun s r => (HsState.recv env s r).2)
      ⟨start, 0, [], 0, [], rest⟩ rs) :=
  Meets.invariant (fun s _ hs hg => hs.recv env hg.1 hg.2 (hknown s.rest)) h
    ⟨trivial, rfl, fun _ hm => absurd hm List.not_mem_nil⟩

/-- Whatever records of the peer come, and in whatever order, as long as no fragment is stored
in a wrong place: the processing is given the messages one after the other, each as it was
sent. -/
theorem recv_in_order {τ : Type} (env : HsEnv τ)
    (hknown : ∀ t, (env.opts t).client = true ∨ (env.opts t).firstReplyDone = true)
    (start : UInt16) (rest : τ) (rs : List HsRecord)
    (h : Meets (fun s r => (HsState.recv env s r).2) (fun s r => r.Honest msgs ∧ s.Fits r)
      ⟨start, 0, [], 0, [], rest⟩ rs) :
    let s := run (fun s r => (HsState.recv env s r).2) ⟨start, 0, [], 0, [], rest⟩ rs
    Meets HsCall.next (IsCall msgs) start s.calls ∧ s.expected = run HsCall.next start s.calls := by
  have hrun := ordered_run msgs env hknown h
  exact ⟨hrun.calls, hrun.expected⟩

/-- A client that counts every message as processed. -/
def plainEnv : HsEnv Unit where
  opts _ := ⟨true, true, false, false, false, true, false⟩
  usingAsyncCrypto := false
  earlySanityCheckMsgReceived _ _ _ := 0
  dtls13RtxMsgRecvd _ _ t := t
  doTls13HandShakeMsgType _ _ t := (0, t)
  setSendAcks _ t := t
  sendAlert t := t
  doClientHelloStateless _ t := (false, t)
  chGoodCb t := (0, t)

/-- A record with the second message, of type Finished and with one byte. -/
def secondRecord : HsRecord where
  epoch := 2
  decryptedCur := true
  sameVersion := true
  input := [20, 0, 0, 1, 0, 1, 0, 0, 0, 0, 0, 1, 7]
  memory := ⟨true, some fun _ => 0⟩

/-- A record with the first message, of type Certificate and without bytes. -/
def firstRecord : HsRecord where
  epoch := 2
  decryptedCur := true
  sameVersion := true
  input := [11, 0, 0, 0, 0, 0, 0, 0, 0, 0, 0, 0]
  memory := ⟨true, some fun _ => 0⟩

theorem recv_in_order_two :
    let msgs : UInt16 → HsMsg := fun n => if n = 1 then ⟨20, [7]⟩ else ⟨11, []⟩
    let s := run (fun s r => (HsState.recv plainEnv s r).2) ⟨0, 0, [], 0, [], ()⟩
      [secondRecord, firstRecord]
    Meets HsCall.next (IsCall msgs) 0 s.calls ∧ s.expected = run HsCall.next 0 s.calls := by
  refine recv_in_order _ plainEnv (fun _ => .inl rfl) 0 () [secondRecord, firstRecord]
    ⟨⟨⟨by decide, by decide, by decide⟩, ?_⟩, ⟨⟨by decide, by decide, by decide⟩, ?_⟩, trivial⟩
  · intro m hm
    simp at hm
  · have hstored : ∀ m ∈ (HsState.recv plainEnv ⟨0, 0, [], 0, [], ()⟩ secondRecord).2.rxMsgList,
        m.seq = 1 := by decide
    intro m hm _ hseq
    exact absurd (hseq.symm.trans (hstored m hm)) (by decide)

end LitexDtls.WolfSsl
